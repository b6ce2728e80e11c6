import MiniPL.Proofs.Program.Pieces
import MiniPL.Proofs.Syntax.Mentions
import MiniPL.Proofs.Typing.Undeclared

/-!
# What the check says of names

As far as names go, the check of a program is a walk over its mentions, in the order of the text,
with the variables that are there so far: a declaration adds its variable if that is new, and is at
fault otherwise, and any other mention is at fault if there is no such variable. The faults of names
in a program are those of that walk, in its order (`Block.naming_faults`), and it ends with the
variables that the check leaves (`Block.extend_mentions`).

So the variables that were there are followed by the first declarations of other names
(`Mention.entries_extendAll`). Of the declarations of a name all are at fault but one, or all if it
was there (`Mention.count_redeclared`). Unless it was there, all its mentions before its first
declaration are at fault, and only those (`Mention.count_undeclared`).
-/

namespace MiniPL

variable {α : Type} {σ : Store VarType}

/-! ## The walk -/

namespace Mention

/-- The declaration, if it is one. -/
def declaration? : Mention → Option (String × VarType)
  | declare x ty => some (x, .known ty)
  | _ => none

/-- The variables after a mention. -/
def extend (σ : Store VarType) : Mention → Store VarType
  | declare x ty => σ.declareNew x ty
  | _ => σ

/-- What is wrong with a name where it stands. -/
def faults (σ : Store VarType) : Mention → List SemanticFault
  | declare x _ => if σ.contains x then [.redeclared x] else []
  | set x => if σ.contains x then [] else [.undeclared x]
  | get x => if σ.contains x then [] else [.undeclared x]

/-- The variables after mentions in a row. -/
def extendAll (σ : Store VarType) (ms : List Mention) : Store VarType := ms.foldl extend σ

/-- What is wrong with the names of mentions in a row. -/
def allFaults (σ : Store VarType) : List Mention → List SemanticFault
  | [] => []
  | m :: ms => m.faults σ ++ allFaults (m.extend σ) ms

theorem extendAll_append (σ : Store VarType) (ms ns : List Mention) :
    extendAll σ (ms ++ ns) = extendAll (extendAll σ ms) ns :=
  List.foldl_append

theorem allFaults_append (σ : Store VarType) (ms ns : List Mention) :
    allFaults σ (ms ++ ns) = allFaults σ ms ++ allFaults (extendAll σ ms) ns := by
  induction ms generalizing σ with
  | nil => rfl
  | cons m ms ih => rw [List.cons_append, allFaults, ih, allFaults, List.append_assoc]; rfl

/-- Operands declare nothing. -/
theorem extendAll_get (σ : Store VarType) (xs : List String) : extendAll σ (xs.map .get) = σ := by
  induction xs with
  | nil => rfl
  | cons x xs ih => exact ih

end Mention

theorem Expr.extend_mentions (e : Expr α) (σ : Store VarType) :
    Mention.extendAll σ e.mentions = σ :=
  Mention.extendAll_get σ e.names

mutual

theorem Stmt.extend_mentions (σ : Store VarType) :
    (s : Stmt α) → Mention.extendAll σ s.mentions = s.extend σ
  | .declare _ _ _ none => rfl
  | .declare _ x ty (some e) => e.extend_mentions (σ.declareNew x ty)
  | .assign _ _ e => e.extend_mentions σ
  | .forLoop _ _ a b body => by
    change Mention.extendAll σ (a.mentions ++ b.mentions ++ Block.mentions body) = _
    rw [Mention.extendAll_append, Mention.extendAll_append, a.extend_mentions, b.extend_mentions,
      Block.extend_mentions σ body, Stmt.extend]
  | .ifThen _ c body => by
    rw [Stmt.mentions, Mention.extendAll_append, c.extend_mentions, Block.extend_mentions σ body,
      Stmt.extend]
  | .ifElse _ c body otherwise => by
    rw [Stmt.mentions, Mention.extendAll_append, Mention.extendAll_append, c.extend_mentions,
      Block.extend_mentions σ body, Block.extend_mentions _ otherwise, Stmt.extend]
  | .print _ e => e.extend_mentions σ
  | .read .. => rfl
  | .assert _ c => c.extend_mentions σ

/-- The walk over the mentions ends with the variables that the check leaves. -/
theorem Block.extend_mentions (σ : Store VarType) :
    (b : Block α) → Mention.extendAll σ (Block.mentions b) = Block.extend σ b
  | [] => rfl
  | s :: rest => by
    rw [Block.mentions, Mention.extendAll_append, s.extend_mentions, Block.extend_mentions _ rest,
      Block.extend]

end

/-! ## The faults of names -/

namespace SemanticFault

/-- The faults that are those of names, without their positions. -/
def naming (fs : List (Located SemanticFault)) : List SemanticFault :=
  (fs.map (·.thing)).filter fun f => !f.isMismatch

@[simp] theorem naming_append (fs gs : List (Located SemanticFault)) :
    naming (fs ++ gs) = naming fs ++ naming gs := by
  rw [naming, List.map_append, List.filter_append, naming, naming]

@[simp] theorem naming_expect (expected? got? : Option VarType) (p : Pos) :
    naming (VarType.expect expected? got? p) = [] := by
  unfold VarType.expect
  split
  · split <;> rfl
  · rfl

@[simp] theorem naming_operator (op : BinOp) (p q : Pos) (left? right? : Option VarType) :
    naming (op.faults p left? right? q) = [] := by
  unfold BinOp.faults
  split
  · split
    · rfl
    · split <;> rfl
  · rfl

@[simp] theorem naming_require (σ : Store VarType) (x : String) (p : Pos) :
    naming (σ.require x p) = if σ.contains x then [] else [.undeclared x] := by
  rw [Store.require]
  split <;> rfl

@[simp] theorem naming_redeclared (σ : Store VarType) (x : String) (p : Pos) :
    naming (if σ.contains x then [⟨.redeclared x, p⟩] else []) =
      if σ.contains x then [.redeclared x] else [] := by
  split <;> rfl

/-- Among the faults, those of a name are counted alike. -/
theorem count_naming {f : SemanticFault} (hf : f.isMismatch = false)
    (fs : List (Located SemanticFault)) : (naming fs).count f = (fs.map (·.thing)).count f :=
  List.count_filter (by rw [hf]; rfl)

end SemanticFault

open SemanticFault

mutual

theorem Operand.naming_faults (σ : Store VarType) :
    (o : Operand α) → naming (o.faults σ) = Mention.allFaults σ (o.names.map .get)
  | .literal .. => rfl
  | .var p x => (naming_require σ x p).trans (List.append_nil _).symm
  | .group _ e => e.naming_faults σ

theorem Expr.naming_faults (σ : Store VarType) :
    (e : Expr α) → naming (e.faults σ) = Mention.allFaults σ e.mentions
  | .single _ o => o.naming_faults σ
  | .negation _ _ o => by
    rw [Expr.faults, naming_append, naming_expect, List.append_nil]
    exact o.naming_faults σ
  | .binary _ l op _ r => by
    rw [Expr.faults, naming_append, naming_append, naming_operator, List.append_nil,
      l.naming_faults, r.naming_faults, Expr.mentions, Expr.names, List.map_append,
      Mention.allFaults_append, Mention.extendAll_get]

end

mutual

theorem Stmt.naming_faults (σ : Store VarType) :
    (s : Stmt α) → naming (s.faults σ) = Mention.allFaults σ s.mentions
  | .declare p x _ none => (naming_redeclared σ x p).trans (List.append_nil _).symm
  | .declare p x ty (some e) => by
    -- The initial value is checked with the variables after the declaration.
    simp only [Stmt.faults, naming_append, naming_expect, List.append_nil, naming_redeclared,
      e.naming_faults]
    rfl
  | .assign p x e => by
    simp only [Stmt.faults, naming_append, naming_expect, List.append_nil, naming_require,
      e.naming_faults]
    rfl
  | .forLoop p x a b body => by
    simp only [Stmt.faults, naming_append, naming_expect, List.append_nil, naming_require,
      a.naming_faults, b.naming_faults, Block.naming_faults σ body]
    rw [Stmt.mentions, Mention.allFaults, Mention.allFaults_append, Mention.allFaults_append,
      Mention.extendAll_append, a.extend_mentions, b.extend_mentions, List.append_assoc,
      List.append_assoc, List.append_assoc]
    rfl
  | .ifThen _ c body => by
    simp only [Stmt.faults, naming_append, naming_expect, List.append_nil, c.naming_faults,
      Block.naming_faults σ body]
    rw [Stmt.mentions, Mention.allFaults_append, c.extend_mentions]
  | .ifElse _ c body otherwise => by
    simp only [Stmt.faults, naming_append, naming_expect, List.append_nil, c.naming_faults,
      Block.naming_faults σ body, Block.naming_faults _ otherwise]
    rw [Stmt.mentions, Mention.allFaults_append, Mention.allFaults_append,
      Mention.extendAll_append, c.extend_mentions, Block.extend_mentions]
  | .print _ e => e.naming_faults σ
  | .read p x => (naming_require σ x p).trans (List.append_nil _).symm
  | .assert _ c => by
    rw [Stmt.faults, naming_append, naming_expect, List.append_nil]
    exact c.naming_faults σ

/-- The faults of names are those that the walk over the mentions finds. -/
theorem Block.naming_faults (σ : Store VarType) :
    (b : Block α) → naming (Block.faults σ b) = Mention.allFaults σ (Block.mentions b)
  | [] => rfl
  | s :: rest => by
    rw [Block.faults, naming_append, s.naming_faults, Block.naming_faults _ rest, Block.mentions,
      Mention.allFaults_append, s.extend_mentions]

end

/-! ## Declarations -/

theorem Expr.declarations_mentions (e : Expr α) :
    e.mentions.filterMap Mention.declaration? = [] := by
  rw [mentions, List.filterMap_map]
  exact List.filterMap_eq_nil_iff.2 fun _ _ => rfl

mutual

theorem Stmt.declarations_mentions :
    (s : Stmt α) → s.mentions.filterMap Mention.declaration? = s.declarations
  | .declare _ _ _ none => rfl
  | .declare _ x ty (some e) => congrArg ((x, VarType.known ty) :: ·) e.declarations_mentions
  | .assign _ _ e => e.declarations_mentions
  | .forLoop _ _ a b body => by
    change (a.mentions ++ b.mentions ++ Block.mentions body).filterMap Mention.declaration? = _
    rw [List.filterMap_append, List.filterMap_append, a.declarations_mentions,
      b.declarations_mentions, Block.declarations_mentions body, Stmt.declarations]
    rfl
  | .ifThen _ c body => by
    rw [Stmt.mentions, List.filterMap_append, c.declarations_mentions,
      Block.declarations_mentions body, Stmt.declarations, List.nil_append]
  | .ifElse _ c body otherwise => by
    rw [Stmt.mentions, List.filterMap_append, List.filterMap_append, c.declarations_mentions,
      Block.declarations_mentions body, Block.declarations_mentions otherwise, Stmt.declarations,
      List.nil_append]
  | .print _ e => e.declarations_mentions
  | .read .. => rfl
  | .assert _ c => c.declarations_mentions

/-- The declarations among the mentions are all declarations. -/
theorem Block.declarations_mentions :
    (b : Block α) → (Block.mentions b).filterMap Mention.declaration? = Block.declarations b
  | [] => rfl
  | s :: rest => by
    rw [Block.mentions, List.filterMap_append, s.declarations_mentions,
      Block.declarations_mentions rest, Block.declarations]

end

theorem Store.contains_declareNew (σ : Store VarType) (x y : String) (ty : Ty) :
    (σ.declareNew y ty).contains x = (σ.contains x || x = y) := by
  unfold declareNew
  split
  · next hy =>
    -- If `y` was there already, being `y` adds nothing to being there.
    by_cases hx : x = y
    · simp [hx, hy]
    · simp [hx]
  · rw [contains, find?_declare, contains]
    split <;> simp [*]

namespace Mention

/-- After the variables that were there come the first declarations of other names, in the order of
    the text. They hold nothing. -/
theorem entries_extendAll (σ : Store VarType) (ms : List Mention) :
    (extendAll σ ms).entries = σ.entries ++ Store.uninitialized
      (((ms.filterMap declaration?).filter fun d => !σ.contains d.1).eraseDupsBy
        fun d d' => d.1 == d'.1) := by
  induction ms generalizing σ with
  | nil => exact (List.append_nil _).symm
  | cons m ms ih =>
    rcases m with ⟨x, ty⟩ | x | x
    case set | get => exact ih σ
    change (extendAll (σ.declareNew x ty) ms).entries = _
    rw [ih, Store.entries_declareNew, List.append_assoc]
    refine congrArg (σ.entries ++ ·) ?_
    rw [List.filterMap_cons_some (rfl : declaration? (declare x ty) = some (x, .known ty))]
    by_cases hx : σ.contains x
    · rw [if_pos hx, List.filter_cons_of_neg (by simp [hx]), Store.declareNew, if_pos hx]
      rfl
    · -- What comes later is new if it is new now, and no further declaration of `x`.
      rw [if_neg hx, List.filter_cons_of_pos (by simp [hx]), List.eraseDupsBy_cons,
        List.filter_filter]
      refine congrArg (fun ds => (x, ⟨.known ty, none⟩) ::
        Store.uninitialized (List.eraseDupsBy (fun d d' => d.1 == d'.1) ds)) ?_
      refine List.filter_congr fun d _ => ?_
      rw [Store.contains_declareNew, Bool.not_or, Bool.and_comm]
      simp

/-- Of the declarations of a name, all are at fault if it was there, and all but one otherwise. -/
theorem count_redeclared (σ : Store VarType) (ms : List Mention) (x : String) :
    (allFaults σ ms).count (.redeclared x) =
      ms.countP (declares x) - if σ.contains x then 0 else 1 := by
  induction ms generalizing σ with
  | nil => simp [allFaults]
  | cons m ms ih =>
    rcases m with ⟨y, ty⟩ | y | y
    case set | get =>
      -- A mention that is no declaration is at fault in another way, if at all.
      have hfaults : (if σ.contains y then [] else [SemanticFault.undeclared y]).count
          (.redeclared x) = 0 := by split <;> simp
      simp [allFaults, faults, extend, declares, hfaults, ih]
    have hext : (extend σ (declare y ty)).contains x = (σ.contains x || x = y) :=
      σ.contains_declareNew x y ty
    rw [allFaults, List.count_append, ih, hext, List.countP_cons, faults]
    by_cases hy : y = x
    · subst hy
      by_cases hx : σ.contains y <;> simp [hx, declares, Nat.add_comm]
    · have hfaults : (if σ.contains y then [SemanticFault.redeclared y] else []).count
          (.redeclared x) = 0 := by split <;> simp [hy]
      simp [hfaults, declares, hy, Ne.symm hy]

/-- Unless a name was there, its mentions before its first declaration are at fault. No others
    are. -/
theorem count_undeclared (σ : Store VarType) (ms : List Mention) (x : String) :
    (allFaults σ ms).count (.undeclared x) =
      if σ.contains x then 0
      else (ms.takeWhile fun m => !m.declares x).countP fun m => m.name = x := by
  induction ms generalizing σ with
  | nil => simp [allFaults]
  | cons m ms ih =>
    rcases m with ⟨y, ty⟩ | y | y
    case set | get =>
      simp only [allFaults, faults, extend, List.count_append, ih]
      by_cases hy : y = x
      · subst hy
        by_cases hx : σ.contains y <;> simp [hx, declares, name, Nat.add_comm]
      · have hfaults : (if σ.contains y then [] else [SemanticFault.undeclared y]).count
            (.undeclared x) = 0 := by split <;> simp [hy]
        simp [hfaults, declares, name, hy]
    have hfaults : (if σ.contains y then [SemanticFault.redeclared y] else []).count
        (.undeclared x) = 0 := by split <;> simp
    have hext : (extend σ (declare y ty)).contains x = (σ.contains x || x = y) :=
      σ.contains_declareNew x y ty
    rw [allFaults, List.count_append, ih, hext, faults, hfaults, Nat.zero_add]
    by_cases hy : y = x
    · -- After its declaration the name is there.
      simp [hy, declares]
    · simp [hy, Ne.symm hy, declares, name]

end Mention

/-- The declarations of a name among the mentions are all its declarations. -/
theorem Block.countP_declares (b : Block α) (x : String) :
    (Block.mentions b).countP (Mention.declares x) =
      ((Block.declarations b).map Prod.fst).count x := by
  rw [← Block.declarations_mentions, List.count_eq_countP, List.countP_map, List.countP_filterMap]
  refine List.countP_congr fun m _ => ?_
  cases m <;> simp [Mention.declares, Mention.declaration?]

/-- What the check of a text does is what the check of its program does, whose mentions are the
    names in the text. -/
theorem checkText_of_parseProgram {source : String} {b : Block Nat}
    (h : (parseProgram source).result = .ok b) (σ : Store VarType) :
    (Block.mentions b).map Mention.name = Token.names (Stream.ofSource source).tokens ∧
      (checkText σ source).store = Block.extend σ b ∧
      (checkText σ source).failure? =
        if (Block.faults σ b).isEmpty then none else some (.semantic (Block.faults σ b)) := by
  refine ⟨?_, ?_⟩
  · obtain ⟨p, hp, rfl⟩ := parseProgram_eq_ok_iff.1 h
    rw [Block.names_mentions, Block.names_number, Stream.names_of_parse hp]
  · cases hf : Block.faults σ b <;> simp [checkText, h, checkProgram, hf]

/-- Whatever is wrong with a program, its check leaves all variables as they were, and after them
    the first declarations of all other names that are declared, in the order of the text, which
    hold nothing. All declarations of a name are reported if it was there, and all but one
    otherwise. A mention is reported as not declared if the name was not there, and it stands before
    all declarations of the name; the initial value of a declaration stands after it. If the program
    is that of a text, the mentions are the names in the text, in the same order, and all this is
    what the check of the text leaves and reports. -/
theorem Block.declared_and_reported (σ : Store VarType) (b : Block Nat) :
    let reported := (Block.faults σ b).map (·.thing)
    (Block.extend σ b).entries = σ.entries ++ Store.uninitialized
        (((Block.declarations b).filter fun d => !σ.contains d.1).eraseDupsBy
          fun d d' => d.1 == d'.1) ∧
      (∀ x, let n := ((Block.declarations b).map Prod.fst).count x
        reported.count (.redeclared x) = (if σ.contains x ∨ n = 0 then n else n - 1) ∧
        reported.count (.undeclared x) = if σ.contains x then 0 else
          ((Block.mentions b).takeWhile fun m => !m.declares x).countP fun m => m.name = x) ∧
      ∀ source, (parseProgram source).result = .ok b →
        (Block.mentions b).map Mention.name = Token.names (Stream.ofSource source).tokens ∧
        (checkText σ source).store = Block.extend σ b ∧
        (checkText σ source).failure? =
          if (Block.faults σ b).isEmpty then none else some (.semantic (Block.faults σ b)) := by
  intro reported
  refine ⟨?_, fun x => ?_, fun source h => checkText_of_parseProgram h σ⟩
  · rw [← Block.extend_mentions, Mention.entries_extendAll, Block.declarations_mentions]
  · intro n
    have hn : (Block.mentions b).countP (Mention.declares x) = n := Block.countP_declares b x
    constructor
    · rw [← SemanticFault.count_naming rfl, Block.naming_faults, Mention.count_redeclared, hn]
      split <;> split <;> simp_all
    · rw [← SemanticFault.count_naming rfl, Block.naming_faults, Mention.count_undeclared]

/-- A name that was there, one that is declared twice, one that is declared in a block after a
    mention of it, and one that is not declared. -/
theorem Block.declared_and_reported_of_blocks :
    let σ := Store.empty.declare "n" .int (some (.int 7))
    let source := "x := n; var x : int := x; if y do var y : bool; end if; var x : string; " ++
      "for z in y .. 2 do var n : int; read z; end for;"
    ∃ b, (parseProgram source).result = .ok b ∧
      (checkText σ source).store.entries =
        [("n", ⟨.int, some (.int 7)⟩), ("x", ⟨.int, none⟩), ("y", ⟨.bool, none⟩)] ∧
      let reported := (Block.faults σ b).map (·.thing)
      ["n", "x", "y", "z"].map (fun x => reported.count (.redeclared x)) = [1, 1, 0, 0] ∧
        ["n", "x", "y", "z"].map (fun x => reported.count (.undeclared x)) = [0, 1, 1, 2] := by
  intro σ source
  obtain ⟨b, hb, hparts⟩ := exists_eq_ok_of_toOption (x := (parseProgram source).result)
    (f := fun b => (Block.declarations b, Block.mentions b))
    (b := ([("x", .int), ("y", .bool), ("x", .string), ("n", .int)],
      [.set "x", .get "n", .declare "x" .int, .get "x", .get "y", .declare "y" .bool,
        .declare "x" .string, .set "z", .get "y", .declare "n" .int, .set "z"])) (by decide +kernel)
  obtain ⟨hdeclarations, hmentions⟩ := Prod.mk.inj hparts
  obtain ⟨hentries, hcount, hsource⟩ := Block.declared_and_reported σ b
  rw [hdeclarations] at hentries hcount
  rw [hmentions] at hcount
  obtain ⟨-, hstore, -⟩ := hsource source hb
  refine ⟨b, hb, by rw [hstore, hentries]; decide +kernel, ?_, ?_⟩
  · simp only [List.map_cons, List.map_nil, (hcount _).1]
    decide +kernel
  · simp only [List.map_cons, List.map_nil, (hcount _).2]
    decide +kernel

end MiniPL
