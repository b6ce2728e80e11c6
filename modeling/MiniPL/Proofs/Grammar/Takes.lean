import MiniPL.Proofs.Grammar.Derivation

/-!
# What a reading takes

A reading decides by one item at a time how to go on. So it takes some tokens, and of what
follows them only the first item matters to it (`Reading.Takes`): it comes out alike, with a
result or with a fault, on all streams that start with these tokens and this item.

A reading that would take some tokens, but for the limit of nesting, *completes* them
(`Reading.Completes`): it takes them, or it stops as parentheses are nested too deeply.
-/

namespace MiniPL

/-- The first item of tokens that have `next` after them. -/
def Item.first : List Token → (next : Item) → Item
  | [], next => next
  | t :: _, _ => .token t

@[simp] theorem Item.first_nil (next : Item) : first [] next = next := rfl

@[simp] theorem Item.first_cons (t : Token) (w : List Token) (next : Item) :
    first (t :: w) next = .token t := rfl

@[simp] theorem Item.first_append (w u : List Token) (next : Item) :
    first (w ++ u) next = first w (first u next) := by
  cases w <;> rfl

theorem Item.exists_cons_of_first {ts : List Token} {p : Pos} {t : Token}
    (h : first ts (.eof p) = .token t) : ∃ rest, ts = t :: rest := by
  cases ts with
  | nil => cases h
  | cons u rest => exact ⟨rest, by rw [Item.token.inj h]⟩

/-- The next item is a semicolon only if its token is. -/
theorem Item.exists_semicolon {ts : List Token} {p : Pos}
    (h : (first ts (.eof p)).kind = .symbol .semicolon) :
    ∃ q rest, ts = Symbol.token .semicolon q :: rest := by
  rcases ts with _ | ⟨⟨l, q⟩, rest⟩
  · cases h
  · cases l <;> cases h
    exact ⟨q, rest, rfl⟩

/-- The operator that an item is. -/
def Item.operator? : Item → Option (BinOp × Pos)
  | token t => t.lexeme.binOp?.map (·, t.pos)
  | eof _ => none

@[simp] theorem Item.operator?_token (op : BinOp) (p : Pos) :
    operator? (.token ⟨.symbol op.symbol, p⟩) = some (op, p) := by
  cases op <;> rfl

/-- An item that is an operator is the token of one. -/
theorem Item.operator?_eq_some {i : Item} {op : BinOp} {p : Pos}
    (h : i.operator? = some (op, p)) : i = .token ⟨.symbol op.symbol, p⟩ := by
  obtain ⟨l, q⟩ | q := i
  · cases l with
    | symbol s =>
      simp only [operator?, Lexeme.binOp?, Option.map_eq_some_iff, Prod.mk.injEq] at h
      obtain ⟨op', h, rfl, rfl⟩ := h
      rw [Symbol.binOp?_eq_some_iff.1 h]
    | _ => cases h
  · cases h

/-- Where the last one of the tokens stands, if there is one. -/
def Token.lastPos (l : Pos) (w : List Token) : Pos := w.foldl (fun _ t => t.pos) l

@[simp] theorem Token.lastPos_nil (l : Pos) : lastPos l [] = l := rfl

@[simp] theorem Token.lastPos_cons (l : Pos) (t : Token) (w : List Token) :
    lastPos l (t :: w) = lastPos t.pos w := rfl

@[simp] theorem Token.lastPos_append (l : Pos) (w u : List Token) :
    lastPos l (w ++ u) = lastPos (lastPos l w) u := List.foldl_append

/-- The position of the last token is that of the token at the end. -/
theorem Token.exists_concat {w : List Token} (hw : w ≠ []) :
    ∃ u t, w = u ++ [t] ∧ ∀ l, lastPos l w = t.pos := by
  obtain ⟨u, t, rfl⟩ := (List.eq_nil_or_concat w).resolve_left hw
  refine ⟨u, t, List.concat_eq_append, fun l => ?_⟩
  rw [List.concat_eq_append, lastPos_append]
  rfl

/-- Where the last token stands does not depend on what was before the tokens. -/
theorem Token.lastPos_eq {w : List Token} (hw : w ≠ []) (l l' : Pos) :
    lastPos l w = lastPos l' w := by
  cases w with
  | nil => exact absurd rfl hw
  | cons t w => rfl

namespace Reading

variable {α β : Type}

/-- The outcome of a reading that comes out with `o` at `r`. -/
def Outcome.of (o : Except (Located SyntaxFault) α) (r : Reader) : Outcome α :=
  match o with
  | .ok a => .read a r
  | .error f => .refused f r

/-- The reading `x` takes the tokens `w` and comes out with `o`, if the item after them
    is `next`. -/
def Takes (x : Reading α) (w : List Token) (next : Item) (o : Except (Located SyntaxFault) α) :
    Prop :=
  ∀ l rest p, Item.first rest (.eof p) = next →
    x ⟨l, w ++ rest, .eof p⟩ = .of o ⟨Token.lastPos l w, rest, .eof p⟩

/-- The reading `x` takes the tokens `w` with the result `a`, if the item after them is
    `next` and parentheses are not nested too deeply in them. -/
def Completes (x : Reading α) (w : List Token) (next : Item) (a : α) : Prop :=
  ∀ l rest p, Item.first rest (.eof p) = next →
    x ⟨l, w ++ rest, .eof p⟩ = .read a ⟨Token.lastPos l w, rest, .eof p⟩ ∨
      ∃ q r, x ⟨l, w ++ rest, .eof p⟩ = .refused ⟨.nestedTooDeeply, q⟩ r

variable {x : Reading α} {f : α → Reading β} {w u : List Token} {next : Item} {a : α} {b : β}
  {o : Except (Located SyntaxFault) β}

/-! ## Composition -/

theorem takes_pure (a : α) (next : Item) : Takes (pure a) [] next (.ok a) :=
  fun _ _ _ _ => rfl

theorem takes_refuse (fault : SyntaxFault) (pos : Pos) (next : Item) :
    Takes (refuse fault pos : Reading α) [] next (.error ⟨fault, pos⟩) :=
  fun _ _ _ _ => rfl

theorem Takes.bind (hx : Takes x w (Item.first u next) (.ok a)) (hf : Takes (f a) u next o) :
    Takes (x >>= f) (w ++ u) next o := by
  intro l rest p h
  rw [List.append_assoc, bind_apply, hx l (u ++ rest) p (by rw [Item.first_append, h]),
    Token.lastPos_append]
  exact hf _ rest p h

theorem Takes.bind_error {fault : Located SyntaxFault} (hx : Takes x w next (.error fault)) :
    Takes (x >>= f) w next (.error fault) := by
  intro l rest p h
  rw [bind_apply, hx l rest p h]
  rfl

theorem Takes.map {g : α → β} (hx : Takes x w next (.ok a)) :
    Takes (x >>= fun a => pure (g a)) w next (.ok (g a)) := by
  intro l rest p h
  rw [bind_apply, hx l rest p h]
  rfl

/-- What has looked at the next item only goes on at the same place. -/
theorem Takes.bind_nil (hx : Takes x [] (Item.first w next) (.ok a)) (hf : Takes (f a) w next o) :
    Takes (x >>= f) w next o :=
  hx.bind hf

theorem Takes.completes (hx : Takes x w next (.ok a)) : Completes x w next a :=
  fun l rest p h => Or.inl (hx l rest p h)

theorem Completes.bind (hx : Completes x w (Item.first u next) a)
    (hf : Completes (f a) u next b) : Completes (x >>= f) (w ++ u) next b := by
  intro l rest p h
  rw [List.append_assoc, bind_apply, Token.lastPos_append]
  rcases hx l (u ++ rest) p (by rw [Item.first_append, h]) with hx | ⟨q, r, hx⟩
  · rw [hx]
    exact hf _ rest p h
  · rw [hx]
    exact Or.inr ⟨q, r, rfl⟩

theorem Completes.map {g : α → β} (hx : Completes x w next a) :
    Completes (x >>= fun a => pure (g a)) w next (g a) := by
  intro l rest p h
  rw [bind_apply]
  rcases hx l rest p h with hx | ⟨q, r, hx⟩
  · rw [hx]
    exact Or.inl rfl
  · rw [hx]
    exact Or.inr ⟨q, r, rfl⟩

/-- What has looked at the next item only goes on at the same place. -/
theorem Takes.bind_completes (hx : Takes x [] (Item.first w next) (.ok a))
    (hf : Completes (f a) w next b) : Completes (x >>= f) w next b :=
  hx.completes.bind hf

/-- One token, and then what follows it. -/
theorem Takes.cons_completes {t : Token} (hx : Takes x [t] (Item.first w next) (.ok a))
    (hf : Completes (f a) w next b) : Completes (x >>= f) (t :: w) next b :=
  hx.completes.bind hf

/-! ## Single tokens -/

theorem takes_peek (next : Item) : Takes peek [] next (.ok next) := by
  intro l rest p h
  subst h
  cases rest <;> rfl

theorem takes_peekOperator (next : Item) : Takes peekOperator [] next (.ok next.operator?) := by
  refine (takes_peek next).bind_nil ?_
  cases next <;> exact takes_pure _ _

theorem takes_advance (t : Token) (next : Item) : Takes advance [t] next (.ok ()) := by
  intro l rest p _
  cases rest <;> rfl

theorem Takes.advance_bind {f : Unit → Reading β} (t : Token) (hf : Takes (f ()) w next o) :
    Takes (advance >>= f) (t :: w) next o :=
  (takes_advance t _).bind hf

theorem takes_expect {kind : Kind} {t : Token} (h : t.lexeme.kind = kind) (next : Item) :
    Takes (expect kind) [t] next (.ok t.pos) := by
  refine (takes_peek (.token t)).bind_nil ?_
  rw [if_pos (show (Item.token t).kind = kind from h)]
  exact .advance_bind t (takes_pure _ _)

theorem takes_keyword (k : Keyword) (p : Pos) (next : Item) :
    Takes (expect (.keyword k)) [k.token p] next (.ok p) :=
  takes_expect (t := k.token p) rfl next

theorem takes_symbol (s : Symbol) (p : Pos) (next : Item) :
    Takes (expect (.symbol s)) [s.token p] next (.ok p) :=
  takes_expect (t := s.token p) rfl next

theorem takes_expect_error {kind : Kind} (h : next.kind ≠ kind) :
    Takes (expect kind) [] next (.error ⟨.unexpected next.kind [kind], next.pos⟩) := by
  refine (takes_peek next).bind_nil ?_
  rw [if_neg h]
  exact takes_refuse _ _ _

theorem takes_expectType (ty : Ty) (p : Pos) (next : Item) :
    Takes expectType [ty.keyword.token p] next (.ok ty) := by
  cases ty <;> exact (takes_peek _).bind_nil (.advance_bind _ (takes_pure _ _))

theorem takes_expectName (x : String) (p : Pos) (next : Item) :
    Takes expectName [⟨.name x, p⟩] next (.ok (p, x)) :=
  (takes_peek _).bind_nil (.advance_bind _ (takes_pure _ _))

end Reading

end MiniPL
