import Mathlib.Algebra.Ring.Int.Defs
import Mathlib.Data.List.Induction
import Mathlib.Data.List.Infix
import MiniPL.Command.Interactive
import MiniPL.Proofs.Token.Lines

/-!
# Lines that are held back

A session counts the open blocks line by line, and cuts each line into tokens as if there were no
other. If the lines have no lexical faults when they are read alone (`ReadsAlone`), the count is
that of the whole snippet (`sum_sourceBalance`). So a snippet is held back as long as there are more
`do` than `end` in it, and is submitted with the line that ends this
(`Interactive.continueFrom_snippet`).

The whole snippet has no lexical fault then (`readsAlone_unlines`). The other way round, that is not
enough: a block comment may go on over several lines, and only the first of them is then read as a
comment.
-/

namespace MiniPL

/-! ## The balance of tokens -/

theorem blockBalance_append (ts us : List Token) :
    blockBalance (ts ++ us) = blockBalance ts + blockBalance us := by
  induction ts with
  | nil => exact (Int.zero_add _).symm
  | cons t ts ih =>
    change t.lexeme.balance + blockBalance (ts ++ us) =
      t.lexeme.balance + blockBalance ts + blockBalance us
    rw [ih, Int.add_assoc]

/-- It does not matter where the tokens stand. -/
theorem blockBalance_relocate (g : Pos → Pos) (ts : List Token) :
    blockBalance (ts.map (·.relocate g)) = blockBalance ts := by
  rw [blockBalance, List.map_map]
  rfl

/-- Blocks are opened by `do` and closed by `end`. -/
theorem blockBalance_eq_count (ts : List Token) :
    blockBalance ts = ((ts.map Token.lexeme).count (.keyword .doK) : Int) -
      (ts.map Token.lexeme).count (.keyword .endK) := by
  induction ts with
  | nil => rfl
  | cons t ts ih =>
    change t.lexeme.balance + blockBalance ts = _
    rw [ih, List.map_cons, List.count_cons, List.count_cons]
    by_cases hdo : t.lexeme = .keyword .doK
    · simp [hdo, Lexeme.balance]
      omega
    by_cases hend : t.lexeme = .keyword .endK
    · simp [hend, Lexeme.balance]
      omega
    have hzero : t.lexeme.balance = 0 := by
      unfold Lexeme.balance
      split
      · next h => exact absurd h hdo
      · next h => exact absurd h hend
      · rfl
    simp [hdo, hend, hzero]

/-! ## The balance of lines -/

/-- Whether a text has no lexical fault when it is read alone. An empty one has no characters that
    could be at fault. -/
def ReadsAlone (text : String) : Prop := text = "" ∨ (Stream.ofSource text).fault? = none

theorem ReadsAlone.exists_scan {text : String} (h : ReadsAlone text) :
    ∃ ts p, (Cursor.ofText text).scan.1 = ⟨ts, .eof p⟩ := by
  by_cases hne : text = ""
  · subst hne
    exact ⟨_, _, Cursor.scan_of_fills .nil _⟩
  · have h := h.resolve_left hne
    rw [Stream.ofSource, if_neg hne] at h
    cases hs : (Cursor.ofText text).scan.1 with
    | mk ts ending =>
      rw [hs] at h
      cases ending with
      | eof p => exact ⟨ts, p, rfl⟩
      | fault r => cases h

theorem sourceBalance_eq (text : String) :
    sourceBalance text = blockBalance (Cursor.ofText text).scan.1.tokens := by
  by_cases hne : text = ""
  · subst hne
    rw [Cursor.ofText, show "".toList = [] from rfl, Cursor.scan_of_fills .nil]
    rfl
  · rw [sourceBalance, countBlocks, Stream.ofSource, if_neg hne]

section Below

variable {a b : String}

theorem ofText_below (a b : String) :
    Cursor.ofText (a ++ "\n" ++ b) = ⟨.start, a.toList ++ '\n' :: b.toList⟩ := by
  rw [Cursor.ofText, String.toList_append, String.toList_append, List.append_assoc]
  rfl

theorem ReadsAlone.below (ha : ReadsAlone a) (hb : ReadsAlone b) : ReadsAlone (a ++ "\n" ++ b) := by
  obtain ⟨ts, p, ha⟩ := ha.exists_scan
  obtain ⟨us, q, hb⟩ := hb.exists_scan
  refine .inr ?_
  have hne : a ++ "\n" ++ b ≠ "" := by
    intro h
    have h := congrArg String.toList h
    rw [String.toList_append, String.toList_append] at h
    simp at h
  rw [Stream.ofSource, if_neg hne, ofText_below, Cursor.scan_below ha, Pos.advance_concat_newline,
    Cursor.scan_down]
  rw [Cursor.ofText] at hb
  rw [hb]
  rfl

/-- The text below a text without lexical faults adds what it adds alone. -/
theorem sourceBalance_below (ha : ReadsAlone a) (b : String) :
    sourceBalance (a ++ "\n" ++ b) = sourceBalance a + sourceBalance b := by
  obtain ⟨ts, p, ha⟩ := ha.exists_scan
  rw [sourceBalance_eq, sourceBalance_eq, sourceBalance_eq, ha, ofText_below, Cursor.scan_below ha,
    Pos.advance_concat_newline, Cursor.scan_down, blockBalance_append]
  exact congrArg _ (blockBalance_relocate _ _)

end Below

theorem readsAlone_unlines {lines : List String} (h : ∀ line ∈ lines, ReadsAlone line) :
    ReadsAlone (Text.unlines lines) := by
  induction lines with
  | nil => exact .inl rfl
  | cons a lines ih =>
    rw [List.forall_mem_cons] at h
    cases lines with
    | nil => exact h.1
    | cons b lines =>
      rw [Text.unlines, String.intercalate_cons_cons]
      exact h.1.below (ih h.2)

/-- What lines add one by one is what they add together. -/
theorem sum_sourceBalance {lines : List String} (h : ∀ line ∈ lines, ReadsAlone line) :
    (lines.map sourceBalance).sum = sourceBalance (Text.unlines lines) := by
  induction lines with
  | nil => rfl
  | cons a lines ih =>
    rw [List.forall_mem_cons] at h
    cases lines with
    | nil => exact Int.add_zero _
    | cons b lines =>
      rw [Text.unlines, String.intercalate_cons_cons, sourceBalance_below h.1, List.map_cons,
        List.sum_cons, ih h.2, Text.unlines]

theorem sourceBalance_concat {lines : List String} {line : String}
    (h : ∀ line ∈ lines, ReadsAlone line) (hline : ReadsAlone line) :
    sourceBalance (Text.unlines (lines ++ [line])) =
      sourceBalance (Text.unlines lines) + sourceBalance line := by
  have hall : ∀ l ∈ lines ++ [line], ReadsAlone l := by
    simpa [or_imp, forall_and] using And.intro h hline
  rw [← sum_sourceBalance hall, ← sum_sourceBalance h, List.map_append, List.sum_append]
  exact congrArg _ (Int.add_zero _)

/-! ## Sessions -/

namespace Interactive

/-- What happens while a session takes lines of a snippet of which it holds some already. -/
def take (held : List String) : List String → List Event
  | [] => []
  | line :: rest =>
    [.wrote (prompt (!held.isEmpty)), .asked] ++ (countBlocks line).1.map .log ++
      take (held ++ [line]) rest

/-- How a session goes on with the lines that it holds: it waits for more of them if there are
    blocks open, and else submits them. -/
def proceed (σ : Store VarType) (held rest : List String) : List Event :=
  if 0 < sourceBalance (Text.unlines held) then
    continueFrom σ held (sourceBalance (Text.unlines held)) rest
  else
    let outcome := submit σ (Text.unlines held) rest
    outcome.events ++ continueFrom outcome.store [] 0 (rest.drop outcome.reads)

/-- Whether a snippet may start with a line. -/
def Starts (line : String) : Prop := Text.trim line ≠ "" ∧ Text.trim line ∉ quitWords

variable {σ : Store VarType} {held rest : List String} {line : String}

/-- One more line, after lines that are held. -/
theorem continueFrom_cons (hheld : ∀ l ∈ held, ReadsAlone l) (hline : ReadsAlone line)
    (hstart : held = [] → Starts line) :
    continueFrom σ held (sourceBalance (Text.unlines held)) (line :: rest) =
      take held [line] ++ proceed σ (held ++ [line]) rest := by
  have hquit : ¬ (held.isEmpty ∧ Text.trim line ∈ quitWords) := fun ⟨h, hmem⟩ =>
    (hstart (List.isEmpty_iff.1 h)).2 hmem
  have hblank : ¬ (held.isEmpty ∧ Text.trim line = "") := fun ⟨h, hempty⟩ =>
    (hstart (List.isEmpty_iff.1 h)).1 hempty
  have hdepth := sourceBalance_concat hheld hline
  rw [continueFrom, if_neg hquit, if_neg hblank, proceed, hdepth]
  simp only [take, List.append_nil]
  by_cases h : 0 < sourceBalance (Text.unlines held) + sourceBalance line
  · rw [if_pos h]
    exact if_pos h
  · rw [if_neg h, ← List.append_assoc]
    exact if_neg h

theorem take_append (held more : List String) (line : String) :
    take held (more ++ [line]) = take held more ++ take (held ++ more) [line] := by
  induction more generalizing held with
  | nil => simp [take]
  | cons l more ih =>
    rw [List.cons_append, take, ih, List.append_assoc held, List.singleton_append,
      ← List.append_assoc]
    rfl

/-- The first of some lines is the first one that is held, or else the next one. -/
theorem starts_concat (h : ∀ l ∈ (held ++ [line]).head?, Starts l) :
    (∀ l ∈ held.head?, Starts l) ∧ (held = [] → Starts line) := by
  cases held with
  | nil => exact ⟨fun _ hl => (nomatch hl), fun _ => h line rfl⟩
  | cons a held => exact ⟨h, fun hnil => (nomatch hnil)⟩

/-- Lines of a snippet are held as long as there are blocks open. -/
theorem continueFrom_append (hlex : ∀ l ∈ held, ReadsAlone l)
    (hstart : ∀ l ∈ held.head?, Starts l)
    (hopen : ∀ lines, lines <+: held → lines ≠ [] → 0 < sourceBalance (Text.unlines lines)) :
    continueFrom σ [] 0 (held ++ rest) =
      take [] held ++ continueFrom σ held (sourceBalance (Text.unlines held)) rest := by
  induction held using List.reverseRecOn generalizing rest with
  | nil => rfl
  | append_singleton held line ih =>
    obtain ⟨hheld, hline⟩ := List.forall_mem_append.1 hlex
    obtain ⟨hhead, hfirst⟩ := starts_concat hstart
    have hwait := hopen (held ++ [line]) List.prefix_rfl (by simp)
    rw [List.append_assoc, List.singleton_append,
      ih hheld hhead fun lines h => hopen lines (h.trans (List.prefix_append _ _)),
      continueFrom_cons hheld (hline line List.mem_cons_self) hfirst, proceed, if_pos hwait,
      take_append, List.append_assoc]
    rfl

/-- If no line of a snippet has a lexical fault when it is read alone, what the lines add one by
    one are the `do` less the `end` among the tokens of the snippet. It is held back as long as
    there are more `do` than `end`, and is submitted with the line that ends this. -/
theorem continueFrom_snippet (hlex : ∀ l ∈ held ++ [line], ReadsAlone l)
    (hstart : ∀ l ∈ (held ++ [line]).head?, Starts l)
    (hopen : ∀ lines, lines <+: held → lines ≠ [] → 0 < sourceBalance (Text.unlines lines)) :
    let source := Text.unlines (held ++ [line])
    let lexemes := (Stream.ofSource source).tokens.map Token.lexeme
    let balance : Int := lexemes.count (.keyword .doK) - lexemes.count (.keyword .endK)
    ((held ++ [line]).map sourceBalance).sum = balance ∧
    continueFrom σ [] 0 (held ++ line :: rest) = take [] (held ++ [line]) ++
      if 0 < balance then continueFrom σ (held ++ [line]) balance rest
      else
        let outcome := submit σ source rest
        outcome.events ++ continueFrom outcome.store [] 0 (rest.drop outcome.reads) := by
  intro source lexemes balance
  have hbalance : sourceBalance source = balance := blockBalance_eq_count _
  obtain ⟨hheld, hline⟩ := List.forall_mem_append.1 hlex
  obtain ⟨hhead, hfirst⟩ := starts_concat hstart
  refine ⟨(sum_sourceBalance hlex).trans hbalance, ?_⟩
  rw [continueFrom_append hheld hhead hopen,
    continueFrom_cons hheld (hline line List.mem_cons_self) hfirst, take_append,
    List.append_assoc, List.nil_append, ← hbalance]
  rfl

/-- A loop with words for blocks in a text and in a comment, which count for nothing. -/
theorem continueFrom_snippet_loop :
    let held := ["for i in 1..2 do", "print \"do\"; // do"]
    let source := Text.unlines (held ++ ["end for;"])
    continueFrom .empty [] 0 (held ++ ["end for;"]) =
      take [] (held ++ ["end for;"]) ++ ((submit .empty source []).events ++
        continueFrom (submit .empty source []).store [] 0 []) := by
  intro held source
  have hlex : ∀ l ∈ held ++ ["end for;"], ReadsAlone l := by
    unfold ReadsAlone
    decide +kernel
  have hstart : ∀ l ∈ (held ++ ["end for;"]).head?, Starts l := by
    unfold Starts
    decide +kernel
  have hopen : ∀ lines ∈ held.inits, lines ≠ [] → 0 < sourceBalance (Text.unlines lines) := by
    decide +kernel
  refine (continueFrom_snippet hlex hstart fun lines hp =>
    hopen lines ((List.mem_inits _ _).2 hp)).2.trans ?_
  rw [if_neg (by decide +kernel)]
  simp only [List.drop_nil]
  rfl

/-- A block comment that goes on over two lines, with a `do` in each: the second one is counted. -/
theorem sum_sourceBalance_of_comment :
    let lines := ["for i in 1..2 do", "/* do", "do */", "print i;", "end for;"]
    (Stream.ofSource (Text.unlines lines)).fault? = none ∧
      sourceBalance (Text.unlines lines) = 0 ∧ (lines.map sourceBalance).sum = 1 := by
  decide +kernel

end Interactive

end MiniPL
