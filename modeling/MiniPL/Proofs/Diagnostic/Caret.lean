import MiniPL.Proofs.Diagnostic.Header
import MiniPL.Proofs.Program.Failures
import MiniPL.Proofs.Session.Invariant
import MiniPL.Proofs.Token.Marks

/-!
# Carets

A diagnostic of a program is shown with its line and with a caret below it, which points exactly to
its column (`Raises.exists_excerpt`). This is a matter of where diagnostics stand: all of them stand
in the text, and none of them before a space or a tab, so none of them in what is not shown of
the line.
-/

namespace MiniPL

/-! ## Excerpts -/

namespace Diagnostic

/-- The line `shown`, with a caret after `padding` below it, shows the line `raw` of a text without
    the spaces and tabs at its start, and points to the column `column` of it. -/
structure Points (raw : List Char) (column : Int) (shown padding : List Char) : Prop where
  shown_eq : shown = raw.dropWhile isMargin
  /-- The caret is as far to the right as the column is, but for the characters not shown. -/
  length_eq : (padding.length : Int) = column - 1 - (raw.length - shown.length)
  /-- It is under a character of the line, or right after the line. -/
  length_le : padding.length ≤ shown.length
  /-- There is a tab below a tab, and a space below anything else. -/
  char_eq : ∀ i < padding.length, padding[i]? = some (if shown[i]? = some '\t' then '\t' else ' ')

theorem getElem?_padding (cs : List Char) {i : Nat} (h : i < cs.length) :
    (padding cs)[i]? = some (if cs[i]? = some '\t' then '\t' else ' ') := by
  rw [padding, List.getElem?_map, List.getElem?_eq_getElem h]
  simp only [Option.map_some, Option.some.injEq]

theorem newline_not_mem_padding (cs : List Char) : '\n' ∉ padding cs := by
  intro h
  obtain ⟨c, -, hc⟩ := List.mem_map.1 h
  split at hc <;> exact absurd hc (by decide)

/-- What is not shown of a line ends before what is no space and no tab. -/
theorem length_takeWhile_append_le (line : List Char) {first : List Char}
    (h : ∀ c ∈ first.head?, isMargin c = false) :
    ((line ++ first).takeWhile isMargin).length ≤ line.length := by
  have hfirst : first.takeWhile isMargin = [] := by
    cases first with
    | nil => rfl
    | cons c cs => exact List.takeWhile_cons_of_neg (by simp [h c rfl])
  rw [List.takeWhile_append]
  split
  · exact Nat.le_of_eq (by rw [hfirst, List.append_nil])
  · exact (List.takeWhile_prefix isMargin).length_le

/-- If the column is not in what is not shown of a line, the caret points to it. -/
theorem points_excerpt (line : List Char) {first : List Char}
    (h : ∀ c ∈ first.head?, isMargin c = false) :
    ∃ shown padding, excerpt (line ++ first) (line.length + 1) = (shown, padding ++ ['^']) ∧
      Points (line ++ first) (line.length + 1) shown padding ∧ '\n' ∉ padding := by
  have hmargin := length_takeWhile_append_le line h
  have hsplit : ((line ++ first).takeWhile isMargin).length +
      ((line ++ first).dropWhile isMargin).length = line.length + first.length := by
    rw [← List.length_append, List.takeWhile_append_dropWhile, List.length_append]
  generalize hshown : (line ++ first).dropWhile isMargin = shown at hsplit
  generalize ((line ++ first).takeWhile isMargin).length = margin at hmargin hsplit
  have hcount :
      ((line.length : Int) + 1 - 1 - ((line ++ first).length - shown.length : Nat)).toNat =
        line.length - margin := by
    rw [List.length_append]
    omega
  have hpadding : (padding (shown.take (line.length - margin))).length = line.length - margin := by
    rw [padding, List.length_map, List.length_take]
    omega
  refine ⟨shown, padding (shown.take (line.length - margin)), ?_, ⟨hshown.symm, ?_, ?_, ?_⟩,
    newline_not_mem_padding _⟩
  · rw [excerpt, hshown, hcount]
  · rw [hpadding, List.length_append]
    omega
  · rw [hpadding]
    omega
  · intro i hi
    rw [hpadding] at hi
    rw [getElem?_padding _ (by rw [List.length_take]; omega), List.getElem?_take_of_lt hi]

variable {d : Diagnostic} {p : Pos} {source : String}

/-- A diagnostic at a place in the text has a caret that points to the place. -/
theorem exists_excerpt_of_marks (hne : source ≠ "") (hp : d.pos? = some p)
    (h : p.Marks source.toList) : ∃ raw shown padding, line? source p.line = some raw ∧
      Points raw p.column shown padding ∧
      Text.pieces (d.render (some source)).toList =
        Text.pieces d.text.toList ++ [shown, padding ++ ['^']] := by
  obtain ⟨line, first, hline, hcolumn, hfirst⟩ := h.split
  obtain ⟨shown, padding, hexcerpt, hpoints, hpadding⟩ := points_excerpt line hfirst
  refine ⟨line ++ first, shown, padding, hline, hcolumn ▸ hpoints, ?_⟩
  have hshown : '\n' ∉ shown := by
    intro hmem
    have hraw : line ++ first ∈ Text.pieces source.toList := by
      unfold line? at hline
      split at hline
      · cases hline
      · exact List.mem_of_getElem? hline
    refine Text.not_mem_of_mem_pieces hraw ?_
    rw [hpoints.shown_eq] at hmem
    exact (List.dropWhile_sublist _).mem hmem
  have hcaret : '\n' ∉ padding ++ ['^'] := by simpa using hpadding
  have hrender : (d.render (some source)).toList =
      d.text.toList ++ '\n' :: (shown ++ '\n' :: (padding ++ ['^'])) := by
    unfold render
    simp only [hp, hne, if_false, hline, hcolumn, hexcerpt, String.toList_ofList, List.append_assoc,
      List.cons_append]
  rw [hrender, Text.pieces_append_newline, Text.pieces_append_newline,
    Text.pieces_of_not_mem hshown, Text.pieces_of_not_mem hcaret, List.singleton_append]

end Diagnostic

/-! ## The diagnostics of failures -/

/-- The diagnostics of a failure, if it has any. -/
def Failure.diagnostics (e : Failure) : List Diagnostic :=
  match e.explain with
  | .report r => r.members
  | .plain _ => []

/-- Diagnostics stand where the failure stands. -/
theorem Failure.mem_positions {e : Failure} {d : Diagnostic} {p : Pos} (hd : d ∈ e.diagnostics)
    (hp : d.pos? = some p) : p ∈ e.positions := by
  rcases e with ⟨path, f⟩ | r | fs | fs | (f | c | _)
  case file =>
    obtain rfl := List.mem_singleton.1 hd
    cases hp
  case lexical | halted.fault =>
    obtain rfl := List.mem_singleton.1 hd
    cases hp
    exact List.mem_cons_self
  case syntactic | semantic =>
    obtain ⟨f, hf, rfl⟩ := List.mem_map.1 hd
    cases hp
    exact List.mem_map_of_mem hf
  all_goals cases hd

namespace Stream

variable {s : Stream} {σ : Store VarType}

/-- The names in a program that a stream gives are names in the stream. -/
theorem Gives.names_subset {b : MiniPL.Block Nat} (h : s.Gives b) :
    Block.names b ⊆ Token.names s.tokens := by
  cases h with
  | program h =>
    rw [Block.names_number, names_of_parse h]
    exact List.Subset.refl _
  | @expression e h =>
    have hnames : Block.names [Stmt.print e.number.pos e.number] = e.names := by
      rw [Block.names, Stmt.names, Block.names, List.append_nil, Expr.names_number]
    rw [hnames]
    exact names_of_parseExpr h

theorem inline_of_ofParse {f : ParseFailure} {d : Diagnostic}
    (hd : d ∈ (Failure.ofParse f).diagnostics) : Text.Inline d.message := by
  cases f with
  | lexical r =>
    obtain rfl := List.mem_singleton.1 hd
    exact r.thing.inline_message
  | syntactic fs =>
    obtain ⟨f, -, rfl⟩ := List.mem_map.1 hd
    exact f.thing.inline_message

/-- If the names and the types of variables are in one line, so are all messages. -/
theorem Fails.inline_message {e : Failure} (h : s.Fails σ e)
    (hnames : ∀ x ∈ Token.names s.tokens, Text.Inline x) (hσ : σ.Inline) {d : Diagnostic}
    (hd : d ∈ e.diagnostics) : Text.Inline d.message := by
  cases h with
  | @lexing r =>
    obtain rfl := List.mem_singleton.1 hd
    exact r.thing.inline_message
  | parsing | parsingExpr => exact inline_of_ofParse hd
  | @checking b hb =>
    obtain ⟨f, hf, rfl⟩ := List.mem_map.1 hd
    have hfaults := Block.inline_faults b (fun x hx => hnames x (hb.names_subset hx)) hσ
    exact SemanticFault.inline_message (hfaults f hf)
  | @running b τ lines halt hb hhalt =>
    cases halt with
    | fault f =>
      obtain ⟨fault, p⟩ := f
      obtain rfl := List.mem_singleton.1 hd
      refine RuntimeFault.inline_message fun x (hx : fault = .uninitialized x) => ?_
      subst hx
      exact hnames x (hb.names_subset (Block.within_exec b hhalt))
    | _ => cases hd

end Stream

namespace Session

variable {σ : Store VarType}

theorem inline_step (hfits : σ.Fits false) (hσ : σ.Inline) (s : Step) :
    (step σ s).store.Inline := by
  rcases sound_step hfits s with ⟨-, h⟩ | h
  · rw [h]
    exact Store.inline_empty
  · -- The types are those of before, or come from declarations.
    obtain ⟨program, hsignature⟩ := h.signature
    intro x ty hx
    rw [Store.ty?_congr hsignature] at hx
    exact hσ.block program x ty hx

/-- In a session, the types of variables stay in one line. -/
theorem inline_after (hfits : σ.Fits false) (hσ : σ.Inline) (steps : List Step) :
    (after σ steps).Inline := by
  induction steps generalizing σ with
  | nil => exact hσ
  | cons s steps ih => exact ih (fits_step hfits s) (inline_step hfits hσ s)

end Session

/-- A diagnostic with a position that comes up when a text is handled is shown with the line of its
    position and with a caret below it, which points exactly to its column. The diagnostic itself is
    in one line before these two, if the types of the variables that there were are. -/
theorem Raises.exists_excerpt {σ : Store VarType} {source : String} {e : Failure}
    (hne : source ≠ "") (h : Raises σ source e) {d : Diagnostic} (hd : d ∈ e.diagnostics) {p : Pos}
    (hp : d.pos? = some p) :
    ∃ raw shown padding, Diagnostic.line? source p.line = some raw ∧
      Diagnostic.Points raw p.column shown padding ∧
      Text.pieces (d.render (some source)).toList =
        Text.pieces d.text.toList ++ [shown, padding ++ ['^']] ∧
      (σ.Inline → Text.pieces d.text.toList = [d.text.toList]) := by
  have hmem := h.fails.positions_subset (Failure.mem_positions hd hp)
  obtain ⟨raw, shown, padding, hline, hpoints, hrender⟩ :=
    Diagnostic.exists_excerpt_of_marks hne hp (Stream.marks_of_mem_positions hne hmem)
  refine ⟨raw, shown, padding, hline, hpoints, hrender, fun hσ => Text.pieces_of_not_mem ?_⟩
  exact (Diagnostic.inline_text (h.fails.inline_message Stream.inline_of_mem_names hσ hd)).not_mem

/-- The second operand is of another type, after a tab, in a line that starts with one. -/
theorem Raises.exists_excerpt_of_mismatch :
    let source := "if 1 = 1 do\n\tprint 1 +\t\"a\";\nend if;"
    let e : Failure := .semantic [⟨.mismatch .int .string, ⟨2, 12⟩⟩]
    let d : Diagnostic := ⟨.semantic, "Type mismatch (expected int, got string)", some ⟨2, 12⟩⟩
    source ≠ "" ∧ Raises .empty source e ∧ d ∈ e.diagnostics ∧
      ∃ padding, padding.length = 10 ∧
        Text.pieces (d.render (some source)).toList =
          ["SemanticError: Type mismatch (expected int, got string) on line 2 column 12".toList,
            "print 1 +\t\"a\";".toList, padding ++ ['^']] := by
  intro source e d
  have hne : source ≠ "" := by decide
  have he : Raises .empty source e := .checking (by decide +kernel)
  have hd : d ∈ e.diagnostics := by decide +kernel
  refine ⟨hne, he, hd, ?_⟩
  obtain ⟨raw, shown, padding, hline, hpoints, hrender, hheader⟩ :=
    he.exists_excerpt hne hd rfl
  have hraw : Diagnostic.line? source 2 = some "\tprint 1 +\t\"a\";".toList := by decide +kernel
  obtain rfl := Option.some.inj (hraw.symm.trans hline)
  have hshown : shown = "print 1 +\t\"a\";".toList := hpoints.shown_eq.trans (by decide +kernel)
  have hlength := hpoints.length_eq
  rw [hshown] at hlength
  refine ⟨padding, Int.ofNat_inj.1 (hlength.trans (by decide)), ?_⟩
  rw [hrender, hheader Store.inline_empty, hshown]
  rfl

end MiniPL
