import MiniPL.Proofs.Token.Lexemes

/-!
# What cannot be completed

Where a text goes on neither with a gap nor with a lexeme, it starts with what cannot be
completed (`Lexeme.Incomplete`). That is what lexical faults tell of: the fault that is found
is the one that the text starts with (`Lexeme.Incomplete.recognize`), and there is one or the
other, a lexeme or a fault (`Lexeme.exists_maximal_or_incomplete`).
-/

namespace MiniPL.Lexeme

/-- The text starts with what cannot be completed: with a character that starts no lexeme, a
    dot that is alone, digits right before a name, a text literal that is not closed on its
    line or that has an unknown escape, or a comment that is not closed. The offset is that of
    the first character, or that of the backslash of the escape. -/
inductive Incomplete : (text : List Char) → LexicalFault → (offset : Nat) → Prop
  | char {c : Char} {cs : List Char} :
    Gap.isSpace c = false → c ≠ '.' →
      (∀ (l : Lexeme) (word : List Char), l.Written word → word.head? ≠ some c) →
      Incomplete (c :: cs) (.invalidChar c) 0
  | dot {cs : List Char} : cs.head? ≠ some '.' → Incomplete ('.' :: cs) (.loneDot cs.head?) 0
  | digits {word : List Char} {c : Char} {cs : List Char} :
    word ≠ [] → (∀ d ∈ word, d.isDigit) → Text.isNameStart c →
      Incomplete (word ++ c :: cs) (.digitsInName (.ofList word) c) 0
  | unterminated {body content after : List Char} :
    Spells body content → (∀ c ∈ after.head?, c = '\n') →
      Incomplete ('"' :: (body ++ after)) (.unterminatedText (.ofList content)) 0
  | escape {body content after : List Char} :
    Spells body content → (∀ e ∈ after.head?, unescape? e = none) →
      Incomplete ('"' :: (body ++ '\\' :: after)) (.unknownEscape (.ofList content) after.head?)
        (body.length + 1)
  | comment {text : List Char} : Gap.Unclosed text → Incomplete text .unclosedComment 0

/-- A character that starts none of the forms of lexemes starts no lexeme. -/
theorem Written.head?_ne {l : Lexeme} {word : List Char} (hw : l.Written word) {c : Char}
    (hsymbol : Symbol.ofChar? c = none) (hcolon : c ≠ ':') (hdot : c ≠ '.')
    (hdigit : ¬ c.isDigit) (hstart : ¬ Text.isNameStart c) (hquote : c ≠ '"') :
    word.head? ≠ some c := by
  intro hhead
  have hword (hword : Text.IsWord word) : False := by
    obtain ⟨d, hd, hd'⟩ := hword.start
    exact hstart (Option.some.inj (hhead.symm.trans hd) ▸ hd')
  cases hw with
  | symbol s =>
    rcases text_cases s with ⟨d, hd, hs⟩ | rfl | rfl | rfl
    · rw [hd, List.head?_cons, Option.some.injEq] at hhead
      rw [← hhead, hs] at hsymbol
      cases hsymbol
    · exact hcolon (Option.some.inj hhead).symm
    · exact hcolon (Option.some.inj hhead).symm
    · exact hdot (Option.some.inj hhead).symm
  | keyword k => exact hword (isWord_keyword k)
  | name h _ => exact hword h
  | int _ hdigits =>
    obtain ⟨rest, rfl⟩ := List.head?_eq_some_iff.1 hhead
    exact hdigit (hdigits c List.mem_cons_self)
  | text _ => exact hquote (Option.some.inj hhead).symm

theorem incomplete_of_number {f : LexicalFault} {c : Char} {cs : List Char} {offset k : Nat}
    (hc : c.isDigit) (h : Recognized.number (c :: cs) = .fault f offset k) :
    Incomplete (c :: cs) f offset := by
  have hne : (c :: cs).takeWhile Char.isDigit ≠ [] := by simp [hc]
  unfold Recognized.number at h
  dsimp only at h
  split at h
  · next d hhead =>
    split at h
    · next hstart =>
      cases h
      obtain ⟨rest, hrest⟩ := List.head?_eq_some_iff.1 hhead
      have hdigits : Incomplete ((c :: cs).takeWhile Char.isDigit ++ d :: rest)
          (.digitsInName (.ofList ((c :: cs).takeWhile Char.isDigit)) d) 0 :=
        .digits hne (List.all_eq_true.1 List.all_takeWhile) hstart
      rwa [← hrest, List.takeWhile_append_dropWhile] at hdigits
    · cases h
  · cases h

theorem incomplete_of_text {f : LexicalFault} {cs : List Char} {offset k : Nat}
    (h : Recognized.text [] 1 cs = .fault f offset k) : Incomplete ('"' :: cs) f offset := by
  -- The spelling of the content ends at the fault.
  obtain ⟨body, content, after, rfl, hspells, hafter⟩ := exists_spells cs
  rw [text_append hspells, Recognized.text.eq_def] at h
  rcases hafter with hafter | ⟨rest, rfl, hrest⟩
  · cases after with
    | nil =>
      cases h
      have hend : ∀ c ∈ [].head?, c = '\n' := by simp
      simpa using Incomplete.unterminated hspells hend
    | cons d after =>
      rcases hafter d rfl with rfl | rfl
      · cases h
      · cases h
        have hline : ∀ c ∈ ('\n' :: after).head?, c = '\n' := by simp
        simpa using Incomplete.unterminated hspells hline
  · cases rest with
    | nil =>
      cases h
      have hend : ∀ e ∈ [].head?, unescape? e = none := by simp
      simpa [Nat.add_comm] using Incomplete.escape hspells hend
    | cons e rest =>
      simp [hrest e rfl] at h
      obtain ⟨rfl, rfl, -⟩ := h
      simpa [Nat.add_comm] using Incomplete.escape hspells hrest

/-- Where a fault is found, there is something that cannot be completed. -/
theorem incomplete_of_recognize {f : LexicalFault} {c : Char} {cs : List Char} {offset k : Nat}
    (hover : Gap.Over (c :: cs)) (h : recognize c cs = .fault f offset k) :
    Incomplete (c :: cs) f offset := by
  unfold recognize at h
  split at h
  · cases h
  next hsymbol =>
  split at h
  · split at h <;> cases h
  next hcolon =>
  split at h
  · next hc =>
    subst hc
    split at h <;> cases h
    exact .dot ‹_›
  next hdot =>
  split at h
  · next hc => exact incomplete_of_number hc h
  next hdigit =>
  split at h
  · cases h
  next hstart =>
  split at h
  · next hc => exact hc ▸ incomplete_of_text h
  next hquote =>
  cases h
  exact .char (hover.not_isSpace c rfl) hdot fun l word hw =>
    hw.head?_ne hsymbol hcolon hdot hdigit hstart hquote

/-- Every text that is left after a gap starts with a longest lexeme, or with what cannot be
    completed. -/
theorem exists_maximal_or_incomplete {text : List Char} (hover : Gap.Over text)
    (hne : text ≠ []) :
    (∃ (l : Lexeme) (word after : List Char), text = word ++ after ∧ l.Maximal word after) ∨
      ∃ f offset, Incomplete text f offset := by
  obtain ⟨c, cs, rfl⟩ := List.exists_cons_of_ne_nil hne
  cases h : MiniPL.recognize c cs with
  | lexeme l k =>
    obtain ⟨word, after, heq, -, hl⟩ := maximal_of_recognize hover h
    exact .inl ⟨l, word, after, heq, hl⟩
  | fault f offset k => exact .inr ⟨f, offset, incomplete_of_recognize hover h⟩

namespace Incomplete

variable {text : List Char} {f : LexicalFault} {offset : Nat}

/-- No gap is left before what cannot be completed, unless it is a comment. -/
theorem over_or_unclosed (h : Incomplete text f offset) :
    Gap.Over text ∨ Gap.Unclosed text ∧ f = .unclosedComment ∧ offset = 0 := by
  cases h with
  | char hspace _ hstart =>
    refine .inl (Gap.over_cons hspace ?_)
    rintro rfl
    exact hstart _ _ (.symbol .slash) rfl
  | dot _ => exact .inl (Gap.over_cons (by decide) (by decide))
  | digits hne hword _ =>
    obtain ⟨d, word, rfl⟩ := List.exists_cons_of_ne_nil hne
    exact .inl (over_cons_isDigit (hword d List.mem_cons_self) _)
  | unterminated _ _ => exact .inl (Gap.over_cons (by decide) (by decide))
  | escape _ _ => exact .inl (Gap.over_cons (by decide) (by decide))
  | comment h => exact .inr ⟨h, rfl, rfl⟩

/-- The fault that a text starts with is found. -/
theorem recognize (h : Incomplete text f offset) (hover : Gap.Over text) :
    ∃ c cs k, text = c :: cs ∧ MiniPL.recognize c cs = .fault f offset k := by
  cases h with
  | @char c cs hspace hdot hstart =>
    have hsymbol : Symbol.ofChar? c = none := by
      cases hs : Symbol.ofChar? c with
      | none => rfl
      | some s =>
        have hw := Written.symbol s
        rw [(text_of_ofChar? hs).1] at hw
        exact absurd rfl (hstart _ _ hw)
    have hcolon : c ≠ ':' := by
      rintro rfl
      exact hstart _ _ (.symbol .colon) rfl
    have hdigit : c.isDigit = false := Bool.eq_false_iff.2 fun hd =>
      hstart _ [c] (.int (by simp) (by simpa using hd)) rfl
    have hname : Text.isNameStart c = false := Bool.eq_false_iff.2 fun hs => by
      have hpart := Text.isNamePart_of_isNameStart hs
      exact hstart _ [c] (written_ofWord ⟨⟨c, rfl, hs⟩, by simpa using hpart⟩) rfl
    have hquote : c ≠ '"' := by
      rintro rfl
      exact hstart _ _ (.text .nil) rfl
    refine ⟨c, cs, 0, rfl, ?_⟩
    rw [MiniPL.recognize, hsymbol]
    simp only [hcolon, hdot, hdigit, hname, hquote, if_false, Bool.false_eq_true]
  | @dot cs hcs =>
    refine ⟨'.', cs, 1, rfl, ?_⟩
    rw [MiniPL.recognize, show Symbol.ofChar? '.' = none from rfl]
    simp only [hcs, if_true, if_false, Char.reduceEq]
  | @digits word c cs hne hword hstart =>
    have hrest : ∀ d ∈ (c :: cs).head?, d.isDigit = false := by
      simpa using isDigit_eq_false_of_isNameStart hstart
    obtain ⟨d, word', rfl⟩ := List.exists_cons_of_ne_nil hne
    refine ⟨d, word' ++ c :: cs, (d :: word').length, rfl, ?_⟩
    rw [recognize_of_isDigit (hword d List.mem_cons_self), Recognized.number, ← List.cons_append,
      Gap.takeWhile_append_eq hword hrest, Gap.dropWhile_append_eq hword hrest]
    simp only [List.head?_cons, hstart, if_true]
  | @unterminated body content after hspells hafter =>
    refine ⟨'"', body ++ after, 1 + body.length, rfl, ?_⟩
    rw [recognize_quote, text_append hspells, Recognized.text.eq_def]
    cases after with
    | nil => simp
    | cons c after =>
      obtain rfl := hafter c rfl
      simp
  | @escape body content after hspells hafter =>
    refine ⟨'"', body ++ '\\' :: after, 1 + body.length + 1, rfl, ?_⟩
    rw [recognize_quote, text_append hspells, Recognized.text.eq_def]
    cases after with
    | nil => simp [Nat.add_comm]
    | cons e after => simp [hafter e rfl, Nat.add_comm]
  | comment h =>
    obtain ⟨body, rfl, -⟩ := h
    exact absurd (Gap.isPrefix_pair_iff.2 ⟨rfl, rfl⟩) hover.not_block

end Incomplete

end MiniPL.Lexeme
