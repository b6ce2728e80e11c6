import MiniPL.Proofs.Token.Gaps
import MiniPL.Token.Recognition

/-!
# Lexemes in a text

How lexemes are written (`Lexeme.Written`) is said of each one by itself. Which lexeme a text
starts with is the longest one that is written there, unless something after it forbids it
(`Lexeme.Maximal`): a number has no letter and no underscore right after it, and a slash does
not start a comment.

* `Lexeme.recognize_of_endsBefore`: a lexeme is recognized before characters that do not go
  on with it, in particular where it is the longest one (`Lexeme.Maximal.endsBefore`);
* `Lexeme.maximal_of_recognize`: what is recognized is the longest lexeme;
* `Lexeme.Maximal.unique`: there is only one longest lexeme.
-/

namespace MiniPL

/-- Whether a text is a word: it starts like a name, and goes on with letters, numerals and
    underscores. -/
structure Text.IsWord (word : List Char) : Prop where
  start : ∃ c ∈ word.head?, isNameStart c
  part : ∀ c ∈ word, isNamePart c

instance (word : List Char) : Decidable (Text.IsWord word) :=
  decidable_of_iff (word.head?.any Text.isNameStart ∧ word.all Text.isNamePart) (by
    rw [Option.any_eq_true, List.all_eq_true]
    exact ⟨fun h => ⟨h.1, h.2⟩, fun h => ⟨h.start, h.part⟩⟩)

theorem Text.IsWord.isNameStart {word after : List Char} {c : Char} {cs : List Char}
    (h : Text.IsWord word) (heq : word ++ after = c :: cs) : Text.isNameStart c := by
  obtain ⟨d, hd, hstart⟩ := h.start
  have hhead := congrArg List.head? heq
  rw [List.head?_append, Option.mem_def.1 hd, Option.some_or, List.head?_cons,
    Option.some.injEq] at hhead
  exact hhead ▸ hstart

namespace Lexeme

/-- What stands between the quotes of a text literal, with the content that it spells: quotes
    and backslashes only stand there in escapes, and line feeds do not stand there at all. -/
inductive Spells : (body content : List Char) → Prop
  | nil : Spells [] []
  | plain {c : Char} {body content : List Char} :
    c ≠ '"' → c ≠ '\n' → c ≠ '\\' → Spells body content → Spells (c :: body) (c :: content)
  | escape {e meant : Char} {body content : List Char} :
    unescape? e = some meant → Spells body content →
      Spells ('\\' :: e :: body) (meant :: content)

/-- How a lexeme is written. -/
inductive Written : Lexeme → (word : List Char) → Prop
  | symbol (s : Symbol) : Written (.symbol s) s.text.toList
  | keyword (k : Keyword) : Written (.keyword k) k.text.toList
  | name {word : List Char} :
    Text.IsWord word → (∀ k : Keyword, k.text.toList ≠ word) → Written (.name (.ofList word)) word
  | int {word : List Char} :
    word ≠ [] → (∀ c ∈ word, c.isDigit) → Written (.int (.ofList word)) word
  | text {body content : List Char} :
    Spells body content → Written (.text (.ofList content)) ('"' :: (body ++ ['"']))

/-- The lexeme `l` is the longest one at the start of a text, where it is written `word`, with
    `after` after it. -/
structure Maximal (l : Lexeme) (word after : List Char) : Prop where
  written : l.Written word
  longest : ∀ (l' : Lexeme) (word' : List Char), l'.Written word' → word' <+: word ++ after →
    word'.length ≤ word.length
  apart : l.kind = .int → ∀ c ∈ after.head?, Text.isNameStart c = false
  noComment : l = .symbol .slash → ∀ c ∈ after.head?, c ≠ '/' ∧ c ≠ '*'

/-! ## First characters -/

/-- What starts a name comes after all digits and symbols of ASCII. -/
theorem le_toNat_of_isNameStart {c : Char} (h : Text.isNameStart c) : 65 ≤ c.toNat := by
  refine Nat.le_of_not_lt fun hlt => ?_
  have hnone : ∀ n < 65, Text.isNameStart (Char.ofNat n) = false := by decide
  have hc := hnone c.toNat hlt
  rw [Char.ofNat_toNat, h] at hc
  cases hc

theorem toNat_lt_of_isDigit {c : Char} (h : c.isDigit) : c.toNat < 65 := by
  simp only [Char.isDigit, Bool.and_eq_true, decide_eq_true_eq, ge_iff_le,
    UInt32.le_iff_toNat_le] at h
  change 48 ≤ c.toNat ∧ c.toNat ≤ 57 at h
  omega

theorem isDigit_eq_false_of_isNameStart {c : Char} (h : Text.isNameStart c) :
    c.isDigit = false := by
  refine Bool.eq_false_iff.2 fun hd => ?_
  have := le_toNat_of_isNameStart h
  have := toNat_lt_of_isDigit hd
  omega

theorem text_of_ofChar? {c : Char} {s : Symbol} (h : Symbol.ofChar? c = some s) :
    s.text.toList = [c] ∧ c.toNat < 65 ∧ c.isDigit = false := by
  unfold Symbol.ofChar? at h
  split at h <;> cases h <;> decide

/-- A symbol is found by its one character, or starts with a colon or a dot. -/
theorem text_cases (s : Symbol) : (∃ c, s.text.toList = [c] ∧ Symbol.ofChar? c = some s) ∨
    s = .colon ∨ s = .assign ∨ s = .range := by
  cases s <;> simp [Symbol.text, Symbol.ofChar?]

theorem ofChar?_of_isNameStart {c : Char} (h : Text.isNameStart c) : Symbol.ofChar? c = none := by
  cases hs : Symbol.ofChar? c with
  | none => rfl
  | some s =>
    have := le_toNat_of_isNameStart h
    have := (text_of_ofChar? hs).2.1
    omega

theorem ofChar?_of_isDigit {c : Char} (h : c.isDigit) : Symbol.ofChar? c = none := by
  cases hs : Symbol.ofChar? c with
  | none => rfl
  | some s => simp [(text_of_ofChar? hs).2.2] at h

/-- What starts like a name is read as a word. -/
theorem recognize_of_isNameStart {c : Char} (h : Text.isNameStart c) (cs : List Char) :
    recognize c cs = Recognized.word (c :: cs) := by
  have hle := le_toNat_of_isNameStart h
  have hcolon : c ≠ ':' := by rintro rfl; exact absurd hle (by decide)
  have hdot : c ≠ '.' := by rintro rfl; exact absurd hle (by decide)
  rw [recognize, ofChar?_of_isNameStart h]
  simp only [hcolon, hdot, isDigit_eq_false_of_isNameStart h, h, if_false, if_true,
    Bool.false_eq_true]

/-- What starts with a digit is read as a number. -/
theorem recognize_of_isDigit {c : Char} (h : c.isDigit) (cs : List Char) :
    recognize c cs = Recognized.number (c :: cs) := by
  have hcolon : c ≠ ':' := by rintro rfl; simp at h
  have hdot : c ≠ '.' := by rintro rfl; simp at h
  rw [recognize, ofChar?_of_isDigit h]
  simp only [hcolon, hdot, h, if_false, if_true]

/-! ## Words and numbers -/

theorem isWord_keyword (k : Keyword) : Text.IsWord k.text.toList := by
  constructor
  · cases k <;> exact ⟨_, rfl, by decide⟩
  · exact List.all_eq_true.1 (by cases k <;> decide)

theorem ofWord_text (k : Keyword) : ofWord (.ofList k.text.toList) = .keyword k := by
  rw [String.ofList_toList, ofWord, Keyword.ofText?_text]

theorem ofWord_of_ne {word : List Char} (h : ∀ k : Keyword, k.text.toList ≠ word) :
    ofWord (.ofList word) = .name (.ofList word) := by
  unfold ofWord
  split
  · next k hk => exact absurd (by rw [Keyword.text_of_ofText? hk, String.toList_ofList]) (h k)
  · rfl

/-- Every word is written as a keyword or as a name. -/
theorem written_ofWord {word : List Char} (h : Text.IsWord word) :
    (ofWord (.ofList word)).Written word := by
  by_cases hk : ∃ k : Keyword, k.text.toList = word
  · obtain ⟨k, rfl⟩ := hk
    rw [ofWord_text]
    exact .keyword k
  · have hne : ∀ k : Keyword, k.text.toList ≠ word := fun k e => hk ⟨k, e⟩
    rw [ofWord_of_ne hne]
    exact .name h hne

theorem recognize_word {word after : List Char} {c : Char} {cs : List Char}
    (hword : Text.IsWord word) (hafter : ∀ d ∈ after.head?, Text.isNamePart d = false)
    (heq : word ++ after = c :: cs) :
    recognize c cs = .lexeme (ofWord (.ofList word)) word.length := by
  rw [recognize_of_isNameStart (hword.isNameStart heq), Recognized.word, ← heq,
    Gap.takeWhile_append_eq hword.part hafter]

theorem recognize_number {word after : List Char} {c : Char} {cs : List Char} (hne : word ≠ [])
    (hword : ∀ d ∈ word, d.isDigit)
    (hafter : ∀ d ∈ after.head?, d.isDigit = false ∧ Text.isNameStart d = false)
    (heq : word ++ after = c :: cs) :
    recognize c cs = .lexeme (.int (.ofList word)) word.length := by
  have hc : c.isDigit := by
    obtain ⟨d, word', rfl⟩ := List.exists_cons_of_ne_nil hne
    obtain ⟨rfl, -⟩ := List.cons.inj heq
    exact hword _ List.mem_cons_self
  have hdigit : ∀ d ∈ after.head?, d.isDigit = false := fun d hd => (hafter d hd).1
  rw [recognize_of_isDigit hc, Recognized.number, ← heq, Gap.takeWhile_append_eq hword hdigit,
    Gap.dropWhile_append_eq hword hdigit]
  cases hh : after.head? with
  | none => rfl
  | some e => simp [(hafter e hh).2]

/-! ## Text literals -/

/-- The content of a text literal is read to where its spelling ends. -/
theorem text_append {body content : List Char} (h : Spells body content) (read : List Char)
    (n : Nat) (after : List Char) :
    Recognized.text read n (body ++ after) =
      Recognized.text (content.reverse ++ read) (n + body.length) after := by
  induction h generalizing read n with
  | nil => rfl
  | plain hquote hline hslash _ ih =>
    rw [List.cons_append, Recognized.text.eq_def]
    simp only [hquote, hline, hslash, if_false, ih]
    simp [Nat.add_comm, Nat.add_left_comm]
  | escape he _ ih =>
    rw [List.cons_append, List.cons_append, Recognized.text, if_neg (by decide),
      if_neg (by decide), if_pos rfl, he]
    simp only [ih]
    simp [Nat.add_comm, Nat.add_left_comm]

/-- A spelling of content goes on up to a quote, a line feed, an unknown escape, or the end of
    the text. -/
theorem exists_spells (text : List Char) : ∃ body content after, text = body ++ after ∧
    Spells body content ∧ ((∀ c ∈ after.head?, c = '"' ∨ c = '\n') ∨
      ∃ rest, after = '\\' :: rest ∧ ∀ e ∈ rest.head?, unescape? e = none) := by
  match text with
  | [] => exact ⟨[], [], [], rfl, .nil, .inl nofun⟩
  | c :: cs =>
    by_cases hend : c = '"' ∨ c = '\n'
    · exact ⟨[], [], c :: cs, rfl, .nil, .inl fun d hd => by
        obtain rfl : c = d := by simpa using hd
        exact hend⟩
    obtain ⟨hquote, hline⟩ := not_or.1 hend
    by_cases hslash : c = '\\'
    · subst hslash
      match cs with
      | [] => exact ⟨[], [], _, rfl, .nil, .inr ⟨[], rfl, nofun⟩⟩
      | e :: cs =>
        cases he : unescape? e with
        | none =>
          refine ⟨[], [], _, rfl, .nil, .inr ⟨e :: cs, rfl, fun d hd => ?_⟩⟩
          obtain rfl : e = d := by simpa using hd
          exact he
        | some meant =>
          obtain ⟨body, content, after, h, hspells, hafter⟩ := exists_spells cs
          exact ⟨'\\' :: e :: body, meant :: content, after, by simp [h], .escape he hspells,
            hafter⟩
    · obtain ⟨body, content, after, h, hspells, hafter⟩ := exists_spells cs
      exact ⟨c :: body, c :: content, after, by simp [h], .plain hquote hline hslash hspells,
        hafter⟩
termination_by text.length

theorem recognize_quote (cs : List Char) : recognize '"' cs = Recognized.text [] 1 cs := by
  rw [recognize, show Symbol.ofChar? '"' = none from rfl]
  simp only [show Text.isNameStart '"' = false by decide, show ('"').isDigit = false by decide,
    if_false, if_true, Char.reduceEq, Bool.false_eq_true]

theorem recognize_text {body content after : List Char} {c : Char} {cs : List Char}
    (h : Spells body content) (heq : '"' :: (body ++ ['"']) ++ after = c :: cs) :
    recognize c cs = .lexeme (.text (.ofList content)) ('"' :: (body ++ ['"'])).length := by
  rw [List.cons_append, List.append_assoc, List.cons.injEq] at heq
  obtain ⟨rfl, rfl⟩ := heq
  rw [recognize_quote, text_append h, List.singleton_append, Recognized.text.eq_def]
  simp [Nat.add_comm]

/-! ## Recognizing what is written -/

/-- What may come after a lexeme that is recognized. -/
def EndsBefore (l : Lexeme) (after : List Char) : Prop :=
  ∀ c ∈ after.head?, match l with
    | .symbol .colon => c ≠ '='
    | .keyword _ => Text.isNamePart c = false
    | .name _ => Text.isNamePart c = false
    | .int _ => c.isDigit = false ∧ Text.isNameStart c = false
    | _ => True

/-- A lexeme is recognized where it is written, if nothing after it goes on with it. -/
theorem recognize_of_endsBefore {l : Lexeme} {word after : List Char} {c : Char} {cs : List Char}
    (h : l.Written word) (hafter : l.EndsBefore after) (heq : word ++ after = c :: cs) :
    recognize c cs = .lexeme l word.length := by
  cases h with
  | symbol s =>
    rcases text_cases s with ⟨d, hd, hs⟩ | rfl | rfl | rfl
    · rw [hd] at heq
      cases heq
      rw [recognize, hs, hd, List.length_singleton]
    · change [':'] ++ after = c :: cs at heq
      rw [List.singleton_append, List.cons.injEq] at heq
      obtain ⟨rfl, rfl⟩ := heq
      rw [recognize, show Symbol.ofChar? ':' = none from rfl]
      dsimp only
      rw [if_pos rfl, if_neg fun e : after.head? = some '=' => hafter '=' e rfl]
      rfl
    · change [':', '='] ++ after = c :: cs at heq
      cases heq
      rfl
    · change ['.', '.'] ++ after = c :: cs at heq
      cases heq
      rfl
  | keyword k =>
    rw [← ofWord_text k]
    exact recognize_word (isWord_keyword k) hafter heq
  | name hword hne =>
    rw [← ofWord_of_ne hne]
    exact recognize_word hword hafter heq
  | int hne hword => exact recognize_number hne hword hafter heq
  | text hspells => exact recognize_text hspells heq

/-- No lexeme that is written at the start of a text is longer than the one that is recognized. -/
theorem length_le_of_recognize {l l' : Lexeme} {word : List Char} {c : Char} {cs : List Char}
    {k : Nat} (h : recognize c cs = .lexeme l k) (hw : l'.Written word) (hp : word <+: c :: cs) :
    word.length ≤ k := by
  have hpos := length_pos_of_recognize h
  obtain ⟨after, heq⟩ := hp
  -- A word takes all that may stand in a name, so it takes all of another word.
  have hwords (hword : Text.IsWord word) : word.length ≤ k := by
    rw [recognize_of_isNameStart (hword.isNameStart heq), Recognized.word, ← heq,
      List.takeWhile_append_of_pos hword.part] at h
    cases h
    simp
  cases hw with
  | symbol s =>
    rcases text_cases s with ⟨d, hd, hs⟩ | rfl | rfl | rfl
    · rwa [hd]
    · exact hpos
    · change [':', '='] ++ after = c :: cs at heq
      cases heq
      cases h
      exact Nat.le_refl 2
    · change ['.', '.'] ++ after = c :: cs at heq
      cases heq
      cases h
      exact Nat.le_refl 2
  | keyword k => exact hwords (isWord_keyword k)
  | name hword hne => exact hwords hword
  | int hne hword =>
    have hc : c.isDigit := by
      obtain ⟨d, word', rfl⟩ := List.exists_cons_of_ne_nil hne
      obtain ⟨rfl, -⟩ := List.cons.inj heq
      exact hword _ List.mem_cons_self
    rw [recognize_of_isDigit hc] at h
    rw [Recognized.length_of_number h, ← heq, List.takeWhile_append_of_pos hword]
    simp
  | text hspells =>
    rw [recognize_text hspells heq] at h
    cases h
    exact Nat.le_refl _

/-- After the longest lexeme comes nothing that goes on with it. -/
theorem Maximal.endsBefore {l : Lexeme} {word after : List Char} (h : l.Maximal word after) :
    l.EndsBefore after := by
  intro c hc
  obtain ⟨rest, rfl⟩ : ∃ rest, after = c :: rest := by
    cases after with
    | nil => cases hc
    | cons d rest => exact ⟨rest, by simpa using hc⟩
  -- With the next character, there would be no longer lexeme.
  have hlong : ∀ l' : Lexeme, ¬ l'.Written (word ++ [c]) := fun l' hw => by
    have hle := h.longest l' _ hw ⟨rest, by simp⟩
    rw [List.length_append, List.length_singleton] at hle
    omega
  have hword (hw : Text.IsWord word) : Text.isNamePart c = false := by
    refine Bool.eq_false_iff.2 fun hpart => hlong _ (written_ofWord ⟨?_, ?_⟩)
    · obtain ⟨d, hd, hstart⟩ := hw.start
      exact ⟨d, by rw [List.head?_append, Option.mem_def.1 hd]; rfl, hstart⟩
    · simpa [or_imp, forall_and] using ⟨hw.part, hpart⟩
  obtain ⟨hw, -, hapart, -⟩ := h
  cases hw with
  | symbol s =>
    cases s
    case colon =>
      rintro rfl
      exact hlong _ (.symbol .assign)
    all_goals trivial
  | keyword k => exact hword (isWord_keyword k)
  | name hw _ => exact hword hw
  | int hne hdigits =>
    refine ⟨Bool.eq_false_iff.2 fun hd => hlong _ (.int (by simp) ?_), hapart rfl c rfl⟩
    simpa [or_imp, forall_and] using ⟨hdigits, hd⟩
  | text _ => trivial

/-! ## What is recognized -/

/-- The lexeme `l` is written with length `k` at the start of a text, apart from what comes after
    it if it is a number. -/
def Starts (l : Lexeme) (k : Nat) (text : List Char) : Prop :=
  ∃ word after, text = word ++ after ∧ word.length = k ∧ l.Written word ∧
    (l.kind = .int → ∀ c ∈ after.head?, Text.isNameStart c = false)

theorem starts_symbol {s : Symbol} {word : List Char} (h : s.text.toList = word)
    (after : List Char) : Starts (.symbol s) word.length (word ++ after) :=
  ⟨word, after, rfl, rfl, h ▸ .symbol s, fun hkind => by cases hkind⟩

theorem starts_number {c : Char} {cs : List Char} {l : Lexeme} {k : Nat} (hc : c.isDigit)
    (h : Recognized.number (c :: cs) = .lexeme l k) : Starts l k (c :: cs) := by
  have hne : (c :: cs).takeWhile Char.isDigit ≠ [] := by simp [hc]
  have hdigits := List.all_eq_true.1 (List.all_takeWhile (p := Char.isDigit) (l := c :: cs))
  refine ⟨_, _, List.takeWhile_append_dropWhile.symm, (Recognized.length_of_number h).symm, ?_⟩
  unfold Recognized.number at h
  dsimp only at h
  split at h
  · next d hhead =>
    -- A number with a letter right after it is a fault.
    split at h
    · cases h
    · next hstart =>
      cases h
      refine ⟨.int hne hdigits, fun _ e he => ?_⟩
      obtain rfl : d = e := Option.some.inj (hhead.symm.trans he)
      exact Bool.eq_false_iff.2 hstart
  · next hhead =>
    cases h
    refine ⟨.int hne hdigits, fun _ e he => ?_⟩
    cases hhead.symm.trans he

theorem starts_word {c : Char} {cs : List Char} {l : Lexeme} {k : Nat} (hc : Text.isNameStart c)
    (h : Recognized.word (c :: cs) = .lexeme l k) : Starts l k (c :: cs) := by
  cases h
  have hpart := Text.isNamePart_of_isNameStart hc
  refine ⟨_, _, List.takeWhile_append_dropWhile.symm, rfl, written_ofWord ⟨?_, ?_⟩, ?_⟩
  · exact ⟨c, by simp [hpart], hc⟩
  · exact List.all_eq_true.1 List.all_takeWhile
  · intro hkind
    unfold ofWord at hkind
    split at hkind <;> cases hkind

theorem starts_text {cs : List Char} {l : Lexeme} {k : Nat}
    (h : Recognized.text [] 1 cs = .lexeme l k) : Starts l k ('"' :: cs) := by
  obtain ⟨body, content, after, rfl, hspells, hafter⟩ := exists_spells cs
  rw [text_append hspells, Recognized.text.eq_def] at h
  -- After the spelling comes the closing quote, as there would be a fault otherwise.
  rcases hafter with hafter | ⟨rest, rfl, hrest⟩
  · cases after with
    | nil => cases h
    | cons d after =>
      rcases hafter d rfl with rfl | rfl
      · cases h
        refine ⟨'"' :: (body ++ ['"']), after, by simp, by simp; omega, ?_, fun hkind => ?_⟩
        · simpa using Written.text hspells
        · cases hkind
      · cases h
  · cases rest with
    | nil => cases h
    | cons e rest => simp [hrest e rfl] at h

/-- What is recognized is written at the start of the text. -/
theorem starts_of_recognize {l : Lexeme} {c : Char} {cs : List Char} {k : Nat}
    (h : recognize c cs = .lexeme l k) : Starts l k (c :: cs) := by
  unfold recognize at h
  split at h
  · next s hs =>
    cases h
    exact starts_symbol (text_of_ofChar? hs).1 cs
  split at h
  · next hc =>
    subst hc
    split at h
    · next heq =>
      cases h
      obtain ⟨rest, rfl⟩ := List.head?_eq_some_iff.1 heq
      exact starts_symbol (s := .assign) rfl rest
    · cases h
      exact starts_symbol (s := .colon) rfl cs
  split at h
  · next hc =>
    subst hc
    split at h
    · next heq =>
      cases h
      obtain ⟨rest, rfl⟩ := List.head?_eq_some_iff.1 heq
      exact starts_symbol (s := .range) rfl rest
    · cases h
  split at h
  · next hc => exact starts_number hc h
  split at h
  · next hc => exact starts_word hc h
  split at h
  · next hc => exact hc ▸ starts_text h
  · cases h

/-- What is recognized where no gap is left is the longest lexeme that is written there. -/
theorem maximal_of_recognize {l : Lexeme} {c : Char} {cs : List Char} {k : Nat}
    (hover : Gap.Over (c :: cs)) (h : recognize c cs = .lexeme l k) :
    ∃ word after, c :: cs = word ++ after ∧ word.length = k ∧ l.Maximal word after := by
  obtain ⟨word, after, heq, hk, hw, hapart⟩ := starts_of_recognize h
  refine ⟨word, after, heq, hk, hw, fun l' word' hw' hp => ?_, hapart, ?_⟩
  · exact hk ▸ length_le_of_recognize h hw' (heq ▸ hp)
  · -- Before another slash or a star, the slash would be the start of a comment.
    rintro rfl d hd
    cases hw
    change c :: cs = ['/'] ++ after at heq
    rw [List.singleton_append, List.cons.injEq] at heq
    obtain ⟨rfl, rfl⟩ := heq
    constructor
    · rintro rfl
      exact hover.not_line (Gap.isPrefix_pair_iff.2 ⟨rfl, hd⟩)
    · rintro rfl
      exact hover.not_block (Gap.isPrefix_pair_iff.2 ⟨rfl, hd⟩)

/-! ## The longest lexeme -/

theorem Written.ne_nil {l : Lexeme} {word : List Char} (h : l.Written word) : word ≠ [] := by
  cases h with
  | symbol s => cases s <;> decide
  | keyword k => cases k <;> decide
  | name hword _ =>
    obtain ⟨c, hc, -⟩ := hword.start
    rintro rfl
    cases hc
  | int hne _ => exact hne
  | text _ => exact List.cons_ne_nil _ _

/-- A lexeme is the longest one where it is written, if nothing after it goes on with it. -/
theorem Written.maximal {l : Lexeme} {word after : List Char} (h : l.Written word)
    (hafter : l.EndsBefore after)
    (hslash : l = .symbol .slash → ∀ c ∈ after.head?, c ≠ '/' ∧ c ≠ '*') :
    l.Maximal word after := by
  obtain ⟨c, cs, hc⟩ := List.exists_cons_of_ne_nil
    (List.append_ne_nil_of_left_ne_nil h.ne_nil after)
  have hl := recognize_of_endsBefore h hafter hc
  refine ⟨h, fun l' word' hw hp => length_le_of_recognize hl hw (hc ▸ hp), ?_, hslash⟩
  intro hkind d hd
  cases l <;> cases hkind
  exact (hafter d hd).2

theorem Maximal.recognize {l : Lexeme} {word after : List Char} {c : Char} {cs : List Char}
    (h : l.Maximal word after) (heq : word ++ after = c :: cs) :
    MiniPL.recognize c cs = .lexeme l word.length :=
  recognize_of_endsBefore h.written h.endsBefore heq

/-- A text starts with one longest lexeme at most. -/
theorem Maximal.unique {l l' : Lexeme} {word after word' after' : List Char}
    (h : l.Maximal word after) (h' : l'.Maximal word' after')
    (heq : word ++ after = word' ++ after') : l = l' ∧ word = word' ∧ after = after' := by
  obtain ⟨c, cs, hc⟩ := List.exists_cons_of_ne_nil
    (List.append_ne_nil_of_left_ne_nil h.written.ne_nil after)
  have hl := (h.recognize hc).symm.trans (h'.recognize (heq ▸ hc))
  obtain ⟨rfl, hlength⟩ := Recognized.lexeme.inj hl
  exact ⟨rfl, List.append_inj heq hlength⟩

theorem over_isWord {word : List Char} (h : Text.IsWord word) (after : List Char) :
    Gap.Over (word ++ after) := by
  obtain ⟨c, hc, hstart⟩ := h.start
  obtain ⟨rest, rfl⟩ := List.head?_eq_some_iff.1 hc
  have hle := le_toNat_of_isNameStart hstart
  refine Gap.over_cons (Bool.eq_false_iff.2 fun hs => ?_) ?_
  · simp only [Gap.isSpace, Bool.or_eq_true, beq_iff_eq] at hs
    rcases hs with (rfl | rfl) | rfl <;> exact absurd hle (by decide)
  · rintro rfl
    exact absurd hle (by decide)

theorem over_cons_isDigit {c : Char} (h : c.isDigit) (cs : List Char) : Gap.Over (c :: cs) := by
  refine Gap.over_cons (Bool.eq_false_iff.2 fun hs => ?_) ?_
  · simp only [Gap.isSpace, Bool.or_eq_true, beq_iff_eq] at hs
    rcases hs with (rfl | rfl) | rfl <;> simp at h
  · rintro rfl
    simp at h

/-- Where there is a longest lexeme, no gap is left. -/
theorem Maximal.over {l : Lexeme} {word after : List Char} (h : l.Maximal word after) :
    Gap.Over (word ++ after) := by
  obtain ⟨hw, -, -, hnoComment⟩ := h
  cases hw with
  | symbol s =>
    cases s
    case slash =>
      change Gap.Over (['/'] ++ after)
      refine ⟨by simp [Gap.isSpace], fun hp => ?_, fun hp => ?_⟩
      · exact (hnoComment rfl _ (Gap.isPrefix_pair_iff.1 hp).2).1 rfl
      · exact (hnoComment rfl _ (Gap.isPrefix_pair_iff.1 hp).2).2 rfl
    all_goals exact Gap.over_cons (by decide) (by decide)
  | keyword k => exact over_isWord (isWord_keyword k) after
  | name hword _ => exact over_isWord hword after
  | int hne hword =>
    obtain ⟨d, word, rfl⟩ := List.exists_cons_of_ne_nil hne
    exact over_cons_isDigit (hword d List.mem_cons_self) _
  | text _ => exact Gap.over_cons (by decide) (by decide)

end Lexeme

end MiniPL
