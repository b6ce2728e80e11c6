import Mathlib.Data.List.Induction
import Mathlib.Data.Nat.Digits.Defs
import MiniPL.Proofs.Token.Gaps
import MiniPL.Text.Numeral

/-!
# Integers on lines

A line may hold an integer if it is made of blanks, a sign that may be missing, digits, and blanks
again (`Numeral.Spells`). There is only one way to cut a line into such parts, and
`Numeral.ofLine?` finds it (`Numeral.ofLine?_eq_some_iff`).

Such a line is not always read: its blanks must not be separators (`Numeral.Clean`), and its digits
must not be too many. If it is read, then as the integer that the sign and the digits stand for
(`Numeral.signed`, `Numeral.value_eq_ok`), and otherwise with a fault that tells why
(`Numeral.exists_value_eq_error`).

An integer that is written is spelled, without blanks. So, with blanks around it, it is read as
what it was (`Numeral.spells_around`, `Numeral.signed_around`).
-/

namespace MiniPL.Text

variable {line : String} {cs : List Char}

/-- A digit is no blank. -/
theorem isBlank_eq_false_of_isDigit {c : Char} (h : c.isDigit) : isBlank c = false := by
  simp only [Char.isDigit, Bool.and_eq_true, decide_eq_true_eq, ge_iff_le,
    UInt32.le_iff_toNat_le] at h
  refine Bool.eq_false_iff.2 fun hblank => ?_
  obtain ⟨range, hrange, hlow, hhigh⟩ := Ranges.contains_iff.1 hblank
  have hall : ∀ range ∈ blankRanges, range.2 < 48 ∨ 57 < range.1 := by decide
  have hlt := hall range hrange
  have hc : 48 ≤ c.toNat ∧ c.toNat ≤ 57 := h
  omega

/-- The value of a row of digits, from the digit of the least weight on. -/
theorem digitsValue_eq (digits : List Char) :
    digitsValue digits = Nat.ofDigits 10 (digits.reverse.map fun c => c.toNat - '0'.toNat) := by
  induction digits using List.reverseRecOn with
  | nil => rfl
  | append_singleton digits c ih =>
    have hvalue : digitsValue (digits ++ [c]) = 10 * digitsValue digits + (c.toNat - '0'.toNat) :=
      List.foldl_append
    rw [hvalue, ih, List.reverse_append, List.reverse_singleton, List.singleton_append,
      List.map_cons, Nat.ofDigits_cons, Nat.add_comm]

/-- An integer of not too many digits is written. -/
theorem writeInt_eq_ok {n : Int} (h : (Nat.toDigits 10 n.natAbs).length ≤ digitLimit) :
    writeInt n = .ok (toString n) := by
  rw [← Nat.toList_repr, String.length_toList] at h
  exact if_pos h

namespace Numeral

variable {parts : Numeral}

/-! ## The parts of a line -/

/-- How a sign is written, if it is. -/
inductive Sign : (negative : Bool) → List Char → Prop
  | minus : Sign true ['-']
  | plus : Sign false ['+']
  | missing : Sign false []

/-- The line is made of the parts. -/
structure Spells (parts : Numeral) (line : String) : Prop where
  blank_before : ∀ c ∈ parts.before, isBlank c
  digits_ne_nil : parts.digits ≠ []
  isDigit_digits : ∀ c ∈ parts.digits, c.isDigit
  blank_after : ∀ c ∈ parts.after, isBlank c
  exists_sign : ∃ sign, Sign parts.negative sign ∧
    line.toList = parts.before ++ (sign ++ (parts.digits ++ parts.after))

theorem exists_sign_append (cs : List Char) :
    ∃ sign, Sign (splitSign cs).1 sign ∧ cs = sign ++ (splitSign cs).2 := by
  unfold splitSign
  split
  · exact ⟨_, .minus, rfl⟩
  · exact ⟨_, .plus, rfl⟩
  · exact ⟨_, .missing, rfl⟩

/-- A sign is split off from digits. -/
theorem Sign.splitSign_append {negative : Bool} {sign : List Char} (h : Sign negative sign)
    (hcs : ∀ c ∈ cs.head?, c.isDigit) : splitSign (sign ++ cs) = (negative, cs) := by
  cases h with
  | minus => rfl
  | plus => rfl
  | missing =>
    rw [List.nil_append]
    unfold splitSign
    split
    · exact absurd (hcs '-' rfl) (by decide)
    · exact absurd (hcs '+' rfl) (by decide)
    · rfl

/-- Neither a sign nor a digit is a blank. -/
theorem Sign.isBlank_head? {negative : Bool} {sign : List Char} (h : Sign negative sign)
    (hcs : ∀ c ∈ cs.head?, c.isDigit) : ∀ c ∈ (sign ++ cs).head?, isBlank c = false := by
  cases h with
  | minus => rintro c ⟨⟩; decide
  | plus => rintro c ⟨⟩; decide
  | missing => exact fun c hc => isBlank_eq_false_of_isDigit (hcs c hc)

/-- The parts that are found are those of which the line is made. -/
theorem ofLine?_eq_some_iff : ofLine? line = some parts ↔ parts.Spells line := by
  constructor
  · intro h
    unfold ofLine? at h
    dsimp only at h
    split at h
    · next hparts =>
      cases h
      obtain ⟨sign, hsign, heq⟩ := exists_sign_append (line.toList.dropWhile isBlank)
      refine ⟨List.all_eq_true.1 List.all_takeWhile, hparts.1, List.all_eq_true.1 List.all_takeWhile,
        List.all_eq_true.1 hparts.2, sign, hsign, ?_⟩
      rw [List.takeWhile_append_dropWhile, ← heq, List.takeWhile_append_dropWhile]
    · cases h
  · rintro ⟨hbefore, hne, hdigits, hafter, sign, hsign, hline⟩
    obtain ⟨before, negative, digits, after⟩ := parts
    dsimp only at *
    have hhead : ∀ c ∈ (digits ++ after).head?, c.isDigit := by
      obtain ⟨d, ds, rfl⟩ := List.exists_cons_of_ne_nil hne
      rintro c ⟨⟩
      exact hdigits d List.mem_cons_self
    have hend : ∀ c ∈ after.head?, c.isDigit = false := by
      refine fun c hc => Bool.eq_false_iff.2 fun hdigit => ?_
      have hblank := hafter c (List.mem_of_mem_head? hc)
      rw [isBlank_eq_false_of_isDigit hdigit] at hblank
      cases hblank
    have hblanks := hsign.isBlank_head? hhead
    unfold ofLine?
    rw [hline, Gap.takeWhile_append_eq hbefore hblanks, Gap.dropWhile_append_eq hbefore hblanks,
      hsign.splitSign_append hhead]
    dsimp only
    rw [Gap.takeWhile_append_eq hdigits hend, Gap.dropWhile_append_eq hdigits hend,
      if_pos ⟨hne, List.all_eq_true.2 hafter⟩]

theorem ofLine?_eq_none_iff : ofLine? line = none ↔ ∀ parts : Numeral, ¬ parts.Spells line := by
  simp only [Option.eq_none_iff_forall_ne_some, ne_eq, ofLine?_eq_some_iff]

/-! ## Values -/

/-- The integer that the sign and the digits stand for. -/
def signed (parts : Numeral) : Int :=
  let n : Nat := Nat.ofDigits 10 (parts.digits.reverse.map fun c => c.toNat - '0'.toNat)
  if parts.negative then -n else n

/-- There are no separators among the blanks. -/
def Clean (parts : Numeral) : Prop := ∀ c ∈ parts.before ++ parts.after, isSeparator c = false

instance : Decidable parts.Clean := List.decidableBAll _ _

theorem clean_iff :
    parts.Clean ↔ parts.before.any isSeparator = false ∧ parts.after.any isSeparator = false := by
  simp only [Clean, List.forall_mem_append, List.any_eq_false, Bool.not_eq_true]

/-- A line with clean blanks and not too many digits is read. -/
theorem value_eq_ok (hclean : parts.Clean) (hlength : parts.digits.length ≤ digitLimit)
    (line : String) : parts.value line = .ok parts.signed := by
  obtain ⟨hbefore, hafter⟩ := clean_iff.1 hclean
  rw [value, readDigits, if_pos hlength, digitsValue_eq, hbefore, hafter]
  rfl

/-- The fault of another line is about its blanks or about its digits. -/
theorem exists_value_eq_error (h : ¬ (parts.Clean ∧ parts.digits.length ≤ digitLimit))
    (line : String) :
    ∃ c, parts.value line = .error c ∧
      (c = .notANumber line ∧ ¬ parts.Clean ∨
        c = .tooManyDigits parts.digits.length ∧ digitLimit < parts.digits.length) := by
  by_cases hbefore : parts.before.any isSeparator
  · refine ⟨.notANumber line, ?_, .inl ⟨rfl, fun hclean => ?_⟩⟩
    · rw [value, hbefore]
      rfl
    · rw [(clean_iff.1 hclean).1] at hbefore
      cases hbefore
  rw [Bool.not_eq_true] at hbefore
  by_cases hlength : parts.digits.length ≤ digitLimit
  · -- The digits are read, so it is for the blanks after them.
    have hclean : ¬ parts.Clean := fun hclean => h ⟨hclean, hlength⟩
    have hafter : parts.after.any isSeparator = true := by
      rw [← Bool.not_eq_false]
      exact fun hafter => hclean (clean_iff.2 ⟨hbefore, hafter⟩)
    refine ⟨.notANumber line, ?_, .inl ⟨rfl, hclean⟩⟩
    rw [value, readDigits, if_pos hlength, hbefore, hafter]
    rfl
  · refine ⟨.tooManyDigits parts.digits.length, ?_, .inr ⟨rfl, Nat.not_le.1 hlength⟩⟩
    rw [value, readDigits, if_neg hlength, hbefore]
    rfl

/-! ## Integers that are written -/

/-- The integer `n` with blanks around it. -/
def around (before : List Char) (n : Int) (after : List Char) : Numeral :=
  ⟨before, decide (n < 0), Nat.toDigits 10 n.natAbs, after⟩

theorem toList_toString (n : Int) :
    ∃ sign, Sign (decide (n < 0)) sign ∧
      (toString n).toList = sign ++ Nat.toDigits 10 n.natAbs := by
  rw [Int.toString_eq_repr, Int.repr_eq_if]
  by_cases hn : n < 0
  · have hnat : (-n).toNat = n.natAbs := by omega
    refine ⟨['-'], decide_eq_true hn ▸ .minus, ?_⟩
    rw [if_neg (by omega), String.toList_append, Nat.toList_repr, hnat]
    rfl
  · have hnat : n.toNat = n.natAbs := by omega
    refine ⟨[], decide_eq_false hn ▸ .missing, ?_⟩
    rw [if_pos (by omega), Nat.toList_repr, hnat, List.nil_append]

/-- An integer that is written on a line, and the blanks around it, are the parts of the line. -/
theorem spells_around {before after : String} (n : Int) (hbefore : ∀ c ∈ before.toList, isBlank c)
    (hafter : ∀ c ∈ after.toList, isBlank c) :
    (around before.toList n after.toList).Spells (before ++ toString n ++ after) where
  blank_before := hbefore
  digits_ne_nil := Nat.toDigits_ne_nil
  isDigit_digits _ hc := Nat.isDigit_of_mem_toDigits (by decide) (by decide) hc
  blank_after := hafter
  exists_sign := by
    obtain ⟨sign, hsign, hn⟩ := toList_toString n
    refine ⟨sign, hsign, ?_⟩
    rw [String.toList_append, String.toList_append, hn, List.append_assoc, List.append_assoc]
    rfl

/-- The integer that is read is the one that was written. -/
theorem signed_around (before : List Char) (n : Int) (after : List Char) :
    (around before n after).signed = n := by
  have hdigits : digitsValue (Nat.toDigits 10 n.natAbs) = n.natAbs :=
    Nat.ofDigitChars_toDigits (by decide) (by decide)
  rw [signed, around, ← digitsValue_eq, hdigits]
  dsimp only
  split
  · next hn =>
    have := of_decide_eq_true hn
    omega
  · next hn =>
    rw [decide_eq_true_eq] at hn
    omega

end Numeral

end MiniPL.Text
