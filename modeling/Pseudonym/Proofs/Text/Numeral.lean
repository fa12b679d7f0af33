import Mathlib.Data.List.Induction
import Pseudonym.Proofs.Text.Blank
import Pseudonym.Text.Numeral

/-! Numbers as texts spell them: white space around digits, which zeros and one plus sign may precede. Reading
finds the number of every spelling whose number fits, and reads nothing else. -/
namespace Pseudonym

namespace Numeral

structure Spelling where
  before : List Char
  plus : Bool
  zeros : Nat
  number : Nat
  after : List Char
  blankBefore : ∀ c ∈ before, Blank.isBlank c
  blankAfter : ∀ c ∈ after, Blank.isBlank c

namespace Spelling

def digits (spelling : Spelling) : List Char := List.replicate spelling.zeros '0' ++ Nat.toDigits 10 spelling.number

def signed (spelling : Spelling) : List Char := if spelling.plus then '+' :: spelling.digits else spelling.digits

def text (spelling : Spelling) : String := String.ofList (spelling.before ++ spelling.signed ++ spelling.after)

theorem digitsExist (spelling : Spelling) : spelling.digits ≠ [] := by
  simp [digits, Nat.toDigits_ne_nil]

theorem digitsOnly (spelling : Spelling) : ∀ c ∈ spelling.digits, c.isDigit := by
  intro c inside
  rcases List.mem_append.mp inside with zero | digit
  · rw [List.eq_of_mem_replicate zero]
    rfl
  · exact Nat.isDigit_of_mem_toDigits (by decide) (by decide) digit

theorem digitsValue (spelling : Spelling) : Nat.ofDigitChars 10 spelling.digits 0 = spelling.number := by
  rw [digits, Nat.ofDigitChars_append, Nat.ofDigitChars_replicate_zero, Nat.mul_zero, Nat.ofDigitChars_ten_toDigits]

theorem signedChars (spelling : Spelling) : ∀ c ∈ spelling.signed, c = '+' ∨ c.isDigit := by
  intro c inside
  rw [signed] at inside
  split at inside
  · exact (List.mem_cons.mp inside).imp_right (spelling.digitsOnly c)
  · exact .inr (spelling.digitsOnly c inside)

theorem digitsSigned (spelling : Spelling) : spelling.digits ⊆ spelling.signed := by
  rw [signed]
  split
  · exact List.subset_cons_self _ _
  · exact List.Subset.refl _

theorem signedRead (spelling : Spelling) :
    read? spelling.signed = if spelling.number < UInt64.size then some (.ofNat spelling.number) else none := by
  have filled : spelling.digits.isEmpty = false := by simp [spelling.digitsExist]
  have digital : spelling.digits.all Char.isDigit := by simpa using spelling.digitsOnly
  have unsigned (rest : List Char) : spelling.digits ≠ '+' :: rest := by
    intro same
    have plus : '+'.isDigit := spelling.digitsOnly '+' (by simp [same])
    exact absurd plus (by decide)
  cases sign : spelling.plus with
  | true => simp [read?, signed, sign, filled, digital, spelling.digitsValue]
  | false => simp [read?, signed, sign, filled, digital, spelling.digitsValue]

theorem trimmed (spelling : Spelling) : Blank.trim spelling.text.toList = spelling.signed := by
  rw [text, String.toList_ofList]
  refine Blank.trimInside spelling.blankBefore spelling.blankAfter ?filled ?inked
  case filled => exact fun empty => spelling.digitsExist (List.subset_nil.mp (empty ▸ spelling.digitsSigned))
  case inked =>
    intro c inside
    rcases spelling.signedChars c inside with rfl | digit
    · decide
    · exact Blank.digitInked digit

theorem readBack (spelling : Spelling) : read? (Blank.trim spelling.text.toList) =
    if spelling.number < UInt64.size then some (.ofNat spelling.number) else none := by
  rw [spelling.trimmed, spelling.signedRead]

end Spelling

theorem digitBounds {c : Char} (digit : c.isDigit) : '0'.toNat ≤ c.toNat ∧ c.toNat - '0'.toNat < 10 := by
  obtain ⟨low, high⟩ := Char.isDigit_iff_toNat.mp digit
  have nine : '9'.toNat = '0'.toNat + 9 := rfl
  omega

theorem digitOfValue {c : Char} (digit : c.isDigit) : Nat.toDigits 10 (c.toNat - '0'.toNat) = [c] := by
  obtain ⟨low, small⟩ := digitBounds digit
  have same : (Nat.digitChar (c.toNat - '0'.toNat)).toNat = c.toNat := by
    rw [Nat.toNat_digitChar_of_lt_ten small]
    exact Nat.add_sub_of_le low
  rw [Nat.toDigits_of_lt_base small, Char.toNat_inj.mp same]

theorem digitsSpell {chars : List Char} (filled : chars ≠ []) (digits : ∀ c ∈ chars, c.isDigit) :
    ∃ zeros, chars = List.replicate zeros '0' ++ Nat.toDigits 10 (Nat.ofDigitChars 10 chars 0) := by
  -- The last digit is the remainder by ten, and the digits before it spell the quotient.
  induction chars using List.reverseRecOn with
  | nil => exact absurd rfl filled
  | append_singleton front last hyp =>
    have lastDigit : last.isDigit := digits last (by simp)
    have lastSpelled := digitOfValue lastDigit
    rw [Nat.ofDigitChars_append, Nat.ofDigitChars_cons, Nat.ofDigitChars_nil]
    by_cases alone : front = []
    · subst alone
      refine ⟨0, ?_⟩
      rw [Nat.ofDigitChars_nil, Nat.mul_zero, Nat.zero_add, lastSpelled]
      rfl
    obtain ⟨zeros, frontSpelled⟩ := hyp alone fun c inside => digits c (List.mem_append_left _ inside)
    rcases Nat.eq_zero_or_pos (Nat.ofDigitChars 10 front 0) with zero | positive
    · refine ⟨zeros + 1, ?_⟩
      rw [zero, Nat.toDigits_zero] at frontSpelled
      rw [zero, Nat.mul_zero, Nat.zero_add, lastSpelled, List.replicate_succ', ← frontSpelled]
    · refine ⟨zeros, ?_⟩
      rw [← Nat.toDigits_append_toDigits (by decide) positive (digitBounds lastDigit).2, lastSpelled,
        ← List.append_assoc, ← frontSpelled]

theorem readDigits {chars : List Char} {value : UInt64} (read : read? chars = some value) :
    ∃ (plus : Bool) (digits : List Char), chars = (if plus then '+' :: digits else digits) ∧
      digits ≠ [] ∧ ∀ c ∈ digits, c.isDigit := by
  have accepted {digits : List Char} {fitting : Option UInt64} (read :
      (if digits.isEmpty || !digits.all Char.isDigit then none else fitting) = some value) :
      digits ≠ [] ∧ ∀ c ∈ digits, c.isDigit := by
    split at read
    next => nomatch read
    next fine => simpa using fine
  unfold read? at read
  split at read
  next rest => exact ⟨true, rest, rfl, accepted read⟩
  next => exact ⟨false, chars, rfl, accepted read⟩

theorem spelled {content : String} {value : UInt64} (read : read? (Blank.trim content.toList) = some value) :
    ∃ spelling : Spelling, spelling.text = content := by
  obtain ⟨before, after, split, blankBefore, blankAfter⟩ := Blank.trimSplits content.toList
  obtain ⟨plus, digits, signed, filled, digital⟩ := readDigits read
  obtain ⟨zeros, digitsSpelled⟩ := digitsSpell filled digital
  refine ⟨⟨before, plus, zeros, Nat.ofDigitChars 10 digits 0, after, blankBefore, blankAfter⟩, ?_⟩
  rw [Spelling.text, Spelling.signed, Spelling.digits, ← digitsSpelled, ← signed, ← split, String.ofList_toList]

/-- What can be read as a number. -/
def Numbered (content : String) : Prop := ∃ spelling : Spelling, spelling.text = content ∧ spelling.number < UInt64.size

theorem numberedUnread {content : String} (other : ¬Numbered content) : read? (Blank.trim content.toList) = none := by
  rw [← Option.not_isSome_iff_eq_none, Option.isSome_iff_exists]
  rintro ⟨value, read⟩
  obtain ⟨spelling, rfl⟩ := spelled read
  rw [spelling.readBack] at read
  split at read
  next fits => exact other ⟨spelling, rfl, fits⟩
  next => nomatch read

theorem tooLarge (spelling : Spelling) (large : UInt64.size ≤ spelling.number) : ¬Numbered spelling.text := by
  rintro ⟨other, same, fits⟩
  have read := other.readBack
  rw [same, spelling.readBack, if_neg (Nat.not_lt.mpr large), if_pos fits] at read
  nomatch read

theorem minusUnnumbered {content : String} (minus : '-' ∈ content.toList) : ¬Numbered content := by
  rintro ⟨spelling, rfl, -⟩
  rw [Spelling.text, String.toList_ofList, List.mem_append, List.mem_append] at minus
  rcases minus with (before | signed) | after
  · exact absurd (spelling.blankBefore _ before) (by decide)
  · exact absurd (spelling.signedChars _ signed) (by decide)
  · exact absurd (spelling.blankAfter _ after) (by decide)

theorem digitlessUnnumbered {content : String} (digitless : ∀ c ∈ content.toList, c.isDigit = false) :
    ¬Numbered content := by
  rintro ⟨spelling, rfl, -⟩
  obtain ⟨digit, member⟩ := List.exists_mem_of_ne_nil _ spelling.digitsExist
  have inside : digit ∈ spelling.text.toList := by
    rw [Spelling.text, String.toList_ofList]
    exact List.mem_append_left _ (List.mem_append_right _ (spelling.digitsSigned member))
  exact absurd (spelling.digitsOnly digit member) (by simp [digitless digit inside])

end Numeral
end Pseudonym
