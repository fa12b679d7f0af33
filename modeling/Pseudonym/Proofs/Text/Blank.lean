import Pseudonym.Text.Blank

/-! Trimming. Every text is what trimming leaves of it with white space around, and of a text without white space that
has some put around it trimming leaves that text. -/
namespace Pseudonym
namespace Blank

theorem visibleInked {c : Char} (low : 32 < c.toNat) (high : c.toNat < 133) : isBlank c = false := by
  simp [isBlank, ranges]
  omega

theorem digitInked {c : Char} (digit : c.isDigit) : isBlank c = false := by
  obtain ⟨low, high⟩ := Char.isDigit_iff_toNat.mp digit
  exact visibleInked (Nat.lt_of_lt_of_le (by decide) low) (Nat.lt_of_le_of_lt high (by decide))

theorem trimLeftPast {before : List Char} (blank : ∀ c ∈ before, isBlank c) (rest : List Char) :
    trimLeft (before ++ rest) = trimLeft rest :=
  List.dropWhile_append_of_pos blank

theorem trimLeftHere {chars : List Char} (inked : ∀ c ∈ chars.head?, isBlank c = false) : trimLeft chars = chars := by
  cases chars with
  | nil => rfl
  | cons first rest => exact List.dropWhile_cons_of_neg (by simp [inked first rfl])

theorem trimInside {before middle after : List Char} (blankBefore : ∀ c ∈ before, isBlank c)
    (blankAfter : ∀ c ∈ after, isBlank c) (filled : middle ≠ []) (inked : ∀ c ∈ middle, isBlank c = false) :
    trim (before ++ middle ++ after) = middle := by
  have first : trimLeft (middle ++ after) = middle ++ after := by
    refine trimLeftHere fun c here => inked c ?_
    rw [List.head?_append, List.head?_eq_some_head filled, Option.some_or] at here
    exact Option.mem_some.mp here ▸ List.head_mem filled
  have last : trimLeft middle.reverse = middle.reverse :=
    trimLeftHere fun c here => inked c (List.mem_reverse.mp (List.mem_of_mem_head? here))
  have blankReversed : ∀ c ∈ after.reverse, isBlank c := fun c inside => blankAfter c (List.mem_reverse.mp inside)
  rw [trim, List.append_assoc, trimLeftPast blankBefore, first, List.reverse_append, trimLeftPast blankReversed, last,
    List.reverse_reverse]

theorem trimSplits (chars : List Char) :
    ∃ before after, chars = before ++ trim chars ++ after ∧ (∀ c ∈ before, isBlank c) ∧ ∀ c ∈ after, isBlank c := by
  have blankFront (chars : List Char) : ∀ c ∈ chars.takeWhile isBlank, isBlank c :=
    List.all_eq_true.mp List.all_takeWhile
  refine ⟨chars.takeWhile isBlank, ((trimLeft chars).reverse.takeWhile isBlank).reverse, ?split, blankFront chars,
    fun c inside => blankFront _ c (List.mem_reverse.mp inside)⟩
  have front : chars.takeWhile isBlank ++ trimLeft chars = chars := List.takeWhile_append_dropWhile
  have back : (trimLeft chars).reverse.takeWhile isBlank ++ trimLeft (trimLeft chars).reverse =
      (trimLeft chars).reverse := List.takeWhile_append_dropWhile
  rw [List.append_assoc, trim, ← List.reverse_append, back, List.reverse_reverse, front]

end Blank
end Pseudonym
