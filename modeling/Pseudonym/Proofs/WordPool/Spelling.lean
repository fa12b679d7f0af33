import Pseudonym.Proofs.Ledger
import Pseudonym.WordPool

/-! How pools spell what they give. A word with a number behind it is well formed whatever the word; two words
that do not end in digits are never spelled alike. -/
namespace Pseudonym

namespace Identifier

theorem notReservedOfDigit {name : String} {last : Char} (ends : name.toList.getLast? = some last)
    (digit : last.isDigit = true) : isReservedWord name = false := by
  have letters : ∀ word ∈ reservedWords, word.toList.getLast?.all fun c => !c.isDigit := by decide
  rw [isReservedWord, ← Bool.not_eq_true, List.contains_iff_mem]
  intro member
  have letter := letters name member
  rw [ends] at letter
  simp [digit] at letter

end Identifier

namespace WordPool

def digitsOf (round : Nat) : List Char := if round = 0 then [] else Nat.toDigits 10 round

theorem spelledLetters (round : Nat) (word : String) :
    (spell round word).toList = word.toList ++ digitsOf round := by
  unfold spell digitsOf
  split
  · rw [List.append_nil]
  · rw [String.toList_append, Nat.toString_eq_ofList_toDigits, String.toList_ofList]

theorem spelledLater {round : Nat} {word : String} (grammatical : Identifier.Grammatical word.toList)
    (later : round ≠ 0) : Identifier.isWellFormed (spell round word) = true := by
  have letters := spelledLetters round word
  rw [digitsOf, if_neg later] at letters
  have digits (c : Char) (member : c ∈ Nat.toDigits 10 round) : c.isDigit = true :=
    Nat.isDigit_of_mem_toDigits (by omega) (by omega) member
  rw [Identifier.isWellFormed, Identifier.isGrammatical, Bool.and_eq_true, Bool.not_eq_true', Identifier.spellsIff]
  constructor
  · rw [letters]
    generalize word.toList = chars at grammatical
    cases grammatical with
    | intro start parts =>
      refine .intro start fun c member => ?_
      rcases List.mem_append.mp member with inside | digit
      · exact parts c inside
      · simp [Identifier.isPart, digits c digit]
  · have ends := List.getLast?_eq_some_getLast (show Nat.toDigits 10 round ≠ [] from Nat.toDigits_ne_nil)
    refine Identifier.notReservedOfDigit ?_ (digits _ (List.getLast_mem Nat.toDigits_ne_nil))
    rw [letters, List.getLast?_append, ends]
    rfl

/-- Words that no round's number can be read into. -/
def Undigited (word : String) : Prop := ∀ last ∈ word.toList.getLast?, last.isDigit = false

theorem digitsAre {round : Nat} {c : Char} (member : c ∈ digitsOf round) : c.isDigit = true := by
  unfold digitsOf at member
  split at member
  · cases member
  · exact Nat.isDigit_of_mem_toDigits (by omega) (by omega) member

theorem digitsInjective {round other : Nat} (same : digitsOf round = digitsOf other) : round = other := by
  have number (n : Nat) : Nat.ofDigitChars 10 (digitsOf n) 0 = n := by
    unfold digitsOf
    split
    · next zero => rw [zero, Nat.ofDigitChars_nil]
    · exact Nat.ofDigitChars_ten_toDigits
  rw [← number round, same, number]

theorem undigitedShortest {word other : String} {round later : Nat} {more : List Char}
    (undigited : Undigited word) (longer : word.toList = other.toList ++ more)
    (digits : digitsOf later = more ++ digitsOf round) : more = [] := by
  rcases List.eq_nil_or_concat more with none | ⟨rest, last, rfl⟩
  · exact none
  · have digit : last.isDigit = true := by
      have member : last ∈ digitsOf later := by simp [digits]
      exact digitsAre member
    have letter := undigited last (by simp [longer])
    simp [digit] at letter

theorem spelledInjective {word other : String} {round later : Nat} (one : Undigited word) (two : Undigited other)
    (same : spell round word = spell later other) : round = later ∧ word = other := by
  have letters := congrArg String.toList same
  rw [spelledLetters, spelledLetters] at letters
  rcases List.append_eq_append_iff.mp letters with ⟨more, longer, digits⟩ | ⟨more, longer, digits⟩
  · cases undigitedShortest two longer digits
    exact ⟨digitsInjective digits, String.toList_injective (by simpa using longer.symm)⟩
  · cases undigitedShortest one longer digits
    exact ⟨(digitsInjective digits).symm, String.toList_injective (by simpa using longer)⟩

end WordPool
end Pseudonym
