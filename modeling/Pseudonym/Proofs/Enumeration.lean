import Mathlib.Data.List.Nodup
import Pseudonym.Enumeration
import Pseudonym.Identifier

/-! What an enumeration lists. Over alphabets without repeats each word stands at one index, which can be read
off it, and longer words stand behind shorter ones. -/
namespace Pseudonym
namespace Enumeration

def place (rest : Array Char) : List Char → Nat
  | [] => 0
  | char :: chars => rest.toList.idxOf char + 1 + rest.size * place rest chars

def index (first rest : Array Char) : List Char → Nat
  | [] => 0
  | char :: chars => first.toList.idxOf char + first.size * place rest chars

inductive Writes (first rest : Array Char) : List Char → Prop where
  | intro {char : Char} {chars : List Char} (start : char ∈ first) (more : ∀ c ∈ chars, c ∈ rest) :
      Writes first rest (char :: chars)

theorem digitIff {items : Array Char} (distinct : items.toList.Nodup) {number above : Nat} {char : Char} :
    (items[number % items.size]? = some char ∧ number / items.size = above) ↔
      char ∈ items ∧ number = items.toList.idxOf char + items.size * above := by
  constructor
  · intro digit
    obtain ⟨found, rfl⟩ := digit
    have listed : items.toList[number % items.size]? = some char := by simpa using found
    obtain ⟨inside, same⟩ := List.getElem?_eq_some_iff.mp listed
    have place : items.toList.idxOf char = number % items.size := by
      rw [← same, distinct.idxOf_getElem]
    rw [place]
    exact ⟨Array.mem_of_getElem? found, (Nat.mod_add_div number items.size).symm⟩
  · intro reading
    obtain ⟨member, rfl⟩ := reading
    have inside : items.toList.idxOf char < items.size := by
      simpa using List.idxOf_lt_length_of_mem (Array.mem_def.mp member)
    have some : 0 < items.size := Nat.lt_of_le_of_lt (Nat.zero_le _) inside
    rw [Nat.add_mul_mod_self_left, Nat.mod_eq_of_lt inside, Nat.add_mul_div_left _ _ some,
      Nat.div_eq_of_lt inside, Nat.zero_add]
    exact ⟨by rw [← Array.getElem?_toList]; exact List.getElem?_idxOf (Array.mem_def.mp member), rfl⟩

theorem tailNil {rest : Array Char} {number : Nat} : tail? rest number = some [] ↔ number = 0 := by
  rw [tail?]
  split
  · simp [*]
  · simp [*, Option.bind_eq_some_iff]

theorem tailCons {rest : Array Char} {number : Nat} {char : Char} {chars : List Char} :
    tail? rest number = some (char :: chars) ↔ number ≠ 0 ∧
      rest[(number - 1) % rest.size]? = some char ∧ tail? rest ((number - 1) / rest.size) = some chars := by
  rw [tail?]
  split
  · simp [*]
  · simp [*, Option.bind_eq_some_iff]

theorem tailIff {rest : Array Char} (distinct : rest.toList.Nodup) {number : Nat} {chars : List Char} :
    tail? rest number = some chars ↔ (∀ c ∈ chars, c ∈ rest) ∧ place rest chars = number := by
  induction chars generalizing number with
  | nil => rw [tailNil, place, eq_comm (a := 0)]; simp
  | cons char chars ih =>
    have digit := @digitIff rest distinct (number - 1) (place rest chars) char
    rw [tailCons, ih, List.forall_mem_cons, place]
    constructor
    · intro written
      obtain ⟨some, found, more, above⟩ := written
      obtain ⟨member, same⟩ := digit.mp ⟨found, above.symm⟩
      exact ⟨⟨member, more⟩, by omega⟩
    · intro reading
      obtain ⟨⟨member, more⟩, same⟩ := reading
      obtain ⟨found, above⟩ := digit.mpr ⟨member, by omega⟩
      exact ⟨by omega, found, more, above.symm⟩

theorem encodeLetters {first rest : Array Char} {number : Nat} {word : String} :
    encode? first rest number = some word ↔ ∃ char chars, first[number % first.size]? = some char ∧
      tail? rest (number / first.size) = some chars ∧ word.toList = char :: chars := by
  have spelled (letters : List Char) : String.ofList letters = word ↔ word.toList = letters := by
    rw [← String.toList_inj, String.toList_ofList, eq_comm]
  simp only [encode?, bind, Option.bind_eq_some_iff, Option.some.injEq, spelled]
  simp only [exists_and_left]

theorem encodeIff {first rest : Array Char} (distinct : first.toList.Nodup) (others : rest.toList.Nodup)
    {number : Nat} {word : String} :
    encode? first rest number = some word ↔
      Writes first rest word.toList ∧ index first rest word.toList = number := by
  rw [encodeLetters]
  constructor
  · intro encoded
    obtain ⟨char, chars, found, tail, letters⟩ := encoded
    obtain ⟨more, above⟩ := (tailIff others).mp tail
    obtain ⟨member, same⟩ := (digitIff distinct).mp ⟨found, above.symm⟩
    rw [letters]
    exact ⟨.intro member more, same.symm⟩
  · intro reading
    obtain ⟨written, same⟩ := reading
    generalize word.toList = letters at written same
    cases written with
    | @intro char chars start more =>
      obtain ⟨found, above⟩ := (digitIff distinct).mpr ⟨start, same.symm⟩
      exact ⟨char, chars, found, (tailIff others).mpr ⟨more, above.symm⟩, rfl⟩

theorem tailLength {rest : Array Char} {number later : Nat} {chars more : List Char}
    (tail : tail? rest number = some chars) (behind : number ≤ later) (longer : tail? rest later = some more) :
    chars.length ≤ more.length := by
  induction chars generalizing number later more with
  | nil => simp
  | cons char chars ih =>
    obtain ⟨some, _, tail⟩ := tailCons.mp tail
    cases more with
    | nil =>
      have zero := tailNil.mp longer
      omega
    | cons other more =>
      obtain ⟨_, _, longer⟩ := tailCons.mp longer
      have shorter := ih tail (Nat.div_le_div_right (Nat.sub_le_sub_right behind 1)) longer
      simpa using shorter

theorem encodeLength {first rest : Array Char} {number later : Nat} {word other : String}
    (encoded : encode? first rest number = some word) (behind : number ≤ later)
    (longer : encode? first rest later = some other) : word.length ≤ other.length := by
  obtain ⟨_, chars, _, tail, letters⟩ := encodeLetters.mp encoded
  obtain ⟨_, more, _, others, spelled⟩ := encodeLetters.mp longer
  have lengths := tailLength tail (Nat.div_le_div_right behind) others
  simpa [← String.length_toList, letters, spelled] using lengths

end Enumeration

namespace Alphabets

structure Proper (alphabets : Alphabets) : Prop where
  distinct : alphabets.first.toList.Nodup
  others : alphabets.rest.toList.Nodup
  letters : ∀ c ∈ alphabets.first, c.isAlpha = true
  parts : ∀ c ∈ alphabets.rest, Identifier.isPart c = true

def Writes (alphabets : Alphabets) (word : String) : Prop :=
  Enumeration.Writes alphabets.first alphabets.rest word.toList

def index (alphabets : Alphabets) (word : String) : Nat :=
  Enumeration.index alphabets.first alphabets.rest word.toList

structure Reorders (alphabets others : Alphabets) : Prop where
  first : alphabets.first.Perm others.first
  rest : alphabets.rest.Perm others.rest

variable {alphabets : Alphabets}

theorem nameEncoded (alphabets : Alphabets) (number : Nat) :
    Enumeration.encode? alphabets.first alphabets.rest number = some (alphabets.name number) := by simp [name]

theorem nameIff (proper : alphabets.Proper) {number : Nat} {word : String} :
    alphabets.name number = word ↔ alphabets.Writes word ∧ alphabets.index word = number := by
  rw [Writes, index, ← Enumeration.encodeIff proper.distinct proper.others, nameEncoded, Option.some.injEq]

theorem nameInjective (proper : alphabets.Proper) : Function.Injective alphabets.name := by
  intro number other same
  have one := (nameIff proper).mp same
  have two := (nameIff proper).mp (rfl : alphabets.name other = alphabets.name other)
  exact one.2.symm.trans two.2

theorem nameWrites (proper : alphabets.Proper) (number : Nat) : alphabets.Writes (alphabets.name number) :=
  ((nameIff proper).mp rfl).1

theorem writtenName (proper : alphabets.Proper) {word : String} (written : alphabets.Writes word) :
    alphabets.name (alphabets.index word) = word := (nameIff proper).mpr ⟨written, rfl⟩

theorem nameLength (alphabets : Alphabets) {number later : Nat} (behind : number ≤ later) :
    (alphabets.name number).length ≤ (alphabets.name later).length :=
  Enumeration.encodeLength (alphabets.nameEncoded number) behind (alphabets.nameEncoded later)

theorem nameGrammatical (proper : alphabets.Proper) (number : Nat) :
    Identifier.Grammatical (alphabets.name number).toList := by
  have written := nameWrites proper number
  unfold Writes at written
  generalize (alphabets.name number).toList = letters at written
  cases written with
  | intro start more =>
    refine .intro ?_ fun c member => proper.parts c (more c member)
    simp [Identifier.isStart, proper.letters _ start]

theorem standardProper : standard.Proper := by
  have letters : standard.first.toList.all Char.isAlpha = true := by decide
  have parts : standard.rest.toList.all Identifier.isPart = true := by decide
  constructor
  · decide +kernel
  · decide +kernel
  · exact fun c member => List.all_eq_true.mp letters c (Array.mem_def.mp member)
  · exact fun c member => List.all_eq_true.mp parts c (Array.mem_def.mp member)

theorem Reorders.refl (alphabets : Alphabets) : alphabets.Reorders alphabets := ⟨.refl _, .refl _⟩

theorem Reorders.proper {others : Alphabets} (reorders : alphabets.Reorders others) (proper : others.Proper) :
    alphabets.Proper := by
  constructor
  · exact (Array.perm_iff_toList_perm.mp reorders.first).nodup_iff.mpr proper.distinct
  · exact (Array.perm_iff_toList_perm.mp reorders.rest).nodup_iff.mpr proper.others
  · intro c member
    exact proper.letters c (reorders.first.mem_iff.mp member)
  · intro c member
    exact proper.parts c (reorders.rest.mem_iff.mp member)

end Alphabets
end Pseudonym
