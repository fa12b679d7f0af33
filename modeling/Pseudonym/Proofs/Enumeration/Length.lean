import Mathlib.Algebra.BigOperators.Ring.Finset
import Mathlib.Data.Set.Function
import Pseudonym.Proofs.Enumeration

/-! Names by length. The words of one length stand in one interval of the indices, right behind the shorter ones,
so an enumeration gives each word once and none too early. Only an empty alphabet leaves an index without a
word, and on 64-bit numbers the walk never leaves their range. -/
namespace Pseudonym
namespace Enumeration

/-- How many endings have fewer than `length` letters. -/
def endings (rest : Array Char) (length : Nat) : Nat := ∑ shorter ∈ Finset.range length, rest.size ^ shorter

theorem endingsNone (rest : Array Char) : endings rest 0 = 0 := Finset.sum_range_zero _

theorem endingsSucc (rest : Array Char) (length : Nat) :
    endings rest (length + 1) = rest.size * endings rest length + 1 := by
  simp only [endings, Finset.sum_range_succ', Nat.pow_succ', Finset.mul_sum, Nat.pow_zero]

theorem endingsNext (rest : Array Char) (length : Nat) :
    endings rest (length + 1) = endings rest length + rest.size ^ length := Finset.sum_range_succ _ _

theorem tailSome {rest : Array Char} {number : Nat} {char : Char} {chars : List Char}
    (tail : tail? rest number = some (char :: chars)) : 0 < rest.size := by
  obtain ⟨_, found, _⟩ := tailCons.mp tail
  obtain ⟨inside, _⟩ := Array.getElem?_eq_some_iff.mp found
  exact Nat.lt_of_le_of_lt (Nat.zero_le _) inside

theorem tailLengthIff {rest : Array Char} {number length : Nat} {chars : List Char}
    (tail : tail? rest number = some chars) :
    chars.length = length ↔ endings rest length ≤ number ∧ number < endings rest (length + 1) := by
  induction chars generalizing number length with
  | nil =>
    have zero := tailNil.mp tail
    cases length with
    | zero => simp [endingsNone, endingsSucc, zero]
    | succ length => simp [endingsSucc, zero]
  | cons char chars ih =>
    have some := tailSome tail
    obtain ⟨later, _, above⟩ := tailCons.mp tail
    cases length with
    | zero =>
      have one : endings rest 1 = 1 := by simp [endingsSucc, endingsNone]
      simp [one, later]
    | succ length =>
      have shorter : chars.length = length ↔
          endings rest length ≤ (number - 1) / rest.size ∧ (number - 1) / rest.size < endings rest (length + 1) :=
        ih above
      rw [Nat.le_div_iff_mul_le some, Nat.div_lt_iff_lt_mul some, Nat.mul_comm, Nat.mul_comm (endings rest _)]
        at shorter
      rw [List.length_cons, Nat.succ_inj, shorter, endingsSucc rest (length + 1), endingsSucc rest length]
      omega

theorem encodeLengthIff {first rest : Array Char} {number length : Nat} {word : String}
    (encoded : encode? first rest number = some word) :
    word.length = length + 1 ↔ first.size * endings rest length ≤ number ∧
      number < first.size * endings rest length + first.size * rest.size ^ length := by
  obtain ⟨char, chars, found, tail, letters⟩ := encodeLetters.mp encoded
  obtain ⟨inside, _⟩ := Array.getElem?_eq_some_iff.mp found
  have some : 0 < first.size := Nat.lt_of_le_of_lt (Nat.zero_le _) inside
  have ending : chars.length = length ↔
      endings rest length ≤ number / first.size ∧ number / first.size < endings rest (length + 1) := tailLengthIff tail
  rw [Nat.le_div_iff_mul_le some, Nat.div_lt_iff_lt_mul some, Nat.mul_comm, Nat.mul_comm (endings rest _)] at ending
  rw [← String.length_toList, letters, List.length_cons, Nat.succ_inj, ending, endingsNext, Nat.mul_add]

theorem tailMissing {rest : Array Char} {number : Nat} :
    tail? rest number = none ↔ rest.size = 0 ∧ number ≠ 0 := by
  rcases Nat.eq_zero_or_pos rest.size with empty | some
  · rw [tail?]
    split
    · simp [*]
    · simp [*]
  · have written := tailIsSome some number
    rw [← Option.not_isSome_iff_eq_none]
    simp [written, Nat.ne_of_gt some]

theorem encodeMissing {first rest : Array Char} {number : Nat} :
    encode? first rest number = none ↔ first.size = 0 ∨ (rest.size = 0 ∧ first.size ≤ number) := by
  rcases Nat.eq_zero_or_pos first.size with empty | some
  · simp [encode?, empty]
  · have inside := Nat.mod_lt number some
    have later : number / first.size ≠ 0 ↔ first.size ≤ number := by
      rw [Ne, Nat.div_eq_zero_iff]
      omega
    rw [← later, ← tailMissing]
    cases tail : tail? rest (number / first.size) <;> simp [encode?, tail, inside, Nat.ne_of_gt some]

section Words64

/-- One less, unless 64 bits cannot hold that. -/
def lower? (number : UInt64) : Option UInt64 := if number = 0 then none else some (number - 1)

theorem lowerSome {number : UInt64} (later : number ≠ 0) :
    ∃ lowered, lower? number = some lowered ∧ lowered.toNat = number.toNat - 1 := by
  have nonzero : number.toNat ≠ 0 := fun zero => later (UInt64.toNat_inj.mp zero)
  have one : (1 : UInt64) ≤ number := UInt64.le_iff_toNat_le.mpr (Nat.one_le_iff_ne_zero.mpr nonzero)
  exact ⟨number - 1, if_neg later, UInt64.toNat_sub_of_le _ _ one⟩

theorem lowerLess {number lowered : UInt64} (lower : lower? number = some lowered) :
    lowered.toNat < number.toNat := by
  have later : number ≠ 0 := (Option.ite_none_left_eq_some.mp lower).1
  have nonzero : number.toNat ≠ 0 := fun zero => later (UInt64.toNat_inj.mp zero)
  obtain ⟨other, same, value⟩ := lowerSome later
  cases lower.symm.trans same
  omega

/- The same walk, in numbers of 64 bits. -/
def tail64? (rest : Array Char) (number : UInt64) : Option (List Char) :=
  if number = 0 then some []
  else
    match _lower : lower? number with
    | none => none
    | some lowered => do
        let char ← rest[(lowered % rest.size.toUInt64).toNat]?
        let chars ← tail64? rest (lowered / rest.size.toUInt64)
        some (char :: chars)
termination_by number.toNat
decreasing_by
  rw [UInt64.toNat_div]
  exact Nat.lt_of_le_of_lt (Nat.div_le_self _ _) (lowerLess _lower)

def encode64? (first rest : Array Char) (number : UInt64) : Option String := do
  let char ← first[(number % first.size.toUInt64).toNat]?
  let chars ← tail64? rest (number / first.size.toUInt64)
  some (String.ofList (char :: chars))

theorem tailInRange {rest : Array Char} (addressed : rest.size < UInt64.size) (number : UInt64) :
    tail64? rest number = tail? rest number.toNat := by
  have size : rest.size.toUInt64.toNat = rest.size := UInt64.toNat_ofNat_of_lt' addressed
  induction remaining : number.toNat using Nat.strongRecOn generalizing number with
  | ind value ih =>
    rw [tail64?, tail?]
    by_cases zero : number = 0
    · subst zero
      simp [← remaining]
    · obtain ⟨lowered, lower, less⟩ := lowerSome zero
      have later : value ≠ 0 := by
        rintro rfl
        exact zero (UInt64.toNat_inj.mp remaining)
      have above : (lowered / rest.size.toUInt64).toNat = (value - 1) / rest.size := by
        rw [UInt64.toNat_div, size, less, remaining]
      have place : (lowered % rest.size.toUInt64).toNat = (value - 1) % rest.size := by
        rw [UInt64.toNat_mod, size, less, remaining]
      have smaller : (value - 1) / rest.size < value :=
        Nat.lt_of_le_of_lt (Nat.div_le_self _ _) (Nat.sub_one_lt later)
      rw [if_neg zero, if_neg later]
      split
      · next none => cases none.symm.trans lower
      · next other same =>
        cases lower.symm.trans same
        rw [place, ih _ smaller _ above]

theorem encodeInRange {first rest : Array Char} (addressed : first.size < UInt64.size)
    (addressedRest : rest.size < UInt64.size) (number : UInt64) :
    encode64? first rest number = encode? first rest number.toNat := by
  have size : first.size.toUInt64.toNat = first.size := UInt64.toNat_ofNat_of_lt' addressed
  rw [encode64?, encode?, tailInRange addressedRest, UInt64.toNat_mod, UInt64.toNat_div, size]

end Words64

/-- Every number has a word and every word over the alphabets a number; the words of one length have the numbers
of one interval. -/
structure Enumerates (first rest : Array Char) (name : Nat → String) : Prop where
  named : ∀ number, encode? first rest number = some (name number)
  bijective : Set.BijOn name Set.univ {word | Writes first rest word.toList}
  ordered : ∀ number later, number ≤ later → (name number).length ≤ (name later).length
  lengths : ∀ number length, (name number).length = length + 1 ↔ first.size * endings rest length ≤ number ∧
    number < first.size * endings rest length + first.size * rest.size ^ length

theorem enumeratesDistinct {first rest : Array Char} {name : Nat → String}
    (named : ∀ number, encode? first rest number = some (name number)) (distinct : first.toList.Nodup)
    (others : rest.toList.Nodup) : Enumerates first rest name := by
  have reads (number : Nat) : Writes first rest (name number).toList ∧ index first rest (name number).toList = number :=
    (encodeIff distinct others).mp (named number)
  constructor
  case named => exact named
  case bijective =>
    refine ⟨fun number _ => (reads number).1, fun number _ other _ same => ?_, fun word written => ?_⟩
    · have one := (reads number).2
      rw [same, (reads other).2] at one
      exact one.symm
    · have encoded := (encodeIff distinct others).mpr ⟨written, rfl⟩
      exact ⟨index first rest word.toList, trivial, Option.some.inj ((named _).symm.trans encoded)⟩
  case ordered => exact fun number later behind => encodeLength (named number) behind (named later)
  case lengths => exact fun number length => encodeLengthIff (named number)

theorem wordsEnumerated (first rest : Array Char) :
    (0 < first.size → 0 < rest.size → first.toList.Nodup → rest.toList.Nodup → ∃ name, Enumerates first rest name) ∧
      (∀ number, encode? first rest number = none ↔ first.size = 0 ∨ (rest.size = 0 ∧ first.size ≤ number)) ∧
      (first.size < UInt64.size → rest.size < UInt64.size →
        ∀ number, encode64? first rest number = encode? first rest number.toNat) := by
  refine ⟨fun some someRest distinct others => ?_, fun number => encodeMissing, encodeInRange⟩
  have named := Alphabets.nameEncoded ⟨first, rest, some, someRest⟩
  exact ⟨_, enumeratesDistinct named distinct others⟩

/- A single later letter writes the number in strokes. -/
theorem strokesEnumerated :
    ∃ name, Enumerates #['a', 'b'] #['c'] name ∧ name 5 = "bcc" ∧ encode64? #['a', 'b'] #['c'] 5 = some "bcc" := by
  obtain ⟨name, enumerates⟩ := (wordsEnumerated #['a', 'b'] #['c']).1 (by decide) (by decide) (by decide) (by decide)
  have word : encode? #['a', 'b'] #['c'] 5 = some "bcc" := by decide +kernel
  refine ⟨name, enumerates, Option.some.inj ((enumerates.named 5).symm.trans word), ?_⟩
  exact ((wordsEnumerated #['a', 'b'] #['c']).2.2 (by decide) (by decide) 5).trans word

end Enumeration
end Pseudonym
