import Pseudonym.Random.Source

/-! All names over two alphabets, the shortest first. The first character comes from one alphabet
and varies fastest, every later one comes from the other. -/
namespace Pseudonym
namespace Enumeration

/-- The characters after the first. Zero is the end, so each place counts from one. -/
def tail? (rest : Array Char) (index : Nat) : Option (List Char) :=
  if index = 0 then some []
  else do
    let char ← rest[(index - 1) % rest.size]?
    let chars ← tail? rest ((index - 1) / rest.size)
    some (char :: chars)
termination_by index
decreasing_by exact Nat.lt_of_le_of_lt (Nat.div_le_self _ _) (by omega)

def encode? (first rest : Array Char) (index : Nat) : Option String := do
  let char ← first[index % first.size]?
  let chars ← tail? rest (index / first.size)
  some (String.ofList (char :: chars))

theorem tailIsSome {rest : Array Char} (some : 0 < rest.size) (index : Nat) :
    (tail? rest index).isSome := by
  induction index using Nat.strongRecOn with
  | ind index ih =>
    rw [tail?]
    split
    · rfl
    · have inside := Nat.mod_lt (index - 1) some
      obtain ⟨chars, tail⟩ := Option.isSome_iff_exists.mp
        (ih ((index - 1) / rest.size) (Nat.lt_of_le_of_lt (Nat.div_le_self _ _) (by omega)))
      simp [tail, inside]

theorem encodeIsSome {first rest : Array Char} (someFirst : 0 < first.size) (someRest : 0 < rest.size)
    (index : Nat) : (encode? first rest index).isSome := by
  have inside := Nat.mod_lt index someFirst
  obtain ⟨chars, tail⟩ := Option.isSome_iff_exists.mp (tailIsSome someRest (index / first.size))
  simp [encode?, inside, tail]

end Enumeration

/-- The two alphabets of an enumeration. Neither is empty, so every index has a name. -/
structure Alphabets where
  first : Array Char
  rest : Array Char
  first_pos : 0 < first.size
  rest_pos : 0 < rest.size
  deriving DecidableEq, Repr

namespace Alphabets

def letters : String := "abcdefghijklmnopqrstuvwxyzABCDEFGHIJKLMNOPQRSTUVWXYZ"

def standard : Alphabets :=
  ⟨letters.toList.toArray, (letters ++ "0123456789").toList.toArray, by decide, by decide⟩

def name (alphabets : Alphabets) (index : Nat) : String :=
  (Enumeration.encode? alphabets.first alphabets.rest index).get
    (Enumeration.encodeIsSome alphabets.first_pos alphabets.rest_pos index)

def shuffled {σ : Type} [RandomSource σ] (alphabets : Alphabets) (source : σ) : Alphabets × σ :=
  let first := shuffle alphabets.first source
  let rest := shuffle alphabets.rest first.2
  (⟨first.1, rest.1, by rw [shuffleSize]; exact alphabets.first_pos,
    by rw [shuffleSize]; exact alphabets.rest_pos⟩, rest.2)

def draw (alphabets : Alphabets) (position : Nat) : String × Nat :=
  (alphabets.name position, position + 1)

end Alphabets
end Pseudonym
