import Pseudonym.Random.Source

/-! A source that replays written values, over and over, each moved to the nearer bound where it
lies outside. A draw uses up one value even where the bounds leave no choice. -/
namespace Pseudonym

structure Script where
  values : Array Nat
  values_pos : 0 < values.size
  drawn : Nat
  deriving DecidableEq, Repr

namespace Script

def ofList? (values : List Nat) : Option Script :=
  if some : 0 < values.toArray.size then .some ⟨values.toArray, some, 0⟩ else none

def between (script : Script) (low high : Nat) (ordered : low ≤ high) :
    {n : Nat // low ≤ n ∧ n ≤ high} × Script :=
  have inside := Nat.mod_lt script.drawn script.values_pos
  let value := script.values[script.drawn % script.values.size]
  (⟨max low (min high value), by omega⟩, {script with drawn := script.drawn + 1})

instance : RandomSource Script where
  between := between

end Script
end Pseudonym
