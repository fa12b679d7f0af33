/-! Sources of chance. Whatever a source draws lies between the bounds it was given: the type
of a draw carries that, so no generator has to check it. -/
namespace Pseudonym

def RandomSource.atMost {last : Nat} (drawn : {n : Nat // 0 ≤ n ∧ n ≤ last}) : {n : Nat // n ≤ last} :=
  ⟨drawn.val, drawn.property.2⟩

class RandomSource (σ : Type) where
  between (source : σ) (low high : Nat) (ordered : low ≤ high) : {n : Nat // low ≤ n ∧ n ≤ high} × σ
  partner (source : σ) (last : Nat) : {n : Nat // n ≤ last} × σ :=
    let (drawn, source) := between source 0 last (Nat.zero_le last)
    (RandomSource.atMost drawn, source)

variable {σ : Type} [RandomSource σ]

def shuffleDown {α : Type} (items : Array α) (source : σ) : (last : Nat) → last < items.size → Array α × σ
  | 0, _ => (items, source)
  | last + 1, inside =>
      let (drawn, source) := RandomSource.partner source (last + 1)
      have small : drawn.val < items.size := Nat.lt_of_le_of_lt drawn.property inside
      shuffleDown (items.swap (last + 1) drawn.val inside small) source last
        (by rw [Array.size_swap]; omega)

def shuffle {α : Type} (items : Array α) (source : σ) : Array α × σ :=
  if some : 0 < items.size then shuffleDown items source (items.size - 1) (by omega) else (items, source)

theorem shuffleDownSize {α : Type} (items : Array α) (source : σ) (last : Nat) (inside : last < items.size) :
    (shuffleDown items source last inside).1.size = items.size := by
  induction last generalizing items source with
  | zero => rfl
  | succ last ih => rw [shuffleDown]; exact (ih _ _ _).trans (Array.size_swap ..)

theorem shuffleSize {α : Type} (items : Array α) (source : σ) :
    (shuffle items source).1.size = items.size := by
  unfold shuffle
  split
  · exact shuffleDownSize ..
  · rfl

end Pseudonym
