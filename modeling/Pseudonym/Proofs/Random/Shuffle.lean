import Pseudonym.Enumeration
import Pseudonym.Proofs.Enumeration
import Pseudonym.Random.Source

/-! What a shuffle leaves. Whatever is drawn, the items are those that were there, each as often as before. -/
namespace Pseudonym

variable {σ : Type} [RandomSource σ]

theorem shuffleDownPerm {α : Type} (items : Array α) (source : σ) (last : Nat) (inside : last < items.size) :
    (shuffleDown items source last inside).1.Perm items := by
  induction last generalizing items source with
  | zero => exact .refl _
  | succ last ih =>
    rw [shuffleDown]
    exact (ih _ _ _).trans (Array.swap_perm ..)

theorem shufflePerm {α : Type} (items : Array α) (source : σ) : (shuffle items source).1.Perm items := by
  unfold shuffle
  split
  · exact shuffleDownPerm ..
  · exact .refl _

theorem Alphabets.shuffledReorders (alphabets : Alphabets) (source : σ) :
    (alphabets.shuffled source).1.Reorders alphabets := ⟨shufflePerm .., shufflePerm ..⟩

end Pseudonym
