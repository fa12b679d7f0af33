/-! Requests that try until something fits.
An attempt settles the request or misses. A miss is rejected or skipped, each sort has a limit
of its own, and the request is given up with the miss that uses a limit up. -/
namespace Pseudonym

structure Limits where
  rejections : Nat
  skips : Nat
  deriving DecidableEq, Repr

structure Tally where
  rejected : Nat
  skipped : Nat
  deriving DecidableEq, Repr

namespace Tally

def zero : Tally := ⟨0, 0⟩

def reject (tally : Tally) : Tally := {tally with rejected := tally.rejected + 1}

def skip (tally : Tally) : Tally := {tally with skipped := tally.skipped + 1}

def drawn (tally : Tally) : Nat := tally.rejected + tally.skipped

end Tally

/-- Rejections may not reach their limit, skips may not exceed theirs. -/
def Limits.Spent (limits : Limits) (tally : Tally) : Prop :=
  limits.rejections ≤ tally.rejected ∨ limits.skips < tally.skipped

instance (limits : Limits) (tally : Tally) : Decidable (limits.Spent tally) := by
  unfold Limits.Spent; infer_instance

inductive Attempt (α : Type) where
  | settled (answer : α)
  | rejected
  | skipped
  deriving DecidableEq, Repr

/-- Repeats `attempt` from `state`. The limits are those of the start, whatever the attempts change. -/
def retry {α σ : Type} (limits : Limits) (givenUp : Tally → α) (attempt : σ → Attempt α × σ)
    (tally : Tally) (state : σ) : α × σ :=
  match attempt state with
  | (.settled answer, state) => (answer, state)
  | (.rejected, state) =>
      if limits.Spent tally.reject then (givenUp tally.reject, state)
      else retry limits givenUp attempt tally.reject state
  | (.skipped, state) =>
      if limits.Spent tally.skip then (givenUp tally.skip, state)
      else retry limits givenUp attempt tally.skip state
termination_by (limits.rejections - tally.rejected) + (limits.skips + 1 - tally.skipped)
decreasing_by
  all_goals simp only [Limits.Spent, Tally.reject, Tally.skip, not_or, Nat.not_le, Nat.not_lt] at *; omega

end Pseudonym
