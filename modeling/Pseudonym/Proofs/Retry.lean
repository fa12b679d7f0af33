import Pseudonym.Retry

/-! What a retried request comes to. The attempts of a request are numbered from zero; the state and the
tally before each of them say all there is to say about where the request stops. -/
namespace Pseudonym

def Attempt.Missed {α : Type} : Attempt α → Prop
  | .settled _ => False
  | .rejected | .skipped => True

def Tally.count {α : Type} (tally : Tally) : Attempt α → Tally
  | .settled _ => tally
  | .rejected => tally.reject
  | .skipped => tally.skip

theorem Tally.countMissed {α : Type} (tally : Tally) {outcome : Attempt α} (missed : outcome.Missed) :
    (tally.count outcome).drawn = tally.drawn + 1 := by
  cases outcome with
  | settled answer => exact missed.elim
  | rejected => exact Nat.add_right_comm ..
  | skipped => exact (Nat.add_assoc ..).symm

theorem Tally.countSpent {α : Type} {limits : Limits} {tally : Tally} (outcome : Attempt α)
    (spent : limits.Spent tally) : limits.Spent (tally.count outcome) := by
  cases outcome with
  | settled answer => exact spent
  | rejected => exact spent.imp_left Nat.le_succ_of_le
  | skipped => exact spent.imp_right Nat.lt_succ_of_lt

namespace Retry

variable {α σ : Type}

def stateAt (attempt : σ → Attempt α × σ) (state : σ) : Nat → σ
  | 0 => state
  | n + 1 => stateAt attempt (attempt state).2 n

theorem stateAtSucc (attempt : σ → Attempt α × σ) (state : σ) (n : Nat) :
    stateAt attempt state (n + 1) = (attempt (stateAt attempt state n)).2 := by
  induction n generalizing state with
  | zero => rfl
  | succ n ih => exact ih (attempt state).2

def tallyAt (attempt : σ → Attempt α × σ) (tally : Tally) (state : σ) : Nat → Tally
  | 0 => tally
  | n + 1 => tallyAt attempt (tally.count (attempt state).1) (attempt state).2 n

theorem tallyAtSucc (attempt : σ → Attempt α × σ) (tally : Tally) (state : σ) (n : Nat) :
    tallyAt attempt tally state (n + 1) =
      (tallyAt attempt tally state n).count (attempt (stateAt attempt state n)).1 := by
  induction n generalizing tally state with
  | zero => rfl
  | succ n ih => exact ih _ _

theorem tallyAtSpent {limits : Limits} {attempt : σ → Attempt α × σ} {tally : Tally} {state : σ} {early late : Nat}
    (before : early ≤ late) (spent : limits.Spent (tallyAt attempt tally state early)) :
    limits.Spent (tallyAt attempt tally state late) := by
  induction before with
  | refl => exact spent
  | step _ ih => exact tallyAtSucc attempt tally state _ ▸ Tally.countSpent _ ih

theorem firstUnique {Missed : Nat → Prop} {n m : Nat} (misses : ∀ i < n, Missed i) (found : ¬Missed n)
    (again : ∀ i < m, Missed i) (other : ¬Missed m) : n = m := by
  rcases Nat.lt_trichotomy n m with before | same | after
  · exact absurd (again n before) found
  · exact same
  · exact absurd (misses m after) other

/-- How a request ends: with an answer at attempt `n`, or given up by the miss before it. -/
inductive Ends (limits : Limits) (givenUp : Tally → α) (attempt : σ → Attempt α × σ) (tally : Tally)
    (state : σ) : Nat → α × σ → Prop where
  | settled {n : Nat} {answer : α} (unspent : ¬limits.Spent (tallyAt attempt tally state n))
      (found : (attempt (stateAt attempt state n)).1 = .settled answer) :
      Ends limits givenUp attempt tally state n (answer, stateAt attempt state (n + 1))
  | givenUp {n : Nat} (unspent : ¬limits.Spent (tallyAt attempt tally state n))
      (spent : limits.Spent (tallyAt attempt tally state (n + 1))) :
      Ends limits givenUp attempt tally state (n + 1)
        (givenUp (tallyAt attempt tally state (n + 1)), stateAt attempt state (n + 1))

theorem endsAtOnce (limits : Limits) (givenUp : Tally → α) (attempt : σ → Attempt α × σ) (tally : Tally)
    (state : σ) (missed : (attempt state).1.Missed) (unspent : ¬limits.Spent tally)
    (spent : limits.Spent (tally.count (attempt state).1)) :
    ∃ n, (∀ i < n, (attempt (stateAt attempt state i)).1.Missed) ∧
      Ends limits givenUp attempt tally state n (givenUp (tally.count (attempt state).1), (attempt state).2) := by
  refine ⟨1, ?_, .givenUp unspent spent⟩
  intro i small
  obtain rfl : i = 0 := by omega
  exact missed

theorem endsLater {limits : Limits} {givenUp : Tally → α} {attempt : σ → Attempt α × σ} {tally : Tally}
    {state : σ} {outcome : α × σ} (missed : (attempt state).1.Missed)
    (rest : ∃ n, (∀ i < n, (attempt (stateAt attempt (attempt state).2 i)).1.Missed) ∧
      Ends limits givenUp attempt (tally.count (attempt state).1) (attempt state).2 n outcome) :
    ∃ n, (∀ i < n, (attempt (stateAt attempt state i)).1.Missed) ∧
      Ends limits givenUp attempt tally state n outcome := by
  obtain ⟨n, misses, ends⟩ := rest
  refine ⟨n + 1, ?_, ?_⟩
  · intro i small
    cases i with
    | zero => exact missed
    | succ i => exact misses i (by omega)
  · cases ends with
    | settled unspent found => exact .settled unspent found
    | givenUp unspent spent => exact .givenUp unspent spent

theorem retryEnds (limits : Limits) (givenUp : Tally → α) (attempt : σ → Attempt α × σ) (tally : Tally)
    (state : σ) (unspent : ¬limits.Spent tally) :
    ∃ n, (∀ i < n, (attempt (stateAt attempt state i)).1.Missed) ∧
      Ends limits givenUp attempt tally state n (retry limits givenUp attempt tally state) := by
  fun_induction retry limits givenUp attempt tally state with
  | case1 tally state answer after found =>
    refine ⟨0, by simp, ?_⟩
    have same : after = stateAt attempt state 1 := by simp [stateAt, found]
    rw [same]
    exact .settled unspent (by simp [stateAt, found])
  | case2 tally state after missed spent =>
    have atOnce := endsAtOnce limits givenUp attempt tally state (by simp [missed, Attempt.Missed]) unspent
    simp only [missed, Tally.count] at atOnce
    exact atOnce spent
  | case3 tally state after missed more ih =>
    exact endsLater (by simp [missed, Attempt.Missed]) (by simpa [missed, Tally.count] using ih more)
  | case4 tally state after missed spent =>
    have atOnce := endsAtOnce limits givenUp attempt tally state (by simp [missed, Attempt.Missed]) unspent
    simp only [missed, Tally.count] at atOnce
    exact atOnce spent
  | case5 tally state after missed more ih =>
    exact endsLater (by simp [missed, Attempt.Missed]) (by simpa [missed, Tally.count] using ih more)

theorem retryKeeps {limits : Limits} {givenUp : Tally → α} {attempt : σ → Attempt α × σ}
    {Before : σ → Prop} {After : α → σ → Prop}
    (misses : ∀ state, Before state → (attempt state).1.Missed → Before (attempt state).2)
    (settles : ∀ state answer, Before state → (attempt state).1 = .settled answer →
      After answer (attempt state).2)
    (givesUp : ∀ tally state, Before state → After (givenUp tally) state)
    (tally : Tally) (state : σ) (before : Before state) :
    After (retry limits givenUp attempt tally state).1 (retry limits givenUp attempt tally state).2 := by
  fun_induction retry limits givenUp attempt tally state with
  | case1 tally state answer after found =>
    simpa [found] using settles state answer before (by simp [found])
  | case2 tally state after missed spent =>
    exact givesUp _ _ (by simpa [missed] using misses state before (by simp [missed, Attempt.Missed]))
  | case3 tally state after missed more ih =>
    exact ih (by simpa [missed] using misses state before (by simp [missed, Attempt.Missed]))
  | case4 tally state after missed spent =>
    exact givesUp _ _ (by simpa [missed] using misses state before (by simp [missed, Attempt.Missed]))
  | case5 tally state after missed more ih =>
    exact ih (by simpa [missed] using misses state before (by simp [missed, Attempt.Missed]))

theorem missesKeep {attempt : σ → Attempt α × σ} {Holds : Tally → σ → Prop}
    (misses : ∀ tally state, Holds tally state → (attempt state).1.Missed →
      Holds (tally.count (attempt state).1) (attempt state).2)
    {n : Nat} {tally : Tally} {state : σ} (missed : ∀ i < n, (attempt (stateAt attempt state i)).1.Missed)
    (holds : Holds tally state) : Holds (tallyAt attempt tally state n) (stateAt attempt state n) := by
  induction n generalizing tally state with
  | zero => exact holds
  | succ n ih =>
    refine ih (fun i small => missed (i + 1) (by omega)) (misses tally state holds ?_)
    exact missed 0 (by omega)

/-- A request whose misses never use the limits up is settled in the end. -/
theorem retrySettles {limits : Limits} (givenUp : Tally → α) {attempt : σ → Attempt α × σ}
    {Holds : Tally → σ → Prop}
    (misses : ∀ tally state, Holds tally state → (attempt state).1.Missed →
      Holds (tally.count (attempt state).1) (attempt state).2)
    (unspent : ∀ tally state, Holds tally state → ¬limits.Spent tally)
    (tally : Tally) (state : σ) (holds : Holds tally state) :
    ∃ missed last answer, Holds missed last ∧ (attempt last).1 = .settled answer ∧
      retry limits givenUp attempt tally state = (answer, (attempt last).2) := by
  obtain ⟨n, missed, ends⟩ := retryEnds limits givenUp attempt tally state (unspent tally state holds)
  have later := missesKeep misses missed holds
  generalize retry limits givenUp attempt tally state = outcome at ends ⊢
  cases ends with
  | settled _ found => exact ⟨_, _, _, later, found, by rw [stateAtSucc]⟩
  | givenUp _ spent => exact absurd spent (unspent _ _ later)

/-- A step that counts how often it is made. -/
def counted (step : σ → α × σ) (state : σ × Nat) : α × σ × Nat :=
  ((step state.1).1, (step state.1).2, state.2 + 1)

/-- What a run beside a meter comes to: all that it comes to without one, and at most `most` more on the meter. -/
def Costs (most shown : Nat) (plain : α × σ) (outcome : α × σ × Nat) : Prop :=
  ∃ cost ≤ most, outcome = (plain.1, plain.2, shown + cost)

theorem Costs.within {few most shown : Nat} {plain : α × σ} {outcome : α × σ × Nat}
    (costs : Costs few shown plain outcome) (room : few ≤ most) : Costs most shown plain outcome := by
  obtain ⟨cost, small, same⟩ := costs
  exact ⟨cost, Nat.le_trans small room, same⟩

theorem Costs.fromZero {most : Nat} {plain : α × σ} {outcome : α × σ × Nat} (costs : Costs most 0 plain outcome) :
    ∃ cost ≤ most, outcome = (plain.1, plain.2, cost) := by
  obtain ⟨cost, few, same⟩ := costs
  exact ⟨cost, few, by rw [same, Nat.zero_add]⟩

theorem countedCosts (step : σ → α × σ) (state : σ) (shown : Nat) :
    Costs 1 shown (step state) (counted step (state, shown)) := ⟨1, Nat.le_refl 1, rfl⟩

theorem unspentDrawn {limits : Limits} {tally : Tally} (unspent : ¬limits.Spent tally) :
    tally.drawn + 1 ≤ limits.rejections + limits.skips := by
  simp only [Limits.Spent, Tally.drawn] at unspent ⊢
  omega

/-- The meter changes nothing, and every miss brings one of the limits nearer. -/
theorem retryMetered {limits : Limits} (givenUp : Tally → α) {attempt : σ → Attempt α × σ}
    {metered : σ × Nat → Attempt α × σ × Nat} {most : Nat} {Holds : Tally → σ → Prop}
    (misses : ∀ tally state, Holds tally state → (attempt state).1.Missed →
      Holds (tally.count (attempt state).1) (attempt state).2)
    (costs : ∀ tally state shown, ¬limits.Spent tally → Holds tally state →
      Costs most shown (attempt state) (metered (state, shown)))
    {tally : Tally} {state : σ} (shown : Nat) (unspent : ¬limits.Spent tally) (holds : Holds tally state) :
    ∃ total, retry limits givenUp metered tally (state, shown) =
        ((retry limits givenUp attempt tally state).1, (retry limits givenUp attempt tally state).2, shown + total) ∧
      total + tally.drawn * most ≤ (limits.rejections + limits.skips) * most := by
  have once {tally : Tally} {cost : Nat} (unspent : ¬limits.Spent tally) (few : cost ≤ most) :
      cost + tally.drawn * most ≤ (limits.rejections + limits.skips) * most := by
    have room := Nat.mul_le_mul_right most (unspentDrawn unspent)
    rw [Nat.add_mul, Nat.one_mul] at room
    omega
  have more {tally next : Tally} {cost total : Nat} (few : cost ≤ most) (later : next.drawn = tally.drawn + 1)
      (rest : total + next.drawn * most ≤ (limits.rejections + limits.skips) * most) :
      cost + total + tally.drawn * most ≤ (limits.rejections + limits.skips) * most := by
    rw [later, Nat.add_mul, Nat.one_mul] at rest
    omega
  fun_induction retry limits givenUp attempt tally state generalizing shown with
  | case1 tally state answer after found =>
    obtain ⟨cost, few, same⟩ := costs tally state shown unspent holds
    exact ⟨cost, by rw [retry, same, found], once unspent few⟩
  | case2 tally state after missed spent =>
    obtain ⟨cost, few, same⟩ := costs tally state shown unspent holds
    exact ⟨cost, by simp [retry, same, missed, spent], once unspent few⟩
  | case3 tally state after missed going ih =>
    obtain ⟨cost, few, same⟩ := costs tally state shown unspent holds
    have next := misses tally state holds (by simp [missed, Attempt.Missed])
    obtain ⟨total, onward, rest⟩ := ih (shown + cost) going (by simpa [missed, Tally.count] using next)
    refine ⟨cost + total, ?_, more few (Nat.add_right_comm ..) rest⟩
    rw [retry, same, missed]
    simp only [if_neg going, onward, Nat.add_assoc]
  | case4 tally state after missed spent =>
    obtain ⟨cost, few, same⟩ := costs tally state shown unspent holds
    exact ⟨cost, by simp [retry, same, missed, spent], once unspent few⟩
  | case5 tally state after missed going ih =>
    obtain ⟨cost, few, same⟩ := costs tally state shown unspent holds
    have next := misses tally state holds (by simp [missed, Attempt.Missed])
    obtain ⟨total, onward, rest⟩ := ih (shown + cost) going (by simpa [missed, Tally.count] using next)
    refine ⟨cost + total, ?_, more few (Nat.add_assoc ..).symm rest⟩
    rw [retry, same, missed]
    simp only [if_neg going, onward, Nat.add_assoc]

theorem retryCounted (limits : Limits) (givenUp : Tally → α) (attempt : σ → Attempt α × σ) {tally : Tally}
    (state : σ) (shown : Nat) (unspent : ¬limits.Spent tally) :
    Costs (limits.rejections + limits.skips) shown (retry limits givenUp attempt tally state)
      (retry limits givenUp (counted attempt) tally (state, shown)) := by
  obtain ⟨calls, same, few⟩ := @retryMetered α σ limits givenUp attempt (counted attempt) 1 (fun _ _ => True)
    (fun _ _ _ _ => trivial) (fun _ state shown _ _ => countedCosts attempt state shown) tally state shown unspent
    trivial
  exact ⟨calls, by omega, same⟩

end Retry
end Pseudonym
