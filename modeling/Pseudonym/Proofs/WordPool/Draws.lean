import Pseudonym.Proofs.Ledger
import Pseudonym.Proofs.Word
import Pseudonym.WordPool

/-! What a pool gives. A draw picks a word in a round; what is left to pick is what was left before, without
it. So nothing is picked twice, and nothing of a later round is picked while an earlier one is left. -/
namespace Pseudonym
namespace WordPool

structure Fair (pool : WordPool) : Prop where
  distinct : pool.words.toList.Nodup
  once : pool.remaining.toList.Nodup
  within : ∀ word ∈ pool.remaining, word ∈ pool.words

/-- What is left to pick: words of this round that remain, and every word in every later round. -/
def Left (pool : WordPool) (pair : Nat × String) : Prop :=
  (pair.1 = pool.round ∧ pair.2 ∈ pool.remaining) ∨ (pool.round < pair.1 ∧ pair.2 ∈ pool.words)

theorem Left.round {pool : WordPool} {pair : Nat × String} (left : pool.Left pair) : pool.round ≤ pair.1 := by
  rcases left with ⟨same, _⟩ | ⟨later, _⟩ <;> omega

theorem Left.word {pool : WordPool} {pair : Nat × String} (fair : pool.Fair) (left : pool.Left pair) :
    pair.2 ∈ pool.words := by
  rcases left with ⟨_, inside⟩ | ⟨_, inside⟩
  · exact fair.within _ inside
  · exact inside

theorem refillWords (pool : WordPool) : pool.refill.words = pool.words := by
  unfold refill
  split <;> rfl

theorem refillRound (pool : WordPool) : pool.round ≤ pool.refill.round := by
  unfold refill
  split <;> simp

theorem refillFair {pool : WordPool} (fair : pool.Fair) : pool.refill.Fair := by
  unfold refill
  split
  · exact ⟨fair.distinct, by simpa using fair.distinct, by simp⟩
  · exact fair

theorem refillLeft (pool : WordPool) (pair : Nat × String) : pool.refill.Left pair ↔ pool.Left pair := by
  unfold refill
  split
  · next empty =>
    have none : pair.2 ∉ pool.remaining := by simp [Array.isEmpty_iff.mp empty]
    simp only [Left, Array.mem_reverse, none, and_false, false_or]
    constructor
    · rintro (⟨same, inside⟩ | ⟨later, inside⟩)
      · exact ⟨by omega, inside⟩
      · exact ⟨by omega, inside⟩
    · rintro ⟨later, inside⟩
      rcases Nat.lt_or_ge (pool.round + 1) pair.1 with next | now
      · exact .inr ⟨next, inside⟩
      · exact .inl ⟨by omega, inside⟩
  · exact .rfl

theorem popWhole {α : Type} {items : Array α} {last : α} (ends : items[items.size - 1]? = some last) :
    items.pop.toList ++ [last] = items.toList := by
  have final : last ∈ items.toList.getLast? := by simpa [List.getLast?_eq_getElem?] using ends
  exact List.dropLast_append_getLast? last final

theorem popPerm {α : Type} {items : Array α} {last : α} (ends : items[items.size - 1]? = some last) :
    (last :: items.pop.toList).Perm items.toList :=
  (List.perm_append_singleton last _).symm.trans (.of_eq (popWhole ends))

variable {σ : Type} [RandomSource σ]

theorem takePerm (order : DrawOrder) (words : Array String) (some : 0 < words.size) (source : σ) :
    ((take order words some source).1 :: (take order words some source).2.1.toList).Perm words.toList := by
  cases order with
  | sequential => exact popPerm (Array.getElem?_eq_getElem (by omega))
  | random =>
    rcases drawn : RandomSource.between source 0 (words.size - 1) (Nat.zero_le _) with ⟨⟨place, _, small⟩, after⟩
    have inside : place < words.size := by omega
    have last : words.size - 1 < words.size := by omega
    have ends : (words.swap place (words.size - 1))[(words.swap place (words.size - 1)).size - 1]? =
        Option.some words[place] := by simp [last]
    simp only [take, drawn]
    exact (popPerm ends).trans (Array.perm_iff_toList_perm.mp (Array.swap_perm inside last))

def pick (state : WordPool × σ) : (Nat × String) × WordPool × σ :=
  ((state.1.refill.round, (take state.1.refill.order state.1.refill.remaining state.1.refillPos state.2).1),
    (draw state).2)

theorem drawnPick (state : WordPool × σ) : (draw state).1 = spell (pick state).1.1 (pick state).1.2 := rfl

structure Gives (pool : WordPool) (pairs : List (Nat × String)) (after : WordPool) : Prop where
  fair : after.Fair
  words : after.words = pool.words
  later : pool.round ≤ after.round
  upTo : ∀ pair ∈ pairs, pair.1 ≤ after.round
  distinct : pairs.Nodup
  left : ∀ pair, pool.Left pair ↔ pair ∈ pairs ∨ after.Left pair
  gone : ∀ pair ∈ pairs, ¬after.Left pair

theorem Gives.cons {pool middle last : WordPool} {pair : Nat × String} {pairs : List (Nat × String)}
    (early : Gives pool [pair] middle) (late : Gives middle pairs last) : Gives pool (pair :: pairs) last := by
  have gone := early.gone pair List.mem_cons_self
  refine ⟨late.fair, late.words.trans early.words, Nat.le_trans early.later late.later, ?_, ?_, ?_, ?_⟩
  · refine List.forall_mem_cons.mpr ⟨?_, late.upTo⟩
    exact Nat.le_trans (early.upTo pair List.mem_cons_self) late.later
  · exact List.nodup_cons.mpr ⟨fun again => gone ((late.left pair).mpr (.inl again)), late.distinct⟩
  · intro other
    rw [early.left, late.left, List.mem_singleton, List.mem_cons, or_assoc]
  · exact List.forall_mem_cons.mpr ⟨fun left => gone ((late.left pair).mpr (.inr left)), late.gone⟩

theorem pickGives (state : WordPool × σ) (fair : state.1.Fair) :
    Gives state.1 [(pick state).1] (pick state).2.1 ∧ (pick state).2.1.round = (pick state).1.1 := by
  obtain ⟨pool, source⟩ := state
  have full := refillFair fair
  have perm := takePerm pool.refill.order pool.refill.remaining pool.refillPos source
  simp only [pick, draw]
  generalize take pool.refill.order pool.refill.remaining pool.refillPos source = taken at perm
  obtain ⟨word, rest, after⟩ := taken
  dsimp only at perm ⊢
  have nodup := perm.nodup_iff.mpr full.once
  obtain ⟨gone, once⟩ := List.nodup_cons.mp nodup
  have split (other : String) : other ∈ pool.refill.remaining ↔ other = word ∨ other ∈ rest := by
    rw [Array.mem_def, ← perm.mem_iff, List.mem_cons, Array.mem_def]
  refine ⟨⟨⟨full.distinct, once, ?_⟩, pool.refillWords, pool.refillRound, by simp, by simp, ?_, ?_⟩, trivial⟩
  · exact fun other inside => full.within other ((split other).mpr (.inr inside))
  · rintro ⟨round, other⟩
    rw [← refillLeft, Left, split]
    simp only [Left, List.mem_singleton, Prod.mk.injEq, and_or_left, or_assoc]
  · intro pair same
    rw [List.mem_singleton.mp same]
    rintro (⟨_, inside⟩ | ⟨later, _⟩)
    · exact gone (Array.mem_def.mp inside)
    · exact Nat.lt_irrefl _ later

theorem picksGive (state : WordPool × σ) (fair : state.1.Fair) (n : Nat) :
    Gives state.1 (Ledger.candidates pick state n) (Ledger.streamAt pick state n).1 := by
  induction n generalizing state with
  | zero =>
    refine ⟨fair, rfl, Nat.le_refl _, by simp [Ledger.candidates], .nil, ?_, by simp [Ledger.candidates]⟩
    simp [Ledger.candidates, Ledger.streamAt]
  | succ n ih =>
    have first := (pickGives state fair).1
    exact first.cons (ih (pick state).2 first.fair)

theorem streamPicks (state : WordPool × σ) (n : Nat) :
    Ledger.streamAt draw state n = Ledger.streamAt pick state n := by
  induction n generalizing state with
  | zero => rfl
  | succ n ih => exact ih (draw state).2

theorem candidatesPicks (state : WordPool × σ) (n : Nat) :
    Ledger.candidates draw state n = (Ledger.candidates pick state n).map fun pair => spell pair.1 pair.2 := by
  rw [Ledger.candidatesRange, Ledger.candidatesRange, List.map_map]
  refine List.map_congr_left fun i _ => ?_
  rw [Ledger.candidate, streamPicks, drawnPick]
  rfl

theorem pickSoonest {state : WordPool × σ} {pair : Nat × String}
    (left : state.1.Left pair) : (pick state).1.1 ≤ pair.1 := by
  rw [← refillLeft] at left
  exact left.round

end WordPool
end Pseudonym
