import Mathlib.Data.List.ProdSigma
import Pseudonym.Proofs.Ledger.Budget
import Pseudonym.Proofs.WordPool.Draws
import Pseudonym.Proofs.WordPool.Spelling

/-! When a pool gives up. A request may step past as many taken names as there are, and a few more; what a
pool offers twice is met twice, so the request fails where repeats use the few up. Where they cannot, no
request of any session fails. -/
namespace Pseudonym

namespace WordPool

/-- What a pool of some words gives before a round, and the names among it, each as often as it is given. -/
def pairs (words : List String) (limit : Nat) : List (Nat × String) := List.range limit ×ˢ words

def offers (words : List String) (limit : Nat) : List String :=
  ((pairs words limit).map fun pair => spell pair.1 pair.2).filter Identifier.isWellFormed

theorem memPairs {words : List String} {limit : Nat} {pair : Nat × String} :
    pair ∈ pairs words limit ↔ pair.1 < limit ∧ pair.2 ∈ words := by
  rw [pairs, List.mem_product, List.mem_range]

theorem offered {words : List String} {limit : Nat} {pair : Nat × String} (given : pair ∈ pairs words limit)
    (formed : Identifier.isWellFormed (spell pair.1 pair.2) = true) : spell pair.1 pair.2 ∈ offers words limit :=
  List.mem_filter.mpr ⟨List.mem_map_of_mem given, formed⟩

theorem pairsNodup {words : List String} (distinct : words.Nodup) (limit : Nat) : (pairs words limit).Nodup :=
  List.nodup_range.product distinct

theorem offeredAmong {given : List (Nat × String)} {words : List String} {limit : Nat} (distinct : given.Nodup)
    (within : ∀ pair ∈ given, pair ∈ pairs words limit) :
    List.Subperm ((given.map fun pair => spell pair.1 pair.2).filter Identifier.isWellFormed)
      (offers words limit) := by
  obtain ⟨part, perm, sublist⟩ := distinct.subperm within
  exact List.Subperm.filter _ ⟨_, perm.map _, sublist.map _⟩

theorem offeredAll {given : List (Nat × String)} {words : List String} {limit : Nat} (distinct : words.Nodup)
    (all : ∀ pair ∈ pairs words limit, pair ∈ given) :
    List.Subperm (offers words limit)
      ((given.map fun pair => spell pair.1 pair.2).filter Identifier.isWellFormed) := by
  obtain ⟨part, perm, sublist⟩ := (pairsNodup distinct limit).subperm all
  exact List.Subperm.filter _ ⟨_, perm.map _, sublist.map _⟩

theorem malformedCount {given : List (Nat × String)} (distinct : given.Nodup)
    (grammatical : ∀ pair ∈ given, Identifier.Grammatical pair.2.toList) :
    (given.map fun pair => spell pair.1 pair.2).countP (!Identifier.isWellFormed ·) ≤
      Identifier.reservedWords.length := by
  have bare : ∀ pair ∈ given.filter (fun pair => !Identifier.isWellFormed (spell pair.1 pair.2)),
      pair.1 = 0 ∧ pair.2 ∈ Identifier.reservedWords := by
    intro pair member
    obtain ⟨inside, malformed⟩ := List.mem_filter.mp member
    have early : pair.1 = 0 := by
      refine Decidable.by_contra fun later => ?_
      simp [spelledLater (grammatical pair inside) later] at malformed
    refine ⟨early, ?_⟩
    exact (Identifier.malformedIff (grammatical pair inside)).mp (by simpa [spell, early] using malformed)
  have words : ((given.filter fun pair => !Identifier.isWellFormed (spell pair.1 pair.2)).map Prod.snd).Nodup := by
    refine List.Nodup.map_on ?_ (distinct.filter _)
    intro one first other second same
    exact Prod.ext ((bare one first).1.trans (bare other second).1.symm) same
  have few := (words.subperm (?_ : _ ⊆ Identifier.reservedWords)).length_le
  · rw [List.length_map, ← List.countP_eq_length_filter] at few
    rwa [List.countP_map]
  · intro word member
    obtain ⟨pair, inside, rfl⟩ := List.mem_map.mp member
    exact (bare pair inside).2

def free (ledger : Ledger) (names : List String) : List String := (names.filter ledger.accepts).eraseDups

/-- Whether what words offer before a round leaves room for what a request may step past. -/
def Roomy (ledger : Ledger) (words : List String) (limit : Nat) : Prop :=
  (offers words limit).length ≤ (free ledger (offers words limit)).length + ledger.skipBudget

variable {first ledger : Ledger} {words : List String} {limit : Nat}

theorem roomStays (grows : first.Grows ledger) (roomy : Roomy first words limit) :
    (offers words limit).countP ledger.isTaken ≤ ledger.skipBudget := by
  have new : (free first (offers words limit)).countP ledger.isTaken + first.claimed.size ≤ ledger.claimed.size := by
    rw [List.countP_eq_length_filter]
    refine Ledger.grownCount grows ((Word.eraseDupsNodup _).filter _) fun name member => ?_
    obtain ⟨offered, taken⟩ := List.mem_filter.mp member
    have accepted := (List.mem_filter.mp (List.mem_eraseDups.mp offered)).2
    obtain ⟨_, unreserved, unclaimed⟩ := Ledger.acceptsIff.mp accepted
    rcases Ledger.isTakenIff.mp taken with reserved | claimed
    · exact absurd (grows.reserved ▸ reserved) unreserved
    · exact ⟨unclaimed, claimed⟩
  have still : (free first (offers words limit)).countP (fun name => !ledger.isTaken name) ≤
      (offers words limit).countP fun name => !ledger.isTaken name := by
    refine List.Subperm.countP_le _ ((Word.eraseDupsNodup _).subperm fun name member => ?_)
    exact (List.mem_filter.mp (List.mem_eraseDups.mp member)).1
  -- What is offered twice counts twice on the left; on the right every name counts once.
  have offered := @List.length_eq_countP_add_countP _ ledger.isTaken (offers words limit)
  have freed := @List.length_eq_countP_add_countP _ ledger.isTaken (free first (offers words limit))
  simp only [Bool.not_eq_true, Bool.decide_eq_false] at offered freed
  have reserved := congrArg Std.TreeSet.size grows.reserved
  have attempts := grows.maxAttempts
  simp only [Roomy, Ledger.skipBudget] at roomy ⊢
  omega

theorem roomyDistinct {ledger : Ledger} {words : List String} {limit : Nat}
    (distinct : (offers words limit).Nodup) : Roomy ledger words limit := by
  have new : (free ledger (offers words limit)).length = (offers words limit).countP ledger.accepts := by
    rw [free, Word.eraseDupsSame (distinct.filter _), List.countP_eq_length_filter]
  have old : (offers words limit).countP (fun name => !ledger.accepts name) ≤
      ledger.claimed.size + ledger.reserved.size := by
    rw [List.countP_eq_length_filter]
    refine Ledger.takenCount (distinct.filter _) fun name member => ?_
    obtain ⟨offered, refused⟩ := List.mem_filter.mp member
    have formed := (List.mem_filter.mp offered).2
    simpa [Ledger.accepts, formed] using refused
  have all := @List.length_eq_countP_add_countP _ ledger.accepts (offers words limit)
  simp only [Bool.not_eq_true, Bool.decide_eq_false] at all
  simp only [Roomy, Ledger.skipBudget]
  omega

theorem roomyUndigited {words : List String} (distinct : words.Nodup) (undigited : ∀ word ∈ words, Undigited word)
    (ledger : Ledger) (limit : Nat) : Roomy ledger words limit := by
  refine roomyDistinct (List.Nodup.filter _ (List.Nodup.map_on ?_ (pairsNodup distinct limit)))
  intro one first two second same
  obtain ⟨round, word⟩ :=
    spelledInjective (undigited _ (memPairs.mp first).2) (undigited _ (memPairs.mp second).2) same
  exact Prod.ext round word

section Search

variable {σ : Type} [RandomSource σ] {pool : WordPool}

theorem skippedCount (ledger : Ledger) (state : WordPool × σ) (n : Nat) :
    (ledger.tallyOf (Ledger.candidates draw state n)).skipped =
      (((Ledger.candidates pick state n).map fun pair => spell pair.1 pair.2).filter
        Identifier.isWellFormed).countP ledger.isTaken := by
  rw [candidatesPicks, List.countP_filter]
  simp only [Ledger.tallyOf, Bool.and_comm]

theorem searchAnswers (fair : pool.Fair) (grammatical : ∀ word ∈ pool.words, Identifier.Grammatical word.toList)
    (grows : first.Grows ledger) (patient : Identifier.reservedWords.length < first.maxAttempts)
    (roomy : Roomy first pool.words.toList limit) (label : String) (source : σ)
    (early : (ledger.search label draw (pool, source)).2.1.round < limit) :
    ∃ name, (ledger.search label draw (pool, source)).1 = .ok name := by
  have finds := ledger.searchFinds draw label (pool, source)
  generalize ledger.search label draw (pool, source) = outcome at early finds
  cases finds with
  | found => exact ⟨_, rfl⟩
  | @gaveUp n unspent missed spent =>
    have gives := picksGive (pool, source) fair (n + 1)
    rw [streamPicks] at early
    have within : ∀ pair ∈ Ledger.candidates pick (pool, source) (n + 1),
        pair ∈ pairs pool.words.toList limit := fun pair member =>
      memPairs.mpr ⟨Nat.lt_of_le_of_lt (gives.upTo pair member) early,
        Array.mem_def.mp (((gives.left pair).mpr (.inl member)).word fair)⟩
    rcases spent with rejected | skipped
    · have few := malformedCount gives.distinct fun pair member =>
        grammatical _ (((gives.left pair).mpr (.inl member)).word fair)
      rw [← candidatesPicks] at few
      have attempts := grows.maxAttempts
      simp only [Ledger.limits, Ledger.tallyOf] at rejected
      omega
    · have few := (offeredAmong gives.distinct within).countP_le ledger.isTaken
      have room := roomStays grows roomy
      simp only [Ledger.limits, skippedCount] at skipped
      omega

theorem searchGivesUp (fair : pool.Fair) (untouched : ∀ pair, pool.Left pair ↔ pair.2 ∈ pool.words)
    (taken : ∀ name ∈ offers pool.words.toList limit, ledger.isTaken name = true)
    (few : ledger.skipBudget < (offers pool.words.toList limit).length) (label : String) (source : σ) :
    (∃ cause, (ledger.search label draw (pool, source)).1 = .error cause) ∧
      (ledger.search label draw (pool, source)).2.1.round < limit := by
  have soon {n : Nat} (unspent : ¬ledger.limits.Spent (ledger.tallyOf (Ledger.candidates draw (pool, source) n))) :
      (pick (Ledger.streamAt pick (pool, source) n)).1.1 < limit := by
    have gives := picksGive (pool, source) fair n
    -- A pick of a later round leaves nothing of the earlier ones, so all they offer has been skipped.
    refine Decidable.by_contra fun late => unspent (.inr ?_)
    have all : ∀ pair ∈ pairs pool.words.toList limit, pair ∈ Ledger.candidates pick (pool, source) n := by
      intro pair member
      obtain ⟨small, word⟩ := memPairs.mp member
      refine ((gives.left pair).mp ((untouched pair).mpr (Array.mem_def.mpr word))).resolve_right fun left => ?_
      exact late (Nat.lt_of_le_of_lt (pickSoonest left) small)
    have drawn := (offeredAll fair.distinct all).countP_le ledger.isTaken
    rw [List.countP_eq_length.mpr taken] at drawn
    simp only [Ledger.limits, skippedCount]
    omega
  have finds := ledger.searchFinds draw label (pool, source)
  generalize ledger.search label draw (pool, source) = outcome at finds
  cases finds with
  | @found n unspent missed accepted =>
    have gives := picksGive (pool, source) fair n
    obtain ⟨here, _⟩ := pickGives (Ledger.streamAt pick (pool, source) n) gives.fair
    have left := (here.left _).mpr (.inl List.mem_cons_self)
    have given : (pick (Ledger.streamAt pick (pool, source) n)).1 ∈ pairs pool.words.toList limit :=
      memPairs.mpr ⟨soon unspent, Array.mem_def.mp (gives.words ▸ left.word gives.fair)⟩
    rw [Ledger.candidate, streamPicks, drawnPick] at accepted
    obtain ⟨formed, unreserved, unclaimed⟩ := Ledger.acceptsIff.mp accepted
    rcases Ledger.isTakenIff.mp (taken _ (offered given formed)) with reserved | claimed
    · exact absurd reserved unreserved
    · exact absurd claimed unclaimed
  | @gaveUp n unspent missed spent =>
    have gives := picksGive (pool, source) fair n
    refine ⟨⟨_, rfl⟩, ?_⟩
    rw [streamPicks, Ledger.streamAtSucc, (pickGives _ gives.fair).2]
    exact soon unspent

end Search

end WordPool
end Pseudonym
