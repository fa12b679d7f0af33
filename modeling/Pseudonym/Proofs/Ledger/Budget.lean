import Mathlib.Data.List.Nodup
import Mathlib.Data.List.Perm.Subperm
import Pseudonym.Proofs.Ledger

/-! How many names a ledger has taken. What a request may step past is counted against it. -/
namespace Pseudonym

namespace Ledger

theorem listedNodup (names : NameSet) : names.toList.Nodup := by
  refine names.distinct_toList.imp ?_
  rintro name other different rfl
  exact different Std.ReflCmp.compare_self

theorem grownCount {first ledger : Ledger} (grows : first.Grows ledger) {names : List String}
    (distinct : names.Nodup) (later : ∀ name ∈ names, name ∉ first.claimed ∧ name ∈ ledger.claimed) :
    names.length + first.claimed.size ≤ ledger.claimed.size := by
  have apart : names.Disjoint first.claimed.toList := fun name new old =>
    (later name new).1 (Std.TreeSet.mem_toList.mp old)
  have all : names ++ first.claimed.toList ⊆ ledger.claimed.toList := by
    intro name member
    rcases List.mem_append.mp member with new | old
    · exact Std.TreeSet.mem_toList.mpr (later name new).2
    · exact Std.TreeSet.mem_toList.mpr (grows.claimed name (Std.TreeSet.mem_toList.mp old))
  have count := ((distinct.append (listedNodup first.claimed) apart).subperm all).length_le
  rwa [List.length_append, Std.TreeSet.length_toList, Std.TreeSet.length_toList] at count

theorem takenCount {ledger : Ledger} {names : List String} (distinct : names.Nodup)
    (taken : ∀ name ∈ names, ledger.isTaken name = true) :
    names.length ≤ ledger.claimed.size + ledger.reserved.size := by
  have among : names ⊆ ledger.claimed.toList ++ ledger.reserved.toList := by
    intro name member
    rcases isTakenIff.mp (taken name member) with reserved | claimed
    · exact List.mem_append_right _ (Std.TreeSet.mem_toList.mpr reserved)
    · exact List.mem_append_left _ (Std.TreeSet.mem_toList.mpr claimed)
  simpa only [List.length_append, Std.TreeSet.length_toList] using (distinct.subperm among).length_le

theorem reservedCount {names : List String} (distinct : names.Nodup)
    (grammatical : ∀ name ∈ names, Identifier.Grammatical name.toList) :
    names.countP (!Identifier.isWellFormed ·) ≤ Identifier.reservedWords.length := by
  have words : names.filter (!Identifier.isWellFormed ·) ⊆ Identifier.reservedWords := by
    intro name member
    obtain ⟨inside, malformed⟩ := List.mem_filter.mp member
    exact (Identifier.malformedIff (grammatical name inside)).mp (by simpa using malformed)
  have few := ((distinct.filter _).subperm words).length_le
  rwa [← List.countP_eq_length_filter] at few

theorem takenAmong (ledger : Ledger) {names : List String} (distinct : names.Nodup) :
    names.countP ledger.isTaken ≤ ledger.claimed.size + ledger.reserved.size := by
  rw [List.countP_eq_length_filter]
  exact takenCount (distinct.filter _) fun name member => (List.mem_filter.mp member).2

theorem skippedFew (ledger : Ledger) {names : List String} (distinct : names.Nodup) :
    (ledger.tallyOf names).skipped ≤ ledger.claimed.size + ledger.reserved.size :=
  Nat.le_trans (List.countP_mono_left fun _ _ both => (Bool.and_eq_true_iff.mp both).2) (ledger.takenAmong distinct)

/-- Names without repeats use no limit up: too few of them are words of the language, and too few are taken. -/
theorem distinctUnspent {ledger : Ledger} {names : List String} (distinct : names.Nodup)
    (grammatical : ∀ name ∈ names, Identifier.Grammatical name.toList)
    (patient : Identifier.reservedWords.length < ledger.maxAttempts) {tally : Tally}
    (rejected : tally.rejected ≤ names.countP (!Identifier.isWellFormed ·))
    (skipped : tally.skipped ≤ names.countP ledger.isTaken) : ¬ledger.limits.Spent tally := by
  have words := reservedCount distinct grammatical
  have taken := ledger.takenAmong distinct
  simp only [Limits.Spent, limits, skipBudget]
  omega

theorem claimAllBudget (ledger : Ledger) (names : List String) :
    (ledger.claimAll names).skipBudget ≤ names.length + ledger.skipBudget ∧
      (ledger.claimAll names).reserved = ledger.reserved := by
  induction names generalizing ledger with
  | nil => exact ⟨by simp [claimAll], rfl⟩
  | cons name rest ih =>
    obtain ⟨budget, reserved⟩ := ih (ledger.claim name)
    refine ⟨?_, reserved⟩
    have one : (ledger.claim name).skipBudget ≤ ledger.skipBudget + 1 := by
      have size : (ledger.claimed.insert name).size ≤ ledger.claimed.size + 1 := Std.TreeSet.size_insert_le
      simp only [skipBudget, claim]
      omega
    simp only [List.length_cons]
    exact Nat.le_trans budget (by omega)

end Ledger

end Pseudonym
