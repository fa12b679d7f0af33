import Pseudonym.Ledger
import Pseudonym.Proofs.Retry

/-! What a ledger says about names, and what a search through a stream of candidates comes to. A session
only ever adds claims to its ledger; names that a later ledger accepts, every earlier one accepted. -/
namespace Pseudonym

theorem toOptionIff {α : Type} {answer : Except NameError α} {value : α} :
    answer.toOption = some value ↔ answer = .ok value := by
  cases answer <;> simp [Except.toOption]

theorem Identifier.wellFormedIff {name : String} :
    isWellFormed name = true ↔ Grammatical name.toList ∧ name ∉ reservedWords := by
  simp [isWellFormed, isGrammatical, isReservedWord, spellsIff]

theorem Identifier.malformedIff {name : String} (grammatical : Grammatical name.toList) :
    isWellFormed name = false ↔ name ∈ reservedWords := by
  rw [← Bool.not_eq_true, wellFormedIff]
  simp [grammatical]

namespace Ledger

theorem memClaim {ledger : Ledger} {name other : String} :
    other ∈ (ledger.claim name).claimed ↔ name = other ∨ other ∈ ledger.claimed := by
  simp [claim, Std.TreeSet.mem_insert]

theorem memClaimAll {ledger : Ledger} {names : List String} {other : String} :
    other ∈ (ledger.claimAll names).claimed ↔ other ∈ names ∨ other ∈ ledger.claimed := by
  induction names generalizing ledger with
  | nil => simp [claimAll]
  | cons name rest ih =>
    have step : other ∈ (ledger.claimAll (name :: rest)).claimed ↔
        other ∈ rest ∨ other ∈ (ledger.claim name).claimed := ih
    rw [step, memClaim, List.mem_cons]
    constructor
    · rintro (inside | same | before)
      · exact .inl (.inr inside)
      · exact .inl (.inl same.symm)
      · exact .inr before
    · rintro ((same | inside) | before)
      · exact .inr (.inl same.symm)
      · exact .inl inside
      · exact .inr (.inr before)

theorem isTakenIff {ledger : Ledger} {name : String} :
    ledger.isTaken name = true ↔ name ∈ ledger.reserved ∨ name ∈ ledger.claimed := by
  simp [isTaken, Std.TreeSet.contains_iff_mem]

theorem acceptsIff {ledger : Ledger} {name : String} :
    ledger.accepts name = true ↔
      Identifier.isWellFormed name = true ∧ name ∉ ledger.reserved ∧ name ∉ ledger.claimed := by
  rw [accepts, Bool.and_eq_true, Bool.not_eq_true', ← Bool.not_eq_true, isTakenIff, not_or]

/-- What may become of a ledger in a session: its settings stay and no claim is given up. -/
structure Grows (before after : Ledger) : Prop where
  reserved : after.reserved = before.reserved
  globalPrefix : after.globalPrefix = before.globalPrefix
  maxAttempts : after.maxAttempts = before.maxAttempts
  claimed : ∀ name ∈ before.claimed, name ∈ after.claimed

theorem Grows.refl (ledger : Ledger) : Grows ledger ledger := ⟨rfl, rfl, rfl, fun _ inside => inside⟩

theorem Grows.trans {first second third : Ledger} (early : Grows first second) (late : Grows second third) :
    Grows first third :=
  ⟨late.reserved.trans early.reserved, late.globalPrefix.trans early.globalPrefix,
    late.maxAttempts.trans early.maxAttempts, fun name inside => late.claimed name (early.claimed name inside)⟩

theorem Grows.claim (ledger : Ledger) (name : String) : Grows ledger (ledger.claim name) :=
  ⟨rfl, rfl, rfl, fun _ inside => memClaim.mpr (.inr inside)⟩

theorem Grows.accepts {before after : Ledger} (grows : Grows before after) {name : String}
    (free : after.accepts name = true) : before.accepts name = true := by
  obtain ⟨formed, unreserved, unclaimed⟩ := acceptsIff.mp free
  exact acceptsIff.mpr ⟨formed, grows.reserved ▸ unreserved, fun inside => unclaimed (grows.claimed name inside)⟩

theorem Grows.refuses {before after : Ledger} (grows : Grows before after) {name : String}
    (refused : before.accepts name = false) : after.accepts name = false := by
  cases free : after.accepts name with
  | false => rfl
  | true => exact absurd (grows.accepts free) (by simp [refused])

theorem Grows.claimAll (ledger : Ledger) (names : List String) : Grows ledger (ledger.claimAll names) := by
  induction names generalizing ledger with
  | nil => exact .refl ledger
  | cons name rest ih => exact (Grows.claim ledger name).trans (ih (ledger.claim name))

theorem claimedRefused (ledger : Ledger) (name : String) : (ledger.claim name).accepts name = false := by
  rw [← Bool.not_eq_true, acceptsIff]
  simp [memClaim]

theorem acceptsApart {ledger : Ledger} {name other : String} (apart : name ≠ other) :
    (ledger.claim name).accepts other = ledger.accepts other := by
  rw [Bool.eq_iff_iff, acceptsIff, acceptsIff, memClaim]
  simp [apart, claim]

theorem refusedIff {ledger : Ledger} {name : String} (grammatical : Identifier.Grammatical name.toList) :
    ledger.accepts name = false ↔ name ∈ Identifier.reservedWords ∨ ledger.isTaken name = true := by
  rw [← Identifier.malformedIff grammatical]
  simp [accepts, Decidable.or_iff_not_imp_left]

theorem joinLeads (lead name : String) : lead.toList <+: (join lead name).toList := by
  unfold join
  split
  · split <;> exact (String.toList_append ..).symm ▸ List.prefix_append ..
  · exact (String.toList_append ..).symm ▸ List.prefix_append ..

theorem joinPlain {lead : String} (plain : ∀ c ∈ lead.toList.getLast?, isSeparator c = false) (name : String) :
    join lead name = lead ++ name := by
  unfold join
  split
  · next last first rest ends starts =>
    have apart : ¬(last = first ∧ isSeparator last = true) := by simp [plain last ends]
    rw [if_neg apart]
  · rfl

section Stream

variable {σ α : Type} (draw : σ → α × σ)

def streamAt (stream : σ) : Nat → σ
  | 0 => stream
  | n + 1 => streamAt (draw stream).2 n

def candidate (stream : σ) (n : Nat) : α := (draw (streamAt draw stream n)).1

def candidates (stream : σ) : Nat → List α
  | 0 => []
  | n + 1 => (draw stream).1 :: candidates (draw stream).2 n

theorem streamAtSucc (stream : σ) (n : Nat) :
    streamAt draw stream (n + 1) = (draw (streamAt draw stream n)).2 := by
  induction n generalizing stream with
  | zero => rfl
  | succ n ih => rw [streamAt, ih, streamAt]

theorem streamAtAdd (stream : σ) (n m : Nat) :
    streamAt draw stream (n + m) = streamAt draw (streamAt draw stream n) m := by
  induction n generalizing stream with
  | zero => rw [Nat.zero_add]; rfl
  | succ n ih => rw [Nat.add_right_comm]; exact ih (draw stream).2

theorem candidateAdd (stream : σ) (n m : Nat) :
    candidate draw (streamAt draw stream n) m = candidate draw stream (n + m) := by
  rw [candidate, candidate, streamAtAdd]

theorem candidatesRange (stream : σ) (n : Nat) :
    candidates draw stream n = (List.range n).map (candidate draw stream) := by
  induction n generalizing stream with
  | zero => rfl
  | succ n ih =>
    rw [candidates, ih, List.range_succ_eq_map, List.map_cons, List.map_map]
    rfl

theorem candidatesSucc (stream : σ) (n : Nat) :
    candidates draw stream (n + 1) = candidates draw stream n ++ [candidate draw stream n] := by
  simp [candidatesRange, List.range_succ]

theorem candidatesPrefix (stream : σ) {n m : Nat} (early : n ≤ m) :
    candidates draw stream n <+: candidates draw stream m := by
  rw [candidatesRange, candidatesRange, ← Nat.add_sub_of_le early, List.range_add, List.map_append]
  exact List.prefix_append ..

/-- A stream that counts through its candidates. -/
theorem streamCounted (names : Nat → α) (start n : Nat) :
    streamAt (fun i => (names i, i + 1)) start n = start + n := by
  induction n generalizing start with
  | zero => rfl
  | succ n ih => rw [streamAt, ih]; omega

theorem candidateCounted (names : Nat → α) (start n : Nat) :
    candidate (fun i => (names i, i + 1)) start n = names (start + n) := by
  rw [candidate, streamCounted]

end Stream

section Search

variable {σ : Type} (draw : σ → String × σ) (ledger : Ledger)

def tallyOf (names : List String) : Tally :=
  ⟨names.countP (!Identifier.isWellFormed ·),
    names.countP fun name => Identifier.isWellFormed name && ledger.isTaken name⟩

/-- How a search ends: with the first candidate the ledger accepts, or given up before it. -/
inductive Finds (label : String) (stream : σ) : Except NameError String × σ → Prop where
  | found {n : Nat} (unspent : ¬ledger.limits.Spent (tallyOf ledger (candidates draw stream n)))
      (missed : ∀ i < n, ledger.accepts (candidate draw stream i) = false)
      (free : ledger.accepts (candidate draw stream n) = true) :
      Finds label stream (.ok (candidate draw stream n), streamAt draw stream (n + 1))
  | gaveUp {n : Nat} (unspent : ¬ledger.limits.Spent (tallyOf ledger (candidates draw stream n)))
      (missed : ∀ i < n + 1, ledger.accepts (candidate draw stream i) = false)
      (spent : ledger.limits.Spent (tallyOf ledger (candidates draw stream (n + 1)))) :
      Finds label stream (.error (exhausted label (tallyOf ledger (candidates draw stream (n + 1)))),
        streamAt draw stream (n + 1))

def attempt (stream : σ) : Attempt (Except NameError String) × σ :=
  (ledger.judge (draw stream).1, (draw stream).2)

theorem attemptState (stream : σ) (n : Nat) :
    Retry.stateAt (attempt draw ledger) stream n = streamAt draw stream n := by
  induction n generalizing stream with
  | zero => rfl
  | succ n ih => exact ih _

theorem countJudged (name : String) (tally : Tally) :
    tally.count (ledger.judge name) =
      ⟨(tallyOf ledger [name]).rejected + tally.rejected, (tallyOf ledger [name]).skipped + tally.skipped⟩ := by
  cases formed : Identifier.isWellFormed name <;> cases taken : ledger.isTaken name <;>
    simp [judge, tallyOf, Tally.count, Tally.reject, Tally.skip, formed, taken, Nat.add_comm]

theorem attemptTally (stream : σ) (tally : Tally) (n : Nat) :
    Retry.tallyAt (attempt draw ledger) tally stream n =
      ⟨(tallyOf ledger (candidates draw stream n)).rejected + tally.rejected,
        (tallyOf ledger (candidates draw stream n)).skipped + tally.skipped⟩ := by
  induction n generalizing stream tally with
  | zero => simp [Retry.tallyAt, candidates, tallyOf]
  | succ n ih =>
    rw [Retry.tallyAt, ih, attempt, countJudged]
    simp only [candidates, tallyOf, List.countP_cons, List.countP_nil]
    congr 1 <;> omega

theorem judgeMissed {ledger : Ledger} {name : String} :
    (ledger.judge name).Missed ↔ ledger.accepts name = false := by
  cases formed : Identifier.isWellFormed name <;> cases taken : ledger.isTaken name <;>
    simp [judge, accepts, Attempt.Missed, formed, taken]

theorem judgeSettled {ledger : Ledger} {name : String} {answer : Except NameError String}
    (settled : ledger.judge name = .settled answer) : answer = .ok name ∧ ledger.accepts name = true := by
  cases formed : Identifier.isWellFormed name <;> cases taken : ledger.isTaken name <;>
    simp_all [judge, accepts]

theorem unspentZero (ledger : Ledger) : ¬ledger.limits.Spent .zero := by
  have some := ledger.attempts_pos
  simp only [Limits.Spent, limits, Tally.zero]
  omega

theorem searchFinds (label : String) (stream : σ) :
    Finds draw ledger label stream (ledger.search label draw stream) := by
  obtain ⟨n, misses, ends⟩ := Retry.retryEnds ledger.limits (fun tally => .error (exhausted label tally))
    (attempt draw ledger) .zero stream ledger.unspentZero
  have tallies (k : Nat) : Retry.tallyAt (attempt draw ledger) .zero stream k =
      tallyOf ledger (candidates draw stream k) := by rw [attemptTally]; rfl
  have missed : ∀ i < n, ledger.accepts (candidate draw stream i) = false := by
    intro i small
    have miss := misses i small
    rw [attemptState] at miss
    exact judgeMissed.mp miss
  change Finds draw ledger label stream (retry _ _ (attempt draw ledger) .zero stream)
  generalize retry ledger.limits (fun tally => .error (exhausted label tally)) (attempt draw ledger) .zero
    stream = outcome at ends ⊢
  cases ends with
  | settled unspent found =>
    rw [attemptState] at found
    obtain ⟨rfl, free⟩ := judgeSettled found
    rw [attemptState]
    exact .found (tallies n ▸ unspent) missed free
  | @givenUp n unspent spent =>
    rw [attemptState, tallies]
    exact .gaveUp (tallies n ▸ unspent) missed (tallies (n + 1) ▸ spent)

theorem searchStream (label : String) (stream : σ) :
    ∃ n, (ledger.search label draw stream).2 = streamAt draw stream n := by
  have finds := searchFinds draw ledger label stream
  generalize ledger.search label draw stream = outcome at finds ⊢
  cases finds with
  | found => exact ⟨_, rfl⟩
  | gaveUp => exact ⟨_, rfl⟩

theorem issueCases (label : String) (stream : σ) :
    (∃ name after, ledger.issue label draw stream = (.ok name, ledger.claim name, after) ∧
      ledger.accepts name = true) ∨
    ∃ cause after, ledger.issue label draw stream = (.error cause, ledger, after) := by
  have finds := searchFinds draw ledger label stream
  unfold issue
  generalize ledger.search label draw stream = outcome at finds ⊢
  cases finds with
  | found unspent missed free => exact .inl ⟨_, _, rfl, free⟩
  | gaveUp unspent missed spent => exact .inr ⟨_, _, rfl⟩

end Search
end Ledger
end Pseudonym
