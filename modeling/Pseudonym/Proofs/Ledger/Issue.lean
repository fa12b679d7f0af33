import Pseudonym.Proofs.Ledger.Budget

/-! Where a request for a name stops. A request goes through a stream of candidates as long as it can afford those
behind it; it takes the first free one it comes to, and otherwise gives up with the ledger as it was. Main
statements: which candidate a request takes and how many it draws; and that a stream without repeats loses a request
by malformed candidates only, whatever is taken. -/
namespace Pseudonym
namespace Ledger

/-- Whether a request goes on after some candidates: it has attempts left for malformed ones, and has stepped past no
more of the taken ones than there are names to take and attempts together. -/
def Affords (ledger : Ledger) (names : List String) : Prop :=
  names.countP (!Identifier.isWellFormed ·) < ledger.maxAttempts ∧
    names.countP (fun name => Identifier.isWellFormed name && ledger.isTaken name) ≤
      ledger.claimed.size + ledger.reserved.size + ledger.maxAttempts

variable {ledger : Ledger} {names : List String}

theorem affordsIff : ledger.Affords names ↔ ¬ledger.limits.Spent (ledger.tallyOf names) := by
  simp only [Affords, Limits.Spent, limits, skipBudget, tallyOf, not_or, Nat.not_le, Nat.not_lt]

theorem affordsEarlier {others : List String} (afforded : ledger.Affords others) (early : names <+: others) :
    ledger.Affords names :=
  ⟨Nat.lt_of_le_of_lt early.sublist.countP_le afforded.1, Nat.le_trans early.sublist.countP_le afforded.2⟩

theorem refusedCount (refused : ∀ name ∈ names, ledger.accepts name = false) :
    (ledger.tallyOf names).drawn = names.length := by
  induction names with
  | nil => rfl
  | cons name rest ih =>
    have here := refused name List.mem_cons_self
    have later := ih fun other member => refused other (List.mem_cons_of_mem _ member)
    simp only [tallyOf, Tally.drawn, List.countP_cons, List.length_cons] at later ⊢
    cases formed : Identifier.isWellFormed name <;> cases taken : ledger.isTaken name <;>
      simp_all [accepts] <;> omega

section Search

variable {σ : Type} (draw : σ → String × σ) (ledger : Ledger)

def FirstFree (stream : σ) (k : Nat) : Prop :=
  ledger.accepts (candidate draw stream k) = true ∧ ∀ i < k, ledger.accepts (candidate draw stream i) = false

/-- How many candidates a request draws that gives up: as many as it cannot afford, and no fewer. -/
def Exhausts (stream : σ) (drawn : Nat) : Prop :=
  ¬ledger.Affords (candidates draw stream drawn) ∧ ∀ n < drawn, ledger.Affords (candidates draw stream n)

variable {draw ledger} {stream : σ} {n : Nat}

theorem refusedDrawn (refused : ∀ i < n, ledger.accepts (candidate draw stream i) = false) :
    (ledger.tallyOf (candidates draw stream n)).drawn = n := by
  rw [refusedCount, candidatesRange, List.length_map, List.length_range]
  intro name member
  rw [candidatesRange] at member
  obtain ⟨i, small, rfl⟩ := List.mem_map.mp member
  exact refused i (List.mem_range.mp small)

theorem refusedFew (refused : ∀ i < n, ledger.accepts (candidate draw stream i) = false)
    (afforded : ledger.Affords (candidates draw stream n)) : n + 1 ≤ ledger.maxAttempts + ledger.skipBudget := by
  have drawn := refusedDrawn refused
  obtain ⟨rejected, skipped⟩ := afforded
  simp only [Tally.drawn, tallyOf] at drawn
  simp only [skipBudget]
  omega

theorem notExhausted (refused : ∀ i < n, ledger.accepts (candidate draw stream i) = false)
    (unaffordable : ¬ledger.Affords (candidates draw stream n)) {k : Nat} (free : FirstFree draw ledger stream k) :
    ¬ledger.Affords (candidates draw stream k) := by
  intro afforded
  rcases Nat.lt_or_ge k n with before | after
  · exact absurd free.1 (by simp [refused k before])
  · exact unaffordable (affordsEarlier afforded (candidatesPrefix draw stream after))

variable (draw ledger)

theorem issueEnds (label : String) (stream : σ) :
    (∃ k, FirstFree draw ledger stream k ∧ ledger.Affords (candidates draw stream k) ∧
      ledger.issue label draw stream =
        (.ok (candidate draw stream k), ledger.claim (candidate draw stream k), streamAt draw stream (k + 1))) ∨
    ∃ drawn, (∀ i < drawn, ledger.accepts (candidate draw stream i) = false) ∧ Exhausts draw ledger stream drawn ∧
      drawn ≤ ledger.maxAttempts + ledger.skipBudget ∧
      ledger.issue label draw stream =
        (.error (.exhausted label (min drawn (UInt32.size - 1))), ledger, streamAt draw stream drawn) := by
  have finds := searchFinds draw ledger label stream
  unfold issue
  generalize ledger.search label draw stream = outcome at finds ⊢
  cases finds with
  | @found k unspent missed free => exact .inl ⟨k, ⟨free, missed⟩, affordsIff.mpr unspent, rfl⟩
  | @gaveUp n unspent missed spent =>
    have afforded := affordsIff.mpr unspent
    refine .inr ⟨n + 1, missed, ⟨mt affordsIff.mp (not_not_intro spent), fun i small => ?_⟩, ?_, ?_⟩
    · exact affordsEarlier afforded (candidatesPrefix draw stream (Nat.le_of_lt_succ small))
    · exact refusedFew (fun i small => missed i (by omega)) afforded
    · rw [exhausted, refusedDrawn missed]

theorem issueCosts (label : String) (stream : σ) (shown : Nat) :
    ∃ cost ≤ ledger.maxAttempts + ledger.skipBudget, ledger.issue label (Retry.counted draw) (stream, shown) =
      ((ledger.issue label draw stream).1, (ledger.issue label draw stream).2.1, (ledger.issue label draw stream).2.2,
        shown + cost) := by
  obtain ⟨cost, few, counted⟩ := Retry.retryCounted ledger.limits (fun tally => .error (exhausted label tally))
    (attempt draw ledger) stream shown ledger.unspentZero
  have searched : ledger.search label (Retry.counted draw) (stream, shown) =
      ((ledger.search label draw stream).1, (ledger.search label draw stream).2, shown + cost) := counted
  refine ⟨cost, few, ?_⟩
  unfold issue
  rw [searched]
  rcases ledger.search label draw stream with ⟨_ | name, after⟩
  · rfl
  · rfl

/-- How many candidates a request draws. -/
def drawn (label : String) (stream : σ) : Nat := (ledger.issue label (Retry.counted draw) (stream, 0)).2.2.2

theorem issueCounted (label : String) (stream : σ) :
    ledger.issue label (Retry.counted draw) (stream, 0) =
        ((ledger.issue label draw stream).1, (ledger.issue label draw stream).2.1, (ledger.issue label draw stream).2.2,
          ledger.drawn draw label stream) ∧
      ledger.drawn draw label stream ≤ ledger.maxAttempts + ledger.skipBudget := by
  obtain ⟨cost, few, same⟩ := issueCosts draw ledger label stream 0
  have total : ledger.drawn draw label stream = cost := by rw [drawn, same, Nat.zero_add]
  rw [Nat.zero_add] at same
  rw [total]
  exact ⟨same, few⟩

theorem countedStream (stream : σ) (count n : Nat) :
    streamAt (Retry.counted draw) (stream, count) n = (streamAt draw stream n, count + n) := by
  induction n generalizing stream count with
  | zero => rfl
  | succ n ih =>
    rw [streamAt, streamAt, ← Nat.add_assoc, Nat.add_right_comm]
    exact ih (draw stream).2 (count + 1)

theorem countedCandidate (stream : σ) (n : Nat) :
    candidate (Retry.counted draw) (stream, 0) n = candidate draw stream n := by
  rw [candidate, countedStream]
  rfl

theorem issueDrawn (label : String) (stream : σ) :
    (ledger.issue label draw stream).2.2 = streamAt draw stream (ledger.drawn draw label stream) ∧
      ∀ name, (ledger.issue label draw stream).1 = .ok name →
        ∃ k, FirstFree draw ledger stream k ∧ candidate draw stream k = name ∧
          ledger.drawn draw label stream = k + 1 := by
  have counted := (issueCounted draw ledger label stream).1
  rcases issueEnds (Retry.counted draw) ledger label (stream, 0) with
    ⟨k, free, _, issued⟩ | ⟨n, _, _, _, issued⟩
  · rw [counted, countedStream, countedCandidate, Nat.zero_add, Prod.mk.injEq, Prod.mk.injEq, Prod.mk.injEq] at issued
    obtain ⟨answer, _, rest, count⟩ := issued
    simp only [FirstFree, countedCandidate] at free
    refine ⟨by rw [rest, count], fun name named => ⟨k, free, ?_, count⟩⟩
    exact Except.ok.inj (answer.symm.trans named)
  · rw [counted, countedStream, Nat.zero_add, Prod.mk.injEq, Prod.mk.injEq, Prod.mk.injEq] at issued
    obtain ⟨answer, _, rest, count⟩ := issued
    refine ⟨by rw [rest, count], fun name named => ?_⟩
    rw [answer] at named
    cases named

/-- What a request comes to that draws `drawn` candidates. -/
structure Stops (label : String) (stream : σ) (drawn : Nat) (outcome : Except NameError String × Ledger × σ) :
    Prop where
  few : drawn ≤ ledger.maxAttempts + (ledger.claimed.size + ledger.reserved.size + ledger.maxAttempts)
  draws : outcome.2.2 = streamAt draw stream drawn
  answers : ∀ name, outcome.1 = .ok name ↔
    ∃ k, FirstFree draw ledger stream k ∧ ledger.Affords (candidates draw stream k) ∧ candidate draw stream k = name
  takes : ∀ k, FirstFree draw ledger stream k → ledger.Affords (candidates draw stream k) →
    drawn = k + 1 ∧ outcome.2.1 = ledger.claim (candidate draw stream k)
  givesUp : (∀ k, FirstFree draw ledger stream k → ¬ledger.Affords (candidates draw stream k)) →
    Exhausts draw ledger stream drawn ∧ outcome.1 = .error (.exhausted label (min drawn (UInt32.size - 1))) ∧
      outcome.2.1 = ledger

theorem firstFreeUnique {k other : Nat} (free : FirstFree draw ledger stream k)
    (again : FirstFree draw ledger stream other) : other = k :=
  Retry.firstUnique again.2 (ne_false_of_eq_true again.1) free.2 (ne_false_of_eq_true free.1)

theorem requestStops (label : String) (stream : σ) :
    ∃ drawn, Stops draw ledger label stream drawn (ledger.issue label draw stream) := by
  rcases issueEnds draw ledger label stream with ⟨k, free, afforded, issued⟩ | ⟨drawn, refused, exhausts, few, issued⟩
  · refine ⟨k + 1, refusedFew free.2 afforded, by rw [issued], fun name => ?_, ?_, ?_⟩
    · rw [issued, Except.ok.injEq]
      constructor
      · exact fun same => ⟨k, free, afforded, same⟩
      · rintro ⟨other, again, _, same⟩
        rwa [firstFreeUnique draw ledger free again] at same
    · intro other again _
      rw [firstFreeUnique draw ledger free again, issued]
      exact ⟨rfl, rfl⟩
    · exact fun none => absurd afforded (none k free)
  · have none {k : Nat} (free : FirstFree draw ledger stream k) := notExhausted refused exhausts.1 free
    refine ⟨drawn, few, by rw [issued], fun name => ?_, ?_, ?_⟩
    · rw [issued]
      constructor
      · nofun
      · rintro ⟨k, free, afforded, _⟩
        exact absurd afforded (none free)
    · exact fun k free afforded => absurd afforded (none free)
    · exact fun _ => ⟨exhausts, by rw [issued], by rw [issued]⟩

theorem candidatesNodup (distinct : Function.Injective (candidate draw stream)) (n : Nat) :
    (candidates draw stream n).Nodup := by
  rw [candidatesRange]
  exact List.nodup_range.map distinct

theorem distinctRejected (distinct : Function.Injective (candidate draw stream)) {drawn : Nat}
    (exhausts : Exhausts draw ledger stream drawn) :
    (candidates draw stream drawn).countP (!Identifier.isWellFormed ·) = ledger.maxAttempts := by
  obtain ⟨unaffordable, afforded⟩ := exhausts
  -- Each taken name comes once, so that steps past them alone are always afforded.
  have few := ledger.skippedFew (candidatesNodup draw distinct drawn)
  cases drawn with
  | zero => exact absurd ⟨ledger.attempts_pos, Nat.zero_le _⟩ unaffordable
  | succ n =>
    have before := (afforded n (Nat.lt_succ_self n)).1
    have last : [candidate draw stream n].countP (!Identifier.isWellFormed ·) ≤ 1 := List.countP_le_length
    simp only [tallyOf, Affords, candidatesSucc, List.countP_append] at few unaffordable ⊢
    omega

theorem distinctStreamsLast (label : String) {stream : σ} (distinct : Function.Injective (candidate draw stream)) :
    (∀ cause, (ledger.issue label draw stream).1 = .error cause →
      ∃ drawn, Exhausts draw ledger stream drawn ∧
        ledger.issue label draw stream =
          (.error (.exhausted label (min drawn (UInt32.size - 1))), ledger, streamAt draw stream drawn) ∧
        (candidates draw stream drawn).countP (!Identifier.isWellFormed ·) = ledger.maxAttempts) ∧
    ((∀ n, (candidates draw stream n).countP (!Identifier.isWellFormed ·) < ledger.maxAttempts) →
      ∃ k, FirstFree draw ledger stream k ∧
        ledger.issue label draw stream =
          (.ok (candidate draw stream k), ledger.claim (candidate draw stream k), streamAt draw stream (k + 1))) := by
  rcases issueEnds draw ledger label stream with ⟨k, free, _, issued⟩ | ⟨drawn, _, exhausts, _, issued⟩
  · exact ⟨fun cause failed => by simp [issued] at failed, fun _ => ⟨k, free, issued⟩⟩
  · have all := distinctRejected draw ledger distinct exhausts
    refine ⟨fun _ _ => ⟨drawn, exhausts, issued, all⟩, fun some => ?_⟩
    exact absurd all (Nat.ne_of_lt (some drawn))

end Search

def letters (n : Nat) : String := String.ofList (List.replicate n 'a')

def letterRun : Nat → String × Nat := fun n => (letters n, n + 1)

theorem runCandidate (n : Nat) : candidate letterRun 0 n = letters n :=
  (candidateCounted letters 0 n).trans (congrArg letters (Nat.zero_add n))

theorem lettersFormed (n : Nat) : Identifier.isWellFormed (letters n) = (n != 0) := by
  cases n with
  | zero => rfl
  | succ n =>
    have others : ∀ word ∈ Identifier.reservedWords, word.toList.all (· == 'a') = false := by decide +kernel
    refine Identifier.wellFormedIff.mpr ⟨?_, fun reserved => ?_⟩
    · rw [letters, String.toList_ofList]
      exact .intro (by decide) fun c member => by rw [List.eq_of_mem_replicate member]; decide
    · have other := others _ reserved
      simp [letters] at other

theorem runDistinct : Function.Injective (candidate letterRun 0) := by
  intro n m same
  simp only [runCandidate, letters, String.ofList_inj] at same
  simpa using congrArg List.length same

theorem runMalformed (n : Nat) : (candidates letterRun 0 n).countP (!Identifier.isWellFormed ·) ≤ 1 := by
  have once : (List.range n).count 0 ≤ 1 := List.nodup_iff_count_le_one.mp List.nodup_range 0
  rw [candidatesRange, List.countP_map]
  refine Nat.le_trans (List.countP_mono_left fun i _ malformed => ?_) once
  simpa [runCandidate, lettersFormed] using malformed

/-- Two attempts, one of them lost on the empty word, and names put aside before the first free one. -/
def sparing : Ledger := ((empty.withMaxAttempts 2).withReserved ["aa"]).claimAll ["a", "aaa"]

theorem letterRunLasts :
    Function.Injective (candidate letterRun 0) ∧
      (∀ n, (candidates letterRun 0 n).countP (!Identifier.isWellFormed ·) < sparing.maxAttempts) ∧
      (sparing.issue "letters" letterRun 0).1 = .ok "aaaa" ∧
      ∃ k, FirstFree letterRun sparing 0 k ∧ candidate letterRun 0 k = "aaaa" := by
  have few (n : Nat) : (candidates letterRun 0 n).countP (!Identifier.isWellFormed ·) < sparing.maxAttempts :=
    Nat.lt_succ_of_le (runMalformed n)
  have answer := toOptionIff.mp (show (sparing.issue "letters" letterRun 0).1.toOption = some "aaaa" by
    decide +kernel)
  obtain ⟨k, free, issued⟩ := (distinctStreamsLast letterRun sparing "letters" runDistinct).2 few
  refine ⟨runDistinct, few, answer, k, free, ?_⟩
  rw [issued] at answer
  exact Except.ok.inj answer

end Ledger
end Pseudonym
