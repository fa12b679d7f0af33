import Pseudonym.Proofs.Generator.Global
import Pseudonym.Proofs.WordPool.Recycling

/-! How refused joined names are counted. A request for a global name judges one joined name after the other, as a
search judges its candidates, but where a name is refused it asks first whether it is taken. The two ways of counting
differ in names that are taken and no names at all, and a request tells them apart where one of them has used up a
limit and the other has not. -/
namespace Pseudonym
namespace Ledger

abbrev Rule : Type := Ledger → String → Attempt (Except NameError String)

/-- The rule of a request for a global name. -/
def judgeTaken (ledger : Ledger) (name : String) : Attempt (Except NameError String) :=
  if ledger.accepts name then .settled (.ok name)
  else if ledger.isTaken name then .skipped
  else .rejected

/-- A rule that answers with the names a ledger accepts, whatever it makes of the others. -/
structure Rule.Sound (rule : Rule) : Prop where
  settled : ∀ ledger name, ledger.accepts name = true → rule ledger name = .settled (.ok name)
  missed : ∀ ledger name, ledger.accepts name = false → (rule ledger name).Missed

theorem judgeSound : Rule.Sound judge := by
  refine ⟨fun ledger name free => ?_, fun ledger name refused => judgeMissed.mpr refused⟩
  obtain ⟨formed, untaken⟩ := Bool.and_eq_true_iff.mp free
  simp_all [judge]

theorem judgeTakenSound : Rule.Sound judgeTaken := by
  refine ⟨fun ledger name free => if_pos free, fun ledger name refused => ?_⟩
  rw [judgeTaken, if_neg (Bool.eq_false_iff.mp refused)]
  split <;> trivial

theorem countTaken (ledger : Ledger) (name : String) (tally : Tally) :
    tally.count (ledger.judgeTaken name) =
      ⟨tally.rejected + if !Identifier.isWellFormed name && !ledger.isTaken name then 1 else 0,
        tally.skipped + if ledger.isTaken name then 1 else 0⟩ := by
  by_cases formed : Identifier.isWellFormed name <;> by_cases taken : ledger.isTaken name <;>
    simp [judgeTaken, accepts, Tally.count, Tally.reject, Tally.skip, formed, taken]

end Ledger

namespace Generator

variable {σ : Type}

/-- A joined name and what a rule makes of it. -/
def meet (rule : Ledger.Rule) (after : Generator σ) (name : String) : Attempt (Except NameError String) × Generator σ :=
  match rule after.ledger name with
  | .settled answer => (.settled answer, after.preserve name)
  | .rejected => (.rejected, after)
  | .skipped => (.skipped, after)

section

variable {rule : Ledger.Rule} {after : Generator σ} {name : String}

theorem meetMissed (missed : (meet rule after name).1.Missed) :
    (meet rule after name).1 = rule after.ledger name ∧ (meet rule after name).2 = after := by
  unfold meet at missed ⊢
  split at missed
  · exact missed.elim
  · next rejected => simp [rejected]
  · next skipped => simp [skipped]

theorem meetRefused (sound : rule.Sound) (missed : (meet rule after name).1.Missed) :
    after.ledger.accepts name = false := by
  refine Bool.eq_false_iff.mpr fun free => ?_
  simp [meet, sound.settled _ _ free, Attempt.Missed] at missed

theorem meetSettled {answer : Except NameError String} (sound : rule.Sound)
    (settled : (meet rule after name).1 = .settled answer) :
    after.ledger.accepts name = true ∧ answer = .ok name ∧ (meet rule after name).2 = after.preserve name := by
  cases free : after.ledger.accepts name with
  | true =>
    have found := sound.settled _ _ free
    simp only [meet, found] at settled ⊢
    cases settled
    simp
  | false =>
    have missed := sound.missed _ _ free
    unfold meet at settled
    split at settled
    · next found => rw [found] at missed; exact missed.elim
    · cases settled
    · cases settled

end

section

variable (generator : Generator σ) (bases : Nat → String)

def joined (n : Nat) : String := Ledger.join generator.ledger.globalPrefix (bases n)

/-- The ledger when a joined name is judged: it holds every base up to the one in that name. -/
def held (n : Nat) : Ledger := generator.ledger.claimAll ((List.range (n + 1)).map bases)

def Refuses (n : Nat) : Prop := (generator.held bases n).accepts (generator.joined bases n) = false

def tallyBy (rule : Ledger.Rule) : Nat → Tally
  | 0 => .zero
  | n + 1 => (tallyBy rule n).count (rule (generator.held bases n) (generator.joined bases n))

def formed (n : Nat) : Bool := Identifier.isWellFormed (generator.joined bases n)

def taken (n : Nat) : Bool := (generator.held bases n).isTaken (generator.joined bases n)

/-- The tally of a search: what is no name at all is rejected, taken or not. -/
def formedFirst (n : Nat) : Tally :=
  ⟨(List.range n).countP fun i => !generator.formed bases i,
    (List.range n).countP fun i => generator.formed bases i && generator.taken bases i⟩

/-- The tally of a request for a global name: what is taken is skipped, a name or not. -/
def takenFirst (n : Nat) : Tally :=
  ⟨(List.range n).countP fun i => !generator.formed bases i && !generator.taken bases i,
    (List.range n).countP (generator.taken bases)⟩

theorem tallyJudged (n : Nat) : tallyBy generator bases Ledger.judge n = formedFirst generator bases n := by
  induction n with
  | zero => rfl
  | succ n ih =>
    rw [tallyBy, ih, Ledger.countJudged, formedFirst, formedFirst, List.range_succ, List.countP_append,
      List.countP_append]
    congr 1 <;> exact Nat.add_comm ..

theorem tallyTaken (n : Nat) : tallyBy generator bases Ledger.judgeTaken n = takenFirst generator bases n := by
  induction n with
  | zero => rfl
  | succ n ih =>
    simp only [tallyBy, ih, takenFirst, List.range_succ, List.countP_append, List.countP_singleton, Ledger.countTaken]
    rfl

/-- Whether another base is asked for: every name so far is refused, and by one of the two tallies at least the limits
leave room for more. -/
def Asks (n : Nat) : Prop :=
  (∀ i < n, generator.Refuses bases i) ∧
    (¬generator.ledger.limits.Spent (formedFirst generator bases n) ∨
      ¬generator.ledger.limits.Spent (takenFirst generator bases n))

variable {generator bases} {rule : Ledger.Rule}

theorem tallyDrawn (sound : rule.Sound) {n : Nat} (refused : ∀ i < n, generator.Refuses bases i) :
    (tallyBy generator bases rule n).drawn = n := by
  induction n with
  | zero => rfl
  | succ n ih =>
    have last := sound.missed _ _ (refused n (Nat.lt_succ_self n))
    rw [tallyBy, Tally.countMissed _ last, ih fun i small => refused i (Nat.lt_succ_of_lt small)]

theorem tallySpent {limits : Limits} {early late : Nat} (before : early ≤ late)
    (spent : limits.Spent (tallyBy generator bases rule early)) :
    limits.Spent (tallyBy generator bases rule late) := by
  induction before with
  | refl => exact spent
  | step _ ih => exact Tally.countSpent _ ih

theorem Asks.earlier {early late : Nat} (asks : generator.Asks bases late) (before : early ≤ late) :
    generator.Asks bases early := by
  obtain ⟨refused, room⟩ := asks
  refine ⟨fun i small => refused i (Nat.lt_of_lt_of_le small before), ?_⟩
  simp only [← tallyJudged, ← tallyTaken] at room ⊢
  exact room.imp (mt (tallySpent before)) (mt (tallySpent before))

end

variable [RandomSource σ]

/-- One base name with the prefix put before it, judged as a search judges its candidates. -/
def attemptJoined (length : Option Nat) (generator : Generator σ) :
    Attempt (Except NameError String) × Generator σ :=
  match generator.next length with
  | (.error cause, after) => (.settled (.error cause), after)
  | (.ok base, after) => meet Ledger.judge after (after.ledger.prefixed base)

/-- A global name by the rule of a search. -/
def forJoined (generator : Generator σ) (length : Option Nat) : Except NameError String × Generator σ :=
  retry generator.ledger.limits
    (fun tally => .error (Ledger.exhausted generator.kind.token tally))
    (attemptJoined length) .zero generator

/-- The generator after so many requests. -/
def later (length : Option Nat) (generator : Generator σ) (n : Nat) : Generator σ :=
  Ledger.streamAt (fun current => current.next length) generator n

/-- Bases that are drawn as long as any is asked for, each of which the prefix changes. -/
structure Bases (length : Option Nat) (generator : Generator σ) (bases : Nat → String) : Prop where
  drawn : ∀ n, generator.Asks bases n → ((generator.later length n).next length).1 = .ok (bases n)
  changed : ∀ n, generator.Asks bases n → generator.joined bases n ≠ bases n

/-- Where a request stops whose limits are used up after some number of joined names: with the first name that its
ledger accepts, or before it. -/
inductive Stops (length : Option Nat) (generator : Generator σ) (bases : Nat → String) (tallies : Nat → Tally) :
    Nat → Except NameError String × Generator σ → Prop where
  | answered {n : Nat} (refused : ∀ i < n, generator.Refuses bases i)
      (unspent : ∀ i ≤ n, ¬generator.ledger.limits.Spent (tallies i)) (free : ¬generator.Refuses bases n) :
      Stops length generator bases tallies n
        (.ok (generator.joined bases n), (generator.later length (n + 1)).preserve (generator.joined bases n))
  | givenUp {n : Nat} (refused : ∀ i < n, generator.Refuses bases i)
      (unspent : ∀ i < n, ¬generator.ledger.limits.Spent (tallies i))
      (spent : generator.ledger.limits.Spent (tallies n)) :
      Stops length generator bases tallies n
        (.error (.exhausted generator.kind.token (min n (UInt32.size - 1))), generator.later length n)

section

variable {length : Option Nat} {generator : Generator σ} {bases : Nat → String}

namespace Bases

theorem step (ready : Bases length generator bases) {n : Nat} (asks : generator.Asks bases n) :
    (generator.later length n).next length = (.ok (bases n), generator.later length (n + 1)) :=
  Prod.ext (ready.drawn n asks)
    (Ledger.streamAtSucc (fun current : Generator σ => current.next length) generator n).symm

theorem ledger (ready : Bases length generator bases) {n : Nat} (asks : ∀ i < n, generator.Asks bases i) :
    (generator.later length n).ledger = generator.ledger.claimAll ((List.range n).map bases) := by
  induction n with
  | zero => rfl
  | succ n ih =>
    rw [(nextIssued (ready.step (asks n (Nat.lt_succ_self n)))).2, ih fun i small => asks i (Nat.lt_succ_of_lt small),
      List.range_succ, List.map_append, Ledger.claimAll, Ledger.claimAll, List.foldl_append]
    rfl

theorem size (ready : Bases length generator bases) {n : Nat} (asks : ∀ i < n, generator.Asks bases i) :
    (generator.later length n).ledger.claimed.size = generator.ledger.claimed.size + n := by
  induction n with
  | zero => rfl
  | succ n ih =>
    obtain ⟨free, claimed⟩ := nextIssued (ready.step (asks n (Nat.lt_succ_self n)))
    have new := mt Std.TreeSet.mem_iff_contains.mpr (Ledger.acceptsIff.mp free).2.2
    rw [claimed, Ledger.claim, Std.TreeSet.size_insert, if_neg new, ih fun i small => asks i (Nat.lt_succ_of_lt small),
      Nat.add_assoc]

theorem held (ready : Bases length generator bases) {n : Nat} (asks : generator.Asks bases n) :
    (generator.later length (n + 1)).ledger = generator.held bases n :=
  ready.ledger fun _ small => asks.earlier (Nat.le_of_lt_succ small)

theorem joins (ready : Bases length generator bases) {n : Nat} (asks : generator.Asks bases n) :
    (generator.later length (n + 1)).ledger.prefixed (bases n) = generator.joined bases n := by
  rw [Ledger.prefixed, ready.held asks, Generator.held, (Ledger.Grows.claimAll ..).globalPrefix]
  rfl

theorem joinedMeets (ready : Bases length generator bases) {n : Nat} (asks : generator.Asks bases n) :
    attemptJoined length (generator.later length n) =
      meet Ledger.judge (generator.later length (n + 1)) (generator.joined bases n) := by
  rw [attemptJoined, ready.step asks, ← ready.joins asks]

theorem globalMeets (ready : Bases length generator bases) {n : Nat} (asks : generator.Asks bases n) :
    attemptGlobal length (generator.later length n) =
      meet Ledger.judgeTaken (generator.later length (n + 1)) (generator.joined bases n) := by
  simp only [attemptGlobal, joinBase, ready.step asks, ready.joins asks, meet, Ledger.judgeTaken,
    if_neg (ready.changed n asks)]
  split
  · rfl
  · split <;> rfl

end Bases

/-- A request whose attempts judge the joined names by some rule. -/
structure Judges (length : Option Nat) (generator : Generator σ) (bases : Nat → String)
    (attempt : Generator σ → Attempt (Except NameError String) × Generator σ) (rule : Ledger.Rule) : Prop where
  sound : rule.Sound
  asks : ∀ n, (∀ i < n, generator.Refuses bases i) →
    ¬generator.ledger.limits.Spent (tallyBy generator bases rule n) → generator.Asks bases n
  meets : ∀ n, generator.Asks bases n → attempt (generator.later length n) =
    meet rule (generator.later length (n + 1)) (generator.joined bases n)

theorem Bases.joinedJudges (ready : Bases length generator bases) :
    Judges length generator bases (attemptJoined length) Ledger.judge :=
  ⟨Ledger.judgeSound, fun n refused unspent => ⟨refused, .inl (tallyJudged generator bases n ▸ unspent)⟩,
    fun _ asks => ready.joinedMeets asks⟩

theorem Bases.globalJudges (ready : Bases length generator bases) :
    Judges length generator bases (attemptGlobal length) Ledger.judgeTaken :=
  ⟨Ledger.judgeTakenSound, fun n refused unspent => ⟨refused, .inr (tallyTaken generator bases n ▸ unspent)⟩,
    fun _ asks => ready.globalMeets asks⟩

namespace Judges

variable {attempt : Generator σ → Attempt (Except NameError String) × Generator σ} {rule : Ledger.Rule}

theorem size (judges : Judges length generator bases attempt rule) (ready : Bases length generator bases) {n : Nat}
    (refused : ∀ i < n, generator.Refuses bases i)
    (unspent : ∀ i < n, ¬generator.ledger.limits.Spent (tallyBy generator bases rule i)) :
    (generator.later length n).ledger.claimed.size = generator.ledger.claimed.size + n :=
  ready.size fun i small => judges.asks i (fun j early => refused j (Nat.lt_trans early small)) (unspent i small)

/-- As long as every joined name is refused, a request is where the bases are. -/
theorem follows (judges : Judges length generator bases attempt rule) (ready : Bases length generator bases) {n : Nat}
    (missed : ∀ i < n, (attempt (Retry.stateAt attempt generator i)).1.Missed)
    (unspent : ∀ i < n, ¬generator.ledger.limits.Spent (Retry.tallyAt attempt .zero generator i)) :
    Retry.stateAt attempt generator n = generator.later length n ∧
      Retry.tallyAt attempt .zero generator n = tallyBy generator bases rule n ∧
      ∀ i < n, generator.Refuses bases i := by
  induction n with
  | zero => exact ⟨rfl, rfl, by simp⟩
  | succ n ih =>
    obtain ⟨state, tally, refused⟩ :=
      ih (fun i small => missed i (Nat.lt_succ_of_lt small)) fun i small => unspent i (Nat.lt_succ_of_lt small)
    have asks := judges.asks n refused (tally ▸ unspent n (Nat.lt_succ_self n))
    have here := missed n (Nat.lt_succ_self n)
    rw [state, judges.meets n asks] at here
    rw [Retry.stateAtSucc, Retry.tallyAtSucc, tally, state, judges.meets n asks]
    obtain ⟨counted, after⟩ := meetMissed here
    have last := meetRefused judges.sound here
    rw [ready.held asks] at counted last
    refine ⟨after, by rw [counted]; rfl, fun i small => ?_⟩
    rcases Nat.lt_succ_iff_lt_or_eq.mp small with before | rfl
    · exact refused i before
    · exact last

theorem stops (judges : Judges length generator bases attempt rule) (ready : Bases length generator bases) :
    ∃ n, Stops length generator bases (tallyBy generator bases rule) n
      (retry generator.ledger.limits (fun tally => .error (Ledger.exhausted generator.kind.token tally))
        attempt .zero generator) := by
  obtain ⟨n, missed, ends⟩ := Retry.retryEnds generator.ledger.limits
    (fun tally => .error (Ledger.exhausted generator.kind.token tally)) attempt .zero generator
    generator.ledger.unspentZero
  generalize retry _ _ attempt .zero generator = outcome at ends ⊢
  cases ends with
  | settled unspent found =>
    obtain ⟨state, tally, refused⟩ :=
      judges.follows ready missed fun i small spent => unspent (Retry.tallyAtSpent (Nat.le_of_lt small) spent)
    have asks := judges.asks n refused (tally ▸ unspent)
    rw [state, judges.meets n asks] at found
    obtain ⟨free, rfl, after⟩ := meetSettled judges.sound found
    rw [ready.held asks] at free
    rw [Retry.stateAtSucc, state, judges.meets n asks, after]
    refine ⟨n, .answered refused (fun i early spent => ?_) fun refuses => ?_⟩
    · exact unspent (tally ▸ tallySpent early spent)
    · exact Bool.false_ne_true (refuses.symm.trans free)
  | @givenUp n unspent spent =>
    have going (i : Nat) (small : i < n + 1) (early : generator.ledger.limits.Spent _) :=
      unspent (Retry.tallyAtSpent (Nat.le_of_lt_succ small) early)
    obtain ⟨state, tally, refused⟩ := judges.follows ready missed going
    obtain ⟨_, before, _⟩ :=
      judges.follows ready (fun i small => missed i (Nat.lt_succ_of_lt small)) fun i small => going i (by omega)
    rw [state, tally, Ledger.exhausted, tallyDrawn judges.sound refused]
    refine ⟨n + 1, .givenUp refused (fun i early spent => ?_) (tally ▸ spent)⟩
    exact unspent (before ▸ tallySpent (Nat.le_of_lt_succ early) spent)

end Judges

section

variable {rule other : Ledger.Rule} {n m : Nat} {outcome result : Except NameError String × Generator σ}

theorem stopsAlike (one : Stops length generator bases (tallyBy generator bases rule) n outcome)
    (two : Stops length generator bases (tallyBy generator bases other) m result)
    (alike : ∀ k, (∀ i < k, generator.Refuses bases i) →
      (generator.ledger.limits.Spent (tallyBy generator bases rule k) ↔
        generator.ledger.limits.Spent (tallyBy generator bases other k))) : outcome = result := by
  cases one with
  | answered refused unspent free =>
    cases two with
    | answered again _ first => rw [Retry.firstUnique refused free again first]
    | givenUp again _ spent =>
      have early : m ≤ n := Nat.le_of_not_lt fun later => free (again n later)
      exact absurd ((alike m again).mpr spent) (unspent m early)
  | givenUp refused unspent spent =>
    cases two with
    | answered again more free =>
      have early : n ≤ m := Nat.le_of_not_lt fun later => free (refused m later)
      exact absurd ((alike n refused).mp spent) (more n early)
    | givenUp again more last =>
      have early : n ≤ m := Nat.le_of_not_lt fun later => unspent m later ((alike m again).mpr last)
      have late : m ≤ n := Nat.le_of_not_lt fun sooner => more n sooner ((alike n refused).mp spent)
      rw [Nat.le_antisymm early late]

theorem alikeStops {attempt retried : Generator σ → Attempt (Except NameError String) × Generator σ}
    (ready : Bases length generator bases) (first : Judges length generator bases attempt rule)
    (second : Judges length generator bases retried other)
    (one : Stops length generator bases (tallyBy generator bases rule) n outcome)
    (two : Stops length generator bases (tallyBy generator bases other) m result) (same : outcome = result) (k : Nat)
    (passed : ∀ i < k, generator.Refuses bases i) :
    generator.ledger.limits.Spent (tallyBy generator bases rule k) ↔
      generator.ledger.limits.Spent (tallyBy generator bases other k) := by
  subst same
  cases one with
  | answered refused unspent free =>
    have within : k ≤ n := Nat.le_of_not_lt fun later => free (passed n later)
    generalize outcome : (Except.ok _, _) = result at two
    cases two with
    | answered again more found =>
      obtain rfl := Retry.firstUnique refused free again found
      exact iff_of_false (unspent k within) (more k within)
    | givenUp => cases outcome
  | givenUp refused unspent spent =>
    generalize outcome : (Except.error _, _) = result at two
    cases two with
    | answered => cases outcome
    | givenUp again more last =>
      -- Every request for a base claims one name more, so that the ledgers tell how many there were.
      have sizes := congrArg (fun generator => generator.ledger.claimed.size) (Prod.mk.inj outcome).2
      rw [first.size ready refused unspent, second.size ready again more, Nat.add_left_cancel_iff] at sizes
      subst sizes
      rcases Nat.lt_or_ge k n with before | after
      · exact iff_of_false (unspent k before) (more k before)
      · exact iff_of_true (tallySpent after spent) (tallySpent after last)

end

/-- A request for a global name and the rule of a search end alike as long as neither has used up a limit that the
other has not, and so where no refused name is both taken and no name at all. -/
theorem joinedNamesCounted (ready : Bases length generator bases) :
    (∃ n, Stops length generator bases (formedFirst generator bases) n (generator.forJoined length)) ∧
    (∃ n, Stops length generator bases (takenFirst generator bases) n (generator.forGlobal length)) ∧
    (generator.forGlobal length = generator.forJoined length ↔ ∀ n, (∀ i < n, generator.Refuses bases i) →
      (generator.ledger.limits.Spent (takenFirst generator bases n) ↔
        generator.ledger.limits.Spent (formedFirst generator bases n))) ∧
    ((∀ n, (∀ i < n, generator.Refuses bases i) →
        generator.formed bases n = true ∨ generator.taken bases n = false) →
      generator.forGlobal length = generator.forJoined length) := by
  have judged := funext (tallyJudged generator bases)
  have taken := funext (tallyTaken generator bases)
  have first := ready.globalJudges
  have second := ready.joinedJudges
  obtain ⟨n, one⟩ := first.stops ready
  obtain ⟨m, two⟩ := second.stops ready
  have same : generator.forGlobal length = generator.forJoined length ↔ ∀ n, (∀ i < n, generator.Refuses bases i) →
      (generator.ledger.limits.Spent (takenFirst generator bases n) ↔
        generator.ledger.limits.Spent (formedFirst generator bases n)) := by
    rw [← judged, ← taken]
    exact ⟨alikeStops ready first second one two, stopsAlike one two⟩
  refine ⟨⟨m, judged ▸ two⟩, ⟨n, taken ▸ one⟩, same, fun apart => same.mpr fun k refused => ?_⟩
  have apart {i : Nat} (small : i < k) :=
    apart i fun j early => refused j (Nat.lt_trans early small)
  have tallies : takenFirst generator bases k = formedFirst generator bases k := by
    refine congrArg₂ Tally.mk (List.countP_congr fun i member => ?_) (List.countP_congr fun i member => ?_)
    · rcases apart (List.mem_range.mp member) with formed | untaken <;> simp [*]
    · rcases apart (List.mem_range.mp member) with formed | untaken <;> simp [*]
  rw [tallies]

end

open WordPool in
theorem dealtNexts {ledger : Ledger} {generator : Generator σ} {pool : WordPool}
    (deals : Deals ledger pool.words generator pool)
    (formed : ∀ word ∈ pool.words, Identifier.isWellFormed word = true)
    (undigited : ∀ word ∈ pool.words, Undigited word) (length : Option Nat) :
    ∃ bases : Nat → String, ∀ n, ((generator.later length n).next length).1 = .ok (bases n) := by
  have dealt (n : Nat) : ∃ later, Deals ledger pool.words (generator.later length n) later := by
    induction n with
    | zero => exact ⟨pool, deals⟩
    | succ n ih =>
      obtain ⟨later, here⟩ := ih
      have next := here.next length
      rwa [Generator.later, ← Ledger.streamAtSucc (fun current : Generator σ => current.next length)] at next
  have drawn (n : Nat) : ∃ base, ((generator.later length n).next length).1 = .ok base := by
    obtain ⟨later, here⟩ := dealt n
    exact here.answers formed undigited length
  exact Classical.skolem.mp drawn

def fork : WordPool := ⟨#["f", "g"], by decide, .sequential, 0, #["g", "f"]⟩

/-- Two words, the first of which the prefix makes a keyword, and one attempt. -/
def forking : Generator Script := ⟨(Ledger.empty.withPrefix "i").withMaxAttempts 1, Script.lowest, .dictionary fork⟩

open WordPool in
theorem forkingBases (names : List String) :
    ∃ bases : Nat → String, ∀ n, (((forking.preserveAll names).later none n).next none).1 = .ok (bases n) ∧
      (forking.preserveAll names).joined bases n ≠ bases n := by
  obtain ⟨ledger, strategy⟩ := forking.preserveAllKeeps names
  have usable : ofEntries? ["f", "g"] .sequential = some fork := by decide +kernel
  have fair : fork.Fair := (ofEntriesNew usable forking.ledger Script.lowest).fair
  have letters : ∀ word ∈ fork.words.toList, Identifier.isWellFormed word = true ∧
      word.toList.getLast?.all (fun last => !last.isDigit) = true := by decide +kernel
  have words {word : String} (member : word ∈ fork.words) := letters word (Array.mem_def.mp member)
  have undigited (word : String) (member : word ∈ fork.words) : Undigited word := by
    intro last ends
    simpa [Option.mem_def.mp ends] using (words member).2
  obtain ⟨bases, drawn⟩ :=
    dealtNexts ⟨strategy, fair, rfl, .refl _⟩ (fun word member => (words member).1) undigited none
  refine ⟨bases, fun n => ⟨drawn n, fun same => ?_⟩⟩
  have lead : forking.ledger.globalPrefix = "i" := rfl
  rw [joined, ledger, (Ledger.Grows.claimAll ..).globalPrefix, lead,
    Ledger.joinPlain (by simp [Ledger.isSeparator])] at same
  simpa using congrArg String.length same

/-- Where the keyword is free, it counts as an attempt by either rule. -/
theorem keywordCounted :
    ∃ bases, Bases none forking bases ∧ forking.forGlobal none = forking.forJoined none ∧
      (forking.forGlobal none).1 = .error (.exhausted "dictionary" 1) := by
  obtain ⟨bases, drawn⟩ := forkingBases []
  have first : bases 0 = "f" := by
    have answer : (forking.next none).1 = .ok "f" := by decide +kernel
    exact Except.ok.inj ((drawn 0).1.symm.trans answer)
  have second : bases 1 = "g" := by
    have answer : ((forking.next none).2.next none).1 = .ok "g" := by decide +kernel
    exact Except.ok.inj ((drawn 1).1.symm.trans answer)
  have spared : ¬forking.Refuses bases 1 := by
    rw [Refuses, held, joined, List.range_succ, List.range_succ, List.range_zero]
    simp only [List.nil_append, List.cons_append, List.map_cons, List.map_nil, first, second]
    decide +kernel
  have untaken : forking.taken bases 0 = false := by
    have judged : forking.taken bases 0 = (forking.ledger.claim (bases 0)).isTaken (Ledger.join "i" (bases 0)) := rfl
    rw [judged, first]
    decide +kernel
  have name : forking.formed bases 1 = true := by
    rw [formed, joined, second]
    decide +kernel
  have ready : Bases none forking bases := ⟨fun n _ => (drawn n).1, fun n _ => (drawn n).2⟩
  refine ⟨bases, ready, (joinedNamesCounted ready).2.2.2 fun n refused => ?_, by decide +kernel⟩
  match n with
  | 0 => exact .inr untaken
  | 1 => exact .inl name
  | n + 2 => exact absurd (refused 1 (by omega)) spared

/-- Where it is taken, a request steps past it to a name that the rule of a search never comes to. -/
theorem keywordPassed :
    ∃ bases : Nat → String,
      (∀ n, (((forking.preserveAll ["if"]).later none n).next none).1 = .ok (bases n) ∧
        (forking.preserveAll ["if"]).joined bases n ≠ bases n) ∧
      (forking.preserveAll ["if"]).forGlobal none ≠ (forking.preserveAll ["if"]).forJoined none ∧
      ((forking.preserveAll ["if"]).forGlobal none).1 = .ok "ig" ∧
      ((forking.preserveAll ["if"]).forJoined none).1 = .error (.exhausted "dictionary" 1) := by
  obtain ⟨bases, drawn⟩ := forkingBases ["if"]
  have passed : ((forking.preserveAll ["if"]).forGlobal none).1 = .ok "ig" := by decide +kernel
  have counted : ((forking.preserveAll ["if"]).forJoined none).1 = .error (.exhausted "dictionary" 1) := by
    decide +kernel
  refine ⟨bases, drawn, fun same => ?_, passed, counted⟩
  rw [same, counted] at passed
  cases passed

end Generator
end Pseudonym
