import Pseudonym.Proofs.Ledger.Budget
import Pseudonym.Proofs.Mangling.Shortest

/-! Mangled names never run out. No name comes twice, so a request meets fewer taken names than it may step past;
and a name with the prefix before it is longer than every name counted so far, so the requests for global names
do not stand in their own way. -/
namespace Pseudonym

theorem Identifier.grammaticalAppend {lead rest : List Char} (grammatical : Grammatical lead)
    (parts : ∀ c ∈ rest, isPart c = true) : Grammatical (lead ++ rest) := by
  cases grammatical with
  | intro start more =>
    refine .intro start fun c member => ?_
    rcases List.mem_append.mp member with before | after
    · exact more c before
    · exact parts c after

theorem Identifier.grammaticalParts {name : List Char} (grammatical : Grammatical name) :
    ∀ c ∈ name, isPart c = true := by
  cases grammatical with
  | intro start parts => exact List.forall_mem_cons.mpr ⟨by simp [isPart, start], parts⟩

namespace Ledger

theorem joinLetter (lead : String) {name : String} (letter : ∀ c ∈ name.toList.head?, c.isAlpha = true) :
    join lead name = lead ++ name := by
  unfold join
  split
  · next last first rest ends starts =>
    have alpha : first.isAlpha = true := letter first (by simp [starts])
    have plain : isSeparator first = false := by
      cases separator : isSeparator first with
      | false => rfl
      | true =>
        simp only [isSeparator, Bool.or_eq_true, beq_iff_eq] at separator
        rcases separator with rfl | rfl <;> cases alpha
    rw [if_neg]
    intro joined
    simp [joined.1, plain] at joined
  · rfl

def PrefixFits (ledger : Ledger) : Prop :=
  ledger.globalPrefix = "" ∨ Identifier.isGrammatical ledger.globalPrefix = true

end Ledger

namespace Mangling
open Session

variable {σ : Type} {generator : Generator σ} {alphabets : Alphabets} {position : Nat}

section Joined

variable (proper : alphabets.Proper) {ledger : Ledger}
include proper

theorem prefixedName (ledger : Ledger) (i : Nat) :
    ledger.prefixed (alphabets.name i) = ledger.globalPrefix ++ alphabets.name i := by
  refine Ledger.joinLetter _ fun c member => ?_
  have written := Alphabets.nameWrites proper i
  unfold Alphabets.Writes at written
  generalize (alphabets.name i).toList = letters at written member
  cases written with
  | intro start more => cases member; exact proper.letters _ start

theorem prefixedInjective (ledger : Ledger) : Function.Injective fun i => ledger.prefixed (alphabets.name i) := by
  intro i j same
  simp only [prefixedName proper] at same
  have letters := congrArg String.toList same
  simp only [String.toList_append, List.append_cancel_left_eq] at letters
  exact Alphabets.nameInjective proper (String.toList_injective letters)

theorem prefixedGrammatical (fits : ledger.PrefixFits) (i : Nat) :
    Identifier.Grammatical (ledger.prefixed (alphabets.name i)).toList := by
  have name := Alphabets.nameGrammatical proper i
  rw [prefixedName proper, String.toList_append]
  rcases fits with none | grammatical
  · simpa [none] using name
  · exact Identifier.grammaticalAppend (Identifier.spellsIff.mp grammatical) (Identifier.grammaticalParts name)

theorem prefixedNew {i j : Nat} (changed : ledger.prefixed (alphabets.name j) ≠ alphabets.name j) (early : i ≤ j) :
    ledger.prefixed (alphabets.name j) ≠ alphabets.name i := by
  intro same
  rw [prefixedName proper] at same changed
  have shorter := alphabets.nameLength early
  rw [← same, String.length_append] at shorter
  have none : ledger.globalPrefix = "" := String.length_eq_zero_iff.mp (by omega)
  exact changed (by simp [none])

end Joined

/-- A generator some way into a request for a global name: whatever was claimed since is a name it counted past. -/
structure Onward (alphabets : Alphabets) (first : Ledger) (generator : Generator σ) (position : Nat) : Prop where
  state : generator.counter? = some (alphabets, position)
  grows : first.Grows generator.ledger
  claimed : ∀ name ∈ generator.ledger.claimed, name ∈ first.claimed ∨ ∃ i < position, name = alphabets.name i

structure Tries (alphabets : Alphabets) (first : Ledger) (tally : Tally) (generator : Generator σ)
    (position : Nat) : Prop extends Onward alphabets first generator position where
  rejected : tally.rejected ≤
    ((List.range position).map fun i => first.prefixed (alphabets.name i)).countP (!Identifier.isWellFormed ·)
  skipped : tally.skipped ≤
    ((List.range position).map fun i => first.prefixed (alphabets.name i)).countP first.isTaken

section Steps

variable {first : Ledger} {tally : Tally} {after : Generator σ} {k : Nat}

theorem Onward.found (onward : Onward alphabets first generator position) (later : position ≤ k)
    (ledger : after.ledger = generator.ledger.claim (alphabets.name k))
    (state : after.counter? = some (alphabets, k + 1)) : Onward alphabets first after (k + 1) := by
  refine ⟨state, ?_, fun name claimed => ?_⟩
  · rw [ledger]
    exact onward.grows.trans (Ledger.Grows.claim _ _)
  · rw [ledger, Ledger.memClaim] at claimed
    rcases claimed with rfl | before
    · exact .inr ⟨k, Nat.lt_succ_self k, rfl⟩
    · rcases onward.claimed name before with old | ⟨i, small, same⟩
      · exact .inl old
      · exact .inr ⟨i, by omega, same⟩

theorem Onward.prefixed (onward : Onward alphabets first generator position) (name : String) :
    generator.ledger.prefixed name = first.prefixed name := by
  rw [Ledger.prefixed, Ledger.prefixed, onward.grows.globalPrefix]

theorem Onward.takenBefore (onward : Onward alphabets first generator (k + 1)) (proper : alphabets.Proper)
    (changed : first.prefixed (alphabets.name k) ≠ alphabets.name k)
    (taken : generator.ledger.isTaken (first.prefixed (alphabets.name k)) = true) :
    first.isTaken (first.prefixed (alphabets.name k)) = true := by
  rw [Ledger.isTakenIff] at taken ⊢
  rcases taken with reserved | claimed
  · exact .inl (onward.grows.reserved ▸ reserved)
  · rcases onward.claimed _ claimed with before | ⟨i, small, same⟩
    · exact .inr before
    -- What was claimed since is no longer than the base, which the prefix makes longer.
    · exact absurd same (prefixedNew proper changed (Nat.le_of_lt_succ small))

theorem rangeCount (names : Nat → String) (counted : String → Bool) (later : position ≤ k) :
    ((List.range position).map names).countP counted + (if counted (names k) then 1 else 0) ≤
      ((List.range (k + 1)).map names).countP counted := by
  have fewer := ((List.range_sublist.mpr later).map names).countP_le (p := counted)
  rw [List.range_succ, List.map_append, List.countP_append]
  simpa [List.countP_singleton] using fewer

theorem Tries.skip (tries : Tries alphabets first tally generator position) (later : position ≤ k)
    (onward : Onward alphabets first after (k + 1))
    (taken : first.isTaken (first.prefixed (alphabets.name k)) = true) :
    Tries alphabets first tally.skip after (k + 1) := by
  have rejected := rangeCount (fun i => first.prefixed (alphabets.name i)) (!Identifier.isWellFormed ·) later
  have skipped := rangeCount (fun i => first.prefixed (alphabets.name i)) first.isTaken later
  rw [if_pos taken] at skipped
  refine ⟨onward, ?_, ?_⟩
  · exact Nat.le_trans tries.rejected (Nat.le_trans (Nat.le_add_right _ _) rejected)
  · exact Nat.le_trans (Nat.succ_le_succ tries.skipped) skipped

theorem Tries.reject (tries : Tries alphabets first tally generator position) (later : position ≤ k)
    (onward : Onward alphabets first after (k + 1))
    (malformed : Identifier.isWellFormed (first.prefixed (alphabets.name k)) = false) :
    Tries alphabets first tally.reject after (k + 1) := by
  have rejected := rangeCount (fun i => first.prefixed (alphabets.name i)) (!Identifier.isWellFormed ·) later
  have skipped := rangeCount (fun i => first.prefixed (alphabets.name i)) first.isTaken later
  rw [if_pos (by simp [malformed])] at rejected
  refine ⟨onward, ?_, ?_⟩
  · exact Nat.le_trans (Nat.succ_le_succ tries.rejected) rejected
  · exact Nat.le_trans tries.skipped (Nat.le_trans (Nat.le_add_right _ _) skipped)

end Steps

structure Ready (alphabets : Alphabets) (generator : Generator σ) : Prop where
  state : ∃ position, generator.counter? = some (alphabets, position)
  patient : Identifier.reservedWords.length < generator.ledger.maxAttempts
  fits : generator.ledger.PrefixFits

theorem Ready.grown {ledger : Ledger} (ready : Ready alphabets generator) (grows : generator.ledger.Grows ledger) :
    Identifier.reservedWords.length < ledger.maxAttempts ∧ ledger.PrefixFits :=
  ⟨grows.maxAttempts ▸ ready.patient, by
    have fits := ready.fits
    rwa [Ledger.PrefixFits, ← grows.globalPrefix] at fits⟩

theorem Ready.preserve (ready : Ready alphabets generator) (name : String) :
    Ready alphabets (generator.preserve name) := ⟨ready.state, ready.patient, ready.fits⟩

variable [RandomSource σ]

theorem nextAnswered (proper : alphabets.Proper) (state : generator.counter? = some (alphabets, position))
    (patient : Identifier.reservedWords.length < generator.ledger.maxAttempts) (length : Option Nat) :
    ∃ name, (generator.next length).1 = .ok name := by
  have yields := nextYields state length
  generalize generator.next length = outcome at yields ⊢
  cases yields with
  | found => exact ⟨_, rfl⟩
  | @gaveUp n _ _ _ spent =>
    have distinct : ((List.range' position n).map alphabets.name).Nodup :=
      List.Nodup.map (Alphabets.nameInjective proper) List.nodup_range'
    have grammatical : ∀ name ∈ (List.range' position n).map alphabets.name,
        Identifier.Grammatical name.toList := by
      intro name member
      obtain ⟨i, _, rfl⟩ := List.mem_map.mp member
      exact Alphabets.nameGrammatical proper i
    refine absurd spent (Ledger.distinctUnspent distinct grammatical patient (Nat.le_refl _) ?_)
    exact List.countP_mono_left fun name _ both => (Bool.and_eq_true_iff.mp both).2

theorem Tries.missed (proper : alphabets.Proper) {first : Ledger} {tally : Tally}
    (tries : Tries alphabets first tally generator position) {length : Option Nat}
    (missed : (Generator.attemptGlobal length generator).1.Missed) :
    ∃ later, Tries alphabets first (tally.count (Generator.attemptGlobal length generator).1)
      (Generator.attemptGlobal length generator).2 later := by
  have yields := nextYields tries.state length
  unfold Generator.attemptGlobal at missed ⊢
  generalize generator.next length = outcome at yields missed ⊢
  cases yields with
  | gaveUp => exact missed.elim
  | @found n after _ free ledger state =>
    have later : position ≤ position + n := Nat.le_add_right position n
    have onward := tries.toOnward.found later ledger state
    simp only [Generator.joinBase, onward.prefixed] at missed ⊢
    split at missed
    · exact missed.elim
    · next changed =>
      rw [if_neg changed]
      split at missed
      · exact missed.elim
      · next refused =>
        rw [if_neg refused]
        split
        · next taken => exact ⟨_, tries.skip later onward (onward.takenBefore proper changed taken)⟩
        · next untaken =>
          refine ⟨_, tries.reject later onward ?_⟩
          simpa [Ledger.accepts, untaken] using refused

theorem globalAnswered (proper : alphabets.Proper) (state : generator.counter? = some (alphabets, position))
    (patient : Identifier.reservedWords.length < generator.ledger.maxAttempts)
    (fits : generator.ledger.PrefixFits) (length : Option Nat) :
    ∃ name, (generator.forGlobal length).1 = .ok name := by
  let Holds (tally : Tally) (current : Generator σ) : Prop :=
    ∃ position, Tries alphabets generator.ledger tally current position
  have misses (tally : Tally) (current : Generator σ) (holds : Holds tally current)
      (missed : (Generator.attemptGlobal length current).1.Missed) :
      Holds (tally.count (Generator.attemptGlobal length current).1) (Generator.attemptGlobal length current).2 := by
    obtain ⟨position, tries⟩ := holds
    exact tries.missed proper missed
  have unspent (tally : Tally) (current : Generator σ) (holds : Holds tally current) :
      ¬generator.ledger.limits.Spent tally := by
    obtain ⟨position, tries⟩ := holds
    refine Ledger.distinctUnspent (List.nodup_range.map (prefixedInjective proper _)) ?_ patient
      tries.rejected tries.skipped
    intro name member
    obtain ⟨i, _, rfl⟩ := List.mem_map.mp member
    exact prefixedGrammatical proper fits i
  have start : Holds .zero generator :=
    ⟨position, ⟨state, .refl _, fun name claimed => .inl claimed⟩, Nat.zero_le _, Nat.zero_le _⟩
  obtain ⟨tally, last, answer, ⟨position, tries⟩, settled, same⟩ :=
    Retry.retrySettles (fun tally => .error (Ledger.exhausted generator.kind.token tally))
      misses unspent .zero generator start
  obtain ⟨base, answered⟩ := nextAnswered proper tries.state (tries.grows.maxAttempts ▸ patient) length
  unfold Generator.forGlobal
  rw [same]
  unfold Generator.attemptGlobal at settled
  generalize last.next length = outcome at answered settled
  obtain ⟨_, after⟩ := outcome
  cases answered
  dsimp only [Generator.joinBase] at settled
  split at settled
  · cases settled; exact ⟨_, rfl⟩
  · split at settled
    · cases settled; exact ⟨_, rfl⟩
    · split at settled <;> cases settled

theorem Ready.next (ready : Ready alphabets generator) (length : Option Nat) :
    Ready alphabets (generator.next length).2 := by
  obtain ⟨position, state⟩ := ready.state
  obtain ⟨label, _, _, later⟩ := nextIssues state length
  obtain ⟨patient, fits⟩ := ready.grown (generator.nextAnswers length).grows
  exact ⟨⟨_, later⟩, patient, fits⟩

theorem Ready.answers (proper : alphabets.Proper) (ready : Ready alphabets generator) (call : Call) :
    ∃ name, (call.perform generator).1 = .ok name := by
  obtain ⟨position, state⟩ := ready.state
  cases call with
  | next length => exact nextAnswered proper state ready.patient length
  | lexical scope length => exact nextAnswered proper state ready.patient length
  | global length => exact globalAnswered proper state ready.patient ready.fits length
  | label label length =>
    simp only [Call.perform, Generator.forLabel]
    split
    · exact ⟨_, rfl⟩
    · exact nextAnswered proper state ready.patient length
  | preserve name => exact ⟨_, rfl⟩

theorem Ready.plans (proper : alphabets.Proper) (ready : Ready alphabets generator) (tree : ScopeTree)
    (options : PlanOptions) : ∃ result, (plan tree generator options).1 = .ok result := by
  refine Plan.planAnswers ?_
  exact @followAnswers σ _ (Ready alphabets) (fun _ length ready => ready.next length)
    (fun _ name ready => ready.preserve name) (fun _ call ready => ready.answers proper call) generator _ ready

structure Unfailing (generator : Generator σ) : Prop where
  next : ∀ length, ∃ name, (generator.next length).1 = .ok name
  lexical : ∀ scope length, ∃ name, (generator.forScope scope length).1 = .ok name
  label : ∀ label length, ∃ name, (generator.forLabel label length).1 = .ok name
  global : ∀ length, ∃ name, (generator.forGlobal length).1 = .ok name
  plans : ∀ tree options, ∃ result, (plan tree generator options).1 = .ok result

theorem Ready.unfailing (proper : alphabets.Proper) (ready : Ready alphabets generator) : Unfailing generator where
  next length := ready.answers proper (.next length)
  lexical scope length := ready.answers proper (.lexical scope length)
  label label length := ready.answers proper (.label label length)
  global length := ready.answers proper (.global length)
  plans := ready.plans proper

theorem mangledNamesEndless {kind : Kind} (mangles : kind = .mangled ∨ kind = .mangledShuffled) {ledger : Ledger}
    {source : σ} {entries : List String} {order : DrawOrder} {fresh : Generator σ}
    (built : Generator.create kind ledger source entries order = .ok fresh)
    (patient : Identifier.reservedWords.length < ledger.maxAttempts)
    (fits : ledger.globalPrefix = "" ∨ Identifier.isGrammatical ledger.globalPrefix = true)
    (operations : List Operation) : Unfailing (run fresh operations).2 := by
  obtain ⟨alphabets, reorders, _, same, counts⟩ := createdCounts mangles built
  have proper := reorders.proper Alphabets.standardProper
  have ready : Ready alphabets fresh := ⟨⟨0, counts.state⟩, same ▸ patient, same ▸ fits⟩
  have later : Ready alphabets (run fresh operations).2 :=
    @runKeeps σ _ (Ready alphabets) (fun _ length ready => ready.next length)
      (fun _ name ready => ready.preserve name) fresh operations ready
  exact later.unfailing proper

/-- As impatient as may be, with names put aside that the first requests for global names come to. -/
def tightMangler : Generator Script :=
  ⟨((Ledger.empty.withPrefix "i").withReserved ["ia", "ib"]).withMaxAttempts 52, .lowest, .mangled 0⟩

def tightOperations : List Operation :=
  [.call (.preserve "ic"), .call (.global none), .call (.preserve "ie")]

theorem tightNamesEndless :
    Generator.create .mangled tightMangler.ledger Script.lowest [] .sequential = .ok tightMangler ∧
      Identifier.reservedWords.length < tightMangler.ledger.maxAttempts ∧
      Identifier.isGrammatical tightMangler.ledger.globalPrefix = true ∧
      Unfailing (run tightMangler tightOperations).2 := by
  have built : Generator.create .mangled tightMangler.ledger Script.lowest [] .sequential = .ok tightMangler := rfl
  have patient : Identifier.reservedWords.length < tightMangler.ledger.maxAttempts := by decide
  have fits : Identifier.isGrammatical tightMangler.ledger.globalPrefix = true := by decide
  exact ⟨built, patient, fits, mangledNamesEndless (.inl rfl) built patient (.inr fits) tightOperations⟩

end Mangling
end Pseudonym
