import Pseudonym.Proofs.Enumeration
import Pseudonym.Proofs.Random.Shuffle
import Pseudonym.Proofs.Session.Run

/-! Mangled names are short. A mangling generator counts through the names of its alphabets and never back, and
whatever it has counted past nobody can have any more, so what it gives is the first name that is left. -/
namespace Pseudonym

namespace Generator

variable {σ : Type}

/-- The alphabets of a generator that counts through their names, and the index it comes to next. -/
def counter? (generator : Generator σ) : Option (Alphabets × Nat) :=
  match generator.strategy with
  | .mangled position => some (.standard, position)
  | .mangledShuffled alphabets position => some (alphabets, position)
  | .dictionary _ | .hexadecimal _ | .keepOriginal _ => none

end Generator

namespace Mangling
open Session

theorem streamNames (alphabets : Alphabets) (position n : Nat) :
    Ledger.streamAt alphabets.draw position n = position + n := Ledger.streamCounted alphabets.name position n

theorem candidateNames (alphabets : Alphabets) (position n : Nat) :
    Ledger.candidate alphabets.draw position n = alphabets.name (position + n) :=
  Ledger.candidateCounted alphabets.name position n

theorem candidatesNames (alphabets : Alphabets) (position n : Nat) :
    Ledger.candidates alphabets.draw position n = (List.range' position n).map alphabets.name := by
  rw [Ledger.candidatesRange, List.range'_eq_map_range, List.map_map]
  exact List.map_congr_left fun i _ => candidateNames alphabets position i

variable {σ : Type} {generator : Generator σ} {alphabets : Alphabets} {position : Nat}

inductive Yields (generator : Generator σ) (alphabets : Alphabets) (position : Nat) :
    Except NameError String × Generator σ → Prop where
  | found {n : Nat} {after : Generator σ}
      (refused : ∀ i < n, generator.ledger.accepts (alphabets.name (position + i)) = false)
      (free : generator.ledger.accepts (alphabets.name (position + n)) = true)
      (ledger : after.ledger = generator.ledger.claim (alphabets.name (position + n)))
      (state : after.counter? = some (alphabets, position + n + 1)) :
      Yields generator alphabets position (.ok (alphabets.name (position + n)), after)
  | gaveUp {n : Nat} {cause : NameError} {after : Generator σ}
      (refused : ∀ i < n, generator.ledger.accepts (alphabets.name (position + i)) = false)
      (spent : generator.ledger.limits.Spent
        (generator.ledger.tallyOf ((List.range' position n).map alphabets.name)))
      (ledger : after.ledger = generator.ledger) (state : after.counter? = some (alphabets, position + n)) :
      Yields generator alphabets position (.error cause, after)

variable [RandomSource σ]

theorem nextIssues (state : generator.counter? = some (alphabets, position)) (length : Option Nat) :
    ∃ label, (generator.next length).1 = (generator.ledger.issue label alphabets.draw position).1 ∧
      (generator.next length).2.ledger = (generator.ledger.issue label alphabets.draw position).2.1 ∧
      (generator.next length).2.counter? =
        some (alphabets, (generator.ledger.issue label alphabets.draw position).2.2) := by
  obtain ⟨ledger, random, strategy⟩ := generator
  cases strategy with
  | mangled => cases state; exact ⟨_, rfl, rfl, rfl⟩
  | mangledShuffled => cases state; exact ⟨_, rfl, rfl, rfl⟩
  | dictionary => cases state
  | hexadecimal => cases state
  | keepOriginal => cases state

theorem nextYields (state : generator.counter? = some (alphabets, position)) (length : Option Nat) :
    Yields generator alphabets position (generator.next length) := by
  obtain ⟨label, answer, ledger, counter⟩ := nextIssues state length
  have finds := generator.ledger.searchFinds alphabets.draw label position
  unfold Ledger.issue at answer ledger counter
  generalize generator.ledger.search label alphabets.draw position = outcome at finds answer ledger counter
  generalize generator.next length = result at answer ledger counter ⊢
  obtain ⟨given, after⟩ := result
  cases finds with
  | found unspent missed free =>
    simp only [candidateNames, streamNames] at missed free answer ledger counter
    subst given
    exact .found missed free ledger counter
  | gaveUp unspent missed spent =>
    simp only [candidateNames, candidatesNames, streamNames] at missed spent answer ledger counter
    subst given
    exact .gaveUp missed spent ledger counter

structure Counts (alphabets : Alphabets) (generator : Generator σ) (position : Nat) : Prop where
  state : generator.counter? = some (alphabets, position)
  passed : ∀ i < position, generator.ledger.accepts (alphabets.name i) = false

theorem passedOn {ledger : Ledger} {n : Nat} (passed : ∀ i < position, ledger.accepts (alphabets.name i) = false)
    (refused : ∀ i < n, ledger.accepts (alphabets.name (position + i)) = false) :
    ∀ i < position + n, ledger.accepts (alphabets.name i) = false := by
  intro i small
  rcases Nat.lt_or_ge i position with before | later
  · exact passed i before
  · have here := refused (i - position) (by omega)
    rwa [Nat.add_sub_cancel' later] at here

theorem Counts.next (counts : Counts alphabets generator position) (length : Option Nat) :
    ∃ later, Counts alphabets (generator.next length).2 later := by
  have yields := nextYields counts.state length
  generalize generator.next length = outcome at yields ⊢
  cases yields with
  | @found n after refused free ledger state =>
    refine ⟨_, state, fun i small => ?_⟩
    rw [ledger]
    rcases Nat.lt_succ_iff_lt_or_eq.mp small with before | rfl
    · exact (Ledger.Grows.claim _ _).refuses (passedOn counts.passed refused i before)
    · exact Ledger.claimedRefused _ _
  | gaveUp refused spent ledger state =>
    exact ⟨_, state, by rw [ledger]; exact passedOn counts.passed refused⟩

theorem Counts.run (counts : Counts alphabets generator position) (operations : List Operation) :
    ∃ later, Counts alphabets (run generator operations).2 later := by
  refine @runKeeps σ _ (fun generator => ∃ later, Counts alphabets generator later) ?_ ?_ generator operations
    ⟨position, counts⟩
  · intro generator length holds
    obtain ⟨position, counts⟩ := holds
    exact counts.next length
  · intro generator name holds
    obtain ⟨position, counts⟩ := holds
    exact ⟨position, counts.state, fun i small => (Ledger.Grows.claim _ _).refuses (counts.passed i small)⟩

theorem Counts.least (counts : Counts alphabets generator position) {length : Option Nat} {name : String}
    (answer : (generator.next length).1 = .ok name) :
    ∃ k, name = alphabets.name k ∧ generator.ledger.accepts (alphabets.name k) = true ∧
      (∀ i < k, generator.ledger.accepts (alphabets.name i) = false) ∧
      (generator.next length).2.counter? = some (alphabets, k + 1) := by
  have yields := nextYields counts.state length
  generalize generator.next length = outcome at answer yields ⊢
  cases yields with
  | found refused free ledger state =>
    cases answer
    exact ⟨_, rfl, free, passedOn counts.passed refused, state⟩
  | gaveUp => cases answer

theorem leastShortest {ledger : Ledger} {k i : Nat}
    (refused : ∀ i < k, ledger.accepts (alphabets.name i) = false)
    (free : ledger.accepts (alphabets.name i) = true) :
    (alphabets.name k).length ≤ (alphabets.name i).length := by
  refine alphabets.nameLength (Nat.le_of_not_lt fun before => ?_)
  simp [refused i before] at free

theorem createdCounts {kind : Kind} (mangles : kind = .mangled ∨ kind = .mangledShuffled) {ledger : Ledger}
    {source : σ} {entries : List String} {order : DrawOrder} {fresh : Generator σ}
    (built : Generator.create kind ledger source entries order = .ok fresh) :
    ∃ alphabets : Alphabets, alphabets.Reorders .standard ∧ (kind = .mangled → alphabets = .standard) ∧
      fresh.ledger = ledger ∧ Counts alphabets fresh 0 := by
  rcases mangles with rfl | rfl
  · cases built
    exact ⟨_, .refl _, fun _ => rfl, rfl, rfl, by simp⟩
  · cases built
    exact ⟨_, Alphabets.shuffledReorders _ source, nofun, rfl, rfl, by simp⟩

structure Shortest (alphabets : Alphabets) (generator : Generator σ) : Prop where
  passed : ∃ position, generator.counter? = some (alphabets, position) ∧ ∀ i < position,
    alphabets.name i ∈ Identifier.reservedWords ∨ generator.ledger.isTaken (alphabets.name i) = true
  least : ∀ length name, (generator.next length).1 = .ok name →
    ∃ k, name = alphabets.name k ∧ generator.ledger.accepts (alphabets.name k) = true ∧
      (∀ i < k, generator.ledger.accepts (alphabets.name i) = false) ∧
      (generator.next length).2.counter? = some (alphabets, k + 1)
  shortest : ∀ length name, (generator.next length).1 = .ok name →
    ∀ word, alphabets.Writes word → generator.ledger.accepts word = true → name.length ≤ word.length
  neverShorter : ∀ length name, (generator.next length).1 = .ok name → ∀ operations another later,
    ((run (generator.next length).2 operations).2.next another).1 = .ok later → name.length ≤ later.length

theorem Counts.shortest (proper : alphabets.Proper) (counts : Counts alphabets generator position) :
    Shortest alphabets generator := by
  constructor
  case passed =>
    refine ⟨position, counts.state, fun i small => ?_⟩
    exact Ledger.refusedIff (Alphabets.nameGrammatical proper i) |>.mp (counts.passed i small)
  case least =>
    intro length name answer
    exact counts.least answer
  case shortest =>
    intro length name answer word written free
    obtain ⟨k, rfl, _, refused, _⟩ := counts.least answer
    rw [← Alphabets.writtenName proper written] at free ⊢
    exact leastShortest refused free
  case neverShorter =>
    intro length name answer operations another later again
    obtain ⟨k, rfl, _, refused, _⟩ := counts.least answer
    obtain ⟨between, counting⟩ := counts.next length
    obtain ⟨last, counting⟩ := counting.run operations
    obtain ⟨i, rfl, free, _, _⟩ := counting.least again
    -- What is free after all the operations was free before them, so the earlier request could have had it.
    have grows := (generator.nextAnswers length).grows.trans (runChain _ operations).1.grows
    exact leastShortest refused (grows.accepts free)

theorem mangledNamesShortest {kind : Kind} (mangles : kind = .mangled ∨ kind = .mangledShuffled) {ledger : Ledger}
    {source : σ} {entries : List String} {order : DrawOrder} {fresh : Generator σ}
    (built : Generator.create kind ledger source entries order = .ok fresh) :
    ∃ alphabets : Alphabets, alphabets.Reorders .standard ∧ (kind = .mangled → alphabets = .standard) ∧
      ∀ operations, Shortest alphabets (run fresh operations).2 := by
  obtain ⟨alphabets, reorders, standard, _, counts⟩ := createdCounts mangles built
  refine ⟨alphabets, reorders, standard, fun operations => ?_⟩
  obtain ⟨position, counts⟩ := counts.run operations
  exact counts.shortest (reorders.proper Alphabets.standardProper)

/-- A shuffled mangler, with a name put aside and a prefix that takes two names at once. -/
def shuffledMangler : Generator Script :=
  let alphabets := Alphabets.standard.shuffled Script.lowest
  ⟨(Ledger.empty.withReserved ["b"]).withPrefix "i", alphabets.2, .mangledShuffled alphabets.1 0⟩

def shuffledOperations : List Operation :=
  [.call (.preserve "c"), .call (.global none), .call (.label "x" none)]

theorem shuffledNamesShortest :
    Generator.create .mangledShuffled shuffledMangler.ledger Script.lowest [] .sequential = .ok shuffledMangler ∧
      ((run shuffledMangler shuffledOperations).2.next none).1 = .ok "f" ∧
      ∃ alphabets : Alphabets, alphabets.Reorders .standard ∧
        Shortest alphabets (run shuffledMangler shuffledOperations).2 := by
  have built : Generator.create .mangledShuffled shuffledMangler.ledger Script.lowest [] .sequential =
      .ok shuffledMangler := rfl
  have answer := toOptionIff.mp (show ((run shuffledMangler shuffledOperations).2.next none).1.toOption =
    some "f" by decide +kernel)
  obtain ⟨alphabets, reorders, _, shortest⟩ := mangledNamesShortest (.inr rfl) built
  exact ⟨built, answer, alphabets, reorders, shortest shuffledOperations⟩

end Mangling
end Pseudonym
