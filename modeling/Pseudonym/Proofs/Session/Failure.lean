import Pseudonym.Proofs.Session.Run

/-! Requests that fail. A failed request may have tried many candidates, rounds and widths, and its strategy goes on
from there; its ledger is the one it found. A session that asks for one name at a time has taken the names it was
answered with, in that order, and no others. -/
namespace Pseudonym
namespace Session

/-- Calls that take one name at most. A global name takes its bases as well. -/
def Call.TakesOne : Call → Prop
  | .next _ | .lexical _ _ | .label _ _ | .preserve _ => True
  | .global _ => False

def Event.taken (event : Event) : List String := event.answer.toOption.toList

variable {σ : Type}

theorem answersTake {generator : Generator σ} {outcome : Except NameError String × Generator σ}
    (answers : generator.Answers outcome) :
    outcome.2.ledger = generator.ledger.claimAll outcome.1.toOption.toList := by
  cases answers with
  | issued free ledger kind => exact ledger
  | failed ledger kind => exact ledger

variable [RandomSource σ]

theorem performTakes (generator : Generator σ) {call : Call} (one : call.TakesOne) :
    (call.perform generator).2.ledger = generator.ledger.claimAll (call.perform generator).1.toOption.toList := by
  cases call with
  | next length => exact answersTake (generator.nextAnswers length)
  | lexical scope length => exact answersTake (generator.nextAnswers length)
  | global length => exact one.elim
  | label label length =>
    rw [Call.perform, Generator.forLabel]
    split
    · rfl
    · exact answersTake (generator.nextAnswers length)
  | preserve name => rfl

theorem runTakes (generator : Generator σ) {calls : List Call} (one : ∀ call ∈ calls, call.TakesOne) :
    (run generator (calls.map .call)).2.ledger =
      generator.ledger.claimAll ((run generator (calls.map .call)).1.flatMap Event.taken) := by
  induction calls generalizing generator with
  | nil => rfl
  | cons call rest ih =>
    obtain ⟨here, later⟩ := List.forall_mem_cons.mp one
    have taken : (record generator call).2.ledger =
        generator.ledger.claimAll (record generator call).1.taken := performTakes generator here
    simp only [List.map_cons, run, perform, List.singleton_append, List.flatMap_cons]
    rw [ih (record generator call).2 later, taken]
    exact (List.foldl_append ..).symm

theorem failedRequestsTakeNothing (generator : Generator σ) (operations : List Operation) :
    let state := (run generator operations).2
    (∀ (call : Call) (cause : NameError), call.TakesOne → (call.perform state).1 = .error cause →
      (call.perform state).2.ledger = state.ledger ∧
        ∀ name, (call.perform state).2.ledger.isTaken name = state.ledger.isTaken name ∧
          (call.perform state).2.ledger.accepts name = state.ledger.accepts name) ∧
    (∀ (call : Call) (name : String), call.TakesOne → (call.perform state).1 = .ok name →
      (call.perform state).2.ledger = state.ledger.claim name) ∧
    ∀ calls : List Call, (∀ call ∈ calls, call.TakesOne) →
      (run state (calls.map .call)).2.ledger =
        state.ledger.claimAll ((run state (calls.map .call)).1.flatMap Event.taken) := by
  intro state
  refine ⟨fun call cause one failed => ?failed, fun call name one answered => ?answered,
    fun calls one => runTakes state one⟩
  case failed =>
    have ledger := performTakes state one
    rw [failed] at ledger
    exact ⟨ledger, fun name => ⟨congrArg (·.isTaken name) ledger, congrArg (·.accepts name) ledger⟩⟩
  case answered =>
    have ledger := performTakes state one
    rwa [answered] at ledger

/-- A dictionary whose words nobody may bind, so that only its second round gives names. -/
def keywordPool : Generator Script :=
  ⟨Ledger.empty.withMaxAttempts 2, Script.lowest,
    .dictionary ⟨#["do", "if"], by decide, .sequential, 0, #["if", "do"]⟩⟩

theorem keywordPoolTakesNothing :
    let state := (run keywordPool [.call (.preserve "do1")]).2
    let failed := (state.next none).2
    (state.next none).1 = .error (.exhausted "dictionary" 2) ∧ failed.ledger = state.ledger ∧
      (failed.next none).1 = .ok "if1" ∧ (failed.next none).2.ledger = state.ledger.claim "if1" ∧
      (run state [.call (.next none), .call (.next none)]).2.ledger = state.ledger.claimAll ["if1"] := by
  intro state failed
  obtain ⟨fails, _, takes⟩ := failedRequestsTakeNothing keywordPool [.call (.preserve "do1")]
  have first : (state.next none).1 = .error (.exhausted "dictionary" 2) := by decide +kernel
  have second : (failed.next none).1 = .ok "if1" := by decide +kernel
  have kept : failed.ledger = state.ledger := (fails (.next none) _ trivial first).1
  have taken := (failedRequestsTakeNothing failed []).2.1 (.next none) _ trivial second
  refine ⟨first, kept, second, taken.trans (congrArg (Ledger.claim · _) kept), ?_⟩
  have answers : (run state [.call (.next none), .call (.next none)]).1.flatMap Event.taken = ["if1"] := by
    decide +kernel
  exact answers ▸ takes [.next none, .next none] (by simp [Call.TakesOne])

end Session
end Pseudonym
