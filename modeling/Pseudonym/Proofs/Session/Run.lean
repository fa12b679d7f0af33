import Pseudonym.Proofs.Plan.Script

/-! Whole sessions: calls and plans in any order, going on after those that fail. The events of a plan are
those of the calls its script makes. Main statement: a session never issues a name that its ledger had, that
anybody gave it before, or that nobody may bind. -/
namespace Pseudonym
namespace Session

inductive Operation where
  | call (call : Call)
  | plan (tree : ScopeTree) (options : PlanOptions)

variable {σ : Type} [RandomSource σ]

def perform (generator : Generator σ) : Operation → List Event × Generator σ
  | .call call => ([(record generator call).1], (record generator call).2)
  | .plan tree options =>
      ((follow generator (Plan.calls generator.kind options tree)).events, (plan tree generator options).2)

def run (generator : Generator σ) : List Operation → List Event × Generator σ
  | [] => ([], generator)
  | operation :: rest =>
      let (events, after) := perform generator operation
      let (others, last) := run after rest
      (events ++ others, last)

theorem planGenerator (tree : ScopeTree) (generator : Generator σ) (options : PlanOptions) :
    (plan tree generator options).2 = (follow generator (Plan.calls generator.kind options tree)).generator := by
  have follows := Plan.planFollows tree generator options
  generalize plan tree generator options = outcome, follow generator _ = progress at follows ⊢
  cases follows with
  | failed => rfl
  | done => rfl

theorem performChain (generator : Generator σ) (operation : Operation) :
    Chain generator.kind generator.ledger (perform generator operation).1 (perform generator operation).2.ledger ∧
      (perform generator operation).2.kind = generator.kind := by
  cases operation with
  | call call =>
    obtain ⟨sound, kind⟩ := recordSound generator call
    exact ⟨.cons sound (.nil _), kind⟩
  | plan tree options =>
    simp only [perform, planGenerator]
    exact followChain generator _

theorem runChain (generator : Generator σ) (operations : List Operation) :
    Chain generator.kind generator.ledger (run generator operations).1 (run generator operations).2.ledger ∧
      (run generator operations).2.kind = generator.kind := by
  induction operations generalizing generator with
  | nil => exact ⟨.nil _, rfl⟩
  | cons operation rest ih =>
    obtain ⟨early, kind⟩ := performChain generator operation
    obtain ⟨late, same⟩ := ih (perform generator operation).2
    rw [kind] at late
    exact ⟨early.append late, same.trans kind⟩

theorem runKeeps {Holds : Generator σ → Prop}
    (nexts : ∀ generator length, Holds generator → Holds (generator.next length).2)
    (preserves : ∀ generator name, Holds generator → Holds (generator.preserve name))
    (generator : Generator σ) (operations : List Operation) (holds : Holds generator) :
    Holds (run generator operations).2 := by
  induction operations generalizing generator with
  | nil => exact holds
  | cons operation rest ih =>
    refine ih (perform generator operation).2 ?_
    cases operation with
    | call call => exact recordKeeps nexts preserves generator call holds
    | plan tree options =>
      simp only [perform, planGenerator]
      exact followKeeps nexts preserves generator _ holds

theorem issuedNamesFresh (generator : Generator σ) (operations : List Operation) :
    (∀ event ∈ (run generator operations).1, ∀ name, event.issued generator.kind = some name →
      Identifier.Grammatical name.toList ∧ name ∉ Identifier.reservedWords ∧
        name ∉ generator.ledger.reserved ∧ name ∉ event.before.claimed ∧ name ∈ event.after.claimed ∧
        name ∈ (run generator operations).2.ledger.claimed) ∧
    (run generator operations).1.Pairwise fun earlier later =>
      ∀ name, earlier.answer = .ok name →
        name ∈ later.before.claimed ∧ name ∈ later.after.claimed ∧ later.issued generator.kind ≠ some name := by
  have chain := (runChain generator operations).1
  constructor
  · intro event member name issued
    obtain ⟨before, sound, after⟩ := chain.ofMember member
    obtain ⟨formed, unreserved, unclaimed⟩ := Ledger.acceptsIff.mp (sound.fresh name issued)
    obtain ⟨grammatical, bindable⟩ := Identifier.wellFormedIff.mp formed
    have claimed := sound.claimed name (issuedIff.mp issued).2
    exact ⟨grammatical, bindable, before.reserved ▸ unreserved, unclaimed, claimed, after.claimed name claimed⟩
  · refine chain.ordered.imp ?_
    rintro earlier later ⟨early, late, between⟩ name answer
    have held := between.claimed name (early.claimed name answer)
    refine ⟨held, late.grows.claimed name held, fun issued => ?_⟩
    exact (Ledger.acceptsIff.mp (late.fresh name issued)).2.2 held

end Session
end Pseudonym
