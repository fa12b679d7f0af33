import Pseudonym.Proofs.Plan.Kept
import Pseudonym.Proofs.Scope.Eval

/-! What dynamic code finds. A marked scope keeps its names and so do all the scopes around it, since these are
marked as well; so code that looks names up in a marked scope while it runs finds the program as it was written. -/
namespace Pseudonym

/-- Looking up from a scope, and the names bound in the scopes it sees, before and after renaming. -/
structure Unchanged (tree : ScopeTree) (result : RenamePlan) (id : ScopeId) : Prop where
  declared : ∀ around name, tree.Encloses around id → name ∈ tree.declared around →
    result.resolve id name = some name
  undeclared : ∀ name, (∀ around, tree.Encloses around id → name ∉ tree.declared around) →
    result.resolve id name = none
  bound : ∀ around, tree.Encloses around id →
    ∀ new, (∃ name, result.newName around name = some new) ↔ new ∈ tree.declared around

def EvalTransparent (tree : ScopeTree) : Prop :=
  ∀ {σ : Type} [RandomSource σ] (generator : Generator σ) (options : PlanOptions) (result : RenamePlan),
    (plan tree generator options).1 = .ok result → ∀ id, tree.hasEval id = true → Unchanged tree result id

namespace Plan

theorem Complete.markedName {kind : Kind} {options : PlanOptions} {tree : ScopeTree} {result : RenamePlan}
    (complete : Complete kind options tree result) {id : ScopeId} (marked : tree.hasEval id = true)
    {name new : String} : result.newName id name = some new ↔ new = name ∧ name ∈ tree.declared id := by
  have kept (declared : name ∈ tree.declared id) : result.newName id name = some name := by
    cases present : tree.scopes[id]? with
    | none => simp [ScopeTree.hasEval, present] at marked
    | some scope =>
      have eval : scope.hasEval = true := by simpa [ScopeTree.hasEval, present] using marked
      exact complete.keptName present declared (by simp [keeps, eval])
  constructor
  · intro renamed
    have declared := complete.declaredIff.mpr ⟨new, renamed⟩
    exact ⟨Option.some.inj (renamed.symm.trans (kept declared)), declared⟩
  · intro same
    obtain ⟨rfl, declared⟩ := same
    exact kept declared

theorem evalTransparentOfClosed {tree : ScopeTree} (closed : tree.EvalClosed) : EvalTransparent tree := by
  intro σ _ generator options result planned id marked
  have complete := (planSeparates planned).complete
  have named {around : ScopeId} (encloses : tree.Encloses around id) {name new : String} :
      result.newName around name = some new ↔ new = name ∧ name ∈ tree.declared around :=
    complete.markedName (closed.outward encloses marked)
  constructor
  case declared =>
    intro around name encloses declared
    have here := (named encloses).mpr ⟨rfl, declared⟩
    have seen := (ScopeTree.memAncestors closed.ordered).mpr encloses
    rw [resolvedAlong, complete.ancestors]
    exact findsVerbatim
      (fun _ member _ found => ((named ((ScopeTree.memAncestors closed.ordered).mp member)).mp found).1) seen here
  case undeclared =>
    intro name absent
    rw [resolvedAlong, complete.ancestors]
    exact passUndeclared complete fun scope member =>
      absent scope ((ScopeTree.memAncestors closed.ordered).mp member)
  case bound =>
    intro around encloses new
    simp [named encloses]

theorem dynamicCodeFindsOriginals :
    (∀ calls, ScopeTree.empty.AcceptsAll calls → EvalTransparent (ScopeTree.empty.extendAll calls)) ∧
      ∀ program : ProgramOutline, EvalTransparent program.tree := by
  constructor
  · intro calls accepted
    exact evalTransparentOfClosed (ScopeTree.acceptedEvalClosed accepted)
  · intro program
    exact evalTransparentOfClosed (ScopeTree.acceptedEvalClosed program.accepted)

/-- Names come to the marked block, and a scope into it, after it was marked. -/
def evalCalls : List ScopeTree.Call :=
  [.binding "main" 0, .scope .function 0, .scope .block 1, .eval 2, .variable "late" 2, .binding "main" 2,
    .scope .block 2, .binding "inner" 3]

def evalPlan : RenamePlan :=
  ⟨.mangled, [⟨0, .global, none, [("main", "main")], []⟩, ⟨1, .function, some 0, [("late", "late")], []⟩,
    ⟨2, .block, some 1, [("main", "main")], []⟩, ⟨3, .block, some 2, [("inner", "a")], []⟩], []⟩

theorem blockFindsOriginals :
    ScopeTree.empty.AcceptsAll evalCalls ∧
      (plan (ScopeTree.empty.extendAll evalCalls) mangler {renameGlobals := true}).1 = .ok evalPlan ∧
      (ScopeTree.empty.extendAll evalCalls).hasEval 2 = true ∧
      Unchanged (ScopeTree.empty.extendAll evalCalls) evalPlan 2 := by
  have accepted : ScopeTree.empty.AcceptsAll evalCalls := by decide +kernel
  have marked : (ScopeTree.empty.extendAll evalCalls).hasEval 2 = true := by decide +kernel
  have planned := toOptionIff.mp (show (plan (ScopeTree.empty.extendAll evalCalls) mangler
    {renameGlobals := true}).1.toOption = some evalPlan by decide +kernel)
  refine ⟨accepted, planned, marked, ?_⟩
  exact dynamicCodeFindsOriginals.1 evalCalls accepted mangler _ _ planned 2 marked

end Plan
end Pseudonym
