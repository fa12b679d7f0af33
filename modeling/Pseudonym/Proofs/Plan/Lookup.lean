import Pseudonym.Proofs.Plan.Capture
import Pseudonym.Proofs.Scope.Growth

/-! Lookups that end. The walks up a tree, and up every plan made of it, end where each scope comes after its
parent. A tree built by calls is so unless some call made a scope that is its own parent, which the bound on
new parents lets through. -/
namespace Pseudonym

def RenamePlan.newLabel (plan : RenamePlan) (id : ScopeId) (label : String) : Option String :=
  plan.scopes[id]?.bind (·.labels.lookup label)

def Looks (parent : ScopeId → Option ScopeId) (look : ScopeId → Option String) (id : ScopeId)
    (answer : Option String) : Prop :=
  ∃ found, Walk parent (fun scope => (look scope).isSome) id found ∧ answer = found.bind look

structure Grounded (tree : ScopeTree) : Prop where
  smaller : ∀ id < tree.size, id ≠ ScopeTree.root → ∃ outer < id, tree.parent id = some outer
  hoists : ∀ id < tree.size, Walk tree.parent tree.holdsVars id (some (tree.hoistTarget id))
  marks : ∀ id < tree.size, Walk tree.parent (fun _ => false) id none
  resolves : ∀ {σ : Type} [RandomSource σ] (generator : Generator σ) (options : PlanOptions) (result : RenamePlan),
    (plan tree generator options).1 = .ok result → ∀ id name,
      Looks result.parent (result.newName · name) id (result.resolve id name) ∧
        Looks result.parent (result.newLabel · name) id (result.resolveLabel id name)

theorem looksEnd {parent : ScopeId → Option ScopeId} (ordered : ∀ id outer, parent id = some outer → outer < id)
    (look : ScopeId → Option String) (id : ScopeId) :
    Looks parent look id ((lineage parent id).findSome? look) := by
  refine ⟨_, walkEnds ordered _ id, ?_⟩
  induction lineage parent id with
  | nil => rfl
  | cons scope rest ih =>
    rw [List.findSome?_cons, List.find?_cons]
    cases here : look scope with
    | none => exact ih
    | some new => simp [here]

theorem groundedOfOrdered {tree : ScopeTree} (rooted : tree.Rooted) (ordered : tree.Ordered) :
    Grounded tree := by
  constructor
  case smaller =>
    intro id inside other
    obtain ⟨outer, around⟩ := rooted.below id inside other
    exact ⟨outer, ordered id outer around, around⟩
  case hoists => exact fun id inside => ScopeTree.hoistEnds rooted ordered inside
  case marks => exact fun id _ => ScopeTree.markEnds ordered id
  case resolves =>
    intro σ _ generator options result planned id name
    have same := (Plan.planSeparates planned).complete.sameParent
    have smaller : ∀ id outer, result.parent id = some outer → outer < id := by rw [same]; exact ordered
    exact ⟨looksEnd smaller _ id, looksEnd smaller _ id⟩

theorem Grounded.ordered {tree : ScopeTree} (grounded : Grounded tree) (rooted : tree.Rooted) : tree.Ordered := by
  intro id outer around
  have inside : id < tree.size := ScopeTree.parentInside around
  have other : id ≠ ScopeTree.root := by
    rintro rfl
    rw [ScopeTree.parentFramed, rooted.root] at around
    cases around
  obtain ⟨smaller, less, same⟩ := grounded.smaller id inside other
  cases same.symm.trans around
  exact less

/-- Of the parents that are not there, a tree refuses all but the next number; and no other slip unsettles it. -/
theorem groundedUnlessOwnParent {calls : List ScopeTree.Call} {tree : ScopeTree}
    (reaches : ScopeTree.Reaches .empty calls tree) :
    (∀ kind parent, tree.extend? (.scope kind parent) = none ↔ tree.size ≤ parent ∧ parent ≠ tree.size) ∧
      (Grounded tree ↔ ScopeTree.AllNest .empty calls) := by
  refine ⟨tree.refusedIff, ?_⟩
  obtain ⟨rooted, ordered⟩ := ScopeTree.reachedOrdered reaches ScopeTree.emptyRooted
  have nested := ordered.trans (and_iff_right ScopeTree.emptyOrdered)
  constructor
  · exact fun grounded => nested.mp (grounded.ordered rooted)
  · exact fun nests => groundedOfOrdered rooted (nested.mpr nests)

def nestedCalls : List ScopeTree.Call := [.scope .function 0, .scope .block 1, .variable "x" 2]

theorem nestedGrounded :
    ScopeTree.Reaches .empty nestedCalls (ScopeTree.empty.extendAll nestedCalls) ∧
      Grounded (ScopeTree.empty.extendAll nestedCalls) := by
  have hoists : Walk ((ScopeTree.empty.extend (.scope .function 0)).extend (.scope .block 1)).parent
      ((ScopeTree.empty.extend (.scope .function 0)).extend (.scope .block 1)).holdsVars 2 (some 1) :=
    .up rfl rfl (.stops rfl)
  have reaches : ScopeTree.Reaches .empty nestedCalls (ScopeTree.empty.extendAll nestedCalls) :=
    .cons ⟨by decide, trivial⟩ (.cons ⟨by decide, trivial⟩ (.cons ⟨by decide, some 1, hoists⟩ (.nil _)))
  refine ⟨reaches, (groundedUnlessOwnParent reaches).2.mpr ?_⟩
  exact ⟨Nat.zero_lt_one, Nat.one_lt_two, trivial, trivial⟩

/-- A scope put into the number it is about to get. No scope had that number, yet the call comes back. -/
def ownParentCall : ScopeTree.Call := .scope .block ScopeTree.empty.size

theorem ownParentNeverEnds :
    ScopeTree.empty.extend? ownParentCall = some (ScopeTree.empty.extend ownParentCall) ∧
      (ScopeTree.empty.extend ownParentCall).parent 1 = some 1 ∧
      ∀ found, ¬Walk (ScopeTree.empty.extend ownParentCall).parent
          (ScopeTree.empty.extend ownParentCall).holdsVars 1 found ∧
        ¬Walk (ScopeTree.empty.extend ownParentCall).parent (fun _ => false) 1 found :=
  have own : (ScopeTree.empty.extend ownParentCall).parent 1 = some 1 := by decide
  ⟨rfl, own, fun found => ⟨ownParentWalksOn own (by decide) found, ownParentWalksOn own rfl found⟩⟩

end Pseudonym
