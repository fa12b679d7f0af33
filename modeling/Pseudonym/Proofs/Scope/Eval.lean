import Pseudonym.Proofs.Scope.Growth
import Pseudonym.Scope.Outline

/-! Where dynamic code is seen. Marking a scope marks those around it, and no other call takes a mark away or
puts a scope around a marked one, so whatever is around a marked scope is marked in every tree that grows by
calls on its own scopes. -/
namespace Pseudonym
namespace ScopeTree

inductive Encloses (tree : ScopeTree) (around : ScopeId) : ScopeId → Prop where
  | here : Encloses tree around around
  | up {outer id : ScopeId} (next : tree.parent id = some outer) (rest : Encloses tree around outer) :
      Encloses tree around id

theorem ancestorsUp {tree : ScopeTree} (ordered : tree.Ordered) (id : ScopeId) :
    tree.ancestors id = id :: match tree.parent id with
      | some outer => tree.ancestors outer
      | none => [] := lineageUp ordered id

theorem memAncestors {tree : ScopeTree} (ordered : tree.Ordered) {around id : ScopeId} :
    around ∈ tree.ancestors id ↔ tree.Encloses around id := by
  constructor
  · intro member
    induction id using Nat.strongRecOn with
    | ind id ih =>
      rw [ancestorsUp ordered] at member
      rcases List.mem_cons.mp member with rfl | above
      · exact .here
      · cases next : tree.parent id with
        | none => simp [next] at above
        | some outer =>
          simp only [next] at above
          exact .up next (ih outer (ordered id outer next) above)
  · intro encloses
    induction encloses with
    | here =>
      rw [ancestorsUp ordered]
      exact List.mem_cons_self
    | up next rest ih =>
      rw [ancestorsUp ordered, next]
      exact List.mem_cons_of_mem _ ih

theorem Encloses.outward {tree : ScopeTree} {around outer id : ScopeId} (encloses : tree.Encloses around id)
    (next : tree.parent around = some outer) : tree.Encloses outer id := by
  induction encloses with
  | here => exact .up next .here
  | up inner rest ih => exact .up inner ih

/-- A call on scopes that are there; a new scope is not there yet when its parent is named. -/
def Accepts (tree : ScopeTree) (call : Call) : Prop := tree.Fits call ∧ tree.Nests call

def AcceptsAll (tree : ScopeTree) : List Call → Prop
  | [] => True
  | call :: rest => tree.Accepts call ∧ (tree.extend call).AcceptsAll rest

instance (tree : ScopeTree) : (call : Call) → Decidable (tree.Nests call)
  | .scope _ parent => inferInstanceAs (Decidable (parent < tree.size))
  | .binding _ _ | .variable _ _ | .label _ _ | .eval _ | .reference _ => .isTrue trivial

instance (tree : ScopeTree) (call : Call) : Decidable (tree.Accepts call) :=
  inferInstanceAs (Decidable (tree.Fits call ∧ tree.Nests call))

instance decideAccepted (tree : ScopeTree) : (calls : List Call) → Decidable (tree.AcceptsAll calls)
  | [] => .isTrue trivial
  | call :: rest =>
      have := decideAccepted (tree.extend call) rest
      inferInstanceAs (Decidable (_ ∧ _))

theorem acceptsAppend {tree : ScopeTree} {calls others : List Call} :
    tree.AcceptsAll (calls ++ others) ↔ tree.AcceptsAll calls ∧ (tree.extendAll calls).AcceptsAll others := by
  induction calls generalizing tree with
  | nil => simp [AcceptsAll, extendAll]
  | cons call rest ih => simp only [List.cons_append, AcceptsAll, ih, extendAll, List.foldl_cons, and_assoc]

theorem acceptedKeep {Holds : ScopeTree → Prop}
    (step : ∀ tree call, tree.Accepts call → Holds tree → Holds (tree.extend call))
    {tree : ScopeTree} {calls : List Call} (accepted : tree.AcceptsAll calls) (holds : Holds tree) :
    Holds (tree.extendAll calls) := by
  induction calls generalizing tree with
  | nil => exact holds
  | cons call rest ih => exact ih accepted.2 (step tree call accepted.1 holds)

theorem acceptedRooted {calls : List Call} (accepted : empty.AcceptsAll calls) : (empty.extendAll calls).Rooted :=
  acceptedKeep (fun _ call _ rooted => rooted.extend call) accepted emptyRooted

section Marks

theorem updateEval (change : Scope → Scope) (same : ∀ scope, (change scope).hasEval = scope.hasEval)
    (tree : ScopeTree) (id other : ScopeId) : (tree.update id change).hasEval other = tree.hasEval other := by
  simp only [hasEval, update, Array.getElem?_modify]
  split
  · cases tree.scopes[other]? <;> simp [same]
  · rfl

theorem markEval (tree : ScopeTree) (id other : ScopeId) :
    (tree.update id .mark).hasEval other = true ↔
      tree.hasEval other = true ∨ (id = other ∧ other < tree.size) := by
  simp only [hasEval, update, Array.getElem?_modify, size]
  split
  · next same =>
    rcases Nat.lt_or_ge other tree.scopes.size with inside | outside
    · simp [same, inside, Scope.mark]
    · simp [same, Nat.not_lt.mpr outside]
  · next different => simp [different]

theorem marksEval (tree : ScopeTree) (ids : List ScopeId) (other : ScopeId) :
    (ids.foldl (fun tree id => tree.update id .mark) tree).hasEval other = true ↔
      tree.hasEval other = true ∨ (other ∈ ids ∧ other < tree.size) := by
  induction ids generalizing tree with
  | nil => simp
  | cons id rest ih =>
    have same : (tree.update id .mark).size = tree.size := by simp [size, update]
    rw [List.foldl_cons, ih, markEval, same, List.mem_cons, or_assoc, ← or_and_right, eq_comm (a := id)]

theorem extendEval (tree : ScopeTree) (call : Call) (id : ScopeId) :
    (tree.extend call).hasEval id = true ↔
      tree.hasEval id = true ∨
        match call with
        | .eval scope => id ∈ tree.ancestors scope ∧ id < tree.size
        | _ => False := by
  cases call with
  | scope kind parent =>
    have adopted := updateEval (.adopt tree.size) (fun _ => rfl)
      {tree with scopes := tree.scopes.push (.fresh kind (some parent))} parent id
    simp only [extend, or_false]
    refine (Bool.eq_iff_iff.mp adopted).trans ?_
    by_cases new : id = tree.scopes.size
    · simp [hasEval, new, Scope.fresh]
    · simp [hasEval, Array.getElem?_push, new]
  | binding name scope =>
    simp only [extend, updateEval (.bind name) (fun _ => rfl), or_false]
  | «variable» name scope =>
    simp only [extend, updateEval (.bind name) (fun _ => rfl), or_false]
  | label name scope =>
    simp only [extend, updateEval (.label name) (fun _ => rfl), or_false]
  | eval scope => exact marksEval tree (tree.ancestors scope) id
  | reference name => simp [extend, hasEval]

structure EvalClosed (tree : ScopeTree) : Prop where
  ordered : tree.Ordered
  upward : ∀ id outer, tree.parent id = some outer → tree.hasEval id = true → tree.hasEval outer = true

theorem emptyEvalClosed : empty.EvalClosed := by
  refine ⟨emptyOrdered, fun id outer next => ?_⟩
  have first : id < 1 := parentInside next
  obtain rfl : id = 0 := Nat.lt_one_iff.mp first
  cases next

theorem EvalClosed.extend {tree : ScopeTree} (closed : tree.EvalClosed) (call : Call)
    (accepts : tree.Accepts call) : (tree.extend call).EvalClosed := by
  have ordered := (orderedExtend tree call).mpr ⟨closed.ordered, accepts.2⟩
  refine ⟨ordered, fun id outer next marked => ?_⟩
  rw [extendEval] at marked ⊢
  have framed := extendFrame tree call id
  cases call with
  | scope kind parent =>
    -- A new scope is not marked, so what is around it need not be.
    have marked : tree.hasEval id = true := by simpa using marked
    have old : id ≠ tree.size := by
      intro new
      simp [hasEval, new, size] at marked
    rw [parentFramed, framed] at next
    simp only [if_neg old, ← parentFramed] at next
    exact .inl (closed.upward id outer next marked)
  | eval scope =>
    rw [parentFramed, framed, ← parentFramed] at next
    rcases marked with before | ⟨member, inside⟩
    · exact .inl (closed.upward id outer next before)
    · have around := (memAncestors closed.ordered).mp member
      refine .inr ⟨(memAncestors closed.ordered).mpr (around.outward next), ?_⟩
      exact Nat.lt_trans (closed.ordered id outer next) inside
  | binding | «variable» | label | reference =>
    rw [parentFramed, framed, ← parentFramed] at next
    exact .inl (closed.upward id outer next (by simpa using marked))

theorem EvalClosed.outward {tree : ScopeTree} (closed : tree.EvalClosed) {around id : ScopeId}
    (encloses : tree.Encloses around id) (marked : tree.hasEval id = true) : tree.hasEval around = true := by
  induction encloses with
  | here => exact marked
  | up next rest ih => exact ih (closed.upward _ _ next marked)

theorem acceptedEvalClosed {calls : List Call} (accepted : empty.AcceptsAll calls) :
    (empty.extendAll calls).EvalClosed :=
  acceptedKeep (fun _ call accepts closed => closed.extend call accepts) accepted emptyEvalClosed

end Marks

theorem extendAllGrows (tree : ScopeTree) (calls : List Call) : tree.size ≤ (tree.extendAll calls).size := by
  induction calls generalizing tree with
  | nil => exact Nat.le_refl _
  | cons call rest ih =>
    have here := extendSize tree call
    have later : (tree.extend call).size ≤ (tree.extendAll (call :: rest)).size := ih (tree.extend call)
    cases call <;> dsimp only at here <;> omega

def Call.On (id : ScopeId) : Call → Prop
  | .scope _ _ => False
  | .binding _ named | .variable _ named | .label _ named | .eval named => named = id
  | .reference _ => True

theorem acceptsOn {tree : ScopeTree} {id : ScopeId} (inside : id < tree.size) {calls : List Call}
    (on : ∀ call ∈ calls, call.On id) : tree.AcceptsAll calls ∧ (tree.extendAll calls).size = tree.size := by
  induction calls generalizing tree with
  | nil => exact ⟨trivial, rfl⟩
  | cons call rest ih =>
    obtain ⟨here, later⟩ := List.forall_mem_cons.mp on
    have size := extendSize tree call
    have accepts : tree.Accepts call ∧ (tree.extend call).size = tree.size := by
      cases call with
      | scope kind parent => exact here.elim
      | reference name => exact ⟨⟨trivial, trivial⟩, size⟩
      | binding | «variable» | label | eval => cases here; exact ⟨⟨inside, trivial⟩, size⟩
    obtain ⟨rest, same⟩ := ih (by rw [accepts.2]; exact inside) later
    exact ⟨⟨accepts.1, rest⟩, same.trans accepts.2⟩

end ScopeTree

namespace ScopeOutline
open ScopeTree

theorem ownCallsOn (outline : ScopeOutline) (id : ScopeId) : ∀ call ∈ outline.ownCalls id, call.On id := by
  intro call member
  simp only [ownCalls, List.mem_append, List.mem_map] at member
  rcases member with ((⟨name, _, rfl⟩ | ⟨name, _, rfl⟩) | ⟨name, _, rfl⟩) | marks
  · rfl
  · rfl
  · rfl
  · split at marks
    · rw [List.mem_singleton.mp marks]
      rfl
    · cases marks

mutual

theorem callsAccepted (outline : ScopeOutline) {tree : ScopeTree} {id next : ScopeId} (inside : id < tree.size)
    (size : tree.size = next) :
    tree.AcceptsAll (calls id next outline).1 ∧
      (tree.extendAll (calls id next outline).1).size = (calls id next outline).2 := by
  cases outline with
  | mk kind bindings vars labels hasEval children =>
    obtain ⟨own, same⟩ := acceptsOn inside (ownCallsOn ⟨kind, bindings, vars, labels, hasEval, []⟩ id)
    obtain ⟨below, last⟩ := childCallsAccepted children (same ▸ inside) (same.trans size)
    simp only [calls, acceptsAppend, extendAll, List.foldl_append]
    exact ⟨⟨own, below⟩, last⟩

theorem childCallsAccepted (children : List ScopeOutline) {tree : ScopeTree} {parent next : ScopeId}
    (inside : parent < tree.size) (size : tree.size = next) :
    tree.AcceptsAll (childCalls parent next children).1 ∧
      (tree.extendAll (childCalls parent next children).1).size = (childCalls parent next children).2 := by
  cases children with
  | nil => exact ⟨trivial, size⟩
  | cons child rest =>
    have grown : (tree.extend (.scope child.kind parent)).size = next + 1 := by rw [extendSize, size]
    obtain ⟨inner, after⟩ := callsAccepted child (show next < _ by rw [grown]; exact Nat.lt_succ_self _) grown
    have further := extendAllGrows (tree.extend (.scope child.kind parent)) (calls next (next + 1) child).1
    have still : parent < (tree.extend (.scope child.kind parent)).size := by
      rw [grown, ← size]
      exact Nat.lt_succ_of_lt inside
    obtain ⟨others, last⟩ := childCallsAccepted rest (Nat.lt_of_lt_of_le still further) after
    simp only [childCalls, List.cons_append, AcceptsAll, acceptsAppend, extendAll, List.foldl_cons,
      List.foldl_append]
    exact ⟨⟨⟨Nat.le_of_lt inside, inside⟩, inner, others⟩, last⟩

end

end ScopeOutline

namespace ProgramOutline
open ScopeTree

theorem accepted (program : ProgramOutline) : empty.AcceptsAll program.calls := by
  have globals : ∀ call ∈ program.globals.map ScopeTree.Call.reference, call.On root := by
    intro call member
    obtain ⟨name, _, rfl⟩ := List.mem_map.mp member
    trivial
  obtain ⟨references, same⟩ := acceptsOn (show root < empty.size by decide) globals
  refine acceptsAppend.mpr ⟨references, ?_⟩
  exact (program.scope.callsAccepted (by rw [same]; decide) same).1

end ProgramOutline
end Pseudonym
