import Mathlib.Data.List.Induction
import Pseudonym.Proofs.Scope.Eval

/-! What one call changes. Scopes never change their place, and a call leaves its mark in one slot: a list of
names of one scope, the mark of a scope and those around it, or the globals. -/
namespace Pseudonym

theorem Scope.declareAll (names : List String) : names.foldl declare [] = names.eraseDups := by
  induction names using List.reverseRecOn with
  | nil => rfl
  | append_singleton names name ih =>
    rw [List.foldl_append, ih, List.foldl_cons, List.foldl_nil, declare, List.eraseDups_append]
    by_cases again : name ∈ names <;> simp [List.removeAll, again, List.eraseDups_cons]

theorem Scope.declareNodup {names : List String} (distinct : names.Nodup) (more : List String) :
    (more.foldl declare names).Nodup := by
  induction more generalizing names with
  | nil => exact distinct
  | cons name rest ih =>
    refine ih ?_
    unfold declare
    split
    · exact distinct
    · next new =>
      refine List.nodup_append.mpr ⟨distinct, by simp, fun old member other last => ?_⟩
      rw [List.mem_singleton.mp last]
      exact fun same => new (same ▸ member)

theorem lineageInward {parent : ScopeId → Option ScopeId} {around id : ScopeId}
    (member : around ∈ lineage parent id) : around ≤ id := by
  induction id using Nat.strongRecOn with
  | ind id ih =>
    rw [lineage, List.mem_cons] at member
    rcases member with rfl | above
    · exact Nat.le_refl _
    · cases next : parent id with
      | none => simp [next] at above
      | some outer =>
        simp only [next] at above
        split at above
        · exact Nat.le_trans (ih outer (by assumption) above) (Nat.le_of_lt (by assumption))
        · cases above

theorem lineageSame {parent other : ScopeId → Option ScopeId} {id : ScopeId}
    (same : ∀ around ≤ id, parent around = other around) : lineage parent id = lineage other id := by
  induction id using Nat.strongRecOn with
  | ind id ih =>
    rw [lineage, lineage, same id (Nat.le_refl _)]
    cases other id with
    | none => rfl
    | some outer =>
      dsimp only
      split
      · next smaller =>
        rw [ih outer smaller fun around within => same around (Nat.le_trans within (Nat.le_of_lt smaller))]
      · rfl

namespace ScopeTree

def listed {α : Type} (field : Scope → List α) (tree : ScopeTree) (id : ScopeId) : List α :=
  (tree.scopes[id]?.map field).getD []

inductive Slot where
  | bindings (scope : ScopeId)
  | labels (scope : ScopeId)
  | eval (scope : ScopeId)
  | globals
  deriving DecidableEq, Repr

/-- What a call changes in the scopes that are there: one list of a scope, the mark of a scope, or the globals. -/
def slot? (tree : ScopeTree) : Call → Option Slot
  | .scope _ _ => none
  | .binding _ scope => some (.bindings scope)
  | .variable _ scope => some (.bindings (tree.hoistTarget scope))
  | .label _ scope => some (.labels scope)
  | .eval scope => some (.eval scope)
  | .reference _ => some .globals

def Call.name? : Call → Option String
  | .binding name _ | .variable name _ | .label name _ | .reference name => some name
  | .scope _ _ | .eval _ => none

def Call.created? : Call → Option (ScopeKind × ScopeId)
  | .scope kind parent => some (kind, parent)
  | _ => none

/-- The names that a log brings to one slot, in the order of the calls. -/
def names (tree : ScopeTree) (slot : Slot) (calls : List Call) : List String :=
  (calls.filter (tree.slot? · = some slot)).filterMap Call.name?

section Steps

variable {tree : ScopeTree} {call : Call} {id : ScopeId}

theorem extendAncestors (inside : id < tree.size) : (tree.extend call).ancestors id = tree.ancestors id := by
  refine lineageSame fun around within => ?_
  have old : around ≠ tree.size := Nat.ne_of_lt (Nat.lt_of_le_of_lt within inside)
  rw [parentFramed, extendFrame, parentFramed]
  cases call <;> simp [old]

theorem extendHoist (inside : id < tree.size) : (tree.extend call).hoistTarget id = tree.hoistTarget id := by
  rw [hoistTarget, hoistTarget, extendAncestors inside]
  rw [← List.head?_filter, ← List.head?_filter, List.filter_congr]
  intro around member
  have old : around ≠ tree.size := Nat.ne_of_lt (Nat.lt_of_le_of_lt (lineageInward member) inside)
  rw [holdsVarsFramed, extendFrame, holdsVarsFramed]
  cases call <;> simp [old]

theorem extendEncloses {around : ScopeId} (ordered : tree.Ordered) (nests : tree.Nests call) (inside : id < tree.size) :
    (tree.extend call).Encloses around id ↔ tree.Encloses around id := by
  rw [← memAncestors ((orderedExtend tree call).mpr ⟨ordered, nests⟩), extendAncestors inside, memAncestors ordered]

theorem extendGrows (tree : ScopeTree) (call : Call) : tree.size ≤ (tree.extend call).size := by
  rw [extendSize]
  cases call <;> simp

theorem fitsLater {later : ScopeTree} (grown : tree.size ≤ later.size) (fits : tree.Fits call) : later.Fits call := by
  cases call with
  | reference name => trivial
  | scope kind parent => exact Nat.le_trans fits grown
  | binding | «variable» | label | eval => exact Nat.lt_of_lt_of_le fits grown

theorem extendSlot {old : Call} (fits : tree.Fits old) : (tree.extend call).slot? old = tree.slot? old := by
  cases old with
  | «variable» name scope => rw [slot?, slot?, extendHoist fits]
  | _ => rfl

theorem namesSame {later : ScopeTree} {calls : List Call} (same : ∀ call ∈ calls, later.slot? call = tree.slot? call)
    (slot : Slot) : later.names slot calls = tree.names slot calls := by
  unfold names
  congr 1
  exact List.filter_congr fun call member => by rw [same call member]

theorem namesAppend (tree : ScopeTree) (slot : Slot) (calls others : List Call) :
    tree.names slot (calls ++ others) = tree.names slot calls ++ tree.names slot others := by
  simp [names]

theorem updateListed {α : Type} (tree : ScopeTree) (id : ScopeId) (field : Scope → List α)
    (change : Scope → Scope) (step : List α → List α) (changes : ∀ scope, field (change scope) = step (field scope))
    {other : ScopeId} (inside : id = other → other < tree.size) :
    (tree.update id change).listed field other =
      if id = other then step (tree.listed field other) else tree.listed field other := by
  simp only [listed, update, Array.getElem?_modify]
  split
  · next same =>
    have present : other < tree.scopes.size := inside same
    simp [present, changes]
  · rfl

theorem updateUnlisted {α : Type} (field : Scope → List α) (change : Scope → Scope)
    (keeps : ∀ scope, field (change scope) = field scope) (other : ScopeId) :
    (tree.update id change).listed field other = tree.listed field other := by
  simp only [listed, update, Array.getElem?_modify]
  split
  · cases tree.scopes[other]? <;> simp [keeps]
  · rfl

theorem markUnlisted {α : Type} (field : Scope → List α) (keeps : ∀ scope : Scope, field scope.mark = field scope)
    (ids : List ScopeId) (other : ScopeId) :
    (ids.foldl (fun tree id => tree.update id .mark) tree).listed field other = tree.listed field other := by
  induction ids generalizing tree with
  | nil => rfl
  | cons id rest ih => exact ih.trans (updateUnlisted field .mark keeps other)

theorem listedOutside {α : Type} {field : Scope → List α} (outside : tree.size ≤ id) : tree.listed field id = [] := by
  simp [listed, Array.getElem?_eq_none outside]

theorem pushListed {α : Type} (tree : ScopeTree) (field : Scope → List α) (scope : Scope)
    (bare : field scope = []) (id : ScopeId) :
    listed field {tree with scopes := tree.scopes.push scope} id = tree.listed field id := by
  rcases Nat.lt_or_ge id tree.scopes.size with inside | outside
  · simp [listed, Array.getElem?_push_lt, inside]
  · rcases Nat.eq_or_lt_of_le outside with rfl | beyond
    · simp [listed, bare]
    · rw [listedOutside (by simpa [size] using Nat.succ_le_of_lt beyond), listedOutside outside]

/-- Of the lists of scopes only those of children change when a scope is made. -/
theorem scopeListed {α : Type} (field : Scope → List α)
    (keeps : ∀ child scope, field (.adopt child scope) = field scope) (kind : ScopeKind) (parent : ScopeId)
    (bare : field (.fresh kind (some parent)) = []) (id : ScopeId) :
    (tree.extend (.scope kind parent)).listed field id = tree.listed field id := by
  have adopted := @updateUnlisted {tree with scopes := tree.scopes.push (.fresh kind (some parent))} parent α field
    (.adopt tree.size) (keeps tree.size) id
  exact adopted.trans (pushListed tree field _ bare id)

theorem namesOne (tree : ScopeTree) (slot : Slot) (call : Call) :
    tree.names slot [call] = if tree.slot? call = some slot then call.name?.toList else [] := by
  by_cases same : tree.slot? call = some slot <;> cases call <;> simp [names, same, Call.name?]

theorem hoistsOutward (tree : ScopeTree) (id : ScopeId) : tree.hoistTarget id ≤ id := by
  rw [hoistTarget]
  cases found : (tree.ancestors id).find? tree.holdsVars with
  | none => exact Nat.le_refl _
  | some target => exact lineageInward (List.mem_of_find?_eq_some found)

theorem hoistInside (inside : id < tree.size) : tree.hoistTarget id < tree.size :=
  Nat.lt_of_le_of_lt (tree.hoistsOutward id) inside

theorem extendBindings (inside : id < tree.size) (call : Call) :
    (tree.extend call).listed Scope.bindings id =
      (tree.names (.bindings id) [call]).foldl Scope.declare (tree.listed Scope.bindings id) := by
  rw [namesOne]
  cases call with
  | scope kind parent => exact scopeListed Scope.bindings (fun _ _ => rfl) kind parent rfl id
  | binding name scope | «variable» name scope =>
    simp only [extend, slot?, Option.some.injEq, Slot.bindings.injEq, Call.name?,
      updateListed _ _ Scope.bindings (.bind name) (Scope.declare · name) (fun _ => rfl) fun _ => inside]
    split <;> rfl
  | label name scope => exact updateUnlisted Scope.bindings (.label name) (fun _ => rfl) id
  | eval scope => exact markUnlisted Scope.bindings (fun _ => rfl) _ id
  | reference name => rfl

theorem extendLabels (inside : id < tree.size) (call : Call) :
    (tree.extend call).listed Scope.labels id =
      (tree.names (.labels id) [call]).foldl Scope.declare (tree.listed Scope.labels id) := by
  rw [namesOne]
  cases call with
  | scope kind parent => exact scopeListed Scope.labels (fun _ _ => rfl) kind parent rfl id
  | binding name scope | «variable» name scope =>
    exact updateUnlisted Scope.labels (.bind name) (fun _ => rfl) id
  | label name scope =>
    simp only [extend, slot?, Option.some.injEq, Slot.labels.injEq, Call.name?,
      updateListed _ _ Scope.labels (.label name) (Scope.declare · name) (fun _ => rfl) fun _ => inside]
    split <;> rfl
  | eval scope => exact markUnlisted Scope.labels (fun _ => rfl) _ id
  | reference name => rfl

theorem extendUnlisted (outside : tree.size ≤ id) (call : Call) :
    (tree.extend call).listed Scope.bindings id = [] ∧ (tree.extend call).listed Scope.labels id = [] := by
  cases call with
  | scope kind parent =>
    rw [scopeListed Scope.bindings (fun _ _ => rfl) kind parent rfl,
      scopeListed Scope.labels (fun _ _ => rfl) kind parent rfl]
    exact ⟨listedOutside outside, listedOutside outside⟩
  | _ =>
    refine ⟨listedOutside ?_, listedOutside ?_⟩ <;> rw [extendSize] <;> exact outside

theorem namesOutside {calls : List Call} (fits : ∀ call ∈ calls, tree.Fits call) (outside : tree.size ≤ id) :
    tree.names (.bindings id) calls = [] ∧ tree.names (.labels id) calls = [] := by
  have elsewhere (call : Call) (member : call ∈ calls) :
      tree.slot? call ≠ some (.bindings id) ∧ tree.slot? call ≠ some (.labels id) := by
    have inside := fits call member
    cases call <;> simp only [slot?, ne_eq, reduceCtorEq, not_false_eq_true, and_self, and_true, true_and,
      Option.some.injEq, Slot.bindings.injEq, Slot.labels.injEq]
    case binding | label => exact fun same => Nat.not_lt.mpr outside (same ▸ inside)
    case «variable» => exact fun same => Nat.not_lt.mpr outside (same ▸ hoistInside inside)
  have none (slot : Slot) (never : ∀ call ∈ calls, tree.slot? call ≠ some slot) : tree.names slot calls = [] := by
    rw [names, List.filter_eq_nil_iff.mpr fun call member => by simpa using never call member, List.filterMap_nil]
  exact ⟨none _ fun call member => (elsewhere call member).1, none _ fun call member => (elsewhere call member).2⟩

theorem extendParent (inside : id < tree.size) (call : Call) : (tree.extend call).parent id = tree.parent id := by
  rw [parentFramed, extendFrame, parentFramed]
  cases call <;> simp [Nat.ne_of_lt inside]

theorem extendChildren (accepts : tree.Accepts call) (id : ScopeId) :
    (tree.extend call).listed Scope.children id = tree.listed Scope.children id ++
      if (tree.extend call).parent tree.size = some id then [tree.size] else [] := by
  rw [parentFramed, extendFrame]
  have new : tree.frame tree.size = none := frameOutside (Nat.le_refl _)
  cases call with
  | scope kind parent =>
    have present : parent < tree.scopes.size + 1 := Nat.lt_succ_of_lt accepts.2
    have pushed := pushListed tree Scope.children (.fresh kind (some parent)) rfl id
    have inside : parent = id → id < (tree.scopes.push (.fresh kind (some parent))).size := by
      rintro rfl
      simpa using present
    have adopted := updateListed {tree with scopes := tree.scopes.push (.fresh kind (some parent))} parent
      Scope.children (.adopt tree.size) (· ++ [tree.size]) (fun _ => rfl) inside
    rw [pushed] at adopted
    refine adopted.trans ?_
    by_cases same : parent = id <;> simp [same]
  | binding name scope | «variable» name scope =>
    simpa [new, extend] using updateUnlisted Scope.children (.bind name) (fun _ => rfl) id
  | label name scope => simpa [new, extend] using updateUnlisted Scope.children (.label name) (fun _ => rfl) id
  | eval scope => simpa [new, extend] using markUnlisted Scope.children (fun _ => rfl) (tree.ancestors scope) id
  | reference name => simp [new, extend, listed]

theorem extendGlobals (tree : ScopeTree) (call : Call) :
    (tree.extend call).globals = tree.globals.insertMany (tree.names .globals [call]) := by
  rw [namesOne]
  cases call with
  | eval scope =>
    have same (ids : List ScopeId) (tree : ScopeTree) :
        (ids.foldl (fun tree id => tree.update id .mark) tree).globals = tree.globals := by
      induction ids generalizing tree with
      | nil => rfl
      | cons id rest ih => exact ih _
    exact same _ tree
  | reference name => exact Std.TreeSet.insertMany_list_singleton.symm
  | _ => rfl

theorem emptyListed {α : Type} (field : Scope → List α) (bare : field (.fresh .global .none) = []) (id : ScopeId) :
    empty.listed field id = [] := by
  rcases Nat.eq_zero_or_pos id with rfl | later
  · exact bare
  · exact listedOutside later

end Steps

theorem extendAllAppend (tree : ScopeTree) (calls others : List Call) :
    tree.extendAll (calls ++ others) = (tree.extendAll calls).extendAll others := List.foldl_append

/-- No scope names anything twice, whatever the calls were. -/
theorem listedOnce (calls : List Call) (id : ScopeId) :
    ((empty.extendAll calls).listed Scope.bindings id).Nodup ∧
      ((empty.extendAll calls).listed Scope.labels id).Nodup := by
  induction calls using List.reverseRecOn with
  | nil =>
    rw [extendAll, List.foldl_nil, emptyListed Scope.bindings rfl, emptyListed Scope.labels rfl]
    exact ⟨.nil, .nil⟩
  | append_singleton calls call ih =>
    rw [extendAllAppend]
    change ((ScopeTree.extend _ call).listed _ id).Nodup ∧ ((ScopeTree.extend _ call).listed _ id).Nodup
    rcases Nat.lt_or_ge id (empty.extendAll calls).size with inside | outside
    · rw [extendBindings inside, extendLabels inside]
      exact ⟨Scope.declareNodup ih.1 _, Scope.declareNodup ih.2 _⟩
    · rw [(extendUnlisted outside call).1, (extendUnlisted outside call).2]
      exact ⟨.nil, .nil⟩

end ScopeTree
end Pseudonym
