import Pseudonym.Scope.Tree

/-! How trees of scopes grow, and walks from a scope to those around it. A walk goes on until it finds what
it looks for or has no parent to go to; nothing in it remembers where it was, so it is the order of the
scopes alone that makes it end. -/
namespace Pseudonym

inductive Walk (parent : ScopeId → Option ScopeId) (stop : ScopeId → Bool) : ScopeId → Option ScopeId → Prop where
  | stops {id : ScopeId} (here : stop id = true) : Walk parent stop id (some id)
  | top {id : ScopeId} (on : stop id = false) (outermost : parent id = none) : Walk parent stop id none
  | up {id outer : ScopeId} {found : Option ScopeId} (on : stop id = false) (next : parent id = some outer)
      (rest : Walk parent stop outer found) : Walk parent stop id found

theorem lineageUp {parent : ScopeId → Option ScopeId} (ordered : ∀ id outer, parent id = some outer → outer < id)
    (id : ScopeId) :
    lineage parent id = id :: match parent id with
      | some outer => lineage parent outer
      | none => [] := by
  rw [lineage]
  cases next : parent id with
  | none => rfl
  | some outer =>
    have smaller := ordered id outer next
    simp only [smaller, if_true]

theorem walkEnds {parent : ScopeId → Option ScopeId} (ordered : ∀ id outer, parent id = some outer → outer < id)
    (stop : ScopeId → Bool) (id : ScopeId) : Walk parent stop id ((lineage parent id).find? stop) := by
  induction id using Nat.strongRecOn with
  | ind id ih =>
    rw [lineageUp ordered, List.find?_cons]
    cases here : stop id with
    | true => exact .stops here
    | false =>
      cases next : parent id with
      | none => exact .top here next
      | some outer => exact .up here next (ih outer (ordered id outer next))

theorem walkFinds {parent : ScopeId → Option ScopeId} {stop : ScopeId → Bool} {id target : ScopeId}
    (walk : Walk parent stop id (some target)) : stop target = true := by
  generalize found : some target = answer at walk
  induction walk with
  | stops here => cases found; exact here
  | top => cases found
  | up _ _ _ ih => exact ih found

theorem ownParentWalksOn {parent : ScopeId → Option ScopeId} {stop : ScopeId → Bool} {id : ScopeId}
    (own : parent id = some id) (on : stop id = false) (found : Option ScopeId) : ¬Walk parent stop id found := by
  intro walk
  induction walk with
  | stops here => simp [here] at on
  | top _ outermost => simp [outermost] at own
  | up _ next rest ih =>
    cases own.symm.trans next
    exact ih own on

namespace ScopeTree

def frame (tree : ScopeTree) (id : ScopeId) : Option (Option ScopeId × ScopeKind) :=
  tree.scopes[id]?.map fun scope => (scope.parent, scope.kind)

theorem parentFramed (tree : ScopeTree) (id : ScopeId) : tree.parent id = (tree.frame id).bind (·.1) := by
  cases present : tree.scopes[id]? <;> simp [parent, frame, present]

theorem holdsVarsFramed (tree : ScopeTree) (id : ScopeId) :
    tree.holdsVars id = (tree.frame id).any (·.2.holdsVars) := by
  cases present : tree.scopes[id]? <;> simp [holdsVars, frame, present]

theorem frameOutside {tree : ScopeTree} {id : ScopeId} (outside : tree.size ≤ id) : tree.frame id = none := by
  simpa [frame, size] using outside

theorem parentInside {tree : ScopeTree} {id outer : ScopeId} (next : tree.parent id = some outer) :
    id < tree.size := by
  refine Nat.lt_of_not_le fun outside => ?_
  rw [parentFramed, frameOutside outside] at next
  cases next

theorem updateFrame (change : Scope → Scope)
    (same : ∀ scope, (change scope).parent = scope.parent ∧ (change scope).kind = scope.kind)
    (tree : ScopeTree) (id other : ScopeId) : (tree.update id change).frame other = tree.frame other := by
  simp only [frame, update, Array.getElem?_modify]
  split
  · rw [Option.map_map]
    congr 1
    funext scope
    simp [same scope]
  · rfl

theorem markFrame (tree : ScopeTree) (ids : List ScopeId) (other : ScopeId) :
    (ids.foldl (fun tree id => tree.update id .mark) tree).frame other = tree.frame other := by
  induction ids generalizing tree with
  | nil => rfl
  | cons id rest ih => exact (ih _).trans (updateFrame .mark (fun _ => ⟨rfl, rfl⟩) tree id other)

theorem markSize (tree : ScopeTree) (ids : List ScopeId) :
    (ids.foldl (fun tree id => tree.update id .mark) tree).size = tree.size := by
  induction ids generalizing tree with
  | nil => rfl
  | cons id rest ih => exact (ih _).trans (by simp [size, update])

theorem extendFrame (tree : ScopeTree) (call : Call) (id : ScopeId) :
    (tree.extend call).frame id =
      match call with
      | .scope kind parent => if id = tree.size then some (some parent, kind) else tree.frame id
      | _ => tree.frame id := by
  cases call with
  | scope kind parent =>
    have adopted := updateFrame (.adopt tree.size) (fun _ => ⟨rfl, rfl⟩)
      {tree with scopes := tree.scopes.push (.fresh kind (some parent))} parent id
    refine adopted.trans ?_
    by_cases new : id = tree.size
    · simp [frame, new, size, Scope.fresh]
    · have old : id ≠ tree.scopes.size := new
      simp [frame, Array.getElem?_push, new, old]
  | binding name scope => exact updateFrame (.bind name) (fun _ => ⟨rfl, rfl⟩) tree scope id
  | «variable» name scope => exact updateFrame (.bind name) (fun _ => ⟨rfl, rfl⟩) tree (tree.hoistTarget scope) id
  | label name scope => exact updateFrame (.label name) (fun _ => ⟨rfl, rfl⟩) tree scope id
  | eval scope => exact markFrame tree (tree.ancestors scope) id
  | reference name => rfl

theorem extendSize (tree : ScopeTree) (call : Call) :
    (tree.extend call).size =
      match call with
      | .scope _ _ => tree.size + 1
      | _ => tree.size := by
  cases call with
  | eval scope => exact markSize tree (tree.ancestors scope)
  | _ => simp [extend, size, update]

def Ordered (tree : ScopeTree) : Prop := ∀ id outer, tree.parent id = some outer → outer < id

structure Rooted (tree : ScopeTree) : Prop where
  root : tree.frame root = some (none, .global)
  below : ∀ id < tree.size, id ≠ ScopeTree.root → ∃ outer, tree.parent id = some outer

theorem Rooted.some {tree : ScopeTree} (rooted : tree.Rooted) : 0 < tree.size := by
  rcases Nat.eq_zero_or_pos tree.size with empty | some
  · have outside : tree.frame ScopeTree.root = none := frameOutside (by simp [empty])
    rw [rooted.root] at outside
    cases outside
  · exact some

theorem emptyRooted : empty.Rooted := ⟨rfl, fun _ small other => absurd (Nat.lt_one_iff.mp small) other⟩

theorem emptyOrdered : empty.Ordered := by
  intro id outer around
  rw [parentFramed] at around
  rcases Nat.eq_zero_or_pos id with rfl | later
  · cases around
  · rw [frameOutside later] at around
    cases around

theorem Rooted.extend {tree : ScopeTree} (rooted : tree.Rooted) (call : Call) : (tree.extend call).Rooted := by
  have first : ScopeTree.root ≠ tree.size := Nat.ne_of_lt rooted.some
  constructor
  · rw [extendFrame]
    cases call <;> simp [first, rooted.root]
  · intro id small other
    rw [extendSize] at small
    have framed := extendFrame tree call id
    rw [parentFramed, framed]
    cases call with
    | scope kind parent =>
      rcases Nat.lt_succ_iff_lt_or_eq.mp small with within | same
      · simp only [if_neg (Nat.ne_of_lt within)]
        exact tree.parentFramed id ▸ rooted.below id within other
      · simp only [if_pos same]
        exact ⟨parent, rfl⟩
    | _ => exact tree.parentFramed id ▸ rooted.below id small other

def Nests (tree : ScopeTree) : Call → Prop
  | .scope _ parent => parent < tree.size
  | _ => True

theorem orderedExtend (tree : ScopeTree) (call : Call) :
    (tree.extend call).Ordered ↔ tree.Ordered ∧ tree.Nests call := by
  simp only [Ordered, parentFramed, extendFrame]
  cases call with
  | scope kind parent =>
    constructor
    · intro ordered
      refine ⟨fun id outer around => ordered id outer ?_, ordered tree.size parent (by simp)⟩
      -- The next number has no parent yet, so nothing is said of it before the call.
      have old : id ≠ tree.size := by
        rintro rfl
        rw [frameOutside (Nat.le_refl _)] at around
        cases around
      simpa only [if_neg old] using around
    · rintro ⟨ordered, nests⟩ id outer around
      by_cases new : id = tree.size
      · simp only [if_pos new] at around
        cases around
        exact new ▸ nests
      · exact ordered id outer (by simpa only [if_neg new] using around)
  | _ => simp [Nests]

/-- Whether a call comes back: it speaks of scopes that are there, and its walk ends. -/
def Returns (tree : ScopeTree) (call : Call) : Prop :=
  tree.Fits call ∧
    match call with
    | .variable _ scope => ∃ found, Walk tree.parent tree.holdsVars scope found
    | .eval scope => ∃ found, Walk tree.parent (fun _ => false) scope found
    | _ => True

inductive Reaches : ScopeTree → List Call → ScopeTree → Prop where
  | nil (tree : ScopeTree) : Reaches tree [] tree
  | cons {tree last : ScopeTree} {call : Call} {rest : List Call} (returns : tree.Returns call)
      (later : Reaches (tree.extend call) rest last) : Reaches tree (call :: rest) last

def AllNest (tree : ScopeTree) : List Call → Prop
  | [] => True
  | call :: rest => tree.Nests call ∧ (tree.extend call).AllNest rest

theorem reachedOrdered {tree last : ScopeTree} {calls : List Call} (reaches : Reaches tree calls last)
    (rooted : tree.Rooted) : last.Rooted ∧ (last.Ordered ↔ tree.Ordered ∧ tree.AllNest calls) := by
  induction reaches with
  | nil tree => exact ⟨rooted, by simp [AllNest]⟩
  | @cons tree last call rest returns later ih =>
    obtain ⟨end_, ordered⟩ := ih (rooted.extend call)
    exact ⟨end_, by rw [ordered, orderedExtend, AllNest, and_assoc]⟩

theorem refusedIff (tree : ScopeTree) (kind : ScopeKind) (parent : ScopeId) :
    tree.extend? (.scope kind parent) = none ↔ tree.size ≤ parent ∧ parent ≠ tree.size := by
  rw [extend?, ite_eq_right_iff]
  simp only [Fits, reduceCtorEq, imp_false]
  rw [Nat.not_le, Nat.lt_iff_le_and_ne, ne_comm]

theorem hoistEnds {tree : ScopeTree} (rooted : tree.Rooted) (ordered : tree.Ordered) {id : ScopeId}
    (inside : id < tree.size) : Walk tree.parent tree.holdsVars id (some (tree.hoistTarget id)) := by
  have found : ((tree.ancestors id).find? tree.holdsVars).isSome := by
    induction id using Nat.strongRecOn with
    | ind id ih =>
      rw [ancestors, lineageUp ordered, List.find?_cons]
      cases here : tree.holdsVars id with
      | true => rfl
      | false =>
        have other : id ≠ ScopeTree.root := by
          rintro rfl
          rw [holdsVarsFramed, rooted.root] at here
          cases here
        obtain ⟨outer, around⟩ := rooted.below id inside other
        have smaller := ordered id outer around
        simp only [around]
        exact ih outer smaller (Nat.lt_trans smaller inside)
  have walk := walkEnds ordered tree.holdsVars id
  change Walk _ _ id ((tree.ancestors id).find? tree.holdsVars) at walk
  obtain ⟨target, same⟩ := Option.isSome_iff_exists.mp found
  rw [same] at walk
  rw [hoistTarget, same]
  exact walk

theorem markEnds {tree : ScopeTree} (ordered : tree.Ordered) (id : ScopeId) :
    Walk tree.parent (fun _ => false) id none := by
  have walk := walkEnds ordered (fun _ => false) id
  rwa [List.find?_eq_none.mpr (by simp)] at walk

end ScopeTree
end Pseudonym
