import Pseudonym.Proofs.Scope.Slot

/-! What calls leave behind. The log of the calls tells the tree: the scopes it makes, the names it brings to each
slot and the scopes it marks. So the tree stays the same when dynamic code is noted earlier or later, and when two
calls change places that leave their marks in different slots. -/
namespace Pseudonym
namespace ScopeTree

theorem scopeShown (tree : ScopeTree) (id : ScopeId) :
    tree.scopes[id]? = (tree.frame id).map fun frame =>
      ⟨frame.1, frame.2, tree.listed Scope.bindings id, tree.listed Scope.labels id, tree.hasEval id,
        tree.listed Scope.children id⟩ := by
  cases present : tree.scopes[id]? <;> simp [frame, listed, hasEval, present]

/-- What a log of calls tells of the tree it leaves behind. -/
structure Tells (calls : List Call) (tree : ScopeTree) : Prop where
  fits : ∀ call ∈ calls, tree.Fits call
  ordered : tree.Ordered
  size : tree.size = (calls.filterMap Call.created?).length + 1
  root : tree.frame ScopeTree.root = some (none, .global)
  made : ∀ n, tree.frame (n + 1) = (calls.filterMap Call.created?)[n]?.map fun made => (some made.2, made.1)
  children : ∀ id, tree.listed Scope.children id = (List.range tree.size).filter (tree.parent · = some id)
  bindings : ∀ id, tree.listed Scope.bindings id = (tree.names (.bindings id) calls).eraseDups
  labels : ∀ id, tree.listed Scope.labels id = (tree.names (.labels id) calls).eraseDups
  eval : ∀ id, tree.hasEval id = true ↔ ∃ scope, .eval scope ∈ calls ∧ tree.Encloses id scope
  globals : tree.globals = .ofNames (tree.names .globals calls)

theorem emptyTells : Tells [] empty := by
  have none (id : ScopeId) : empty.parent id = none := by
    rcases Nat.eq_zero_or_pos id with rfl | later
    · rfl
    · rw [parentFramed, frameOutside later, Option.bind_none]
  constructor
  case fits => simp
  case ordered => exact emptyOrdered
  case size => rfl
  case root => rfl
  case made => exact fun n => frameOutside (Nat.succ_le_succ (Nat.zero_le n))
  case children => simp [emptyListed Scope.children rfl, none]
  case bindings => exact emptyListed Scope.bindings rfl
  case labels => exact emptyListed Scope.labels rfl
  case eval =>
    intro id
    rcases Nat.eq_zero_or_pos id with rfl | later
    · simp [hasEval, empty, Scope.fresh]
    · simp [hasEval, empty, Nat.ne_of_gt later]
  case globals => rfl

namespace Tells

variable {calls : List Call} {tree : ScopeTree} {call : Call}

theorem namesExtended (tells : Tells calls tree) (fits : tree.Fits call) (slot : Slot) :
    (tree.extend call).names slot (calls ++ [call]) = tree.names slot calls ++ tree.names slot [call] := by
  have all : ∀ old ∈ calls ++ [call], (tree.extend call).slot? old = tree.slot? old := by
    intro old member
    rcases List.mem_append.mp member with before | same
    · exact extendSlot (tells.fits old before)
    · exact extendSlot (List.mem_singleton.mp same ▸ fits)
  rw [namesSame all, namesAppend]

theorem evalExtended (tells : Tells calls tree) (accepts : tree.Accepts call) (id : ScopeId) :
    (tree.extend call).hasEval id = true ↔
      ∃ scope, .eval scope ∈ calls ++ [call] ∧ (tree.extend call).Encloses id scope := by
  have encloses {scope : ScopeId} (inside : scope < tree.size) :
      (tree.extend call).Encloses id scope ↔ tree.Encloses id scope :=
    extendEncloses tells.ordered accepts.2 inside
  have here (scope : ScopeId) (inside : scope < tree.size) :
      id ∈ tree.ancestors scope ∧ id < tree.size ↔ (tree.extend call).Encloses id scope := by
    rw [encloses inside, ← memAncestors tells.ordered]
    exact and_iff_left_of_imp fun member => Nat.lt_of_le_of_lt (lineageInward member) inside
  have before : tree.hasEval id = true ↔ ∃ scope, .eval scope ∈ calls ∧ (tree.extend call).Encloses id scope := by
    rw [tells.eval]
    refine exists_congr fun scope => and_congr_right fun member => (encloses ?_).symm
    exact tells.fits (.eval scope) member
  rw [extendEval, before]
  simp only [List.mem_append, List.mem_singleton, or_and_right, exists_or]
  cases call with
  | eval scope => simp [here scope accepts.1]
  | _ => simp

theorem extend (tells : Tells calls tree) (accepts : tree.Accepts call) :
    Tells (calls ++ [call]) (tree.extend call) := by
  have fits : ∀ old ∈ calls ++ [call], tree.Fits old := by
    intro old member
    rcases List.mem_append.mp member with before | same
    · exact tells.fits old before
    · exact List.mem_singleton.mp same ▸ accepts.1
  constructor
  case fits => exact fun old member => fitsLater (extendGrows tree call) (fits old member)
  case ordered => exact (orderedExtend tree call).mpr ⟨tells.ordered, accepts.2⟩
  case size =>
    rw [extendSize, List.filterMap_append, List.length_append, tells.size]
    cases call <;> rfl
  case root =>
    have old : ScopeTree.root ≠ tree.size := by rw [tells.size]; exact (Nat.succ_ne_zero _).symm
    rw [extendFrame, tells.root]
    cases call <;> simp [old]
  case made =>
    intro n
    rw [extendFrame, tells.size, List.filterMap_append, tells.made]
    cases call with
    | scope kind parent =>
      rcases Nat.lt_trichotomy n (calls.filterMap Call.created?).length with early | rfl | late
      · simp [Call.created?, List.getElem?_append_left early, Nat.ne_of_lt early]
      · simp [Call.created?]
      · have beyond : (calls.filterMap Call.created? ++ [(kind, parent)]).length ≤ n := by
          simpa using Nat.succ_le_of_lt late
        simp [Call.created?, List.getElem?_eq_none beyond, List.getElem?_eq_none (Nat.le_of_lt late), Nat.ne_of_gt late]
    | _ => simp [List.filterMap_cons, Call.created?]
  case children =>
    intro id
    have old : (List.range tree.size).filter ((tree.extend call).parent · = some id) =
        (List.range tree.size).filter (tree.parent · = some id) :=
      List.filter_congr fun child member => by rw [extendParent (List.mem_range.mp member)]
    rw [extendChildren accepts, tells.children, ← old]
    cases call with
    | scope kind parent =>
      rw [extendSize]
      simp only [List.range_succ, List.filter_append, List.filter_cons, decide_eq_true_eq]
      rfl
    | _ =>
      rw [extendSize, parentFramed, frameOutside (Nat.le_of_eq (extendSize tree _))]
      simp
  case bindings =>
    intro id
    rw [tells.namesExtended accepts.1, ← namesAppend]
    rcases Nat.lt_or_ge id tree.size with inside | outside
    · rw [extendBindings inside, tells.bindings, ← Scope.declareAll, ← Scope.declareAll, namesAppend, List.foldl_append]
    · rw [(extendUnlisted outside call).1, (namesOutside fits outside).1]
      rfl
  case labels =>
    intro id
    rw [tells.namesExtended accepts.1, ← namesAppend]
    rcases Nat.lt_or_ge id tree.size with inside | outside
    · rw [extendLabels inside, tells.labels, ← Scope.declareAll, ← Scope.declareAll, namesAppend, List.foldl_append]
    · rw [(extendUnlisted outside call).2, (namesOutside fits outside).2]
      rfl
  case eval => exact tells.evalExtended accepts
  case globals =>
    rw [extendGlobals, tells.globals, tells.namesExtended accepts.1, NameSet.ofNames, NameSet.ofNames,
      Std.TreeSet.ofList_eq_insertMany_empty, Std.TreeSet.ofList_eq_insertMany_empty, Std.TreeSet.insertMany_append]

theorem ofAccepted (accepted : empty.AcceptsAll calls) : Tells calls (empty.extendAll calls) := by
  induction calls using List.reverseRecOn with
  | nil => exact emptyTells
  | append_singleton calls call ih =>
    obtain ⟨before, here, _⟩ := acceptsAppend.mp accepted
    rw [extendAllAppend]
    exact (ih before).extend here

/-- A tree is told by the scopes its log makes, the names it brings to each slot, and the scopes it marks. -/
theorem same {others : List Call} {other : ScopeTree} (tells : Tells calls tree) (again : Tells others other)
    (made : calls.filterMap Call.created? = others.filterMap Call.created?)
    (named : ∀ slot, tree.names slot calls = tree.names slot others)
    (marked : ∀ scope, .eval scope ∈ calls ↔ .eval scope ∈ others) : tree = other := by
  have frames (id : ScopeId) : tree.frame id = other.frame id := by
    cases id with
    | zero => exact tells.root.trans again.root.symm
    | succ n => rw [tells.made, again.made, made]
  have parents : tree.parent = other.parent := funext fun id => by rw [parentFramed, parentFramed, frames]
  have holders : tree.holdsVars = other.holdsVars := funext fun id => by rw [holdsVarsFramed, holdsVarsFramed, frames]
  have slots : tree.slot? = other.slot? := by
    funext call
    cases call <;> simp only [slot?, hoistTarget, ancestors, parents, holders]
  have names (slot : Slot) : tree.names slot calls = other.names slot others := by
    rw [named, ScopeTree.names, ScopeTree.names, slots]
  have size : tree.size = other.size := by rw [tells.size, again.size, made]
  have children (id : ScopeId) : tree.listed Scope.children id = other.listed Scope.children id := by
    rw [tells.children, again.children, size, parents]
  have marks (id : ScopeId) : tree.hasEval id = other.hasEval id := by
    rw [Bool.eq_iff_iff, tells.eval, again.eval]
    simp only [marked, ← memAncestors tells.ordered, ← memAncestors again.ordered, ancestors, parents]
  have scopes : tree.scopes = other.scopes := by
    refine Array.ext_getElem? fun id => ?_
    rw [tree.scopeShown, other.scopeShown, frames, tells.bindings, again.bindings, tells.labels, again.labels,
      names, names, marks, children]
  have globals : tree.globals = other.globals := by rw [tells.globals, again.globals, names]
  cases tree
  cases other
  cases scopes
  cases globals
  rfl

end Tells

section Interleaving

/-- Two calls that are no new scopes and leave their marks in different places. -/
def Apart (tree : ScopeTree) (one other : Call) : Prop :=
  ∃ slot another, tree.slot? one = some slot ∧ tree.slot? other = some another ∧ slot ≠ another

theorem extendSizeSame {tree other : ScopeTree} (same : tree.size = other.size) (call : Call) :
    (tree.extend call).size = (other.extend call).size := by
  rw [extendSize, extendSize]
  cases call <;> simp [same]

theorem acceptsSized {tree other : ScopeTree} (same : tree.size = other.size) (call : Call) :
    tree.Accepts call ↔ other.Accepts call := by
  unfold Accepts
  cases call <;> simp only [Fits, Nests, same]

theorem acceptsAllSized {tree other : ScopeTree} (same : tree.size = other.size) (calls : List Call) :
    tree.AcceptsAll calls ↔ other.AcceptsAll calls := by
  induction calls generalizing tree other with
  | nil => rfl
  | cons call rest ih => rw [AcceptsAll, AcceptsAll, acceptsSized same, ih (extendSizeSame same call)]

theorem slotSized {tree : ScopeTree} {call : Call} {slot : Slot} (changes : tree.slot? call = some slot) :
    (tree.extend call).size = tree.size := by
  rw [extendSize]
  cases call with
  | scope => cases changes
  | _ => rfl

theorem slotMakesNone {tree : ScopeTree} {call : Call} {slot : Slot} (changes : tree.slot? call = some slot) :
    call.created? = none := by
  cases call with
  | scope => cases changes
  | _ => rfl

theorem slotKept {tree : ScopeTree} {old : Call} (fits : tree.Fits old) (calls : List Call) :
    (tree.extendAll calls).slot? old = tree.slot? old := by
  induction calls generalizing tree with
  | nil => rfl
  | cons call rest ih => exact (ih (fitsLater (extendGrows tree call) fits)).trans (extendSlot fits)

theorem namesSwapped {tree : ScopeTree} {one other : Call} (apart : tree.Apart one other) (slot : Slot) :
    tree.names slot [one, other] = tree.names slot [other, one] := by
  obtain ⟨here, there, first, second, different⟩ := apart
  have parted (call next : Call) : tree.names slot [call, next] = tree.names slot [call] ++ tree.names slot [next] :=
    namesAppend tree slot [call] [next]
  simp only [parted, namesOne, first, second, Option.some.injEq]
  by_cases same : here = slot
  · rw [if_pos same, if_neg fun again => different (same.trans again.symm), List.append_nil, List.nil_append]
  · rw [if_neg same, List.append_nil, List.nil_append]

theorem acceptsSwapped {tree : ScopeTree} {one other : Call} {late : List Call} (apart : tree.Apart one other)
    (accepted : tree.AcceptsAll (one :: other :: late)) : tree.AcceptsAll (other :: one :: late) := by
  obtain ⟨_, _, first, second, _⟩ := apart
  obtain ⟨here, next, rest⟩ := accepted
  have after : (tree.extend one).size = tree.size := slotSized first
  have instead : (tree.extend other).size = tree.size := slotSized second
  have last : ((tree.extend other).extend one).size = ((tree.extend one).extend other).size := by
    rw [extendSizeSame instead, extendSizeSame after, after, instead]
  exact ⟨(acceptsSized after other).mp next, (acceptsSized instead one).mpr here, (acceptsAllSized last late).mpr rest⟩

theorem evalMoved {early late again rest : List Call} {scope : ScopeId}
    (accepted : empty.AcceptsAll (early ++ .eval scope :: late)) (others : again ++ rest = early ++ late)
    (inside : scope < (empty.extendAll again).size) :
    empty.AcceptsAll (again ++ .eval scope :: rest) ∧
      empty.extendAll (again ++ .eval scope :: rest) = empty.extendAll (early ++ .eval scope :: late) := by
  have unmoved (tree : ScopeTree) : (tree.extend (.eval scope)).size = tree.size := extendSize tree (.eval scope)
  obtain ⟨before, _, after⟩ := acceptsAppend.mp accepted
  have without : empty.AcceptsAll (again ++ rest) :=
    others ▸ acceptsAppend.mpr ⟨before, (acceptsAllSized (unmoved _) late).mp after⟩
  obtain ⟨ahead, behind⟩ := acceptsAppend.mp without
  have moved : empty.AcceptsAll (again ++ .eval scope :: rest) :=
    acceptsAppend.mpr ⟨ahead, ⟨inside, trivial⟩, (acceptsAllSized (unmoved _) rest).mpr behind⟩
  refine ⟨moved, (Tells.ofAccepted moved).same (.ofAccepted accepted) ?_ ?_ ?_⟩
  · have silent (calls next : List Call) :
        (calls ++ .eval scope :: next).filterMap Call.created? = (calls ++ next).filterMap Call.created? := by
      rw [List.filterMap_append, List.filterMap_append, List.filterMap_cons_none rfl]
    rw [silent, silent, others]
  · intro slot
    have silent (tree : ScopeTree) (calls next : List Call) :
        tree.names slot (calls ++ .eval scope :: next) = tree.names slot (calls ++ next) := by
      rw [List.append_cons, namesAppend, namesAppend, namesAppend, namesOne]
      simp [Call.name?]
    rw [silent, silent, others]
  · intro marked
    have among (calls next : List Call) :
        Call.eval marked ∈ calls ++ .eval scope :: next ↔ marked = scope ∨ Call.eval marked ∈ calls ++ next := by
      simp [or_left_comm]
    rw [among, among, others]

theorem callsSwapped {early late : List Call} {one other : Call}
    (accepted : empty.AcceptsAll (early ++ one :: other :: late)) (apart : (empty.extendAll early).Apart one other) :
    empty.AcceptsAll (early ++ other :: one :: late) ∧
      empty.extendAll (early ++ other :: one :: late) = empty.extendAll (early ++ one :: other :: late) := by
  obtain ⟨before, after⟩ := acceptsAppend.mp accepted
  have swapped : empty.AcceptsAll (early ++ other :: one :: late) :=
    acceptsAppend.mpr ⟨before, acceptsSwapped apart after⟩
  have kept (call : Call) (fits : (empty.extendAll early).Fits call) :
      (empty.extendAll (early ++ other :: one :: late)).slot? call = (empty.extendAll early).slot? call := by
    rw [extendAllAppend, slotKept fits]
  obtain ⟨here, there, first, second, different⟩ := apart
  refine ⟨swapped, (Tells.ofAccepted swapped).same (.ofAccepted accepted) ?_ ?_ ?_⟩
  · simp [slotMakesNone first, slotMakesNone second]
  · intro slot
    have fits := (acceptsSwapped ⟨here, there, first, second, different⟩ after).1.1
    have still : (empty.extendAll (early ++ other :: one :: late)).Apart other one :=
      ⟨there, here, (kept other fits).trans second, (kept one after.1.1).trans first, different.symm⟩
    have parted (tree : ScopeTree) (call next : Call) : tree.names slot (early ++ call :: next :: late) =
        tree.names slot early ++ (tree.names slot [call, next] ++ tree.names slot late) := by
      rw [← namesAppend, ← namesAppend]
      rfl
    rw [parted, parted, namesSwapped still]
  · intro scope
    simp only [List.mem_append, List.mem_cons, or_left_comm]

end Interleaving

structure Logged (calls : List Call) (tree : ScopeTree) : Prop extends Tells calls tree where
  hoists : ∀ id < tree.size, Walk tree.parent tree.holdsVars id (some (tree.hoistTarget id))
  outward : ∀ id outer, tree.parent id = some outer → tree.hasEval id = true → tree.hasEval outer = true
  /-- Dynamic code may be noted at any time after its scope was made. -/
  moved : ∀ early late again rest scope, calls = early ++ .eval scope :: late → again ++ rest = early ++ late →
    scope < (empty.extendAll again).size →
      empty.AcceptsAll (again ++ .eval scope :: rest) ∧ empty.extendAll (again ++ .eval scope :: rest) = tree
  swapped : ∀ early late one other, calls = early ++ one :: other :: late →
    (empty.extendAll early).Apart one other →
      empty.AcceptsAll (early ++ other :: one :: late) ∧ empty.extendAll (early ++ other :: one :: late) = tree

theorem callsTellTree {calls : List Call} (accepted : empty.AcceptsAll calls) :
    Logged calls (empty.extendAll calls) := by
  have tells := Tells.ofAccepted accepted
  refine {tells with hoists := ?hoists, outward := ?outward, moved := ?moved, swapped := ?swapped}
  case hoists => exact fun id inside => hoistEnds (acceptedRooted accepted) tells.ordered inside
  case outward => exact (acceptedEvalClosed accepted).upward
  case moved =>
    intro early late again rest scope same others inside
    subst same
    exact evalMoved accepted others inside
  case swapped =>
    intro early late one other same apart
    subst same
    exact callsSwapped accepted apart

/-- A variable goes up to the function, which hears of it again; and a scope comes into the marked block. -/
def blockLog : List Call :=
  [.scope .function 0, .scope .block 1, .eval 2, .variable "late" 2, .binding "late" 1, .scope .catching 2,
    .label "loop" 3, .reference "console", .binding "main" 0]

theorem blockLogTellsTree :
    empty.AcceptsAll blockLog ∧ Logged blockLog (empty.extendAll blockLog) ∧
      (empty.extendAll blockLog).listed Scope.bindings 1 = ["late"] ∧
      (empty.extendAll blockLog).listed Scope.children 2 = [3] := by
  have accepted : empty.AcceptsAll blockLog := by decide +kernel
  exact ⟨accepted, callsTellTree accepted, by decide +kernel, by decide +kernel⟩

end ScopeTree
end Pseudonym
