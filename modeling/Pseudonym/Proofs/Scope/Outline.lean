import Mathlib.Data.List.Basic
import Pseudonym.Proofs.Scope.Log

/-! What the tree of an outline is. The scopes are numbered in the order of the document; each has the names of its
outline, and those that hold variables have those of the outlines inside them that none nearer holds. -/
namespace Pseudonym

/-- An outline in its program, with the number it gets and the number of the one around it. -/
structure Place where
  id : ScopeId
  parent : Option ScopeId
  outline : ScopeOutline

namespace ScopeOutline

mutual

/-- The outlines in the order of the document, when this one gets the number `id`. -/
def places (parent : Option ScopeId) (id : ScopeId) : ScopeOutline → List Place
  | ⟨kind, bindings, vars, labels, hasEval, children⟩ =>
      ⟨id, parent, ⟨kind, bindings, vars, labels, hasEval, children⟩⟩ :: placesIn id (id + 1) children

def placesIn (parent next : ScopeId) : List ScopeOutline → List Place
  | [] => []
  | child :: rest =>
      let inner := places (some parent) next child
      inner ++ placesIn parent (next + inner.length) rest

end

inductive Contains (outline : ScopeOutline) : ScopeOutline → Prop where
  | here : Contains outline outline
  | child {around inner : ScopeOutline} (outer : Contains outline around) (member : inner ∈ around.children) :
      Contains outline inner

end ScopeOutline

def ProgramOutline.places (program : ProgramOutline) : List Place := program.scope.places none ScopeTree.root

def Place.calls (place : Place) : List ScopeTree.Call :=
  (place.parent.map (.scope place.outline.kind)).toList ++ place.outline.ownCalls place.id

namespace ScopeOutline

mutual

theorem callsPlaced (outline : ScopeOutline) (parent : Option ScopeId) (id : ScopeId) :
    (outline.places parent id).flatMap Place.calls =
        (parent.map (.scope outline.kind)).toList ++ (outline.calls id (id + 1)).1 ∧
      (outline.calls id (id + 1)).2 = id + (outline.places parent id).length := by
  cases outline with
  | mk kind bindings vars labels hasEval children =>
    obtain ⟨below, last⟩ := childCallsPlaced children id (id + 1)
    rw [places, calls, List.flatMap_cons, below, Place.calls]
    refine ⟨by simp [ownCalls], ?_⟩
    rw [last, List.length_cons]
    exact Nat.add_right_comm ..

theorem childCallsPlaced (children : List ScopeOutline) (parent next : ScopeId) :
    (placesIn parent next children).flatMap Place.calls = (childCalls parent next children).1 ∧
      (childCalls parent next children).2 = next + (placesIn parent next children).length := by
  cases children with
  | nil => exact ⟨rfl, rfl⟩
  | cons child rest =>
    obtain ⟨inner, after⟩ := callsPlaced child (some parent) next
    obtain ⟨others, last⟩ := childCallsPlaced rest parent (next + (child.places (some parent) next).length)
    rw [placesIn, childCalls]
    simp only [List.flatMap_append, inner, others, after, last, List.length_append]
    exact ⟨by simp, Nat.add_assoc ..⟩

end

section Numbers

mutual

theorem placesNumbered (outline : ScopeOutline) (parent : Option ScopeId) (id : ScopeId) :
    (outline.places parent id).map Place.id = List.range' id (outline.places parent id).length := by
  cases outline with
  | mk kind bindings vars labels hasEval children =>
    rw [places, List.map_cons, placesInNumbered, List.length_cons, List.range'_succ]

theorem placesInNumbered (children : List ScopeOutline) (parent next : ScopeId) :
    (placesIn parent next children).map Place.id = List.range' next (placesIn parent next children).length := by
  cases children with
  | nil => rfl
  | cons child rest =>
    rw [placesIn]
    simp only [List.map_append, placesNumbered child, placesInNumbered rest, List.length_append]
    exact List.range'_append_1

end

theorem numberBounds {places : List Place} {first : Nat}
    (numbered : places.map Place.id = List.range' first places.length) {place : Place} (member : place ∈ places) :
    first ≤ place.id ∧ place.id < first + places.length := by
  have listed : place.id ∈ places.map Place.id := List.mem_map_of_mem member
  rwa [numbered, List.mem_range'_1] at listed

/-- The outline lies right inside `around` or inside one numbered from `low` up to `high`. -/
def Within (around : Option ScopeId) (low high : Nat) (place : Place) : Prop :=
  place.parent = around ∨ ∃ outer : Nat, place.parent = some outer ∧ low ≤ outer ∧ outer < high

mutual

theorem placesParents (outline : ScopeOutline) (parent : Option ScopeId) (id : Nat) :
    ∀ place ∈ outline.places parent id, Within parent id (id + (outline.places parent id).length) place := by
  cases outline with
  | mk kind bindings vars labels hasEval children =>
    rw [places]
    refine List.forall_mem_cons.mpr ⟨.inl rfl, fun place member => .inr ?_⟩
    rcases placesInParents children id (id + 1) place member with around | ⟨outer, around, low, high⟩
    · exact ⟨id, around, Nat.le_refl _, by simp⟩
    · refine ⟨outer, around, Nat.le_of_succ_le low, ?_⟩
      rwa [List.length_cons, Nat.add_comm _ 1, ← Nat.add_assoc]

theorem placesInParents (children : List ScopeOutline) (parent next : Nat) :
    ∀ place ∈ placesIn parent next children,
      Within (some parent) next (next + (placesIn parent next children).length) place := by
  cases children with
  | nil => simp [placesIn]
  | cons child rest =>
    rw [placesIn]
    simp only [List.length_append]
    intro place member
    rcases List.mem_append.mp member with inner | later
    · rcases placesParents child (some parent) next place inner with around | ⟨outer, around, low, high⟩
      · exact .inl around
      · exact .inr ⟨outer, around, low, by omega⟩
    · rcases placesInParents rest parent _ place later with around | ⟨outer, around, low, high⟩
      · exact .inl around
      · exact .inr ⟨outer, around, by omega, by omega⟩

end

/-- The outlines that are placed right inside the one numbered `id`. -/
def placedIn (id : Nat) (places : List Place) : List ScopeOutline :=
  (places.filter (·.parent = some id)).map Place.outline

theorem placedAppend (id : Nat) (places others : List Place) :
    placedIn id (places ++ others) = placedIn id places ++ placedIn id others := by simp [placedIn]

theorem placedCons (id : Nat) (place : Place) (places : List Place) :
    placedIn id (place :: places) = if place.parent = some id then place.outline :: placedIn id places
      else placedIn id places := by
  by_cases here : place.parent = some id <;> simp [placedIn, here]

theorem placedNone {id : Nat} {places : List Place} (elsewhere : ∀ place ∈ places, place.parent ≠ some id) :
    placedIn id places = [] := by
  rw [placedIn, List.filter_eq_nil_iff.mpr fun place member => by simpa using elsewhere place member, List.map_nil]

theorem parentElsewhere {place : Place} {around : Option ScopeId} {id low high : Nat} (other : around ≠ some id)
    (beyond : id < low ∨ high ≤ id) (within : Within around low high place) : place.parent ≠ some id := by
  intro same
  rcases within with around | ⟨outer, around, above, below⟩
  · exact other (around.symm.trans same)
  · cases around.symm.trans same
    omega

mutual

theorem placesChildren (outline : ScopeOutline) (parent : Option ScopeId) (id : Nat)
    (earlier : ∀ outer : Nat, parent = some outer → outer < id) :
    (∀ outer : Nat, parent = some outer → placedIn outer (outline.places parent id) = [outline]) ∧
      ∀ place ∈ outline.places parent id, placedIn place.id (outline.places parent id) = place.outline.children := by
  cases outline with
  | mk kind bindings vars labels hasEval children =>
    obtain ⟨own, below⟩ := placesInChildren children id (id + 1) (Nat.lt_succ_self id)
    have numbers {place : Place} (member : place ∈ placesIn id (id + 1) children) : id + 1 ≤ place.id :=
      (numberBounds (placesInNumbered children id (id + 1)) member).1
    have passed {number : Nat} (late : id ≤ number) : parent ≠ some number :=
      fun same => Nat.not_lt.mpr late (earlier number same)
    rw [places]
    refine ⟨fun outer around => ?_, List.forall_mem_cons.mpr ⟨?_, fun place member => ?_⟩⟩
    · have small := earlier outer around
      have apart : some id ≠ some outer := fun same => Nat.ne_of_gt small (Option.some.inj same)
      rw [placedCons, if_pos around, placedNone fun place member => parentElsewhere apart
        (.inl (Nat.lt_succ_of_lt small)) (placesInParents children id (id + 1) place member)]
    · rw [placedCons, if_neg (passed (Nat.le_refl _)), own]
    · rw [placedCons, if_neg (passed (Nat.le_of_succ_le (numbers member))), below place member]

theorem placesInChildren (children : List ScopeOutline) (parent next : Nat) (later : parent < next) :
    placedIn parent (placesIn parent next children) = children ∧
      ∀ place ∈ placesIn parent next children,
        placedIn place.id (placesIn parent next children) = place.outline.children := by
  cases children with
  | nil => exact ⟨rfl, by simp [placesIn]⟩
  | cons child rest =>
    obtain ⟨alone, inner⟩ := placesChildren child (some parent) next (by rintro _ ⟨⟩; exact later)
    have after : parent < next + (child.places (some parent) next).length := by omega
    obtain ⟨others, beside⟩ := placesInChildren rest parent _ after
    rw [placesIn]
    refine ⟨by rw [placedAppend, alone parent rfl, others]; rfl, fun place member => ?_⟩
    rw [placedAppend]
    rcases List.mem_append.mp member with here | there
    · obtain ⟨low, high⟩ := numberBounds (placesNumbered child (some parent) next) here
      rw [inner place here, placedNone fun other after => parentElsewhere ?_ (.inl high)
        (placesInParents rest parent _ other after), List.append_nil]
      exact fun same => Nat.ne_of_lt (Nat.lt_of_lt_of_le later low) (Option.some.inj same)
    · have low := (numberBounds (placesInNumbered rest parent _) there).1
      rw [beside place there, placedNone fun other before => parentElsewhere ?_ (.inr low)
        (placesParents child (some parent) next other before), List.nil_append]
      exact fun same => Nat.ne_of_lt (by omega) (Option.some.inj same)

end

end Numbers

end ScopeOutline

theorem flatMapFiltered {α β : Type} (keeps : α → Prop) [DecidablePred keeps] (give : α → List β) (items : List α) :
    (items.filter (keeps ·)).flatMap give = items.flatMap fun item => if keeps item then give item else [] := by
  induction items with
  | nil => rfl
  | cons item rest ih => by_cases kept : keeps item <;> simp [kept, ih]

namespace ScopeTree

theorem namesMapped (tree : ScopeTree) {slot here : Slot} {call : String → Call}
    (changes : ∀ name, tree.slot? (call name) = some here) (brings : ∀ name, (call name).name? = some name)
    (names : List String) : tree.names slot (names.map call) = if here = slot then names else [] := by
  induction names with
  | nil => simp [ScopeTree.names]
  | cons name rest ih =>
    rw [List.map_cons, ← List.singleton_append, namesAppend, ih, namesOne, changes, brings]
    split <;> simp_all

theorem namesFlatMap {α : Type} (tree : ScopeTree) (slot : Slot) (calls : α → List Call) (items : List α) :
    tree.names slot (items.flatMap calls) = items.flatMap fun item => tree.names slot (calls item) := by
  induction items with
  | nil => rfl
  | cons item rest ih => rw [List.flatMap_cons, namesAppend, ih, List.flatMap_cons]

end ScopeTree

theorem Place.names (place : Place) (tree : ScopeTree) (slot : ScopeTree.Slot) :
    tree.names slot place.calls =
      (if .bindings place.id = slot then place.outline.bindings else []) ++
        ((if .bindings (tree.hoistTarget place.id) = slot then place.outline.vars else []) ++
          if .labels place.id = slot then place.outline.labels else []) := by
  have scope : tree.names slot (place.parent.map (.scope place.outline.kind)).toList = [] := by
    cases place.parent <;> rfl
  have marks : tree.names slot (if place.outline.hasEval then [.eval place.id] else []) = [] := by
    split
    · rw [ScopeTree.namesOne]
      split <;> rfl
    · rfl
  simp only [calls, ScopeOutline.ownCalls, ScopeTree.namesAppend, scope, marks, List.nil_append, List.append_nil,
    List.append_assoc]
  rw [tree.namesMapped (fun _ => rfl) (fun _ => rfl), tree.namesMapped (fun _ => rfl) (fun _ => rfl),
    tree.namesMapped (fun _ => rfl) (fun _ => rfl)]

namespace ProgramOutline

variable (program : ProgramOutline)

theorem callsPlaced :
    program.calls = program.globals.map .reference ++ program.places.flatMap Place.calls := by
  rw [calls, places, (program.scope.callsPlaced none ScopeTree.root).1]
  rfl

theorem placesNumbered : program.places.map Place.id = List.range program.places.length := by
  rw [List.range_eq_range']
  exact program.scope.placesNumbered none ScopeTree.root

theorem placesChildren {place : Place} (member : place ∈ program.places) :
    (program.places.filter (·.parent = some place.id)).map Place.outline = place.outline.children :=
  (program.scope.placesChildren none ScopeTree.root nofun).2 place member

theorem placeAmong {place : Place} (member : place ∈ program.places) : ∃ before after,
    program.places = before ++ place :: after ∧ (∀ other ∈ before, other.id < place.id) ∧
      ∀ other ∈ after, place.id < other.id := by
  obtain ⟨before, after, parted⟩ := List.append_of_mem member
  have ordered : (program.places.map Place.id).Pairwise (· < ·) := by
    rw [program.placesNumbered]
    exact List.pairwise_lt_range
  rw [parted, List.map_append, List.map_cons, List.pairwise_append, List.pairwise_cons] at ordered
  obtain ⟨_, ⟨later, _⟩, earlier⟩ := ordered
  refine ⟨before, after, parted, fun other among => ?_, fun other among => ?_⟩
  · exact earlier other.id (List.mem_map_of_mem among) place.id List.mem_cons_self
  · exact later other.id (List.mem_map_of_mem among)

theorem placeAt {place : Place} (member : place ∈ program.places) : program.places[place.id]? = some place := by
  obtain ⟨n, inside, rfl⟩ := List.getElem_of_mem member
  have number : (program.places.map Place.id)[n]? = some n := by
    rw [program.placesNumbered, List.getElem?_range inside]
  rw [List.getElem?_map, List.getElem?_eq_getElem inside] at number
  rw [Option.some.inj number, List.getElem?_eq_getElem inside]

theorem placeUnique {place other : Place} (member : place ∈ program.places) (also : other ∈ program.places)
    (same : place.id = other.id) : place = other := by
  have here := program.placeAt member
  rw [same, program.placeAt also] at here
  exact (Option.some.inj here).symm

theorem placeNumbered {id : Nat} (inside : id < program.places.length) : ∃ place ∈ program.places, place.id = id := by
  have listed : id ∈ program.places.map Place.id := by
    rw [program.placesNumbered]
    exact List.mem_range.mpr inside
  exact List.mem_map.mp listed

theorem placesBelow : ∃ rest, program.places = ⟨ScopeTree.root, none, program.scope⟩ :: rest ∧
    ∀ place ∈ rest, ∃ outer, place.parent = some outer := by
  obtain ⟨globals, internalNames, kind, bindings, vars, labels, hasEval, children⟩ := program
  refine ⟨ScopeOutline.placesIn ScopeTree.root 1 children, rfl, fun place member => ?_⟩
  rcases ScopeOutline.placesInParents children ScopeTree.root 1 place member with around | ⟨outer, around, _⟩
  · exact ⟨_, around⟩
  · exact ⟨outer, around⟩

theorem markPlaced {id : ScopeId} :
    .eval id ∈ program.calls ↔ ∃ place ∈ program.places, place.id = id ∧ place.outline.hasEval = true := by
  have own (place : Place) : .eval id ∈ place.calls ↔ place.id = id ∧ place.outline.hasEval = true := by
    rw [Place.calls, ScopeOutline.ownCalls]
    cases place.parent <;> cases place.outline.hasEval <;> simp [eq_comm]
  simp [callsPlaced, List.mem_flatMap, own]

theorem made : program.calls.filterMap ScopeTree.Call.created? =
    (program.places.drop 1).map fun place => (place.outline.kind, place.parent.getD ScopeTree.root) := by
  obtain ⟨rest, listed, inner⟩ := program.placesBelow
  have silent (names : List String) (call : String → ScopeTree.Call) (none : ∀ name, (call name).created? = none) :
      (names.map call).filterMap ScopeTree.Call.created? = [] := by
    simp [none]
  have own (place : Place) : place.calls.filterMap ScopeTree.Call.created? =
      (place.parent.map fun outer => (place.outline.kind, outer)).toList := by
    have marks : (if place.outline.hasEval then [ScopeTree.Call.eval place.id] else []).filterMap
        ScopeTree.Call.created? = [] := by
      split <;> rfl
    simp only [Place.calls, ScopeOutline.ownCalls, List.filterMap_append, marks]
    rw [silent _ _ fun _ => rfl, silent _ _ fun _ => rfl, silent _ _ fun _ => rfl]
    cases place.parent <;> rfl
  rw [program.callsPlaced, List.filterMap_append, silent _ _ fun _ => rfl, List.filterMap_flatMap, listed]
  simp only [own]
  rw [List.flatMap_cons, List.drop_one, List.tail_cons, List.map_eq_flatMap]
  refine List.flatMap_congr fun place member => ?_
  obtain ⟨outer, around⟩ := inner place member
  rw [around]
  rfl

/-- How a tree shows a program. The names a scope declares are its own and, where it holds variables, those of the
outlines that have it as their nearest holder. -/
structure Depicts (program : ProgramOutline) (tree : ScopeTree) : Prop where
  numbers : program.places.map Place.id = List.range tree.size
  frames : ∀ place ∈ program.places, tree.frame place.id =
    some (place.parent, if place.id = ScopeTree.root then .global else place.outline.kind)
  children : ∀ place ∈ program.places,
    tree.listed Scope.children place.id = (program.places.filter (·.parent = some place.id)).map Place.id ∧
      (program.places.filter (·.parent = some place.id)).map Place.outline = place.outline.children
  marks : ∀ place ∈ program.places, tree.hasEval place.id = true ↔
    ∃ inner, place.outline.Contains inner ∧ inner.hasEval = true
  labels : ∀ place ∈ program.places, tree.listed Scope.labels place.id = place.outline.labels.eraseDups
  hoists : ∀ place ∈ program.places,
    Walk tree.parent tree.holdsVars place.id (some (tree.hoistTarget place.id))
  bindings : ∀ place ∈ program.places, tree.listed Scope.bindings place.id = (place.outline.bindings ++
    (program.places.filter (tree.hoistTarget ·.id = place.id)).flatMap (·.outline.vars)).eraseDups
  ownOnly : ∀ place ∈ program.places, tree.holdsVars place.id = false →
    tree.listed Scope.bindings place.id = place.outline.bindings.eraseDups
  noneLost : ∀ place ∈ program.places, ∀ name ∈ place.outline.vars,
    tree.holdsVars (tree.hoistTarget place.id) = true ∧
      name ∈ tree.listed Scope.bindings (tree.hoistTarget place.id)
  globals : ∀ name, name ∈ tree.globals ↔ name ∈ program.globals

section Tree

variable {program}

theorem treeTells : ScopeTree.Tells program.calls program.tree := .ofAccepted program.accepted

theorem treeSize : program.tree.size = program.places.length := by
  obtain ⟨rest, listed, _⟩ := program.placesBelow
  rw [treeTells.size, program.made, List.length_map, listed]
  rfl

theorem treeFrame {place : Place} (member : place ∈ program.places) : program.tree.frame place.id =
    some (place.parent, if place.id = ScopeTree.root then .global else place.outline.kind) := by
  obtain ⟨rest, listed, inner⟩ := program.placesBelow
  have here := program.placeAt member
  rw [listed] at here
  cases number : place.id with
  | zero =>
    rw [number] at here
    cases Option.some.inj here
    exact treeTells.root
  | succ n =>
    rw [number, List.getElem?_cons_succ] at here
    obtain ⟨outer, around⟩ := inner place (List.mem_of_getElem? here)
    have lower : n.succ ≠ ScopeTree.root := Nat.succ_ne_zero n
    rw [treeTells.made, program.made, listed, List.drop_one, List.tail_cons, List.getElem?_map, here, around,
      if_neg lower, Option.map_some, Option.map_some, around, Option.getD_some]

theorem treeParent {place : Place} (member : place ∈ program.places) :
    program.tree.parent place.id = place.parent := by
  rw [ScopeTree.parentFramed, treeFrame member]
  rfl

theorem treeInside {place : Place} (member : place ∈ program.places) : place.id < program.tree.size := by
  rw [treeSize]
  exact (List.getElem?_eq_some_iff.mp (program.placeAt member)).1

theorem treeChildren (place : Place) :
    program.tree.listed Scope.children place.id =
      (program.places.filter (·.parent = some place.id)).map Place.id := by
  rw [treeTells.children, treeSize, ← program.placesNumbered, List.filter_map]
  congr 1
  exact List.filter_congr fun child among => by rw [Function.comp_apply, treeParent among]

theorem enclosesContains {place inner : Place} (member : place ∈ program.places) (also : inner ∈ program.places)
    (encloses : program.tree.Encloses place.id inner.id) : place.outline.Contains inner.outline := by
  generalize number : inner.id = id at encloses
  induction encloses generalizing inner with
  | here => exact program.placeUnique member also number.symm ▸ .here
  | @up outer id next rest ih =>
    subst number
    have inside : outer < program.places.length := by
      rw [← treeSize]
      exact Nat.lt_trans (treeTells.ordered _ _ next) (ScopeTree.parentInside next)
    obtain ⟨around, among, rfl⟩ := program.placeNumbered inside
    refine .child (ih among rfl) ?_
    rw [← program.placesChildren among]
    refine List.mem_map_of_mem (List.mem_filter.mpr ⟨also, ?_⟩)
    exact decide_eq_true ((treeParent also).symm.trans next)

theorem containsEncloses {place : Place} (member : place ∈ program.places) {outline : ScopeOutline}
    (contains : place.outline.Contains outline) :
    ∃ inner ∈ program.places, inner.outline = outline ∧ program.tree.Encloses place.id inner.id := by
  induction contains with
  | here => exact ⟨place, member, rfl, .here⟩
  | child _ child ih =>
    obtain ⟨around, among, rfl, encloses⟩ := ih
    rw [← program.placesChildren among] at child
    obtain ⟨inner, found, rfl⟩ := List.mem_map.mp child
    obtain ⟨also, next⟩ := List.mem_filter.mp found
    refine ⟨inner, also, rfl, .up ?_ encloses⟩
    rw [treeParent also]
    exact of_decide_eq_true next

theorem treeMarks {place : Place} (member : place ∈ program.places) : program.tree.hasEval place.id = true ↔
    ∃ inner, place.outline.Contains inner ∧ inner.hasEval = true := by
  rw [treeTells.eval]
  constructor
  · rintro ⟨scope, marked, encloses⟩
    obtain ⟨inner, also, rfl, dynamic⟩ := program.markPlaced.mp marked
    exact ⟨inner.outline, enclosesContains member also encloses, dynamic⟩
  · rintro ⟨outline, contains, dynamic⟩
    obtain ⟨inner, also, rfl, encloses⟩ := containsEncloses member contains
    exact ⟨inner.id, program.markPlaced.mpr ⟨inner, also, rfl, dynamic⟩, encloses⟩

theorem treeNames (slot : ScopeTree.Slot) : program.tree.names slot program.calls =
    (if .globals = slot then program.globals else []) ++
      program.places.flatMap fun place => program.tree.names slot place.calls := by
  rw [program.callsPlaced, ScopeTree.namesAppend, ScopeTree.namesFlatMap,
    program.tree.namesMapped (fun _ => rfl) (fun _ => rfl)]

/-- The names that go to one scope alone stand where its outline does. -/
theorem onlyHere {place : Place} (member : place ∈ program.places) (names : Place → List String) :
    (program.places.flatMap fun other => if other.id = place.id then names other else []) = names place := by
  obtain ⟨before, after, parted, earlier, later⟩ := program.placeAmong member
  have elsewhere {others : List Place} (apart : ∀ other ∈ others, other.id ≠ place.id) :
      (others.flatMap fun other => if other.id = place.id then names other else []) = [] :=
    List.flatMap_eq_nil_iff.mpr fun other among => if_neg (apart other among)
  rw [parted, List.flatMap_append, List.flatMap_cons, if_pos rfl,
    elsewhere fun other among => Nat.ne_of_lt (earlier other among),
    elsewhere fun other among => Nat.ne_of_gt (later other among), List.append_nil, List.nil_append]

theorem treeLabels {place : Place} (member : place ∈ program.places) :
    program.tree.listed Scope.labels place.id = place.outline.labels.eraseDups := by
  rw [treeTells.labels, treeNames]
  simp only [Place.names, reduceCtorEq, if_false, List.nil_append, ScopeTree.Slot.labels.injEq]
  rw [onlyHere member]

theorem treeBindings {place : Place} (member : place ∈ program.places) :
    program.tree.listed Scope.bindings place.id = (place.outline.bindings ++
      (program.places.filter (program.tree.hoistTarget ·.id = place.id)).flatMap (·.outline.vars)).eraseDups := by
  obtain ⟨before, after, parted, earlier, later⟩ := program.placeAmong member
  rw [treeTells.bindings, treeNames, flatMapFiltered, parted]
  simp only [Place.names, reduceCtorEq, if_false, List.nil_append, List.append_nil, ScopeTree.Slot.bindings.injEq]
  rw [List.flatMap_append, List.flatMap_append, List.flatMap_cons, List.flatMap_cons, if_pos rfl]
  -- What comes before lies around it or beside it, so no variable of those is hoisted to here.
  have away {other : Place} (among : other ∈ before) : program.tree.hoistTarget other.id ≠ place.id :=
    Nat.ne_of_lt (Nat.lt_of_le_of_lt (program.tree.hoistsOutward other.id) (earlier other among))
  have skipped (give : Place → List String) (none : ∀ other ∈ before, give other = []) : before.flatMap give = [] :=
    List.flatMap_eq_nil_iff.mpr none
  rw [skipped _ fun other among => by rw [if_neg (Nat.ne_of_lt (earlier other among)), if_neg (away among)]; rfl,
    skipped _ fun other among => if_neg (away among), List.nil_append, List.nil_append, List.append_assoc]
  congr 3
  exact List.flatMap_congr fun other among => by
    rw [if_neg (Nat.ne_of_gt (later other among)), List.nil_append]

theorem treeHoists {place : Place} (member : place ∈ program.places) :
    Walk program.tree.parent program.tree.holdsVars place.id (some (program.tree.hoistTarget place.id)) :=
  ScopeTree.hoistEnds (ScopeTree.acceptedRooted program.accepted) treeTells.ordered (treeInside member)

end Tree

theorem treeDepicts (program : ProgramOutline) : Depicts program program.tree := by
  constructor
  case numbers => rw [program.placesNumbered, treeSize]
  case frames => exact fun place => treeFrame
  case children => exact fun place member => ⟨treeChildren place, program.placesChildren member⟩
  case marks => exact fun place => treeMarks
  case labels => exact fun place => treeLabels
  case hoists => exact fun place => treeHoists
  case bindings => exact fun place => treeBindings
  case ownOnly =>
    intro place member blockLike
    rw [treeBindings member, List.filter_eq_nil_iff.mpr, List.flatMap_nil, List.append_nil]
    intro other among
    have holds := walkFinds (treeHoists among)
    rw [decide_eq_true_eq]
    intro same
    rw [same, blockLike] at holds
    cases holds
  case noneLost =>
    intro place member name among
    refine ⟨walkFinds (treeHoists member), ?_⟩
    have inside : program.tree.hoistTarget place.id < program.places.length := by
      rw [← treeSize]
      exact ScopeTree.hoistInside (treeInside member)
    obtain ⟨target, found, same⟩ := program.placeNumbered inside
    rw [← same, treeBindings found, List.mem_eraseDups, List.mem_append, List.mem_flatMap]
    exact .inr ⟨place, List.mem_filter.mpr ⟨member, by simp [same]⟩, among⟩
  case globals =>
    intro name
    rw [treeTells.globals, treeNames]
    simp [Place.names, NameSet.ofNames, Std.TreeSet.mem_ofList]

end ProgramOutline

end Pseudonym
