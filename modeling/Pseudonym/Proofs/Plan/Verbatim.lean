import Pseudonym.Proofs.Plan.Site
import Pseudonym.Proofs.Scope.Eval

/-! Plans that keep all names. Such a plan asks for helpers only: scopes are copied, and all that they declare has
been claimed, labels with it, before the first helper gets a name. -/
namespace Pseudonym
namespace Plan
open Session

def unrenamed (names : List String) : Renaming := names.map fun name => (name, name)

def verbatim (site : ScopeId × Scope) : ScopeRenames :=
  ⟨site.1, site.2.kind, site.2.parent, unrenamed site.2.bindings, unrenamed site.2.labels⟩

theorem lookupUnrenamed {names : List String} {name new : String} :
    (unrenamed names).lookup name = some new ↔ new = name ∧ name ∈ names := by
  have keys : (unrenamed names).map Prod.fst = names := (List.map_map ..).trans (List.map_id names)
  have same {other : String} (found : (unrenamed names).lookup name = some other) : other = name := by
    obtain ⟨twice, _, entry⟩ := List.mem_map.mp (lookupMember found)
    cases entry
    rfl
  constructor
  · intro found
    exact ⟨same found, keys ▸ lookupSome.mp ⟨new, found⟩⟩
  · rintro ⟨rfl, member⟩
    obtain ⟨other, found⟩ := lookupSome.mpr (keys.symm ▸ member : new ∈ (unrenamed names).map Prod.fst)
    rwa [same found] at found

/-- Among scopes that keep the name each that declares it gives the same answer, so it need not be the nearest. -/
theorem findsVerbatim {scopes : List ScopeId} {look : ScopeId → Option String} {name : String} {around : ScopeId}
    (kept : ∀ scope ∈ scopes, ∀ new, look scope = some new → new = name) (seen : around ∈ scopes)
    (here : look around = some name) : scopes.findSome? look = some name := by
  cases found : scopes.findSome? look with
  | none => simp [List.findSome?_eq_none_iff.mp found around seen] at here
  | some new =>
    obtain ⟨nearest, member, renamed⟩ := List.exists_of_findSome?_eq_some found
    rw [kept nearest member new renamed]

variable {σ : Type} [RandomSource σ] {tree : ScopeTree} {generator after : Generator σ} {options : PlanOptions}
  {result : RenamePlan}

theorem keptBindings (options : PlanOptions) (id : ScopeId) (scope : Scope) (generator : Generator σ)
    (names : List String) :
    assign (requestBinding .keepOriginal options id scope) generator names = (.ok (unrenamed names), generator) := by
  induction names with
  | nil => rfl
  | cons name rest ih =>
    have kept : requestBinding .keepOriginal options id scope generator name = (.ok name, generator) := rfl
    rw [assign, kept]
    dsimp only
    rw [ih]
    rfl

theorem keptLabels (options : PlanOptions) (keep : generator.kind = .keepOriginal) (labels : List String) :
    assign (requestLabel options) generator labels = (.ok (unrenamed labels), generator.preserveAll labels) := by
  induction labels generalizing generator with
  | nil => rfl
  | cons label rest ih =>
    have kept : requestLabel options generator label = (.ok label, generator.preserve label) := by
      simp [requestLabel, Generator.forLabel, keep]
    have still : (generator.preserve label).kind = .keepOriginal := keep
    rw [assign, kept]
    dsimp only
    rw [ih still]
    rfl

theorem keptScopes (options : PlanOptions) (keep : generator.kind = .keepOriginal)
    (places : List (ScopeId × Scope)) :
    planScopes .keepOriginal options generator places =
      (.ok (places.map verbatim), generator.preserveAll (places.flatMap (·.2.labels))) := by
  induction places generalizing generator with
  | nil => rfl
  | cons site rest ih =>
    have still : (generator.preserveAll site.2.labels).kind = .keepOriginal :=
      (generator.preserveAllKind site.2.labels).trans keep
    have all : generator.preserveAll ((site :: rest).flatMap (·.2.labels)) =
        (generator.preserveAll site.2.labels).preserveAll (rest.flatMap (·.2.labels)) := by
      rw [List.flatMap_cons]
      exact List.foldl_append
    rw [planScopesSteps, planScopeSteps, keptBindings, all]
    simp only [andThen]
    rw [keptLabels options keep]
    dsimp only
    rw [ih still]
    rfl

/-- What the program declares and what its user reserves, all of it claimed before any helper. -/
def spokenFor (options : PlanOptions) (tree : ScopeTree) : List String :=
  preserved .keepOriginal options tree ++ (numbered tree).flatMap (·.2.labels)

theorem keptPlan (keep : generator.kind = .keepOriginal) (planned : (plan tree generator options).1 = .ok result) :
    result.scopes = (numbered tree).map verbatim ∧ ∃ after,
      assign (requestHelper options) (generator.preserveAll (spokenFor options tree)) options.internalNames.eraseDups =
        (.ok result.internal, after) := by
  obtain ⟨after, whole⟩ : ∃ after, plan tree generator options = (.ok result, after) := ⟨_, Prod.ext planned rfl⟩
  have ready := (generator.preserveAllKind (preserved .keepOriginal options tree)).trans keep
  have claimed : generator.preserveAll (spokenFor options tree) =
      (generator.preserveAll (preserved .keepOriginal options tree)).preserveAll
        ((numbered tree).flatMap (·.2.labels)) := List.foldl_append
  rw [planSteps, keep, keptScopes options ready, andThenOk] at whole
  obtain ⟨scopes, middle, copied, whole⟩ := whole
  cases copied
  obtain ⟨internal, last, assigned, done⟩ := andThenOk.mp whole
  cases done
  exact ⟨rfl, _, claimed ▸ assigned⟩

theorem helpersFresh {names : List String} {table : Renaming}
    (assigned : assign (requestHelper options) generator names = (.ok table, after)) :
    (table.map Prod.snd).Nodup ∧ ∀ entry ∈ table, generator.ledger.accepts entry.2 = true := by
  have follows := requestsFollow generator.kind (fun _ => Call.global options.nameLength) generator names
  change Follows _ (assign (requestHelper options) generator names) _ at follows
  have chain := (followChain generator (names.map fun _ => .global options.nameLength)).1
  rw [assigned] at follows
  generalize follow generator (names.map fun _ => .global options.nameLength) = progress at follows chain
  cases follows with
  | done named =>
    have issued := named.issued
    rw [allMade generator.kind (fun _ => Call.global options.nameLength) fun _ => trivial] at issued
    obtain ⟨distinct, fresh⟩ := chain.issuedNodup
    rw [issued] at distinct fresh
    exact ⟨distinct, fun entry member => fresh _ (List.mem_map_of_mem member)⟩

theorem copiedNames (copied : result.scopes = (numbered tree).map verbatim) {id : ScopeId} {name new : String} :
    (result.newName id name = some new ↔ new = name ∧ name ∈ tree.declared id) ∧
      (result.newLabel id name = some new ↔ new = name ∧ name ∈ tree.labelled id) := by
  have here : result.scopes[id]? = tree.scopes[id]?.map fun scope => verbatim (id, scope) := by
    rw [copied, List.getElem?_map, numberedAt, Option.map_map]
    rfl
  rw [RenamePlan.newName, RenamePlan.newLabel, ScopeTree.declared, ScopeTree.labelled, here]
  cases tree.scopes[id]? with
  | none => simp
  | some scope => exact ⟨lookupUnrenamed, lookupUnrenamed⟩

theorem copiedUnrenamed (copied : result.scopes = (numbered tree).map verbatim) : result.renamedCount = 0 := by
  rw [RenamePlan.renamedCount, List.countP_eq_zero]
  intro entry member
  obtain ⟨renames, among, inside⟩ := List.mem_flatMap.mp member
  rw [copied] at among
  obtain ⟨site, _, rfl⟩ := List.mem_map.mp among
  have same : entry.1 = entry.2 := by
    rcases List.mem_append.mp inside with binding | label
    · obtain ⟨name, _, rfl⟩ := List.mem_map.mp binding
      rfl
    · obtain ⟨name, _, rfl⟩ := List.mem_map.mp label
      rfl
  simp [same]

theorem spokenForAll {id : ScopeId} {name : String} (declared : name ∈ tree.declared id ∨ name ∈ tree.labelled id) :
    name ∈ spokenFor options tree := by
  cases present : tree.scopes[id]? with
  | none => simp [ScopeTree.declared, ScopeTree.labelled, present] at declared
  | some scope =>
    have place := (numberedMember tree id scope).mpr present
    simp only [ScopeTree.declared, ScopeTree.labelled, present, Option.map_some, Option.getD_some] at declared
    rcases declared with binding | label
    · have kept : name ∈ scope.bindings.filter (keeps .keepOriginal options id scope) :=
        List.mem_filter.mpr ⟨binding, rfl⟩
      exact List.mem_append_left _ (List.mem_append_right _ (List.mem_flatMap.mpr ⟨_, place, kept⟩))
    · exact List.mem_append_right _ (List.mem_flatMap.mpr ⟨_, place, label⟩)

/-- A plan that leaves the source as it is, with helpers that meet none of its names. -/
structure LeavesSource (tree : ScopeTree) (ledger : Ledger) (options : PlanOptions) (result : RenamePlan) : Prop where
  unrenamed : result.renamedCount = 0
  resolves : ∀ id around name, tree.Encloses around id → name ∈ tree.declared around →
    result.resolve id name = some name
  resolvesLabels : ∀ id around label, tree.Encloses around id → label ∈ tree.labelled around →
    result.resolveLabel id label = some label
  distinct : (result.internal.map Prod.snd).Nodup
  apart : ∀ entry ∈ result.internal, (∀ id, entry.2 ∉ tree.declared id ∧ entry.2 ∉ tree.labelled id) ∧
    entry.2 ∉ tree.globals ∧ entry.2 ∉ options.reserved ∧ entry.2 ∉ ledger.reserved

theorem keptPlanLeavesSource {calls : List ScopeTree.Call} (accepted : ScopeTree.empty.AcceptsAll calls)
    (keep : generator.kind = .keepOriginal)
    (planned : (plan (ScopeTree.empty.extendAll calls) generator options).1 = .ok result) :
    LeavesSource (ScopeTree.empty.extendAll calls) generator.ledger options result := by
  have ordered := (ScopeTree.acceptedEvalClosed accepted).ordered
  have complete := (planSeparates planned).complete
  generalize ScopeTree.empty.extendAll calls = tree at ordered complete planned ⊢
  obtain ⟨copied, after, assigned⟩ := keptPlan keep planned
  obtain ⟨distinct, fresh⟩ := helpersFresh assigned
  rw [(generator.preserveAllKeeps _).1] at fresh
  constructor
  case unrenamed => exact copiedUnrenamed copied
  case resolves =>
    intro id around name encloses declared
    rw [resolvedAlong, complete.ancestors]
    exact findsVerbatim (fun _ _ _ found => ((copiedNames copied).1.mp found).1)
      ((ScopeTree.memAncestors ordered).mpr encloses) ((copiedNames copied).1.mpr ⟨rfl, declared⟩)
  case resolvesLabels =>
    intro id around label encloses declared
    have along : result.resolveLabel id label = (lineage result.parent id).findSome? (result.newLabel · label) := rfl
    rw [along, complete.ancestors]
    exact findsVerbatim (fun _ _ _ found => ((copiedNames copied).2.mp found).1)
      ((ScopeTree.memAncestors ordered).mpr encloses) ((copiedNames copied).2.mpr ⟨rfl, declared⟩)
  case distinct => exact distinct
  case apart =>
    intro entry member
    obtain ⟨_, unreserved, unclaimed⟩ := Ledger.acceptsIff.mp (fresh entry member)
    have unspoken : entry.2 ∉ spokenFor options tree := fun spoken =>
      unclaimed (Ledger.memClaimAll.mpr (.inl spoken))
    refine ⟨fun id => ⟨fun declared => ?_, fun labelled => ?_⟩, fun unbound => ?_, fun reserved => ?_, ?_⟩
    · exact unspoken (spokenForAll (.inl declared))
    · exact unspoken (spokenForAll (.inr labelled))
    · have listed := Std.TreeSet.mem_toList.mpr unbound
      exact unspoken (List.mem_append_left _ (List.mem_append_left _ (List.mem_append_left _ listed)))
    · exact unspoken (List.mem_append_left _ (List.mem_append_left _ (List.mem_append_right _ reserved)))
    · exact (Ledger.Grows.claimAll generator.ledger _).reserved ▸ unreserved

/-- The first names that helpers would get are a label of the program and a name its user reserves. -/
def labelLog : List ScopeTree.Call :=
  [.reference "window", .binding "main" 0, .scope .function 0, .label "_271027" 1, .binding "main" 1,
    .scope .block 1, .variable "late" 2]

def keeper : Generator Script :=
  ⟨(Ledger.empty.withReserved ["_2710271"]).withMaxAttempts 1, .lowest, .keepOriginal []⟩

def keeperOptions : PlanOptions := {renameGlobals := true, internalNames := ["helper", "other", "helper"]}

def keeperPlan : RenamePlan :=
  ⟨.keepOriginal, (numbered (ScopeTree.empty.extendAll labelLog)).map verbatim,
    [("helper", "_27102710"), ("other", "_271027102")]⟩

theorem labelLogLeftAlone :
    (ScopeTree.empty.AcceptsAll labelLog ∧ keeper.kind = .keepOriginal ∧
        (plan (ScopeTree.empty.extendAll labelLog) keeper keeperOptions).1 = .ok keeperPlan) ∧
      LeavesSource (ScopeTree.empty.extendAll labelLog) keeper.ledger keeperOptions keeperPlan := by
  have accepted : ScopeTree.empty.AcceptsAll labelLog := by decide +kernel
  have planned := toOptionIff.mp (show (plan (ScopeTree.empty.extendAll labelLog) keeper
    keeperOptions).1.toOption = some keeperPlan by decide +kernel)
  exact ⟨⟨accepted, rfl, planned⟩, keptPlanLeavesSource accepted rfl planned⟩

end Plan
end Pseudonym
