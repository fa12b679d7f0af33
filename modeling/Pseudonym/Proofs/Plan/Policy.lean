import Pseudonym.Proofs.Plan.Kept

/-! Which places keep their names, and what the others get. A plan names the places of its program and no others;
where a name may not change it does not, and every other place gets a name that was not there before, for itself
alone. -/
namespace Pseudonym

namespace Plan.Site

def name : Site → String
  | .binding _ name | .label _ name | .helper name => name

def Declared (options : PlanOptions) (tree : ScopeTree) : Site → Prop
  | .binding id name => name ∈ tree.declared id
  | .label id name => name ∈ tree.labelled id
  | .helper name => name ∈ options.internalNames

/-- The keep rule. Nothing but the strategy keeps a label, and a helper has no name to keep. -/
def Keeps (kind : Kind) (options : PlanOptions) (tree : ScopeTree) : Site → Prop
  | .binding id name => kind = .keepOriginal ∨ tree.hasEval id = true ∨ name ∈ options.reserved ∨
      (id = ScopeTree.root ∧ options.renameGlobals = false)
  | .label _ _ => kind = .keepOriginal
  | .helper _ => False

/-- Whether a place is outermost, so that its new name carries the prefix. -/
def Outermost : Site → Prop
  | .binding id _ => id = ScopeTree.root
  | .label _ _ => False
  | .helper _ => True

end Plan.Site

namespace Plan
open Session

def Preserved (kind : Kind) (options : PlanOptions) (tree : ScopeTree) (name : String) : Prop :=
  name ∈ tree.globals ∨ name ∈ options.reserved ∨
    ∃ id, name ∈ tree.declared id ∧ (Site.binding id name).Keeps kind options tree

structure FollowsPolicy (kind : Kind) (ledger : Ledger) (options : PlanOptions) (tree : ScopeTree)
    (result : RenamePlan) : Prop where
  entries : (result.scopes.map fun renames => (renames.scope, renames.kind, renames.parent,
      renames.bindings.map Prod.fst, renames.labels.map Prod.fst)) =
    (numbered tree).map fun (id, scope) => (id, scope.kind, scope.parent, scope.bindings, scope.labels)
  once : (result.internal.map Prod.fst).Nodup ∧ ∀ renames ∈ result.scopes,
    (renames.bindings.map Prod.fst).Nodup ∧ (renames.labels.map Prod.fst).Nodup
  named : ∀ site, (∃ new, result.nameAt site = some new) ↔ site.Declared options tree
  kept : ∀ site new, result.nameAt site = some new → site.Keeps kind options tree → new = site.name
  fresh : ∀ site new, result.nameAt site = some new → ¬site.Keeps kind options tree →
    new ∉ ledger.claimed ∧ ¬Preserved kind options tree new
  distinct : ∀ site other new, result.nameAt site = some new → result.nameAt other = some new →
    ¬site.Keeps kind options tree → ¬other.Keeps kind options tree → site = other
  leads : ∀ site new, result.nameAt site = some new → ¬site.Keeps kind options tree → site.Outermost →
    ledger.globalPrefix.toList <+: new.toList

section Keeping

variable {kind : Kind} {options : PlanOptions} {tree : ScopeTree} {id : ScopeId} {scope : Scope} {name : String}

theorem keepsIff (present : tree.scopes[id]? = some scope) :
    keeps kind options id scope name = true ↔ (Site.binding id name).Keeps kind options tree := by
  simp [keeps, Site.Keeps, ScopeTree.hasEval, present, or_assoc]

theorem coversEntries {places : List (ScopeId × Scope)} {tables : List ScopeRenames}
    (covers : List.Forall₂ (Covers kind options) places tables) :
    (tables.map fun renames => (renames.scope, renames.kind, renames.parent,
        renames.bindings.map Prod.fst, renames.labels.map Prod.fst)) =
      places.map fun (id, scope) => (id, scope.kind, scope.parent, scope.bindings, scope.labels) := by
  induction covers with
  | nil => rfl
  | cons here rest ih =>
    rw [List.map_cons, List.map_cons, ih, here.scope, here.sameKind, here.parent, here.bindings, here.labels]

theorem preservedIff : name ∈ preserved kind options tree ↔ Preserved kind options tree name := by
  have kept : name ∈ ((numbered tree).flatMap fun (id, scope) => scope.bindings.filter (keeps kind options id scope)) ↔
      ∃ id, name ∈ tree.declared id ∧ (Site.binding id name).Keeps kind options tree := by
    constructor
    · intro member
      obtain ⟨⟨id, scope⟩, place, kept⟩ := List.mem_flatMap.mp member
      have present := (numberedMember ..).mp place
      obtain ⟨declared, keep⟩ := List.mem_filter.mp kept
      exact ⟨id, by simpa [ScopeTree.declared, present] using declared, (keepsIff present).mp keep⟩
    · rintro ⟨id, declared, keep⟩
      cases present : tree.scopes[id]? with
      | none => simp [ScopeTree.declared, present] at declared
      | some scope =>
        have inside : name ∈ scope.bindings := by simpa [ScopeTree.declared, present] using declared
        have kept := List.mem_filter.mpr ⟨inside, (keepsIff present).mpr keep⟩
        exact List.mem_flatMap.mpr ⟨_, (numberedMember ..).mpr present, kept⟩
  rw [preserved, List.mem_append, List.mem_append, Std.TreeSet.mem_toList, kept, Preserved, or_assoc]

end Keeping

variable {σ : Type} [RandomSource σ] {tree : ScopeTree} {generator : Generator σ} {options : PlanOptions}
  {result : RenamePlan}

/-- A named place keeps its name by the rule, or its name was made for it. -/
theorem siteCases (planned : (plan tree generator options).1 = .ok result) {site : Site} {new : String}
    (named : result.nameAt site = some new) :
    (site.Keeps generator.kind options tree ∧ new = site.name) ∨
      (¬site.Keeps generator.kind options tree ∧ (site, new) ∈ made generator.kind options tree result) := by
  have complete := (planSeparates planned).complete
  cases site with
  | binding id name =>
    obtain ⟨scope, present, _, ⟨keep, same⟩ | ⟨changes, made⟩⟩ := complete.bindingCases named
    · exact .inl ⟨(keepsIff present).mp keep, same⟩
    · exact .inr ⟨fun keep => Bool.eq_false_iff.mp changes ((keepsIff present).mpr keep), made⟩
  | label id label => exact labelCases planned named
  | helper name =>
    exact .inr ⟨id, List.mem_append_right _ (List.mem_map.mpr ⟨_, lookupMember named, rfl⟩)⟩

def Leads (kind : Kind) (options : PlanOptions) (tree : ScopeTree) (lead : String) (site : Site) (new : String) :
    Prop :=
  ¬site.Keeps kind options tree → site.Outermost → lead.toList <+: new.toList

theorem bindingLeads {kind : Kind} {lead : String} {site : ScopeId × Scope} (member : site ∈ numbered tree) :
    Gives (fun current : Generator σ => current.ledger.globalPrefix = lead)
      (requestBinding kind options site.1 site.2) (Leads kind options tree lead <| .binding site.1 ·) := by
  intro current name same
  obtain ⟨id, scope⟩ := site
  have present := (numberedMember ..).mp member
  unfold requestBinding
  split
  · next keep => exact ⟨same, fun _ _ changes => absurd ((keepsIff present).mp keep) changes⟩
  · split
    · refine ⟨(current.globalGrows options.nameLength).1.globalPrefix.trans same, fun new answer _ _ => ?_⟩
      exact same ▸ current.globalLeads options.nameLength new answer
    · next inner =>
      have answers := current.nextAnswers options.nameLength
      exact ⟨answers.grows.globalPrefix.trans same, fun _ _ _ outermost => absurd outermost inner⟩

theorem labelLeads {kind : Kind} {lead : String} (id : ScopeId) :
    Gives (fun current : Generator σ => current.ledger.globalPrefix = lead) (requestLabel options)
      (Leads kind options tree lead <| .label id ·) := by
  intro current label same
  have sound := (recordSound current (.label label options.nameLength)).1
  exact ⟨sound.grows.globalPrefix.trans same, fun _ _ _ outermost => outermost.elim⟩

theorem helperLeads {kind : Kind} {lead : String} :
    Gives (fun current : Generator σ => current.ledger.globalPrefix = lead) (requestHelper options)
      (Leads kind options tree lead <| .helper ·) := by
  intro current helper same
  refine ⟨(current.globalGrows options.nameLength).1.globalPrefix.trans same, fun new answer _ _ => ?_⟩
  exact same ▸ current.globalLeads options.nameLength new answer

theorem planLeads (planned : (plan tree generator options).1 = .ok result) {site : Site} {new : String}
    (named : result.nameAt site = some new) :
    Leads generator.kind options tree generator.ledger.globalPrefix site new := by
  have ready : (generator.preserveAll (preserved generator.kind options tree)).ledger.globalPrefix =
      generator.ledger.globalPrefix := by
    rw [(generator.preserveAllKeeps _).1]
    exact (Ledger.Grows.claimAll generator.ledger _).globalPrefix
  exact planGives (fun site member => bindingLeads member) labelLeads helperLeads ready planned named

theorem planFollowsPolicy {calls : List ScopeTree.Call}
    (planned : (plan (ScopeTree.empty.extendAll calls) generator options).1 = .ok result) :
    FollowsPolicy generator.kind generator.ledger options (ScopeTree.empty.extendAll calls) result := by
  have listed := ScopeTree.listedOnce calls
  generalize ScopeTree.empty.extendAll calls = tree at listed planned ⊢
  have separates := planSeparates planned
  have complete := separates.complete
  constructor
  case entries => exact coversEntries complete.scopes
  case once =>
    refine ⟨complete.internal ▸ Word.eraseDupsNodup _, fun renames member => ?_⟩
    obtain ⟨id, here⟩ := List.mem_iff_getElem?.mp member
    rcases complete.scopeAt id with ⟨_, missing⟩ | ⟨scope, found, present, planned, covers, _⟩
    · cases missing.symm.trans here
    · cases planned.symm.trans here
      obtain ⟨bindings, labels⟩ := listed id
      simp only [ScopeTree.listed, present, Option.map_some, Option.getD_some] at bindings labels
      exact ⟨covers.bindings ▸ bindings, covers.labels ▸ labels⟩
  case named =>
    intro site
    cases site with
    | binding id name => exact complete.declaredIff.symm
    | label id label => exact complete.labelledIff.symm
    | helper name =>
      have keys : (∃ new, result.internal.lookup name = some new) ↔ name ∈ result.internal.map Prod.fst := lookupSome
      rw [complete.internal, List.mem_eraseDups] at keys
      exact keys
  case kept =>
    intro site new named keeps
    rcases siteCases planned named with ⟨_, same⟩ | ⟨changes, _⟩
    · exact same
    · exact absurd keeps changes
  case fresh =>
    intro site new named changes
    rcases siteCases planned named with ⟨keeps, _⟩ | ⟨_, made⟩
    · exact absurd keeps changes
    · have unclaimed := (Ledger.acceptsIff.mp ((planIssues planned).2.2 _ made)).2.2
      rw [Ledger.memClaimAll, not_or, preservedIff] at unclaimed
      exact ⟨unclaimed.2, unclaimed.1⟩
  case distinct =>
    intro site other new one two changes again
    rcases siteCases planned one with ⟨keeps, _⟩ | ⟨_, made⟩
    · exact absurd keeps changes
    · rcases siteCases planned two with ⟨keeps, _⟩ | ⟨_, same⟩
      · exact absurd keeps again
      · exact separates.sameSite made same
  case leads => exact fun site new named => planLeads planned named

def moduleLog : List ScopeTree.Call :=
  [.binding "main" 0, .binding "exports" 0, .scope .function 0, .binding "main" 1, .label "main" 1]

def prefixer : Generator Script := ⟨(Ledger.empty.withPrefix "g_").claim "b", .lowest, .mangled 0⟩

def moduleOptions : PlanOptions :=
  {renameGlobals := true, reserved := ["exports"], internalNames := ["helper", "helper"]}

def modulePlan : RenamePlan :=
  ⟨.mangled, [⟨0, .global, none, [("main", "g_a"), ("exports", "exports")], []⟩,
    ⟨1, .function, some 0, [("main", "c")], [("main", "d")]⟩], [("helper", "g_e")]⟩

theorem modulePolicy :
    (plan (ScopeTree.empty.extendAll moduleLog) prefixer moduleOptions).1 = .ok modulePlan ∧
      FollowsPolicy .mangled prefixer.ledger moduleOptions (ScopeTree.empty.extendAll moduleLog) modulePlan := by
  have planned := toOptionIff.mp (show (plan (ScopeTree.empty.extendAll moduleLog) prefixer
    moduleOptions).1.toOption = some modulePlan by decide +kernel)
  exact ⟨planned, planFollowsPolicy planned⟩

end Plan
end Pseudonym
