import Pseudonym.Proofs.Plan.Verbatim
import Pseudonym.Proofs.Session.Run

/-! What a plan keeps. A reserved name is given to nothing but itself, and a binding of that name keeps it;
a label of that name keeps it only where all names are kept, since labels are never asked what they are called. -/
namespace Pseudonym

theorem Generator.createKind {σ : Type} [RandomSource σ] {kind : Kind} {ledger : Ledger} {source : σ}
    {entries : List String} {order : DrawOrder} {fresh : Generator σ}
    (built : Generator.create kind ledger source entries order = .ok fresh) : fresh.kind = kind := by
  cases kind with
  | dictionary =>
    rw [create] at built
    cases usable : WordPool.ofEntries? entries order with
    | none => simp [usable] at built
    | some pool =>
      simp only [usable] at built
      cases built
      rfl
  | hexadecimal => cases built; rfl
  | keepOriginal => cases built; rfl
  | mangled => cases built; rfl
  | mangledShuffled => cases built; rfl

theorem Generator.ofOptionsKind {σ : Type} [RandomSource σ] {options : NameOptions} {source : σ}
    {fresh : Generator σ} (built : Generator.ofOptions options source = .ok fresh) :
    fresh.kind.token = options.generator := by
  unfold ofOptions at built
  cases known : Kind.ofToken? options.generator with
  | none => simp [known] at built
  | some kind =>
    simp only [known] at built
    cases valid : options.validate with
    | error cause => simp [valid, bind, Except.bind] at built
    | ok =>
      simp only [valid, bind, Except.bind] at built
      rw [createKind built]
      exact Kind.tokenOfToken known

namespace Plan
open Session

namespace Complete

variable {kind : Kind} {options : PlanOptions} {tree : ScopeTree} {result : RenamePlan}

theorem keptName (complete : Complete kind options tree result) {id : ScopeId} {scope : Scope} {name : String}
    (present : tree.scopes[id]? = some scope) (declared : name ∈ tree.declared id)
    (keep : keeps kind options id scope name = true) : result.newName id name = some name := by
  obtain ⟨new, renamed⟩ := complete.declaredIff.mp declared
  rcases complete.scopeAt id with ⟨absent, _⟩ | ⟨found, renames, here, planned, covers, _⟩
  · cases absent.symm.trans present
  · cases here.symm.trans present
    have entry : renames.bindings.lookup name = some new := by simpa [RenamePlan.newName, planned] using renamed
    have same : new = name := covers.kept (name, new) (lookupMember entry) keep
    rw [renamed, same]

end Complete

theorem Separates.neverReserved {kind : Kind} {options : PlanOptions} {tree : ScopeTree} {result : RenamePlan}
    (separates : Separates kind options tree result) {site : Site} {new : String}
    (made : (site, new) ∈ made kind options tree result) : new ∉ options.reserved := by
  intro reserved
  exact separates.apart _ made (List.mem_append_left _ (List.mem_append_right _ reserved))

theorem labelCases {σ : Type} [RandomSource σ] {tree : ScopeTree} {generator : Generator σ} {options : PlanOptions}
    {result : RenamePlan} (planned : (plan tree generator options).1 = .ok result) {id : ScopeId}
    {label new : String} (renamed : result.newLabel id label = some new) :
    (generator.kind = .keepOriginal ∧ new = label) ∨
      (generator.kind ≠ .keepOriginal ∧ (Site.label id label, new) ∈ made generator.kind options tree result) := by
  by_cases keep : generator.kind = .keepOriginal
  · exact .inl ⟨keep, ((copiedNames (keptPlan keep planned).1).2.mp renamed).1⟩
  · rcases (planSeparates planned).complete.scopeAt id with ⟨_, missing⟩ | ⟨scope, renames, _, found, _, paired⟩
    · simp [RenamePlan.newLabel, missing] at renamed
    · have member : (label, new) ∈ renames.labels :=
        lookupMember (by simpa [RenamePlan.newLabel, found] using renamed)
      refine .inr ⟨keep, List.mem_append_left _ (List.mem_flatMap.mpr ⟨_, paired, ?_⟩)⟩
      refine List.mem_append_right _ ?_
      rw [if_neg keep]
      exact List.mem_map_of_mem member

structure Spares (options : NameOptions) (tree : ScopeTree) (result : RenamePlan) : Prop where
  bindings : ∀ id, ∀ name ∈ options.reserved, name ∈ tree.declared id → result.newName id name = some name
  labels : ∀ id, ∀ name ∈ options.reserved, name ∈ tree.labelled id →
    ∃ new, result.newLabel id name = some new ∧ (new = name ↔ options.generator = Kind.keepOriginal.token)
  givenBindings : ∀ id name new, result.newName id name = some new → new ∈ options.reserved → new = name
  givenLabels : ∀ id label new, result.newLabel id label = some new → new ∈ options.reserved → new = label
  helpers : ∀ entry ∈ result.internal, entry.2 ∉ options.reserved

theorem reservedNamesSpared {σ : Type} [RandomSource σ] {options : NameOptions} {source : σ}
    {fresh : Generator σ} (built : Generator.ofOptions options source = .ok fresh) (operations : List Operation)
    (tree : ScopeTree) (internalNames : List String) {result : RenamePlan}
    (planned : (plan tree (run fresh operations).2 (.ofNameOptions options internalNames)).1 = .ok result) :
    Spares options tree result := by
  have token : (run fresh operations).2.kind.token = options.generator := by
    rw [(runChain fresh operations).2]
    exact Generator.ofOptionsKind built
  generalize (run fresh operations).2 = generator at planned token
  have separates := planSeparates planned
  have complete := separates.complete
  have keeping : options.generator = Kind.keepOriginal.token ↔ generator.kind = .keepOriginal := by
    rw [← token]
    cases generator.kind <;> decide
  constructor
  case bindings =>
    intro id name reserved declared
    rcases complete.scopeAt id with ⟨absent, _⟩ | ⟨scope, _, present, _⟩
    · simp [ScopeTree.declared, absent] at declared
    · refine complete.keptName present declared ?_
      simp [keeps, PlanOptions.ofNameOptions, reserved]
  case labels =>
    intro id name reserved declared
    obtain ⟨new, renamed⟩ := complete.labelledIff.mp declared
    refine ⟨new, renamed, ?_⟩
    rw [keeping]
    rcases labelCases planned renamed with ⟨keep, same⟩ | ⟨changing, made⟩
    · exact iff_of_true same keep
    · refine iff_of_false (fun same => ?_) changing
      exact separates.neverReserved made (same ▸ reserved)
  case givenBindings =>
    intro id name new renamed reserved
    rcases complete.newNameCases renamed with ⟨same, _⟩ | made
    · exact same
    · exact absurd reserved (separates.neverReserved made)
  case givenLabels =>
    intro id label new renamed reserved
    rcases labelCases planned renamed with ⟨_, same⟩ | ⟨_, made⟩
    · exact same
    · exact absurd reserved (separates.neverReserved made)
  case helpers =>
    intro entry member
    have made : (Site.helper entry.1, entry.2) ∈
        made generator.kind (.ofNameOptions options internalNames) tree result :=
      List.mem_append_right _ (List.mem_map.mpr ⟨_, member, rfl⟩)
    exact separates.neverReserved made

def loopOptions : NameOptions := {generator := "mangled", reserved := ["loop", "a"]}

def loopTree : ScopeTree :=
  ScopeTree.empty.extendAll [.scope .function 0, .binding "loop" 1, .binding "count" 1, .label "loop" 1]

def loopPlan : RenamePlan :=
  ⟨.mangled, [⟨0, .global, none, [], []⟩,
    ⟨1, .function, some 0, [("loop", "loop"), ("count", "b")], [("loop", "c")]⟩], [("helper", "d")]⟩

def loopMangler : Generator Script := ⟨loopOptions.ledger, .lowest, .mangled 0⟩

theorem loopSpared :
    Generator.ofOptions loopOptions Script.lowest = .ok loopMangler ∧
      (plan loopTree (run loopMangler []).2 (.ofNameOptions loopOptions ["helper"])).1 = .ok loopPlan ∧
      Spares loopOptions loopTree loopPlan := by
  have built : Generator.ofOptions loopOptions Script.lowest = .ok loopMangler := rfl
  have planned := toOptionIff.mp (show (plan loopTree (run loopMangler []).2
    (.ofNameOptions loopOptions ["helper"])).1.toOption = some loopPlan by decide +kernel)
  exact ⟨built, planned, reservedNamesSpared built [] loopTree ["helper"] planned⟩

theorem reservedLabelRenamed :
    Generator.ofOptions loopOptions Script.lowest = .ok loopMangler ∧
      (plan loopTree loopMangler (.ofNameOptions loopOptions ["helper"])).1 = .ok loopPlan ∧
      "loop" ∈ loopOptions.reserved ∧ "loop" ∈ loopTree.labelled 1 ∧
      loopPlan.newLabel 1 "loop" = some "c" := by
  have planned := toOptionIff.mp (show (plan loopTree loopMangler
    (.ofNameOptions loopOptions ["helper"])).1.toOption = some loopPlan by decide +kernel)
  exact ⟨rfl, planned, by decide, by decide, by decide⟩

end Plan
end Pseudonym
