import Mathlib.Data.List.Nodup
import Pseudonym.Proofs.Plan.Script
import Pseudonym.Scope.Outline

/-! Renaming never captures. A binding keeps its name, which is then a preserved one, or gets a name made
for it alone; so no two names ever become one, and looking up commutes with renaming. -/
namespace Pseudonym

def ScopeTree.declared (tree : ScopeTree) (id : ScopeId) : List String :=
  (tree.scopes[id]?.map (·.bindings)).getD []

def RenamePlan.newName (plan : RenamePlan) (id : ScopeId) (name : String) : Option String :=
  plan.scopes[id]?.bind (·.bindings.lookup name)

/-- Looking a name up in the renamed program finds what looking it up in the program finds. A scope sees
itself and those around it; `inner` are the ones passed on the way to the scope that declares the name. -/
structure CaptureFree (tree : ScopeTree) (result : RenamePlan) : Prop where
  bound : ∀ id inner home around name, tree.ancestors id = inner ++ home :: around →
    (∀ scope ∈ inner, name ∉ tree.declared scope) → name ∈ tree.declared home →
      ∃ new, result.resolve id name = some new ∧ result.newName home name = some new ∧
        (∀ scope ∈ inner, ∀ other, result.newName scope other ≠ some new) ∧
        ∀ other, result.newName home other = some new → other = name
  free : ∀ id, ∀ name ∈ tree.globals, (∀ scope ∈ tree.ancestors id, name ∉ tree.declared scope) →
    result.resolve id name = none ∧
      ∀ scope ∈ tree.ancestors id, ∀ other, result.newName scope other ≠ some name
  helpers : ∀ entry ∈ result.internal, entry.2 ∉ tree.globals ∧
    ∀ scope name, result.newName scope name ≠ some entry.2

namespace Plan
open Session

section Lookup

theorem lookupMember {table : Renaming} {name new : String} (found : table.lookup name = some new) :
    (name, new) ∈ table := by
  obtain ⟨early, late, rfl, _⟩ := List.lookup_eq_some_iff.mp found
  exact List.mem_append_right _ List.mem_cons_self

theorem lookupSome {table : Renaming} {name : String} :
    (∃ new, table.lookup name = some new) ↔ name ∈ table.map Prod.fst := by
  rw [← Option.isSome_iff_exists, List.lookup_isSome_iff, List.mem_map]
  constructor
  · rintro ⟨entry, member, same⟩
    exact ⟨entry, member, (beq_iff_eq.mp same).symm⟩
  · rintro ⟨entry, member, rfl⟩
    exact ⟨entry, member, beq_self_eq_true _⟩

theorem pairedAt {α β : Type} {Related : α → β → Prop} {left : List α} {right : List β}
    (related : List.Forall₂ Related left right) (n : Nat) :
    (left[n]? = none ∧ right[n]? = none) ∨ ∃ one other, left[n]? = some one ∧ right[n]? = some other ∧
      Related one other ∧ (one, other) ∈ left.zip right := by
  induction related generalizing n with
  | nil => exact .inl ⟨rfl, rfl⟩
  | @cons one other _ _ here rest ih =>
    cases n with
    | zero => exact .inr ⟨one, other, rfl, rfl, here, List.mem_cons_self⟩
    | succ n =>
      rcases ih n with absent | ⟨one, other, left, right, here, paired⟩
      · exact .inl (by simpa using absent)
      · exact .inr ⟨one, other, by simpa using left, by simpa using right, here, List.mem_cons_of_mem _ paired⟩

theorem numberedAt (tree : ScopeTree) (id : ScopeId) :
    (numbered tree)[id]? = tree.scopes[id]?.map fun scope => (id, scope) := by
  simp [numbered, List.getElem?_zipIdx, Option.map_map, Function.comp_def]

theorem numberedMember (tree : ScopeTree) (id : ScopeId) (scope : Scope) :
    (id, scope) ∈ numbered tree ↔ tree.scopes[id]? = some scope := by
  rw [List.mem_iff_getElem?]
  constructor
  · rintro ⟨number, here⟩
    rw [numberedAt] at here
    obtain ⟨_, present, same⟩ := Option.map_eq_some_iff.mp here
    cases same
    exact present
  · intro present
    exact ⟨id, by rw [numberedAt, present]; rfl⟩

end Lookup

namespace Complete

variable {kind : Kind} {options : PlanOptions} {tree : ScopeTree} {result : RenamePlan}

theorem scopeAt (complete : Complete kind options tree result) (id : ScopeId) :
    (tree.scopes[id]? = none ∧ result.scopes[id]? = none) ∨ ∃ scope renames,
      tree.scopes[id]? = some scope ∧ result.scopes[id]? = some renames ∧
        Covers kind options (id, scope) renames ∧ ((id, scope), renames) ∈ (numbered tree).zip result.scopes := by
  have paired := pairedAt complete.scopes id
  rw [numberedAt] at paired
  rcases paired with ⟨absent, missing⟩ | ⟨site, renames, here, planned, covers, together⟩
  · exact .inl ⟨by simpa using absent, missing⟩
  · obtain ⟨scope, present, rfl⟩ := Option.map_eq_some_iff.mp here
    exact .inr ⟨scope, renames, present, planned, covers, together⟩

theorem sameParent (complete : Complete kind options tree result) : result.parent = tree.parent := by
  funext id
  rcases complete.scopeAt id with ⟨absent, missing⟩ | ⟨scope, renames, present, planned, covers, _⟩
  · simp [RenamePlan.parent, ScopeTree.parent, absent, missing]
  · simp [RenamePlan.parent, ScopeTree.parent, present, planned, covers.parent]

theorem ancestors (complete : Complete kind options tree result) (id : ScopeId) :
    lineage result.parent id = tree.ancestors id := by rw [complete.sameParent, ScopeTree.ancestors]

theorem declaredIff (complete : Complete kind options tree result) {id : ScopeId} {name : String} :
    name ∈ tree.declared id ↔ ∃ new, result.newName id name = some new := by
  rcases complete.scopeAt id with ⟨absent, missing⟩ | ⟨scope, renames, present, planned, covers, _⟩
  · simp [ScopeTree.declared, RenamePlan.newName, absent, missing]
  · have keys : (∃ new, renames.bindings.lookup name = some new) ↔ name ∈ renames.bindings.map Prod.fst := lookupSome
    rw [covers.bindings] at keys
    simpa [ScopeTree.declared, RenamePlan.newName, present, planned] using keys.symm

theorem bindingCases (complete : Complete kind options tree result) {id : ScopeId} {name new : String}
    (renamed : result.newName id name = some new) :
    ∃ scope, tree.scopes[id]? = some scope ∧ name ∈ scope.bindings ∧
      ((keeps kind options id scope name = true ∧ new = name) ∨
        (keeps kind options id scope name = false ∧ (Site.binding id name, new) ∈ made kind options tree result)) := by
  rcases complete.scopeAt id with ⟨absent, missing⟩ | ⟨scope, renames, present, planned, covers, paired⟩
  · simp [RenamePlan.newName, missing] at renamed
  · have found : renames.bindings.lookup name = some new := by simpa [RenamePlan.newName, planned] using renamed
    have member := lookupMember found
    refine ⟨scope, present, covers.bindings ▸ List.mem_map.mpr ⟨_, member, rfl⟩, ?_⟩
    cases keep : keeps kind options id scope name with
    | true => exact .inl ⟨rfl, covers.kept _ member keep⟩
    | false =>
      refine .inr ⟨rfl, List.mem_append_left _ (List.mem_flatMap.mpr ⟨_, paired, List.mem_append_left _ ?_⟩)⟩
      exact List.mem_map.mpr ⟨(name, new), List.mem_filter.mpr ⟨member, by simp [keep]⟩, rfl⟩

theorem newNameCases (complete : Complete kind options tree result) {id : ScopeId} {name new : String}
    (renamed : result.newName id name = some new) :
    (new = name ∧ name ∈ preserved kind options tree) ∨
      (Site.binding id name, new) ∈ made kind options tree result := by
  obtain ⟨scope, present, declared, ⟨keep, same⟩ | ⟨_, made⟩⟩ := complete.bindingCases renamed
  · have place := (numberedMember tree id scope).mpr present
    have kept := List.mem_filter.mpr ⟨declared, keep⟩
    exact .inl ⟨same, List.mem_append_right _ (List.mem_flatMap.mpr ⟨_, place, kept⟩)⟩
  · exact .inr made

end Complete

structure Separates (kind : Kind) (options : PlanOptions) (tree : ScopeTree) (result : RenamePlan) : Prop where
  complete : Complete kind options tree result
  distinct : ((made kind options tree result).map Prod.snd).Nodup
  apart : ∀ entry ∈ made kind options tree result, entry.2 ∉ preserved kind options tree

variable {σ : Type}

variable [RandomSource σ]

theorem planIssues {tree : ScopeTree} {generator : Generator σ} {options : PlanOptions}
    {result : RenamePlan} (planned : (plan tree generator options).1 = .ok result) :
    Complete generator.kind options tree result ∧ ((made generator.kind options tree result).map Prod.snd).Nodup ∧
      ∀ entry ∈ made generator.kind options tree result,
        (generator.ledger.claimAll (preserved generator.kind options tree)).accepts entry.2 = true := by
  have ledger := (generator.preserveAllKeeps (preserved generator.kind options tree)).1
  have kind := generator.preserveAllKind (preserved generator.kind options tree)
  have follows := planRequests tree generator options
  have chain := (followChain (generator.preserveAll (preserved generator.kind options tree))
    (requests generator.kind options tree)).1
  rw [kind, ledger] at chain
  generalize plan tree generator options = outcome at planned follows
  generalize follow (generator.preserveAll _) _ = progress at chain follows
  cases follows with
  | failed => cases planned
  | done good =>
    cases planned
    obtain ⟨complete, issued⟩ := good
    obtain ⟨distinct, fresh⟩ := chain.issuedNodup
    rw [issued] at distinct fresh
    exact ⟨complete, distinct, fun entry member => fresh entry.2 (List.mem_map_of_mem member)⟩

theorem planSeparates {tree : ScopeTree} {generator : Generator σ} {options : PlanOptions}
    {result : RenamePlan} (planned : (plan tree generator options).1 = .ok result) :
    Separates generator.kind options tree result := by
  obtain ⟨complete, distinct, fresh⟩ := planIssues planned
  refine ⟨complete, distinct, fun entry member kept => ?_⟩
  exact (Ledger.acceptsIff.mp (fresh entry member)).2.2 (Ledger.memClaimAll.mpr (.inl kept))

namespace Separates

variable {kind : Kind} {options : PlanOptions} {tree : ScopeTree} {result : RenamePlan}

theorem sameSite (separates : Separates kind options tree result) {site other : Site} {new : String}
    (one : (site, new) ∈ made kind options tree result)
    (two : (other, new) ∈ made kind options tree result) : site = other :=
  congrArg Prod.fst (List.inj_on_of_nodup_map separates.distinct one two rfl)

theorem sameName (separates : Separates kind options tree result) {id other : ScopeId}
    {name second new : String} (one : result.newName id name = some new)
    (two : result.newName other second = some new) : name = second := by
  rcases separates.complete.newNameCases one with ⟨rfl, kept⟩ | made <;>
    rcases separates.complete.newNameCases two with ⟨same, preserved⟩ | again
  · exact same
  · exact absurd kept (separates.apart _ again)
  · exact absurd (same ▸ preserved) (separates.apart _ made)
  · cases separates.sameSite made again
    rfl

theorem unboundSurvives (separates : Separates kind options tree result) {id : ScopeId} {name other : String}
    (unbound : name ∈ tree.globals) (renamed : result.newName id other = some name) :
    other = name ∧ name ∈ tree.declared id := by
  rcases separates.complete.newNameCases renamed with ⟨same, kept⟩ | made
  · exact ⟨same.symm, separates.complete.declaredIff.mpr ⟨name, same ▸ renamed⟩⟩
  · refine absurd ?_ (separates.apart _ made)
    exact List.mem_append_left _ (List.mem_append_left _ (Std.TreeSet.mem_toList.mpr unbound))

end Separates

variable {tree : ScopeTree} {options : PlanOptions} {result : RenamePlan}

theorem resolvedAlong (result : RenamePlan) (id : ScopeId) (name : String) :
    result.resolve id name = (lineage result.parent id).findSome? (result.newName · name) := rfl

theorem passUndeclared {kind : Kind} (complete : Complete kind options tree result) {scopes : List ScopeId}
    {name : String} (undeclared : ∀ scope ∈ scopes, name ∉ tree.declared scope) :
    scopes.findSome? (result.newName · name) = none := by
  rw [List.findSome?_eq_none_iff]
  intro scope member
  rw [Option.eq_none_iff_forall_ne_some]
  intro new renamed
  exact undeclared scope member (complete.declaredIff.mpr ⟨new, renamed⟩)

theorem planCaptureFree (tree : ScopeTree) (generator : Generator σ) (options : PlanOptions)
    {result : RenamePlan} (planned : (plan tree generator options).1 = .ok result) :
    CaptureFree tree result := by
  have separates := planSeparates planned
  have complete := separates.complete
  constructor
  case bound =>
    intro id inner home around name chain undeclared declared
    obtain ⟨new, renamed⟩ := complete.declaredIff.mp declared
    refine ⟨new, ?_, renamed, ?_, fun other same => separates.sameName same renamed⟩
    · rw [resolvedAlong, complete.ancestors, chain, List.findSome?_append,
        passUndeclared complete undeclared, List.findSome?_cons, renamed]
      rfl
    · intro scope passed other same
      have one := separates.sameName same renamed
      exact undeclared scope passed (complete.declaredIff.mpr ⟨new, one ▸ same⟩)
  case free =>
    intro id name unbound undeclared
    refine ⟨?_, ?_⟩
    · rw [resolvedAlong, complete.ancestors, passUndeclared complete undeclared]
    · intro scope around other same
      exact undeclared scope around (separates.unboundSurvives unbound same).2
  case helpers =>
    rintro ⟨helper, new⟩ member
    have made : (Site.helper helper, new) ∈ made generator.kind options tree result :=
      List.mem_append_right _ (List.mem_map.mpr ⟨_, member, rfl⟩)
    refine ⟨fun unbound => separates.apart _ made ?_, fun scope name renamed => ?_⟩
    · exact List.mem_append_left _ (List.mem_append_left _ (Std.TreeSet.mem_toList.mpr unbound))
    · rcases complete.newNameCases renamed with ⟨same, kept⟩ | again
      · exact separates.apart _ made (same ▸ kept)
      · cases separates.sameSite made again

/-- The inner `first` hides the outer one, and the program has a name of its own that mangling would make. -/
def hidingProgram : ProgramOutline :=
  let block : ScopeOutline := ⟨.block, ["first"], ["second"], [], false, []⟩
  ⟨["a"], ["helper"], ⟨.global, ["main"], [], [], false, [⟨.function, ["first", "b"], [], [], false, [block]⟩]⟩⟩

def hidingPlan : RenamePlan :=
  ⟨.mangled, [⟨0, .global, none, [("main", "main")], []⟩,
    ⟨1, .function, some 0, [("first", "b"), ("b", "c"), ("second", "d")], []⟩,
    ⟨2, .block, some 1, [("first", "e")], []⟩], [("helper", "f")]⟩

def mangler : Generator Script := ⟨.empty, .lowest, .mangled 0⟩

theorem hidingCaptureFree :
    (plan hidingProgram.tree mangler {internalNames := ["helper"]}).1 = .ok hidingPlan ∧
      CaptureFree hidingProgram.tree hidingPlan := by
  have planned := toOptionIff.mp (show (plan hidingProgram.tree mangler
    {internalNames := ["helper"]}).1.toOption = some hidingPlan by decide +kernel)
  exact ⟨planned, planCaptureFree hidingProgram.tree mangler _ planned⟩

end Plan
end Pseudonym
