import Pseudonym.Proofs.Plan.Lookup
import Pseudonym.Proofs.Scope.Slot
import Pseudonym.Proofs.Word

/-! The places that a plan gives names to: the bindings and labels of every scope, and the helpers. What is known
of the requests of a plan is known of the names at these places. -/
namespace Pseudonym

def ScopeTree.labelled (tree : ScopeTree) (id : ScopeId) : List String :=
  (tree.scopes[id]?.map (·.labels)).getD []

namespace Plan

/-- The places that get new names, in the order of the walk. -/
def sites (kind : Kind) (options : PlanOptions) (tree : ScopeTree) : List Site :=
  ((numbered tree).flatMap fun (id, scope) =>
      (scope.bindings.filter (!keeps kind options id scope ·)).map (.binding id) ++ scope.labels.map (.label id)) ++
    options.internalNames.eraseDups.map .helper

end Plan

def RenamePlan.nameAt (plan : RenamePlan) : Plan.Site → Option String
  | .binding id name => plan.newName id name
  | .label id label => plan.newLabel id label
  | .helper name => plan.internal.lookup name

namespace Plan
open Session

section Places

variable {kind : Kind} {options : PlanOptions} {tree : ScopeTree} {result : RenamePlan}

theorem madeInSites (made : kind ≠ .keepOriginal) {site : ScopeId × Scope} {renames : ScopeRenames}
    (covers : Covers kind options site renames) :
    (madeIn kind options site renames).map Prod.fst =
      (site.2.bindings.filter (!keeps kind options site.1 site.2 ·)).map (.binding site.1) ++
        site.2.labels.map (.label site.1) := by
  rw [madeIn, if_neg made, ← covers.bindings, ← covers.labels, List.filter_map]
  simp only [List.map_append, List.map_map]
  rfl

theorem madeSites (made : kind ≠ .keepOriginal) (complete : Complete kind options tree result) :
    (Plan.made kind options tree result).map Prod.fst = sites kind options tree := by
  have scopes {places : List (ScopeId × Scope)} {tables : List ScopeRenames}
      (covers : List.Forall₂ (Covers kind options) places tables) :
      ((places.zip tables).flatMap fun pair => madeIn kind options pair.1 pair.2).map Prod.fst =
        places.flatMap fun (id, scope) =>
          (scope.bindings.filter (!keeps kind options id scope ·)).map (.binding id) ++
            scope.labels.map (.label id) := by
    induction covers with
    | nil => rfl
    | cons here rest ih =>
      rw [List.zip_cons_cons, List.flatMap_cons, List.map_append, madeInSites made here, ih, List.flatMap_cons]
  rw [Plan.made, List.map_append, scopes complete.scopes, sites, ← complete.internal, List.map_map, List.map_map]
  rfl

theorem lookupOnce {table : Renaming} (distinct : (table.map Prod.fst).Nodup) {name new : String}
    (member : (name, new) ∈ table) : table.lookup name = some new := by
  obtain ⟨early, late, rfl⟩ := List.append_of_mem member
  refine List.lookup_eq_some_iff.mpr ⟨early, late, rfl, fun entry before => ?_⟩
  rw [List.map_append, List.map_cons, List.nodup_append] at distinct
  have apart := distinct.2.2 entry.1 (List.mem_map_of_mem before) name List.mem_cons_self
  exact bne_iff_ne.mpr apart.symm

theorem madeNamed (complete : Complete kind options tree result)
    (distinct : ∀ id, (tree.listed Scope.bindings id).Nodup ∧ (tree.listed Scope.labels id).Nodup) :
    ∀ entry ∈ made kind options tree result, result.nameAt entry.1 = some entry.2 := by
  intro entry member
  rcases List.mem_append.mp member with placed | helper
  · obtain ⟨⟨site, renames⟩, paired, inside⟩ := List.mem_flatMap.mp placed
    obtain ⟨id, together⟩ := List.mem_iff_getElem?.mp paired
    obtain ⟨here, planned⟩ := List.getElem?_zip_eq_some.mp together
    rw [numberedAt] at here
    obtain ⟨scope, present, rfl⟩ := Option.map_eq_some_iff.mp here
    have covers := (List.forall₂_iff_zip.mp complete.scopes).2 paired
    obtain ⟨bindings, labels⟩ := distinct id
    simp only [ScopeTree.listed, present, Option.map_some, Option.getD_some] at bindings labels
    rcases List.mem_append.mp inside with bound | labelled
    · obtain ⟨⟨name, new⟩, among, rfl⟩ := List.mem_map.mp bound
      have entry := lookupOnce (covers.bindings ▸ bindings) (List.mem_filter.mp among).1
      simpa [RenamePlan.nameAt, RenamePlan.newName, planned] using entry
    · split at labelled
      · cases labelled
      · obtain ⟨⟨name, new⟩, among, rfl⟩ := List.mem_map.mp labelled
        have entry := lookupOnce (covers.labels ▸ labels) among
        simpa [RenamePlan.nameAt, RenamePlan.newLabel, planned] using entry
  · obtain ⟨⟨name, new⟩, among, rfl⟩ := List.mem_map.mp helper
    exact lookupOnce (complete.internal ▸ Word.eraseDupsNodup _) among

theorem Complete.labelledIff {id : ScopeId} {label : String} (complete : Complete kind options tree result) :
    label ∈ tree.labelled id ↔ ∃ new, result.newLabel id label = some new := by
  rcases complete.scopeAt id with ⟨absent, missing⟩ | ⟨scope, renames, present, planned, covers, _⟩
  · simp [ScopeTree.labelled, RenamePlan.newLabel, absent, missing]
  · have keys : (∃ new, renames.labels.lookup label = some new) ↔ label ∈ renames.labels.map Prod.fst := lookupSome
    rw [covers.labels] at keys
    simpa [ScopeTree.labelled, RenamePlan.newLabel, present, planned] using keys.symm

end Places

section Requests

variable {σ : Type} {kind : Kind} {options : PlanOptions} {tree : ScopeTree} {result : RenamePlan}
  {generator after : Generator σ} {Holds : Generator σ → Prop} {Fits : Site → String → Prop}

/-- Where the generator is as it should be it stays so, and the answer fits the name asked for. -/
def Gives (Holds : Generator σ → Prop) (request : Request σ) (Fits : String → String → Prop) : Prop :=
  ∀ generator name, Holds generator → Holds (request generator name).2 ∧
    ∀ new, (request generator name).1 = .ok new → Fits name new

theorem assignGives {request : Request σ} {Fits : String → String → Prop} (gives : Gives Holds request Fits)
    {names : List String} {table : Renaming} (holds : Holds generator)
    (assigned : assign request generator names = (.ok table, after)) :
    Holds after ∧ ∀ entry ∈ table, Fits entry.1 entry.2 := by
  induction names generalizing generator table with
  | nil => cases assigned; exact ⟨holds, by simp⟩
  | cons name rest ih =>
    rw [assignSteps, andThenOk] at assigned
    obtain ⟨new, middle, answered, assigned⟩ := assigned
    obtain ⟨others, last, later, done⟩ := andThenOk.mp assigned
    cases done
    obtain ⟨still, fits⟩ := gives generator name holds
    rw [answered] at still fits
    obtain ⟨ended, more⟩ := ih still later
    exact ⟨ended, List.forall_mem_cons.mpr ⟨fits new rfl, more⟩⟩

variable [RandomSource σ]

structure FitsIn (Fits : Site → String → Prop) (site : ScopeId × Scope) (renames : ScopeRenames) : Prop where
  bindings : ∀ entry ∈ renames.bindings, Fits (.binding site.1 entry.1) entry.2
  labels : ∀ entry ∈ renames.labels, Fits (.label site.1 entry.1) entry.2

theorem scopesGive {places : List (ScopeId × Scope)} {scopes : List ScopeRenames}
    (bindings : ∀ site ∈ places, Gives Holds (requestBinding kind options site.1 site.2) (Fits <| .binding site.1 ·))
    (labels : ∀ id, Gives Holds (requestLabel options) (Fits <| .label id ·)) (holds : Holds generator)
    (planned : planScopes kind options generator places = (.ok scopes, after)) :
    Holds after ∧ List.Forall₂ (FitsIn Fits) places scopes := by
  induction places generalizing generator scopes with
  | nil => cases planned; exact ⟨holds, .nil⟩
  | cons site rest ih =>
    rw [planScopesSteps, andThenOk] at planned
    obtain ⟨renames, middle, here, planned⟩ := planned
    obtain ⟨others, last, later, done⟩ := andThenOk.mp planned
    cases done
    rw [planScopeSteps, andThenOk] at here
    obtain ⟨bound, between, assigned, here⟩ := here
    obtain ⟨labelled, end_, named, done⟩ := andThenOk.mp here
    cases done
    obtain ⟨early, bindingsFit⟩ := assignGives (bindings site List.mem_cons_self) holds assigned
    obtain ⟨still, labelsFit⟩ := assignGives (labels site.1) early named
    obtain ⟨ended, more⟩ := ih (fun site member => bindings site (List.mem_cons_of_mem _ member)) still later
    exact ⟨ended, .cons ⟨bindingsFit, labelsFit⟩ more⟩

/-- What fits is answered at every place, if it is for each request of the plan. -/
theorem planGives
    (bindings : ∀ site ∈ numbered tree,
      Gives Holds (requestBinding generator.kind options site.1 site.2) (Fits <| .binding site.1 ·))
    (labels : ∀ id, Gives Holds (requestLabel options) (Fits <| .label id ·))
    (helpers : Gives Holds (requestHelper options) (Fits <| .helper ·))
    (holds : Holds (generator.preserveAll (preserved generator.kind options tree)))
    (planned : (plan tree generator options).1 = .ok result) {site : Site} {new : String}
    (named : result.nameAt site = some new) : Fits site new := by
  obtain ⟨after, whole⟩ : ∃ after, plan tree generator options = (.ok result, after) := ⟨_, Prod.ext planned rfl⟩
  rw [planSteps, andThenOk] at whole
  obtain ⟨scopes, middle, assigned, whole⟩ := whole
  obtain ⟨internal, last, asked, done⟩ := andThenOk.mp whole
  cases done
  obtain ⟨still, scopesFit⟩ := scopesGive bindings labels holds assigned
  have helpersFit := (assignGives helpers still asked).2
  have placed (id : ScopeId) : scopes[id]? = none ∨ ∃ scope renames, scopes[id]? = some renames ∧
      FitsIn Fits (id, scope) renames := by
    have paired := pairedAt scopesFit id
    rw [numberedAt] at paired
    rcases paired with ⟨_, missing⟩ | ⟨site, renames, here, found, fits, _⟩
    · exact .inl missing
    · obtain ⟨scope, _, rfl⟩ := Option.map_eq_some_iff.mp here
      exact .inr ⟨scope, renames, found, fits⟩
  cases site with
  | binding id name =>
    rcases placed id with missing | ⟨scope, renames, found, fits⟩
    · simp [RenamePlan.nameAt, RenamePlan.newName, missing] at named
    · exact fits.bindings _ (lookupMember (by simpa [RenamePlan.nameAt, RenamePlan.newName, found] using named))
  | label id label =>
    rcases placed id with missing | ⟨scope, renames, found, fits⟩
    · simp [RenamePlan.nameAt, RenamePlan.newLabel, missing] at named
    · exact fits.labels _ (lookupMember (by simpa [RenamePlan.nameAt, RenamePlan.newLabel, found] using named))
  | helper name => exact helpersFit _ (lookupMember named)

end Requests

end Plan
end Pseudonym
