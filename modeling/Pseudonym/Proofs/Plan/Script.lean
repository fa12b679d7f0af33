import Mathlib.Data.List.Forall2
import Pseudonym.Plan
import Pseudonym.Proofs.Session.Call

/-! A plan as a session. Planning makes the calls of a script in a row and stops with the first that fails;
its new names are the kept ones and, in the order of the script, the ones that the calls issued. -/
namespace Pseudonym
namespace Plan
open Session

inductive Site where
  | binding (scope : ScopeId) (name : String)
  | label (scope : ScopeId) (name : String)
  | helper (name : String)
  deriving DecidableEq, Repr

def bindingCall (kind : Kind) (options : PlanOptions) (id : ScopeId) (scope : Scope) (name : String) :
    Option Call :=
  if keeps kind options id scope name then none
  else if id = ScopeTree.root then some (.global options.nameLength)
  else some (.lexical id options.nameLength)

def scopeCalls (kind : Kind) (options : PlanOptions) (site : ScopeId × Scope) : List Call :=
  site.2.bindings.filterMap (bindingCall kind options site.1 site.2) ++
    site.2.labels.map (.label · options.nameLength)

def calls (kind : Kind) (options : PlanOptions) (tree : ScopeTree) : List Call :=
  (preserved kind options tree).map .preserve ++
    ((numbered tree).flatMap (scopeCalls kind options) ++
      options.internalNames.eraseDups.map fun _ => .global options.nameLength)

/-- The calls that follow when the kept names are preserved. -/
def requests (kind : Kind) (options : PlanOptions) (tree : ScopeTree) : List Call :=
  (numbered tree).flatMap (scopeCalls kind options) ++
    options.internalNames.eraseDups.map fun _ => .global options.nameLength

def madeIn (kind : Kind) (options : PlanOptions) (site : ScopeId × Scope) (renames : ScopeRenames) :
    List (Site × String) :=
  (renames.bindings.filter fun entry => !keeps kind options site.1 site.2 entry.1).map
      (fun entry => (.binding site.1 entry.1, entry.2)) ++
    if kind = .keepOriginal then [] else renames.labels.map fun entry => (.label site.1 entry.1, entry.2)

def made (kind : Kind) (options : PlanOptions) (tree : ScopeTree) (plan : RenamePlan) : List (Site × String) :=
  ((numbered tree).zip plan.scopes).flatMap (fun pair => madeIn kind options pair.1 pair.2) ++
    plan.internal.map fun entry => (.helper entry.1, entry.2)

structure Renames (kind : Kind) (call : String → Option Call) (names : List String) (table : Renaming)
    (events : List Event) : Prop where
  keys : table.map Prod.fst = names
  kept : ∀ entry ∈ table, call entry.1 = none → entry.2 = entry.1
  issued : events.filterMap (·.issued kind) =
    (table.filter fun entry => (call entry.1).any (·.Makes kind)).map Prod.snd

structure Covers (kind : Kind) (options : PlanOptions) (site : ScopeId × Scope) (renames : ScopeRenames) :
    Prop where
  scope : renames.scope = site.1
  sameKind : renames.kind = site.2.kind
  parent : renames.parent = site.2.parent
  bindings : renames.bindings.map Prod.fst = site.2.bindings
  labels : renames.labels.map Prod.fst = site.2.labels
  kept : ∀ entry ∈ renames.bindings, keeps kind options site.1 site.2 entry.1 = true → entry.2 = entry.1

variable {σ : Type}

inductive Follows {β : Type} (Good : β → List Event → Prop) :
    Except NameError β × Generator σ → Progress σ → Prop where
  | failed {cause : NameError} {events : List Event} {after : Generator σ} :
      Follows Good (.error cause, after) ⟨events, some cause, after⟩
  | done {answer : β} {events : List Event} {after : Generator σ} (good : Good answer events) :
      Follows Good (.ok answer, after) ⟨events, none, after⟩

def andThen {β γ : Type} (outcome : Except NameError β × Generator σ)
    (next : β → Generator σ → Except NameError γ × Generator σ) : Except NameError γ × Generator σ :=
  match outcome with
  | (.error cause, generator) => (.error cause, generator)
  | (.ok answer, generator) => next answer generator

theorem andThenOk {β γ : Type} {outcome : Except NameError β × Generator σ}
    {next : β → Generator σ → Except NameError γ × Generator σ} {result : γ} {after : Generator σ} :
    andThen outcome next = (.ok result, after) ↔
      ∃ answer middle, outcome = (.ok answer, middle) ∧ next answer middle = (.ok result, after) := by
  obtain ⟨answer, middle⟩ := outcome
  cases answer <;> simp [andThen]

theorem assignSteps (request : Request σ) (generator : Generator σ) (name : String) (rest : List String) :
    assign request generator (name :: rest) =
      andThen (request generator name) fun new generator =>
        andThen (assign request generator rest) fun others generator =>
          (.ok ((name, new) :: others), generator) := by
  rw [assign]
  rcases request generator name with ⟨_ | new, after⟩
  · rfl
  · dsimp only [andThen]
    rcases assign request after rest with ⟨_ | others, after⟩ <;> rfl

variable [RandomSource σ]

theorem followsAndThen {β γ : Type} {Early : β → List Event → Prop} {Good : γ → List Event → Prop}
    {outcome : Except NameError β × Generator σ} {generator : Generator σ} {calls others : List Call}
    {next : β → Generator σ → Except NameError γ × Generator σ}
    (early : Follows Early outcome (follow generator calls))
    (late : ∀ answer events after, Early answer events →
      Follows (fun result later => Good result (events ++ later)) (next answer after) (follow after others)) :
    Follows Good (andThen outcome next) (follow generator (calls ++ others)) := by
  rw [followAppend]
  generalize follow generator calls = progress at early ⊢
  cases early with
  | failed => exact .failed
  | @done answer events after good =>
    have rest := late answer events after good
    simp only [andThen]
    generalize next answer after = result, follow after others = later at rest ⊢
    cases rest with
    | failed => exact .failed
    | done good => exact .done good

theorem assignFollows (kind : Kind) {request : Request σ} {call : String → Option Call}
    (kept : ∀ generator name, call name = none → request generator name = (.ok name, generator))
    (asked : ∀ generator name made, call name = some made → request generator name = made.perform generator)
    (generator : Generator σ) (names : List String) :
    Follows (Renames kind call names) (assign request generator names)
      (follow generator (names.filterMap call)) := by
  induction names generalizing generator with
  | nil => exact .done ⟨rfl, by simp, rfl⟩
  | cons name rest ih =>
    rw [assign]
    cases called : call name with
    | none =>
      rw [kept generator name called, List.filterMap_cons_none called]
      have rest := ih generator
      dsimp only
      generalize assign request generator _ = outcome, follow generator _ = progress at rest ⊢
      cases rest with
      | failed => exact .failed
      | done good =>
        refine .done ⟨by simp [good.keys], ?_, by simp [good.issued, called]⟩
        intro entry member free
        rcases List.mem_cons.mp member with rfl | later
        · rfl
        · exact good.kept entry later free
    | some made =>
      rw [asked generator name made called, List.filterMap_cons_some called, follow]
      cases answer : (made.perform generator).1 with
      | error cause =>
        have outcome : made.perform generator = (.error cause, (made.perform generator).2) := by rw [← answer]
        rw [outcome]
        simp only [record, answer]
        exact .failed
      | ok new =>
        have outcome : made.perform generator = (.ok new, (made.perform generator).2) := by rw [← answer]
        rw [outcome]
        simp only [record, answer]
        have rest := ih (made.perform generator).2
        generalize assign request (made.perform generator).2 _ = result,
          follow (made.perform generator).2 _ = progress at rest ⊢
        cases rest with
        | failed => exact .failed
        | done good =>
          refine .done ⟨by simp [good.keys], ?_, ?_⟩
          · intro entry member free
            rcases List.mem_cons.mp member with rfl | later
            · simp [called] at free
            · exact good.kept entry later free
          · by_cases makes : made.Makes kind
            · rw [List.filterMap_cons_some (issuedIff.mpr ⟨makes, rfl⟩), good.issued]
              simp [called, makes]
            · rw [List.filterMap_cons_none (notIssued makes), good.issued]
              simp [called, makes]

theorem bindingsFollow (kind : Kind) (options : PlanOptions) (site : ScopeId × Scope) (generator : Generator σ)
    (names : List String) :
    Follows (Renames kind (bindingCall kind options site.1 site.2) names)
      (assign (requestBinding kind options site.1 site.2) generator names)
      (follow generator (names.filterMap (bindingCall kind options site.1 site.2))) := by
  refine assignFollows kind ?_ ?_ generator names
  · intro generator name keep
    unfold bindingCall at keep
    unfold requestBinding
    split at keep
    · rw [if_pos (by assumption)]
    · split at keep <;> cases keep
  · intro generator name made ask
    unfold bindingCall at ask
    unfold requestBinding
    split at ask
    · cases ask
    · rw [if_neg (by assumption)]
      split at ask
      · rw [if_pos (by assumption)]
        cases ask
        rfl
      · rw [if_neg (by assumption)]
        cases ask
        rfl

theorem requestsFollow (kind : Kind) (ask : String → Call) (generator : Generator σ) (names : List String) :
    Follows (Renames kind (fun name => some (ask name)) names)
      (assign (fun generator name => (ask name).perform generator) generator names)
      (follow generator (names.map ask)) := by
  have all : names.filterMap (fun name => some (ask name)) = names.map ask := by simp
  rw [← all]
  exact assignFollows kind (by simp) (by simp) generator names

theorem allMade (kind : Kind) (ask : String → Call) (makes : ∀ name, (ask name).Makes kind) (table : Renaming) :
    (table.filter fun entry => (some (ask entry.1)).any (·.Makes kind)) = table :=
  List.filter_eq_self.mpr fun entry _ => decide_eq_true (makes entry.1)

theorem bindingMakes (kind : Kind) (options : PlanOptions) (id : ScopeId) (scope : Scope) (name : String) :
    (bindingCall kind options id scope name).any (·.Makes kind) = !keeps kind options id scope name := by
  unfold bindingCall
  cases keeps kind options id scope name with
  | true => rfl
  | false =>
    simp only [Bool.false_eq_true, if_false]
    split <;> rfl

theorem keptBinding {kind : Kind} {options : PlanOptions} {id : ScopeId} {scope : Scope} {name : String}
    (keep : keeps kind options id scope name = true) : bindingCall kind options id scope name = none :=
  if_pos keep

theorem planScopeSteps (kind : Kind) (options : PlanOptions) (generator : Generator σ) (id : ScopeId)
    (scope : Scope) :
    planScope kind options generator id scope =
      andThen (assign (requestBinding kind options id scope) generator scope.bindings) fun bindings generator =>
        andThen (assign (requestLabel options) generator scope.labels) fun labels generator =>
          (.ok ⟨id, scope.kind, scope.parent, bindings, labels⟩, generator) := by
  unfold planScope
  rcases assign (requestBinding kind options id scope) generator scope.bindings with ⟨_ | bindings, after⟩
  · rfl
  · dsimp only [andThen]
    rcases assign (requestLabel options) after scope.labels with ⟨_ | labels, after⟩ <;> rfl

theorem planScopesSteps (kind : Kind) (options : PlanOptions) (generator : Generator σ)
    (site : ScopeId × Scope) (rest : List (ScopeId × Scope)) :
    planScopes kind options generator (site :: rest) =
      andThen (planScope kind options generator site.1 site.2) fun renames generator =>
        andThen (planScopes kind options generator rest) fun others generator =>
          (.ok (renames :: others), generator) := by
  rw [planScopes]
  rcases planScope kind options generator site.1 site.2 with ⟨_ | renames, after⟩
  · rfl
  · dsimp only [andThen]
    rcases planScopes kind options after rest with ⟨_ | others, after⟩ <;> rfl

theorem planSteps (tree : ScopeTree) (generator : Generator σ) (options : PlanOptions) :
    plan tree generator options =
      andThen (planScopes generator.kind options
          (generator.preserveAll (preserved generator.kind options tree)) (numbered tree)) fun scopes after =>
        andThen (assign (requestHelper options) after options.internalNames.eraseDups) fun internal after =>
          (.ok ⟨generator.kind, scopes, internal⟩, after) := by
  unfold plan
  dsimp only
  rcases planScopes generator.kind options (generator.preserveAll (preserved generator.kind options tree))
    (numbered tree) with ⟨_ | scopes, after⟩
  · rfl
  · dsimp only [andThen]
    rcases assign (requestHelper options) after options.internalNames.eraseDups with ⟨_ | internal, after⟩ <;> rfl

theorem scopeFollows (kind : Kind) (options : PlanOptions) (site : ScopeId × Scope) (generator : Generator σ) :
    Follows (fun renames events => Covers kind options site renames ∧
        events.filterMap (·.issued kind) = (madeIn kind options site renames).map Prod.snd)
      (planScope kind options generator site.1 site.2) (follow generator (scopeCalls kind options site)) := by
  rw [planScopeSteps, scopeCalls]
  refine followsAndThen (bindingsFollow kind options site generator site.2.bindings) ?_
  intro bindings events after bound
  have labels := requestsFollow kind (Call.label · options.nameLength) after site.2.labels
  change Follows _ (assign (requestLabel options) after site.2.labels) _ at labels
  generalize assign (requestLabel options) after site.2.labels = outcome,
    follow after (site.2.labels.map (Call.label · options.nameLength)) = progress at labels ⊢
  cases labels with
  | failed => exact .failed
  | @done labels later _ named =>
    refine .done ⟨⟨rfl, rfl, rfl, bound.keys, named.keys, ?_⟩, ?_⟩
    · intro entry member keep
      exact bound.kept entry member (keptBinding keep)
    · rw [List.filterMap_append, bound.issued, named.issued, madeIn, List.map_append, List.map_map]
      congr 1
      · simp only [bindingMakes]
        rfl
      · by_cases keep : kind = .keepOriginal
        · simp [keep, Call.Makes]
        · rw [if_neg keep, List.map_map, allMade kind (Call.label · options.nameLength) (fun _ => keep)]
          rfl

theorem scopesFollow (kind : Kind) (options : PlanOptions) (sites : List (ScopeId × Scope))
    (generator : Generator σ) :
    Follows (fun scopes events => List.Forall₂ (Covers kind options) sites scopes ∧
        events.filterMap (·.issued kind) =
          ((sites.zip scopes).flatMap fun pair => madeIn kind options pair.1 pair.2).map Prod.snd)
      (planScopes kind options generator sites) (follow generator (sites.flatMap (scopeCalls kind options))) := by
  induction sites generalizing generator with
  | nil => exact .done ⟨.nil, rfl⟩
  | cons site rest ih =>
    rw [planScopesSteps, List.flatMap_cons]
    refine followsAndThen (scopeFollows kind options site generator) ?_
    rintro renames events after ⟨covers, issued⟩
    have rest := ih after
    generalize planScopes kind options after _ = outcome,
      follow after (List.flatMap (scopeCalls kind options) _) = progress at rest ⊢
    cases rest with
    | failed => exact .failed
    | done good =>
      refine .done ⟨.cons covers good.1, ?_⟩
      rw [List.filterMap_append, issued, good.2, List.zip_cons_cons, List.flatMap_cons, List.map_append]

theorem preservedFollow (kind : Kind) (generator : Generator σ) (names : List String) :
    (follow generator (names.map .preserve)).fault = none ∧
      (follow generator (names.map .preserve)).generator = generator.preserveAll names ∧
      (follow generator (names.map .preserve)).events.filterMap (·.issued kind) = [] := by
  induction names generalizing generator with
  | nil => exact ⟨rfl, rfl, rfl⟩
  | cons name rest ih =>
    obtain ⟨fault, after, issued⟩ := ih (generator.preserve name)
    refine ⟨fault, after, ?_⟩
    have step : (follow generator ((name :: rest).map .preserve)).events =
        ⟨.preserve name, generator.ledger, .ok name, (generator.preserve name).ledger⟩ ::
          (follow (generator.preserve name) (rest.map .preserve)).events := rfl
    rw [step, List.filterMap_cons_none (notIssued id), issued]

structure Complete (kind : Kind) (options : PlanOptions) (tree : ScopeTree) (result : RenamePlan) : Prop where
  generator : result.generator = kind
  scopes : List.Forall₂ (Covers kind options) (numbered tree) result.scopes
  internal : result.internal.map Prod.fst = options.internalNames.eraseDups

theorem planRequests (tree : ScopeTree) (generator : Generator σ) (options : PlanOptions) :
    Follows (fun result events => Complete generator.kind options tree result ∧
        events.filterMap (·.issued generator.kind) = (made generator.kind options tree result).map Prod.snd)
      (plan tree generator options)
      (follow (generator.preserveAll (preserved generator.kind options tree))
        (requests generator.kind options tree)) := by
  rw [planSteps, requests]
  refine followsAndThen (scopesFollow generator.kind options (numbered tree) _) ?_
  rintro scopes events after ⟨covers, issued⟩
  have helpers := requestsFollow generator.kind (fun _ => Call.global options.nameLength) after
    options.internalNames.eraseDups
  change Follows _ (assign (requestHelper options) after options.internalNames.eraseDups) _ at helpers
  generalize assign (requestHelper options) after options.internalNames.eraseDups = outcome,
    follow after (options.internalNames.eraseDups.map fun _ => Call.global options.nameLength) = progress
    at helpers ⊢
  cases helpers with
  | failed => exact .failed
  | @done internal later _ named =>
    refine .done ⟨⟨rfl, covers, named.keys⟩, ?_⟩
    rw [List.filterMap_append, issued, named.issued, made, List.map_append, List.map_map]
    congr 1
    rw [allMade generator.kind (fun _ => Call.global options.nameLength) (fun _ => trivial)]
    rfl

/-- A plan follows its script, and the names it makes are the names that the script's calls issue. -/
theorem planFollows (tree : ScopeTree) (generator : Generator σ) (options : PlanOptions) :
    Follows (fun result events => Complete generator.kind options tree result ∧
        events.filterMap (·.issued generator.kind) = (made generator.kind options tree result).map Prod.snd)
      (plan tree generator options) (follow generator (calls generator.kind options tree)) := by
  obtain ⟨fault, ready, silent⟩ := preservedFollow generator.kind generator (preserved generator.kind options tree)
  have rest := planRequests tree generator options
  rw [requests] at rest
  rw [calls, followAppend, fault, ready]
  generalize plan tree generator options = outcome,
    follow (generator.preserveAll _) _ = progress at rest ⊢
  cases rest with
  | failed => exact .failed
  | done good => exact .done ⟨good.1, by rw [List.filterMap_append, silent]; exact good.2⟩

theorem planAnswers {tree : ScopeTree} {generator : Generator σ} {options : PlanOptions}
    (answered : (follow generator (calls generator.kind options tree)).fault = none) :
    ∃ result, (plan tree generator options).1 = .ok result := by
  have follows := planFollows tree generator options
  generalize plan tree generator options = outcome, follow generator _ = progress at follows answered ⊢
  cases follows with
  | failed => cases answered
  | done => exact ⟨_, rfl⟩

end Plan
end Pseudonym
