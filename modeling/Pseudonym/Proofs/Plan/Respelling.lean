import Mathlib.Data.List.Forall2
import Pseudonym.Proofs.Plan.Kept

/-! What a plan tells of the old names. Where names are made, it tells which ones are kept, how many there are
in each place and nothing else: when the rest are spelled anew, the plan fails with the same cause or gives the
same new names in the same places, and the generator ends the same. -/
namespace Pseudonym
namespace Plan

/-- The same scope with other names. A name that either of the two keeps is spelled alike in both. -/
@[mk_iff]
structure SpelledAnew (kind : Kind) (options : PlanOptions) (site other : ScopeId × Scope) : Prop where
  id : site.1 = other.1
  parent : site.2.parent = other.2.parent
  sameKind : site.2.kind = other.2.kind
  hasEval : site.2.hasEval = other.2.hasEval
  bindings : List.Forall₂ (fun name spelled =>
      (keeps kind options site.1 site.2 name = true ∨ keeps kind options other.1 other.2 spelled = true) →
        name = spelled)
    site.2.bindings other.2.bindings
  labels : site.2.labels.length = other.2.labels.length

instance (kind : Kind) (options : PlanOptions) (site other : ScopeId × Scope) :
    Decidable (SpelledAnew kind options site other) :=
  decidable_of_iff' _ (spelledAnew_iff kind options site other)

structure Respelled (kind : Kind) (options : PlanOptions) (tree other : ScopeTree) : Prop where
  globals : ∀ name, name ∈ tree.globals ↔ name ∈ other.globals
  scopes : List.Forall₂ (SpelledAnew kind options) (numbered tree) (numbered other)

theorem keepsAlike (kind : Kind) (options : PlanOptions) (id : ScopeId) {scope other : Scope}
    (hasEval : scope.hasEval = other.hasEval) : keeps kind options id scope = keeps kind options id other := by
  funext name
  rw [keeps, keeps, hasEval]

theorem filterAlike {keep : String → Bool} {names others : List String}
    (alike : List.Forall₂ (fun name other => keep name = true ∨ keep other = true → name = other) names others) :
    names.filter keep = others.filter keep := by
  induction alike with
  | nil => rfl
  | @cons name other _ _ here rest ih =>
    by_cases kept : keep name = true ∨ keep other = true
    · rw [here kept, List.filter_cons, List.filter_cons, ih]
    · obtain ⟨one, two⟩ := not_or.mp kept
      rw [List.filter_cons_of_neg one, List.filter_cons_of_neg two, ih]

theorem preservedAlike {kind : Kind} {options : PlanOptions} {tree other : ScopeTree}
    (respelled : Respelled kind options tree other) : preserved kind options tree = preserved kind options other := by
  have globals : tree.globals.toList = other.globals.toList :=
    (Std.TreeSet.Equiv.of_forall_mem_iff respelled.globals).toList_eq
  rw [preserved, preserved, globals]
  congr 1
  have scopes := respelled.scopes
  generalize numbered tree = sites, numbered other = others at scopes ⊢
  induction scopes with
  | nil => rfl
  | @cons site twin _ _ anew rest ih =>
    obtain ⟨number, scope⟩ := site
    obtain ⟨id, other⟩ := twin
    obtain ⟨rfl, _, _, hasEval, bindings, _⟩ := anew
    simp only [← keepsAlike kind options number hasEval] at bindings
    rw [List.flatMap_cons, List.flatMap_cons, ih]
    dsimp only
    rw [filterAlike bindings, keepsAlike kind options number hasEval]

def SameNews (table other : Renaming) : Prop := table.map Prod.snd = other.map Prod.snd

structure SameScope (renames other : ScopeRenames) : Prop where
  scope : renames.scope = other.scope
  sameKind : renames.kind = other.kind
  parent : renames.parent = other.parent
  bindings : SameNews renames.bindings other.bindings
  labels : SameNews renames.labels other.labels

/-- Two plans for the names of their own trees, with the same new names in the same places. -/
structure SamePlan (kind : Kind) (options : PlanOptions) (helpers : List String) (tree other : ScopeTree)
    (result twin : RenamePlan) : Prop where
  complete : Complete kind options tree result
  twinComplete : Complete kind {options with internalNames := helpers} other twin
  scopes : List.Forall₂ SameScope result.scopes twin.scopes
  internal : SameNews result.internal twin.internal

variable {σ : Type}

/-- Two outcomes that fail with the same cause or have answers alike, and end with the same generator. -/
inductive Agrees {β γ : Type} (kind : Kind) (Alike : β → γ → Prop) :
    Except NameError β × Generator σ → Except NameError γ × Generator σ → Prop where
  | failed {cause : NameError} {after : Generator σ} (sameKind : after.kind = kind) :
      Agrees kind Alike (.error cause, after) (.error cause, after)
  | done {answer : β} {other : γ} {after : Generator σ} (alike : Alike answer other) (sameKind : after.kind = kind) :
      Agrees kind Alike (.ok answer, after) (.ok other, after)

namespace Agrees

variable {β γ β' γ' : Type} {kind : Kind} {Alike : β → γ → Prop} {Also : β' → γ' → Prop}
  {outcome : Except NameError β × Generator σ} {other : Except NameError γ × Generator σ}

theorem self {outcome : Except NameError β × Generator σ} (sameKind : outcome.2.kind = kind) :
    Agrees kind Eq outcome outcome := by
  obtain ⟨answer, after⟩ := outcome
  cases answer with
  | error cause => exact .failed sameKind
  | ok answer => exact .done rfl sameKind

theorem andThen (agrees : Agrees kind Alike outcome other)
    {next : β → Generator σ → Except NameError β' × Generator σ}
    {twin : γ → Generator σ → Except NameError γ' × Generator σ}
    (later : ∀ answer again after, Alike answer again → after.kind = kind →
      Agrees kind Also (next answer after) (twin again after)) :
    Agrees kind Also (Plan.andThen outcome next) (Plan.andThen other twin) := by
  cases agrees with
  | failed sameKind => exact .failed sameKind
  | done alike sameKind => exact later _ _ _ alike sameKind

theorem withAnswers {Also : β → γ → Prop} (agrees : Agrees kind Alike outcome other)
    (also : ∀ answer again, outcome.1 = .ok answer → other.1 = .ok again → Alike answer again → Also answer again) :
    Agrees kind Also outcome other := by
  cases agrees with
  | failed sameKind => exact .failed sameKind
  | done alike sameKind => exact .done (also _ _ rfl rfl alike) sameKind

end Agrees

def AskAlike (kind : Kind) (request : Request σ) (name other : String) : Prop :=
  ∀ generator : Generator σ, generator.kind = kind → Agrees kind Eq (request generator name) (request generator other)

theorem assignAgrees {kind : Kind} {request : Request σ} {names others : List String}
    (alike : List.Forall₂ (AskAlike kind request) names others)
    {generator : Generator σ} (sameKind : generator.kind = kind) :
    Agrees kind SameNews (assign request generator names) (assign request generator others) := by
  induction alike generalizing generator with
  | nil => exact .done rfl sameKind
  | cons here rest ih =>
    rw [assignSteps, assignSteps]
    refine (here generator sameKind).andThen fun new again after same still => ?_
    refine (ih still).andThen fun table other last news kept => .done ?_ kept
    cases same
    exact congrArg (new :: ·) news

variable [RandomSource σ]

theorem bindingKind (kind : Kind) (options : PlanOptions) (id : ScopeId) (scope : Scope)
    (generator : Generator σ) (name : String) :
    (requestBinding kind options id scope generator name).2.kind = generator.kind := by
  unfold requestBinding
  split
  · rfl
  · split
    · exact generator.globalKind options.nameLength
    · exact (generator.nextAnswers options.nameLength).sameKind

theorem bindingAlike {kind : Kind} {options : PlanOptions} {id : ScopeId} {scope : Scope} {name spelled : String}
    (alike : keeps kind options id scope name = true ∨ keeps kind options id scope spelled = true → name = spelled) :
    AskAlike (σ := σ) kind (requestBinding kind options id scope) name spelled := by
  intro generator sameKind
  have self := Agrees.self ((bindingKind kind options id scope generator name).trans sameKind)
  by_cases kept : keeps kind options id scope name = true ∨ keeps kind options id scope spelled = true
  · exact alike kept ▸ self
  · obtain ⟨one, other⟩ := not_or.mp kept
    rw [requestBinding, if_neg one] at self ⊢
    rwa [requestBinding, if_neg other]

theorem labelAlike {kind : Kind} (made : kind ≠ .keepOriginal) (options : PlanOptions) (label spelled : String) :
    AskAlike (σ := σ) kind (requestLabel options) label spelled := by
  intro generator sameKind
  have asked (label : String) : requestLabel options generator label = generator.next options.nameLength :=
    Generator.labelMade (sameKind ▸ made) label options.nameLength
  rw [asked, asked]
  exact .self ((generator.nextAnswers options.nameLength).sameKind.trans sameKind)

theorem helperAlike (kind : Kind) (options : PlanOptions) (helper spelled : String) :
    AskAlike (σ := σ) kind (requestHelper options) helper spelled := by
  intro generator sameKind
  exact .self ((generator.globalKind options.nameLength).trans sameKind)

theorem scopeAgrees {kind : Kind} (made : kind ≠ .keepOriginal) {options : PlanOptions} {site other : ScopeId × Scope}
    (anew : SpelledAnew kind options site other) {generator : Generator σ} (sameKind : generator.kind = kind) :
    Agrees kind SameScope (planScope kind options generator site.1 site.2)
      (planScope kind options generator other.1 other.2) := by
  obtain ⟨id, scope⟩ := site
  obtain ⟨number, twin⟩ := other
  obtain ⟨rfl, parent, scopeKind, hasEval, bindings, labels⟩ := anew
  have keeps := keepsAlike kind options id hasEval
  have request : requestBinding (σ := σ) kind options id twin = requestBinding kind options id scope := by
    funext generator name
    rw [requestBinding, requestBinding, keeps]
  simp only [← keeps] at bindings
  rw [planScopeSteps, planScopeSteps, request]
  have bound := assignAgrees (bindings.imp fun _ _ => bindingAlike) sameKind
  refine bound.andThen fun table others after same still => ?_
  have labelled := List.forall₂_iff_zip.mpr
    ⟨labels, fun {label spelled} _ => labelAlike (σ := σ) made options label spelled⟩
  refine (assignAgrees labelled still).andThen fun names again last news kept => ?_
  exact .done ⟨rfl, scopeKind, parent, same, news⟩ kept

theorem scopesAgree {kind : Kind} (made : kind ≠ .keepOriginal) {options : PlanOptions}
    {sites others : List (ScopeId × Scope)} (anew : List.Forall₂ (SpelledAnew kind options) sites others)
    {generator : Generator σ} (sameKind : generator.kind = kind) :
    Agrees kind (List.Forall₂ SameScope) (planScopes kind options generator sites)
      (planScopes kind options generator others) := by
  induction anew generalizing generator with
  | nil => exact .done .nil sameKind
  | cons here rest ih =>
    rw [planScopesSteps, planScopesSteps]
    refine (scopeAgrees made here sameKind).andThen fun renames twin after same still => ?_
    exact (ih still).andThen fun _ _ _ later kept => .done (.cons same later) kept

theorem scopesWithout (kind : Kind) (options : PlanOptions) (helpers : List String)
    (sites : List (ScopeId × Scope)) (generator : Generator σ) :
    planScopes kind {options with internalNames := helpers} generator sites =
      planScopes kind options generator sites := by
  induction sites generalizing generator with
  | nil => rfl
  | cons site rest ih =>
    rw [planScopesSteps, planScopesSteps]
    simp only [ih]
    rfl

theorem planSpellingBlind (generator : Generator σ) (made : generator.kind ≠ .keepOriginal) (options : PlanOptions)
    {tree other : ScopeTree} (respelled : Respelled generator.kind options tree other) {helpers : List String}
    (counted : options.internalNames.eraseDups.length = helpers.eraseDups.length) :
    Agrees generator.kind (SamePlan generator.kind options helpers tree other) (plan tree generator options)
      (plan other generator {options with internalNames := helpers}) := by
  have agrees : Agrees generator.kind
      (fun result twin => List.Forall₂ SameScope result.scopes twin.scopes ∧ SameNews result.internal twin.internal)
      (plan tree generator options) (plan other generator {options with internalNames := helpers}) := by
    have ready := generator.preserveAllKind (preserved generator.kind options tree)
    have kept : preserved generator.kind {options with internalNames := helpers} other =
        preserved generator.kind options tree := (preservedAlike respelled).symm
    rw [planSteps, planSteps, kept, scopesWithout generator.kind options helpers (numbered other)]
    refine (scopesAgree made respelled.scopes ready).andThen fun scopes others after same still => ?_
    have helped := List.forall₂_iff_zip.mpr
      ⟨counted, fun {helper spelled} _ => helperAlike (σ := σ) generator.kind options helper spelled⟩
    refine (assignAgrees helped still).andThen fun internal again last news kept => ?_
    exact .done ⟨same, news⟩ kept
  refine agrees.withAnswers fun result twin planned again same => ?_
  exact ⟨(planSeparates planned).complete, (planSeparates again).complete, same.1, same.2⟩

def spelledTree (first second loop late : String) : ScopeTree :=
  let block : ScopeOutline := ⟨.block, [first], [second], [loop], false, []⟩
  let dynamic : ScopeOutline := ⟨.function, ["seen"], [], [late], true, []⟩
  ProgramOutline.tree ⟨["a"], [], ⟨.global, ["main"], [], [], false,
    [⟨.function, [first, "fixed"], [], [], false, [block]⟩, dynamic]⟩⟩

def plainTree : ScopeTree := spelledTree "first" "second" "outer" "again"

/-- The names that are not kept are spelled like some that a mangler makes. -/
def mangledTree : ScopeTree := spelledTree "c" "b" "e" "c"

def plainOptions : PlanOptions := {reserved := ["fixed"], internalNames := ["helper", "helper", "other"]}

theorem plainPlanBlind :
    (mangler.kind ≠ .keepOriginal ∧ Respelled mangler.kind plainOptions plainTree mangledTree ∧
        plainOptions.internalNames.eraseDups.length = ["g", "f", "g"].eraseDups.length) ∧
      (plan plainTree mangler plainOptions).1.toOption.isSome = true ∧
      Agrees mangler.kind (SamePlan mangler.kind plainOptions ["g", "f", "g"] plainTree mangledTree)
        (plan plainTree mangler plainOptions)
        (plan mangledTree mangler {plainOptions with internalNames := ["g", "f", "g"]}) := by
  have respelled : Respelled mangler.kind plainOptions plainTree mangledTree := by
    constructor
    case globals =>
      intro name
      have same : plainTree.globals.toList = mangledTree.globals.toList := by decide +kernel
      rw [← Std.TreeSet.mem_toList, same, Std.TreeSet.mem_toList]
    case scopes => decide +kernel
  have counted : plainOptions.internalNames.eraseDups.length = ["g", "f", "g"].eraseDups.length := rfl
  exact ⟨⟨nofun, respelled, counted⟩, by decide +kernel,
    planSpellingBlind mangler nofun plainOptions respelled counted⟩

end Plan
end Pseudonym
