import Pseudonym.Generator
import Pseudonym.Scope.Tree

/-! Plans for renaming a program. Names that have to stay are preserved first; then every scope, from
the outside in, gets new names for the rest; helpers get theirs last. -/
namespace Pseudonym

structure PlanOptions where
  renameGlobals : Bool := false
  reserved : List String := []
  internalNames : List String := []
  nameLength : Option Nat := none
  deriving DecidableEq, Repr, Inhabited

def PlanOptions.ofNameOptions (options : NameOptions) (internalNames : List String) : PlanOptions :=
  ⟨options.renameGlobals, options.reserved, internalNames, options.nameLength.map UInt64.toNat⟩

abbrev Renaming := List (String × String)

structure ScopeRenames where
  scope : ScopeId
  kind : ScopeKind
  parent : Option ScopeId
  bindings : Renaming
  labels : Renaming
  deriving DecidableEq, Repr

structure RenamePlan where
  generator : Kind
  scopes : List ScopeRenames
  internal : Renaming
  deriving DecidableEq, Repr

namespace RenamePlan

def parent (plan : RenamePlan) (id : ScopeId) : Option ScopeId := plan.scopes[id]?.bind (·.parent)

def resolve (plan : RenamePlan) (id : ScopeId) (name : String) : Option String :=
  (lineage plan.parent id).findSome? fun id => plan.scopes[id]?.bind (·.bindings.lookup name)

def resolveLabel (plan : RenamePlan) (id : ScopeId) (label : String) : Option String :=
  (lineage plan.parent id).findSome? fun id => plan.scopes[id]?.bind (·.labels.lookup label)

def renamedCount (plan : RenamePlan) : Nat :=
  (plan.scopes.flatMap fun scope => scope.bindings ++ scope.labels).countP fun (old, new) => old != new

end RenamePlan

namespace Plan

/-- Whether a binding keeps its name: the strategy keeps all names, dynamic code may ask for this one,
the user reserves it, or it is global and globals stay. -/
def keeps (kind : Kind) (options : PlanOptions) (id : ScopeId) (scope : Scope) (name : String) : Bool :=
  kind == .keepOriginal || scope.hasEval || options.reserved.contains name ||
    (id == ScopeTree.root && !options.renameGlobals)

def numbered (tree : ScopeTree) : List (ScopeId × Scope) := tree.scopes.toList.zipIdx.map Prod.swap

def preserved (kind : Kind) (options : PlanOptions) (tree : ScopeTree) : List String :=
  tree.globals.toList ++ options.reserved ++
    (numbered tree).flatMap fun (id, scope) => scope.bindings.filter (keeps kind options id scope)

variable {σ : Type} [RandomSource σ]

abbrev Request (σ : Type) := Generator σ → String → Except NameError String × Generator σ

def assign (request : Request σ) (generator : Generator σ) :
    List String → Except NameError Renaming × Generator σ
  | [] => (.ok [], generator)
  | name :: rest =>
      match request generator name with
      | (.error cause, generator) => (.error cause, generator)
      | (.ok new, generator) =>
          match assign request generator rest with
          | (.error cause, generator) => (.error cause, generator)
          | (.ok others, generator) => (.ok ((name, new) :: others), generator)

def requestBinding (kind : Kind) (options : PlanOptions) (id : ScopeId) (scope : Scope) : Request σ :=
  fun generator name =>
    if keeps kind options id scope name then (.ok name, generator)
    else if id = ScopeTree.root then generator.forGlobal options.nameLength
    else generator.forScope id options.nameLength

def requestLabel (options : PlanOptions) : Request σ :=
  fun generator label => generator.forLabel label options.nameLength

def requestHelper (options : PlanOptions) : Request σ :=
  fun generator _ => generator.forGlobal options.nameLength

def planScope (kind : Kind) (options : PlanOptions) (generator : Generator σ) (id : ScopeId) (scope : Scope) :
    Except NameError ScopeRenames × Generator σ :=
  match assign (requestBinding kind options id scope) generator scope.bindings with
  | (.error cause, generator) => (.error cause, generator)
  | (.ok bindings, generator) =>
      match assign (requestLabel options) generator scope.labels with
      | (.error cause, generator) => (.error cause, generator)
      | (.ok labels, generator) => (.ok ⟨id, scope.kind, scope.parent, bindings, labels⟩, generator)

def planScopes (kind : Kind) (options : PlanOptions) (generator : Generator σ) :
    List (ScopeId × Scope) → Except NameError (List ScopeRenames) × Generator σ
  | [] => (.ok [], generator)
  | (id, scope) :: rest =>
      match planScope kind options generator id scope with
      | (.error cause, generator) => (.error cause, generator)
      | (.ok renames, generator) =>
          match planScopes kind options generator rest with
          | (.error cause, generator) => (.error cause, generator)
          | (.ok others, generator) => (.ok (renames :: others), generator)

end Plan

/-- Plans the renaming of a program's names. The generator keeps what it gave out, also when some
request fails. -/
def plan {σ : Type} [RandomSource σ] (tree : ScopeTree) (generator : Generator σ) (options : PlanOptions) :
    Except NameError RenamePlan × Generator σ :=
  let kind := generator.kind
  let generator := generator.preserveAll (Plan.preserved kind options tree)
  match Plan.planScopes kind options generator (Plan.numbered tree) with
  | (.error cause, generator) => (.error cause, generator)
  | (.ok scopes, generator) =>
      match Plan.assign (Plan.requestHelper options) generator options.internalNames.eraseDups with
      | (.error cause, generator) => (.error cause, generator)
      | (.ok internal, generator) => (.ok ⟨kind, scopes, internal⟩, generator)

end Pseudonym
