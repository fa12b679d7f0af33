import Pseudonym.Json.Value
import Pseudonym.Plan

/-! Plans as JSON. New names are listed by old ones in code point order, whatever the order of
declaration. -/
namespace Pseudonym

namespace Renaming

def sorted (renames : Renaming) : Renaming := renames.mergeSort fun one other => one.1 ≤ other.1

def toJson (renames : Renaming) : Json :=
  .record (renames.sorted.map fun (old, new) => (old, .ofText new))

end Renaming

def ScopeRenames.toJson (scope : ScopeRenames) : Json :=
  .record [("scope", .ofNat scope.scope), ("kind", .ofText scope.kind.token),
    ("parent", .ofOption .ofNat scope.parent), ("bindings", Renaming.toJson scope.bindings),
    ("labels", Renaming.toJson scope.labels)]

namespace RenamePlan

def members (plan : RenamePlan) : List (String × Json) :=
  [("generator", .ofText plan.generator.token), ("scopes", .ofList ScopeRenames.toJson plan.scopes),
    ("internal", Renaming.toJson plan.internal)]

def toJson (plan : RenamePlan) : Json := .record plan.members

end RenamePlan
end Pseudonym
