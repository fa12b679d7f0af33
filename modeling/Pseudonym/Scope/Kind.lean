/-! Sorts of scopes, and the numbers scopes go by. -/
namespace Pseudonym

abbrev ScopeId := Nat

inductive ScopeKind where
  | global
  | function
  | block
  | catching
  deriving DecidableEq, Repr

namespace ScopeKind

instance : Inhabited ScopeKind := ⟨.block⟩

def all : List ScopeKind := [.global, .function, .block, .catching]

def token : ScopeKind → String
  | .global => "global"
  | .function => "function"
  | .block => "block"
  | .catching => "catch"

def caption : ScopeKind → String
  | .global => "Global"
  | .function => "Function"
  | .block => "Block"
  | .catching => "Catch"

def ofToken? (token : String) : Option ScopeKind := all.find? (·.token == token)

def holdsVars : ScopeKind → Bool
  | .global | .function => true
  | .block | .catching => false

theorem ofTokenToken (kind : ScopeKind) : ofToken? kind.token = some kind := by
  cases kind <;> decide

end ScopeKind
end Pseudonym
