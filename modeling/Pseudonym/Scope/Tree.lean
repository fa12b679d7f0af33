import Pseudonym.NameSet
import Pseudonym.Scope.Kind

/-! The scopes of one program. A tree is what a list of building calls leaves behind: each call adds
a scope, declares a name, or marks dynamic code. -/
namespace Pseudonym

structure Scope where
  parent : Option ScopeId
  kind : ScopeKind
  bindings : List String
  labels : List String
  hasEval : Bool
  children : List ScopeId
  deriving DecidableEq, Repr

namespace Scope

def fresh (kind : ScopeKind) (parent : Option ScopeId) : Scope := ⟨parent, kind, [], [], false, []⟩

def declare (names : List String) (name : String) : List String :=
  if name ∈ names then names else names ++ [name]

def bind (name : String) (scope : Scope) : Scope := {scope with bindings := declare scope.bindings name}

def label (name : String) (scope : Scope) : Scope := {scope with labels := declare scope.labels name}

def mark (scope : Scope) : Scope := {scope with hasEval := true}

def adopt (child : ScopeId) (scope : Scope) : Scope := {scope with children := scope.children ++ [child]}

end Scope

/-- A scope and those around it, from the inside out. Parents come before their children, so the walk
goes on to smaller numbers only; a scope that is its own parent ends it. -/
def lineage (parent : ScopeId → Option ScopeId) (id : ScopeId) : List ScopeId :=
  id :: match parent id with
    | some outer => if outer < id then lineage parent outer else []
    | none => []

structure ScopeTree where
  scopes : Array Scope
  globals : NameSet

namespace ScopeTree

def root : ScopeId := 0

def empty : ScopeTree := ⟨#[.fresh .global none], ∅⟩

instance : Inhabited ScopeTree := ⟨empty⟩

def size (tree : ScopeTree) : Nat := tree.scopes.size

def parent (tree : ScopeTree) (id : ScopeId) : Option ScopeId := tree.scopes[id]?.bind (·.parent)

def ancestors (tree : ScopeTree) (id : ScopeId) : List ScopeId := lineage tree.parent id

def holdsVars (tree : ScopeTree) (id : ScopeId) : Bool := tree.scopes[id]?.any (·.kind.holdsVars)

def hoistTarget (tree : ScopeTree) (id : ScopeId) : ScopeId :=
  ((tree.ancestors id).find? tree.holdsVars).getD id

def hasEval (tree : ScopeTree) (id : ScopeId) : Bool := tree.scopes[id]?.any (·.hasEval)

def update (tree : ScopeTree) (id : ScopeId) (change : Scope → Scope) : ScopeTree :=
  {tree with scopes := tree.scopes.modify id change}

inductive Call where
  | scope (kind : ScopeKind) (parent : ScopeId)
  | binding (name : String) (scope : ScopeId)
  | variable (name : String) (scope : ScopeId)
  | label (name : String) (scope : ScopeId)
  | eval (scope : ScopeId)
  | reference (name : String)
  deriving DecidableEq, Repr

/-- Whether a call speaks of scopes that are there. A new scope counts as there already when its
parent is looked up. -/
def Fits (tree : ScopeTree) : Call → Prop
  | .scope _ parent => parent ≤ tree.size
  | .binding _ scope | .variable _ scope | .label _ scope | .eval scope => scope < tree.size
  | .reference _ => True

instance (tree : ScopeTree) (call : Call) : Decidable (tree.Fits call) := by
  cases call <;> unfold Fits <;> infer_instance

def extend (tree : ScopeTree) : Call → ScopeTree
  | .scope kind parent =>
      {tree with scopes := (tree.scopes.push (.fresh kind (some parent))).modify parent (.adopt tree.size)}
  | .binding name scope => tree.update scope (.bind name)
  | .variable name scope => tree.update (tree.hoistTarget scope) (.bind name)
  | .label name scope => tree.update scope (.label name)
  | .eval scope => (tree.ancestors scope).foldl (fun tree id => tree.update id .mark) tree
  | .reference name => {tree with globals := tree.globals.insert name}

def extend? (tree : ScopeTree) (call : Call) : Option ScopeTree :=
  if tree.Fits call then some (tree.extend call) else none

def extendAll (tree : ScopeTree) (calls : List Call) : ScopeTree := calls.foldl extend tree

end ScopeTree
end Pseudonym
