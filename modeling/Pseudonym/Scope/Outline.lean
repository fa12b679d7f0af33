import Pseudonym.Scope.Tree

/-! Programs as their users describe them: nested outlines of scopes. An outline is read as the list
of calls that build its tree, scopes numbered in the order of the outline. -/
namespace Pseudonym

structure ScopeOutline where
  kind : ScopeKind := .block
  bindings : List String := []
  vars : List String := []
  labels : List String := []
  hasEval : Bool := false
  children : List ScopeOutline := []
  deriving Repr, Inhabited

structure ProgramOutline where
  globals : List String := []
  internalNames : List String := []
  scope : ScopeOutline := {}
  deriving Repr, Inhabited

namespace ScopeOutline

def ownCalls (outline : ScopeOutline) (id : ScopeId) : List ScopeTree.Call :=
  outline.bindings.map (.binding · id) ++ outline.vars.map (.variable · id) ++
    outline.labels.map (.label · id) ++ if outline.hasEval then [.eval id] else []

mutual

/-- The calls for scope `id`, when the next new scope has the number `next`; and the number after. -/
def calls (id next : ScopeId) : ScopeOutline → List ScopeTree.Call × ScopeId
  | ⟨kind, bindings, vars, labels, hasEval, children⟩ =>
      let (below, next) := childCalls id next children
      (ownCalls ⟨kind, bindings, vars, labels, hasEval, []⟩ id ++ below, next)

def childCalls (parent next : ScopeId) : List ScopeOutline → List ScopeTree.Call × ScopeId
  | [] => ([], next)
  | child :: rest =>
      let (inner, after) := calls next (next + 1) child
      let (others, last) := childCalls parent after rest
      (.scope child.kind parent :: inner ++ others, last)

end

end ScopeOutline

namespace ProgramOutline

/-- The outermost scope is the global one, whatever its outline calls it. -/
def calls (program : ProgramOutline) : List ScopeTree.Call :=
  program.globals.map .reference ++ (program.scope.calls ScopeTree.root 1).1

def tree (program : ProgramOutline) : ScopeTree := ScopeTree.empty.extendAll program.calls

end ProgramOutline
end Pseudonym
