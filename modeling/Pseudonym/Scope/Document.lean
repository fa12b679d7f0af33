import Pseudonym.Document
import Pseudonym.Json.Decode
import Pseudonym.Json.Reader
import Pseudonym.Scope.Outline

/-! Outlines of programs as JSON documents. Every member may be missing and then has its default; each
scope inside another takes two levels of nesting. -/
namespace Pseudonym
namespace ScopeOutline

def keys : List String := ["kind", "bindings", "vars", "labels", "hasEval", "children"]

def decodeWith (child : Decoder ScopeOutline) : Decoder ScopeOutline :=
  Decoder.record keys fun levels members => do
    let base : ScopeOutline := {}
    let kind ← Decoder.field levels members "kind" (Decoder.choice ScopeKind.ofToken?) base.kind
    let bindings ← Decoder.field levels members "bindings" Decoder.texts base.bindings
    let vars ← Decoder.field levels members "vars" Decoder.texts base.vars
    let labels ← Decoder.field levels members "labels" Decoder.texts base.labels
    let hasEval ← Decoder.field levels members "hasEval" Decoder.bool base.hasEval
    let children ← Decoder.field levels members "children" (Decoder.list child) base.children
    some ⟨kind, bindings, vars, labels, hasEval, children⟩

def decode : Decoder ScopeOutline
  | levels + 2, value => decodeWith (fun _ => decode levels) (levels + 2) value
  | levels, value => decodeWith (fun _ _ => none) levels value

mutual

def toJson : ScopeOutline → Json
  | ⟨kind, bindings, vars, labels, hasEval, children⟩ =>
      .record [("kind", .ofText kind.token), ("bindings", .ofTexts bindings), ("vars", .ofTexts vars),
        ("labels", .ofTexts labels), ("hasEval", .ofBool hasEval), ("children", .array (childrenJson children))]

def childrenJson : List ScopeOutline → List Json
  | [] => []
  | child :: rest => child.toJson :: childrenJson rest

end

end ScopeOutline

namespace ProgramOutline

def keys : List String := ["globals", "internalNames", "scope"]

def decode : Decoder ProgramOutline :=
  Decoder.record keys fun levels members => do
    let base : ProgramOutline := {}
    let globals ← Decoder.field levels members "globals" Decoder.texts base.globals
    let internalNames ← Decoder.field levels members "internalNames" Decoder.texts base.internalNames
    let scope ← Decoder.field levels members "scope" ScopeOutline.decode base.scope
    some ⟨globals, internalNames, scope⟩

def ofJson? (value : Json) : Option ProgramOutline := decode Decoder.maxLevels value

def read? (content : String) : Option ProgramOutline := (Json.read? content).bind ofJson?

def toJson (program : ProgramOutline) : Json :=
  .record [("globals", .ofTexts program.globals), ("internalNames", .ofTexts program.internalNames),
    ("scope", program.scope.toJson)]

end ProgramOutline
end Pseudonym
