/-! JSON values. Numbers that are not written in digits alone keep their spelling, and a string
with an unpaired surrogate escape spells no text. -/
namespace Pseudonym

inductive Scalar where
  | null
  | bool (value : Bool)
  | natural (value : Nat)
  | decimal (spelling : String)
  | text (content : Option String)
  deriving DecidableEq, Repr

inductive Json where
  | scalar (value : Scalar)
  | array (items : List Json)
  | object (members : List (Option String × Json))
  deriving Repr

namespace Json

instance : Inhabited Json := ⟨.scalar .null⟩

def null : Json := .scalar .null

def ofBool (value : Bool) : Json := .scalar (.bool value)

def ofNat (value : Nat) : Json := .scalar (.natural value)

def ofText (content : String) : Json := .scalar (.text (some content))

def ofOption {α : Type} (write : α → Json) : Option α → Json
  | none => null
  | some value => write value

def ofList {α : Type} (write : α → Json) (items : List α) : Json := .array (items.map write)

def ofTexts (texts : List String) : Json := ofList ofText texts

def record (members : List (String × Json)) : Json :=
  .object (members.map fun (key, value) => (some key, value))

end Json
end Pseudonym
