import Pseudonym.Json.Value

/-! Decoders of JSON values. Each is told how many containers may still be opened, and refuses a value
that nests deeper; values that nobody decodes may nest as they like. -/
namespace Pseudonym

/-- Takes the number of levels left and a value. -/
abbrev Decoder (α : Type) := Nat → Json → Option α

namespace Decoder

def maxLevels : Nat := 127

def bool : Decoder Bool
  | _, .scalar (.bool value) => some value
  | _, _ => none

def text : Decoder String
  | _, .scalar (.text content) => content
  | _, _ => none

def natural (bound : Nat) : Decoder Nat
  | _, .scalar (.natural value) => if value < bound then some value else none
  | _, _ => none

def uint32 : Decoder UInt32 := fun levels value => (natural UInt32.size levels value).map UInt32.ofNat

def uint64 : Decoder UInt64 := fun levels value => (natural UInt64.size levels value).map UInt64.ofNat

def option {α : Type} (decode : Decoder α) : Decoder (Option α)
  | _, .scalar .null => some none
  | levels, value => (decode levels value).map some

def list {α : Type} (decode : Decoder α) : Decoder (List α)
  | levels + 1, .array items => items.mapM (decode levels)
  | _, _ => none

def texts : Decoder (List String) := list text

def choice {α : Type} (ofToken? : String → Option α) : Decoder α
  | _, .scalar (.text (some token)) => ofToken? token
  | _ + 1, .object [(some token, .scalar .null)] => ofToken? token
  | _, _ => none

abbrev Record := List (String × Json)

def named (names : List String) : List (Option String × Json) → Option Record
  | [] => some []
  | (none, _) :: _ => none
  | (some key, value) :: rest => do
      let others ← named names rest
      if key ∉ names then some others
      else if others.any (·.1 == key) then none
      else some ((key, value) :: others)

/-- A record is an object, or an array of its values in the order of the names, the last of which
may be missing. -/
def record {α : Type} (names : List String) (decode : Nat → Record → Option α) : Decoder α
  | levels + 1, .object members => (named names members).bind (decode levels)
  | levels + 1, .array items =>
      if items.length ≤ names.length then decode levels (names.zip items) else none
  | _, _ => none

def field {α : Type} (levels : Nat) (members : Record) (name : String) (decode : Decoder α) (default : α) :
    Option α :=
  match members.lookup name with
  | none => some default
  | some value => decode levels value

end Decoder
end Pseudonym
