import Pseudonym.Document
import Pseudonym.Json.Decode
import Pseudonym.Json.Reader
import Pseudonym.Options

/-! Name options as a JSON document. Every member may be missing and then has its default. -/
namespace Pseudonym

namespace DrawOrder

def ofToken? (token : String) : Option DrawOrder := [sequential, random].find? (·.token == token)

end DrawOrder

namespace Seed

def decode : Decoder Seed := fun levels value =>
  match value with
  | .scalar (.text _) => (Decoder.text levels value).map text
  | _ => (Decoder.uint64 levels value).map number

def toJson : Seed → Json
  | .number value => .ofNat value.toNat
  | .text content => .ofText content

end Seed

namespace NameOptions

def keys : List String :=
  ["identifierNamesGenerator", "identifiersPrefix", "identifiersDictionary", "dictionaryOrder", "seed",
    "reservedNames", "renameGlobals", "maxAttempts", "nameLength"]

def decode : Decoder NameOptions :=
  Decoder.record keys fun levels members => do
    let base : NameOptions := {}
    let generator ← Decoder.field levels members "identifierNamesGenerator" Decoder.text base.generator
    let globalPrefix ← Decoder.field levels members "identifiersPrefix" Decoder.text base.globalPrefix
    let dictionary ← Decoder.field levels members "identifiersDictionary" Decoder.texts base.dictionary
    let order ← Decoder.field levels members "dictionaryOrder" (Decoder.choice DrawOrder.ofToken?) base.order
    let seed ← Decoder.field levels members "seed" (Decoder.option Seed.decode) base.seed
    let reserved ← Decoder.field levels members "reservedNames" Decoder.texts base.reserved
    let renameGlobals ← Decoder.field levels members "renameGlobals" Decoder.bool base.renameGlobals
    let maxAttempts ← Decoder.field levels members "maxAttempts" Decoder.uint32 base.maxAttempts
    let nameLength ← Decoder.field levels members "nameLength" (Decoder.option Decoder.uint64) base.nameLength
    some ⟨generator, globalPrefix, dictionary, order, seed, reserved, renameGlobals, maxAttempts, nameLength⟩

def ofJson? (value : Json) : Option NameOptions := decode Decoder.maxLevels value

def read? (content : String) : Option NameOptions := (Json.read? content).bind ofJson?

def toJson (options : NameOptions) : Json :=
  .record [("identifierNamesGenerator", .ofText options.generator),
    ("identifiersPrefix", .ofText options.globalPrefix),
    ("identifiersDictionary", .ofTexts options.dictionary),
    ("dictionaryOrder", .ofText options.order.token),
    ("seed", .ofOption Seed.toJson options.seed),
    ("reservedNames", .ofTexts options.reserved),
    ("renameGlobals", .ofBool options.renameGlobals),
    ("maxAttempts", .ofNat options.maxAttempts.toNat),
    ("nameLength", .ofOption (fun length => .ofNat length.toNat) options.nameLength)]

end NameOptions
end Pseudonym
