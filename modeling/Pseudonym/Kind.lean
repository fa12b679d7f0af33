/-! The ways of making names, with the tokens that select them. -/
namespace Pseudonym

inductive Kind where
  | dictionary
  | hexadecimal
  | keepOriginal
  | mangled
  | mangledShuffled
  deriving DecidableEq, Repr

namespace Kind

def all : List Kind := [.dictionary, .hexadecimal, .keepOriginal, .mangled, .mangledShuffled]

def token : Kind → String
  | .dictionary => "dictionary"
  | .hexadecimal => "hexadecimal"
  | .keepOriginal => "keep-original"
  | .mangled => "mangled"
  | .mangledShuffled => "mangled-shuffled"

/-- The name by which a dump of a generator's state calls its kind. -/
def caption : Kind → String
  | .dictionary => "Dictionary"
  | .hexadecimal => "Hexadecimal"
  | .keepOriginal => "KeepOriginal"
  | .mangled => "Mangled"
  | .mangledShuffled => "MangledShuffled"

def description : Kind → String
  | .dictionary => "words from the identifiers dictionary, suffixed once exhausted"
  | .hexadecimal => "random `_0x`-prefixed hexadecimal names"
  | .keepOriginal => "keep source names; hexadecimal names for internal helpers"
  | .mangled => "shortest unused names: a, b, ..., Z, aa, ba, ..."
  | .mangledShuffled => "mangled names over a per-session shuffled alphabet"

def ofToken? (token : String) : Option Kind := all.find? (·.token == token)

theorem ofTokenToken (kind : Kind) : ofToken? kind.token = some kind := by
  cases kind <;> decide

theorem tokenOfToken {token : String} {kind : Kind} (found : ofToken? token = some kind) :
    kind.token = token := by
  simpa using List.find?_some found

end Kind
end Pseudonym
