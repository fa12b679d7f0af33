import Pseudonym.Digest.Blake3
import Pseudonym.Text.Blank
import Pseudonym.Text.Numeral

/-! Seeds as users write them: a number, or any text. Text that spells a number is that number,
and all other text counts by its digest. -/
namespace Pseudonym

inductive Seed where
  | number (value : UInt64)
  | text (content : String)
  deriving DecidableEq, Repr

namespace Seed

def context : String := "jsveil 2024 identifier-names seed"

def hashed (content : String) : UInt64 := Blake3.leading (Blake3.derive context content.toUTF8)

/-- White space around a number does not count; the digest is that of the whole text. -/
def ofText (content : String) : UInt64 :=
  (Numeral.read? (Blank.trim content.toList)).getD (hashed content)

def value : Seed → UInt64
  | .number value => value
  | .text content => ofText content

end Seed
end Pseudonym
