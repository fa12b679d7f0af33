import Pseudonym.Error
import Pseudonym.HexName
import Pseudonym.Identifier
import Pseudonym.Seed
import Pseudonym.WordPool

/-! What a session can be told: how names are made, what they start with and what they avoid. -/
namespace Pseudonym

structure NameOptions where
  generator : String := Kind.hexadecimal.token
  globalPrefix : String := ""
  dictionary : List String := []
  order : DrawOrder := .sequential
  seed : Option Seed := none
  reserved : List String := []
  renameGlobals : Bool := false
  maxAttempts : UInt32 := 200
  nameLength : Option UInt64 := none
  deriving DecidableEq, Repr, Inhabited

namespace NameOptions

def PrefixFits (options : NameOptions) : Prop :=
  options.globalPrefix = "" ∨ Identifier.isGrammatical options.globalPrefix

def LengthFits (options : NameOptions) : Prop :=
  ∀ length ∈ options.nameLength, 1 ≤ length.toNat ∧ length.toNat ≤ HexName.maxWidth

instance (options : NameOptions) : Decidable options.PrefixFits := by
  unfold PrefixFits; infer_instance

instance (options : NameOptions) : Decidable options.LengthFits :=
  @Option.decidableForallMem _ _ (fun _ => inferInstanceAs (Decidable (_ ∧ _))) options.nameLength

/-- The first fault among those that show without building a generator. -/
def validate (options : NameOptions) : Except NameError Unit :=
  if ¬options.PrefixFits then .error (.invalidPrefix options.globalPrefix)
  else if options.maxAttempts = 0 then .error (.invalidOption .noAttempts)
  else if ¬options.LengthFits then .error (.invalidOption .nameLength)
  else .ok ()

def seedValue (options : NameOptions) : Option UInt64 := options.seed.map Seed.value

end NameOptions
end Pseudonym
