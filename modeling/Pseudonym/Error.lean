import Pseudonym.Kind

/-! Causes for which a generator cannot be built or a name cannot be made, and their wording. -/
namespace Pseudonym

inductive OptionFault where
  | noAttempts
  | nameLength
  | noWords
  deriving DecidableEq, Repr

namespace OptionFault

def option : OptionFault → String
  | .noAttempts => "maxAttempts"
  | .nameLength => "nameLength"
  | .noWords => "identifiersDictionary"

def reason : OptionFault → String
  | .noAttempts => "must be at least 1"
  | .nameLength => "must be between 1 and 64"
  | .noWords => "contains no word usable as an identifier"

end OptionFault

inductive NameError where
  | unknownGenerator (token : String)
  | exhausted (label : String) (attempts : Nat)
  | invalidPrefix (given : String)
  | invalidOption (fault : OptionFault)
  deriving DecidableEq, Repr

namespace NameError

def knownTokens : String := ", ".intercalate (Kind.all.map Kind.token)

def message : NameError → String
  | .unknownGenerator token =>
      s!"Unknown identifier names generator `{token}` (expected one of: {knownTokens})"
  | .exhausted label attempts => s!"{label} generator gave up after {attempts} invalid candidates"
  | .invalidPrefix given => s!"Identifiers prefix `{given}` is not a valid identifier"
  | .invalidOption fault => s!"Invalid value for option `{fault.option}`: {fault.reason}"

end NameError
end Pseudonym
