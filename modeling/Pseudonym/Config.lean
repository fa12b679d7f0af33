import Pseudonym.Json.Value

/-! Where a run takes place and how much it logs. Relative paths start at the working directory. -/
namespace Pseudonym

structure Config where
  cwd : String
  jsonLogs : Bool := false
  verbosity : Nat := 0
  deriving DecidableEq, Repr

namespace Config

def isAbsolute (path : String) : Bool := path.startsWith "/"

def join (base path : String) : String :=
  if base.isEmpty || base.endsWith "/" then base ++ path else base ++ "/" ++ path

def resolve (config : Config) (path : String) : String :=
  if isAbsolute path then path else join config.cwd path

def toJson (config : Config) : Json :=
  .record [("cwd", .ofText config.cwd), ("json_logs", .ofBool config.jsonLogs),
    ("verbosity", .ofNat config.verbosity)]

end Config
end Pseudonym
