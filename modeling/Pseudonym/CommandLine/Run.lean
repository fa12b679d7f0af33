import Pseudonym.CommandLine.Arguments
import Pseudonym.Config
import Pseudonym.Digest.Blake3
import Pseudonym.Json.Layout
import Pseudonym.Options.Document
import Pseudonym.Plan.Document
import Pseudonym.Random.Seeded
import Pseudonym.Release
import Pseudonym.Scope.Document

/-! Running the command line. A run reads files through a function, and its whole effect is an exit code,
an output, and a notice about what went wrong. -/
namespace Pseudonym.CommandLine

structure Outcome where
  exitCode : UInt8
  output : String
  notice : String
  deriving DecidableEq, Repr

structure World where
  file : String → Option ByteArray
  cwd : String
  generator : Option String
  /-- The seed of runs that are given none. -/
  entropy : UInt64

inductive Failure where
  | document (fault : LoadFault)
  | naming (cause : NameError)
  | tooMany
  deriving DecidableEq, Repr

def Failure.message : Failure → String
  | .document .missing => "a file is missing"
  | .document .notText => "a file is not UTF-8 text"
  | .document .malformed => "a file does not follow its format"
  | .naming cause => cause.message
  | .tooMany => "a list cannot hold that many names"

def Failure.exitCode : Failure → UInt8
  | .document _ | .naming _ => 1
  | .tooMany => 101

/-- The names that a list can hold: each takes 24 bytes, and a list takes less than 2 ^ 63. -/
def maxCount : Nat := (UInt64.size / 2 - 1) / 24

def line (content : String) : String := content ++ "\n"

def padTo (width : Nat) (content : String) : String :=
  content ++ String.ofList (List.replicate (width - content.length) ' ')

def listing : String :=
  String.join (Kind.all.map fun kind => line ("  " ++ padTo 18 kind.token ++ " " ++ kind.description))

def listingJson : Json :=
  .record [("generators", .ofList (fun kind =>
    .record [("description", .ofText kind.description), ("token", .ofText kind.token)]) Kind.all)]

/-- The options of a configuration file, if there is one, with those of the command line put over them;
reserved names add up. -/
def GeneratorArguments.options (arguments : GeneratorArguments) (world : World) (config : Config) :
    Except Failure NameOptions := do
  let base ← match arguments.config with
    | none => .ok {}
    | some path => (load NameOptions.read? (world.file (config.resolve path))).mapError .document
  .ok {base with
    generator := arguments.generator.getD base.generator
    globalPrefix := arguments.globalPrefix.getD base.globalPrefix
    seed := (arguments.seed.map Seed.text).or base.seed
    nameLength := arguments.length.or base.nameLength
    reserved := base.reserved ++ arguments.reserved
    dictionary := if arguments.dictionary.isEmpty then base.dictionary else arguments.dictionary}

def generator (world : World) (options : NameOptions) : Except Failure (Generator Seeded) :=
  (Generator.ofOptions options (.ofSeed (options.seedValue.getD world.entropy))).mapError .naming

def request (kind : NameKind) (label : Option String) (scope : ScopeId) (length : Option Nat) (index : Nat)
    (generator : Generator Seeded) : Except NameError String × Generator Seeded :=
  match kind with
  | .global => generator.forGlobal length
  | .lexical => generator.forScope scope length
  | .label => generator.forLabel (label.getD ("label" ++ toString index)) length

def collect (ask : Nat → Generator Seeded → Except NameError String × Generator Seeded) (read : List String)
    (index : Nat) (generator : Generator Seeded) : Nat → Except NameError (List String)
  | 0 => .ok read.reverse
  | count + 1 =>
      match ask index generator with
      | (.error cause, _) => .error cause
      | (.ok name, generator) => collect ask (name :: read) (index + 1) generator count

def namesJson (kind : Kind) (request : NameKind) (names : List String) : Json :=
  .record [("schema_version", .ofNat Release.outputSchema), ("generator", .ofText kind.token),
    ("kind", .ofText request.token), ("names", .ofTexts names)]

def planJson (plan : RenamePlan) (digest : String) (seed : Option UInt64) : Json :=
  .record ([("schema_version", .ofNat Release.outputSchema), ("input_hash", .ofText digest),
    ("seed", .ofOption (fun seed => .ofNat seed.toNat) seed), ("renamed", .ofNat plan.renamedCount)] ++
    plan.members)

def scopeText (scope : ScopeRenames) : String :=
  if scope.bindings.isEmpty && scope.labels.isEmpty then ""
  else
    line "" ++ line s!"scope {scope.scope} ({scope.kind.caption})" ++
      String.join ((Renaming.sorted scope.bindings).map fun (old, new) =>
        line (s!"  {old} -> {new}" ++ if old = new then "  (kept)" else "")) ++
      String.join ((Renaming.sorted scope.labels).map fun (old, new) => line s!"  {old}: -> {new}:")

def planText (plan : RenamePlan) (digest : String) : String :=
  line s!"generator: {plan.generator.token}" ++ line s!"input:     {digest}" ++
    line s!"renamed:   {plan.renamedCount}" ++ String.join (plan.scopes.map scopeText) ++
    if plan.internal.isEmpty then ""
    else line "" ++ line "internal" ++
      String.join ((Renaming.sorted plan.internal).map fun (old, new) => line s!"  {old} -> {new}")

def Invocation.settings (invocation : Invocation) (cwd : String) : Config :=
  ⟨invocation.cwd.getD cwd, invocation.json, invocation.verbosity⟩

def Invocation.paths (invocation : Invocation) (cwd : String) : List String :=
  let named := match invocation.command with
    | .version | .generators => []
    | .names arguments _ _ _ _ => arguments.config.toList
    | .plan arguments input _ => arguments.config.toList ++ [input]
  named.map (invocation.settings cwd).resolve

def perform (world : World) (invocation : Invocation) : Except Failure String := do
  let config := invocation.settings world.cwd
  match invocation.command with
  | .version => .ok (line Release.banner)
  | .generators => .ok (if invocation.json then line listingJson.layOut else listing)
  | .names arguments count kind label scope => do
      let options ← arguments.options world config
      let generator ← generator world options
      if maxCount < count then .error .tooMany
      let ask := request kind label scope (options.nameLength.map UInt64.toNat)
      let names ← (collect ask [] 0 generator count).mapError .naming
      .ok (if invocation.json then line (namesJson generator.kind kind names).layOut
        else String.join (names.map line))
  | .plan arguments input renameGlobals => do
      let options ← arguments.options world config
      let options := {options with renameGlobals := options.renameGlobals || renameGlobals}
      let content := world.file (config.resolve input)
      let program ← (load ProgramOutline.read? content).mapError .document
      let digest := Blake3.hex (Blake3.hash (content.getD .empty))
      let generator ← generator world options
      let plan ← (plan program.tree generator (.ofNameOptions options program.internalNames)).1.mapError .naming
      .ok (if invocation.json then line (planJson plan digest options.seedValue).layOut
        else planText plan digest)

def run (world : World) (arguments : List String) : Outcome :=
  match read? world.generator arguments with
  | none => ⟨2, "", line ("usage: " ++ Release.program ++ " [version | generators | names | plan INPUT] [SETTING]...")⟩
  | some invocation =>
      match perform world invocation with
      | .error failure => ⟨failure.exitCode, "", line ("error: " ++ failure.message)⟩
      | .ok output => ⟨0, output, ""⟩

end Pseudonym.CommandLine
