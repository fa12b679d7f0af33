import Pseudonym.CommandLine.Setting
import Pseudonym.Text.Numeral

/-! Reading a command line. Settings stand before the command's name or behind it and are read from
left to right; what cannot be read is a fault of usage, which needs no further cause. -/
namespace Pseudonym.CommandLine

def isSetting (argument : String) : Bool :=
  match argument.toList with
  | '-' :: _ :: _ => true
  | _ => false

def admits (setting : Setting) (value : String) : Bool :=
  match setting with
  | .cwd | .config => value ≠ ""
  | .length | .count | .scope => (Numeral.read? value.toList).isSome
  | .kind => (NameKind.ofToken? value).isSome
  | _ => true

structure Found where
  settings : List (Setting × String) := []
  operands : List String := []
  deriving DecidableEq, Repr

namespace Found

def has (found : Found) (setting : Setting) : Bool := found.settings.any (·.1 == setting)

def add? (found : Found) (setting : Setting) (value : String) : Option Found :=
  if (found.has setting && !setting.mayRepeat) || !admits setting value then none
  else some {found with settings := found.settings ++ [(setting, value)]}

def addOperand (found : Found) (operand : String) : Found :=
  {found with operands := found.operands ++ [operand]}

def values (found : Found) (setting : Setting) : List String :=
  (found.settings.filter (·.1 == setting)).map (·.2)

def value? (found : Found) (setting : Setting) : Option String := (found.values setting).head?

def count (found : Found) (setting : Setting) : Nat := min (found.values setting).length 255

def items (found : Found) (setting : Setting) : List String :=
  (found.values setting).flatMap fun value => (value.splitOn ",")

def number? (found : Found) (setting : Setting) : Option UInt64 :=
  (found.value? setting).bind fun value => Numeral.read? value.toList

end Found

inductive Piece where
  | settings (found : Found)
  | pending (found : Found) (setting : Setting)
  | version
  deriving DecidableEq, Repr

/-- Reads letters behind one hyphen: flags, then perhaps a setting whose value is what remains, less an
equals sign. `V` asks for the version where `top` says so. -/
def readLetters? (accepted : List Setting) (top : Bool) (found : Found) : List Char → Option Piece
  | [] => some (.settings found)
  | letter :: rest =>
      if top && letter == 'V' then some .version
      else
        match accepted.find? (·.short? == some letter) with
        | none => none
        | some setting =>
            if setting.takesValue then
              match rest with
              | [] => some (.pending found setting)
              | '=' :: value => (found.add? setting (String.ofList value)).map .settings
              | value => (found.add? setting (String.ofList value)).map .settings
            else
              match found.add? setting "" with
              | none => none
              | some found => readLetters? accepted top found rest

def readName? (accepted : List Setting) (top : Bool) (found : Found) (chars : List Char) : Option Piece :=
  let name := String.ofList (chars.takeWhile (· != '='))
  let value? := match chars.dropWhile (· != '=') with
    | _ :: value => some (String.ofList value)
    | [] => none
  if top && name == "version" && value?.isNone then some .version
  else
    match accepted.find? (·.long == name) with
    | none => none
    | some setting =>
        match setting.takesValue, value? with
        | true, some value => (found.add? setting value).map .settings
        | true, none => some (.pending found setting)
        | false, some _ => none
        | false, none => (found.add? setting "").map .settings

/-- Where reading some arguments ends: behind the last one, at a word that may be a command, or at
once, when the version is asked for. -/
inductive Stop where
  | done (found : Found)
  | word (found : Found) (word : String) (rest : List String)
  | version
  deriving DecidableEq, Repr

/-- Reads arguments up to a stop. Words are commands where `top` says so and operands elsewhere; behind
two hyphens alone there are operands only. -/
def readArguments? (accepted : List Setting) (top : Bool) (found : Found) : List String → Option Stop
  | [] => some (.done found)
  | argument :: rest =>
      match argument.toList with
      | ['-', '-'] => some (.done (rest.foldl Found.addOperand found))
      | '-' :: letter :: letters =>
          let piece := if letter = '-' then readName? accepted top found letters
            else readLetters? accepted top found (letter :: letters)
          match piece, rest with
          | some (.settings found), rest => readArguments? accepted top found rest
          | some (.pending found setting), value :: rest =>
              if isSetting value then none
              else
                match found.add? setting value with
                | none => none
                | some found => readArguments? accepted top found rest
          | some (.pending _ _), [] => none
          | some .version, _ => some .version
          | none, _ => none
      | _ =>
          if top then some (.word found argument rest)
          else readArguments? accepted top (found.addOperand argument) rest

structure GeneratorArguments where
  generator : Option String
  config : Option String
  globalPrefix : Option String
  seed : Option String
  length : Option UInt64
  reserved : List String
  dictionary : List String
  deriving DecidableEq, Repr

inductive Command where
  | version
  | generators
  | names (arguments : GeneratorArguments) (count : Nat) (kind : NameKind) (label : Option String) (scope : Nat)
  | plan (arguments : GeneratorArguments) (input : String) (renameGlobals : Bool)
  deriving DecidableEq, Repr

structure Invocation where
  verbosity : Nat
  json : Bool
  cwd : Option String
  command : Command
  deriving DecidableEq, Repr

def GeneratorArguments.ofFound (found : Found) (environment : Option String) : GeneratorArguments where
  generator := (found.value? .generator).or environment
  config := found.value? .config
  globalPrefix := found.value? .globalPrefix
  seed := found.value? .seed
  length := found.number? .length
  reserved := found.items .reserved
  dictionary := found.items .dictionary

def Command.ofFound? (verb : Verb) (found : Found) (environment : Option String) : Option Command :=
  let arguments := GeneratorArguments.ofFound found environment
  match verb, found.operands with
  | .version, [] => some .version
  | .generators, [] => some .generators
  | .names, [] =>
      let count := ((found.number? .count).map UInt64.toNat).getD 10
      let kind := ((found.value? .kind).bind NameKind.ofToken?).getD .lexical
      let scope := ((found.number? .scope).map UInt64.toNat).getD 1
      some (.names arguments count kind (found.value? .label) scope)
  | .plan, [input] => if input = "" then none else some (.plan arguments input (found.has .renameGlobals))
  | _, _ => none

def Invocation.ofFound (before behind : Found) (command : Command) : Invocation where
  verbosity := (if behind.has .verbose then behind else before).count .verbose
  json := before.has .json || behind.has .json
  cwd := (behind.value? .cwd).or (before.value? .cwd)
  command := command

def read? (environment : Option String) (arguments : List String) : Option Invocation :=
  match readArguments? shared true {} arguments with
  | none => none
  | some .version => some (.ofFound {} {} .version)
  | some (.done found) => if found.operands.isEmpty then some (.ofFound found {} .version) else none
  | some (.word before word rest) =>
      match Verb.ofWord? word with
      | none => none
      | some verb =>
          match readArguments? verb.settings false {} rest with
          | some (.done behind) =>
              (Command.ofFound? verb behind environment).map (Invocation.ofFound before behind)
          | _ => none

end Pseudonym.CommandLine
