/-! The settings a command line can give, and the commands that take them. -/
namespace Pseudonym.CommandLine

inductive Setting where
  | verbose
  | json
  | cwd
  | generator
  | config
  | globalPrefix
  | seed
  | length
  | reserved
  | dictionary
  | count
  | kind
  | label
  | scope
  | renameGlobals
  deriving DecidableEq, Repr

/-- What a setting is given as: nothing, nothing but as often as one likes, one value, or lists of
values that add up. -/
inductive Style where
  | flag
  | counter
  | single
  | list
  deriving DecidableEq, Repr

namespace Setting

def long : Setting → String
  | .verbose => "verbose"
  | .json => "json"
  | .cwd => "cwd"
  | .generator => "generator"
  | .config => "config"
  | .globalPrefix => "prefix"
  | .seed => "seed"
  | .length => "length"
  | .reserved => "reserved"
  | .dictionary => "dictionary"
  | .count => "count"
  | .kind => "kind"
  | .label => "label"
  | .scope => "scope"
  | .renameGlobals => "rename-globals"

def short? : Setting → Option Char
  | .verbose => some 'v'
  | .generator => some 'g'
  | .count => some 'n'
  | _ => none

def style : Setting → Style
  | .verbose => .counter
  | .json | .renameGlobals => .flag
  | .reserved | .dictionary => .list
  | _ => .single

def takesValue (setting : Setting) : Bool :=
  match setting.style with
  | .flag | .counter => false
  | .single | .list => true

def mayRepeat (setting : Setting) : Bool :=
  match setting.style with
  | .flag | .single => false
  | .counter | .list => true

end Setting

def shared : List Setting := [.verbose, .json, .cwd]

def generatorSettings : List Setting :=
  [.generator, .config, .globalPrefix, .seed, .length, .reserved, .dictionary]

inductive Verb where
  | version
  | generators
  | names
  | plan
  deriving DecidableEq, Repr

namespace Verb

def all : List Verb := [.version, .generators, .names, .plan]

def word : Verb → String
  | .version => "version"
  | .generators => "generators"
  | .names => "names"
  | .plan => "plan"

def ofWord? (word : String) : Option Verb := all.find? (·.word == word)

def settings : Verb → List Setting
  | .version | .generators => shared
  | .names => shared ++ generatorSettings ++ [.count, .kind, .label, .scope]
  | .plan => shared ++ generatorSettings ++ [.renameGlobals]

end Verb

inductive NameKind where
  | global
  | lexical
  | label
  deriving DecidableEq, Repr

namespace NameKind

def all : List NameKind := [.global, .lexical, .label]

def token : NameKind → String
  | .global => "global"
  | .lexical => "lexical"
  | .label => "label"

def ofToken? (token : String) : Option NameKind := all.find? (·.token == token)

end NameKind
end Pseudonym.CommandLine
