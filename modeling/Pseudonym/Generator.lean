import Pseudonym.Enumeration
import Pseudonym.HexName
import Pseudonym.Ledger
import Pseudonym.Options
import Pseudonym.Scope.Kind
import Pseudonym.WordPool

/-! Generators of names. A generator is the ledger of its session, a source of chance and the state
of one strategy; every request gives an answer and the generator after it, also when it fails. A strategy that
counts its names has a natural number for its position, so it never comes to the last one. -/
namespace Pseudonym

inductive Strategy where
  | dictionary (pool : WordPool)
  | hexadecimal (widths : HexName.Widths)
  | keepOriginal (widths : HexName.Widths)
  | mangled (position : Nat)
  | mangledShuffled (alphabets : Alphabets) (position : Nat)
  deriving DecidableEq, Repr

def Strategy.kind : Strategy → Kind
  | .dictionary _ => .dictionary
  | .hexadecimal _ => .hexadecimal
  | .keepOriginal _ => .keepOriginal
  | .mangled _ => .mangled
  | .mangledShuffled _ _ => .mangledShuffled

variable {σ : Type} [RandomSource σ]

/-- The next name of a strategy, with the books, the source of chance and the strategy after it. -/
def Strategy.next {Books : Type} (issuing : Issuing Books) (length : Option Nat) (books : Books) (random : σ)
    (strategy : Strategy) : Except NameError String × Books × σ × Strategy :=
  let label := strategy.kind.token
  match strategy with
  | .dictionary pool =>
      let (answer, books, pool, random) := issuing books label WordPool.draw (pool, random)
      (answer, books, random, .dictionary pool)
  | .hexadecimal widths =>
      let (answer, books, widths, random) := HexName.issue issuing "_0x" label length books widths random
      (answer, books, random, .hexadecimal widths)
  | .keepOriginal widths =>
      let (answer, books, widths, random) := HexName.issue issuing "_" label length books widths random
      (answer, books, random, .keepOriginal widths)
  | .mangled position =>
      let (answer, books, position) := issuing books label Alphabets.standard.draw position
      (answer, books, random, .mangled position)
  | .mangledShuffled alphabets position =>
      let (answer, books, position) := issuing books label alphabets.draw position
      (answer, books, random, .mangledShuffled alphabets position)

structure Generator (σ : Type) where
  ledger : Ledger
  random : σ
  strategy : Strategy

def NameOptions.ledger (options : NameOptions) : Ledger :=
  ((Ledger.empty.withPrefix options.globalPrefix).withReserved options.reserved).withMaxAttempts
    options.maxAttempts.toNat

namespace Generator

variable {σ : Type} [RandomSource σ]

def kind (generator : Generator σ) : Kind := generator.strategy.kind

def create (kind : Kind) (ledger : Ledger) (random : σ) (entries : List String) (order : DrawOrder) :
    Except NameError (Generator σ) :=
  match kind with
  | .dictionary =>
      match WordPool.ofEntries? entries order with
      | some pool => .ok ⟨ledger, random, .dictionary pool⟩
      | none => .error (.invalidOption .noWords)
  | .hexadecimal => .ok ⟨ledger, random, .hexadecimal []⟩
  | .keepOriginal => .ok ⟨ledger, random, .keepOriginal []⟩
  | .mangled => .ok ⟨ledger, random, .mangled 0⟩
  | .mangledShuffled =>
      let (alphabets, random) := Alphabets.standard.shuffled random
      .ok ⟨ledger, random, .mangledShuffled alphabets 0⟩

def ofOptions (options : NameOptions) (random : σ) : Except NameError (Generator σ) :=
  match Kind.ofToken? options.generator with
  | none => .error (.unknownGenerator options.generator)
  | some kind => do
      options.validate
      create kind options.ledger random options.dictionary options.order

def next (generator : Generator σ) (length : Option Nat) : Except NameError String × Generator σ :=
  let ⟨ledger, random, strategy⟩ := generator
  let (answer, ledger, random, strategy) := strategy.next Ledger.issue length ledger random
  (answer, ⟨ledger, random, strategy⟩)

def preserve (generator : Generator σ) (name : String) : Generator σ :=
  {generator with ledger := generator.ledger.claim name}

def preserveAll (generator : Generator σ) (names : List String) : Generator σ :=
  names.foldl preserve generator

/-- What a base name comes to with the prefix before it. Where the prefix changes nothing, the base is the answer; a
joined name that is taken is skipped, and one that is no name at all is rejected. -/
def joinBase (answer : Except NameError String) (generator : Generator σ) :
    Attempt (Except NameError String) × Generator σ :=
  match answer with
  | .error cause => (.settled (.error cause), generator)
  | .ok base =>
      let name := generator.ledger.prefixed base
      if name = base then (.settled (.ok base), generator)
      else if generator.ledger.accepts name then (.settled (.ok name), generator.preserve name)
      else if generator.ledger.isTaken name then (.skipped, generator)
      else (.rejected, generator)

def attemptGlobal (length : Option Nat) (generator : Generator σ) :
    Attempt (Except NameError String) × Generator σ :=
  let (base, generator) := generator.next length
  generator.joinBase base

/-- A name for the global scope, which carries the prefix. Both the joined name and its base are
taken afterwards. -/
def forGlobal (generator : Generator σ) (length : Option Nat) : Except NameError String × Generator σ :=
  retry generator.ledger.limits
    (fun tally => .error (Ledger.exhausted generator.kind.token tally))
    (attemptGlobal length) .zero generator

def forScope (generator : Generator σ) (_scope : ScopeId) (length : Option Nat) :
    Except NameError String × Generator σ :=
  generator.next length

def forLabel (generator : Generator σ) (label : String) (length : Option Nat) :
    Except NameError String × Generator σ :=
  match generator.kind with
  | .keepOriginal => (.ok label, generator.preserve label)
  | _ => generator.next length

end Generator
end Pseudonym
