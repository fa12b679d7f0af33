import Pseudonym.Error
import Pseudonym.Identifier
import Pseudonym.NameSet
import Pseudonym.Retry

/-! The names of one session. A ledger knows which names are taken and how long a request may
look for a free one. Candidates come from a stream with a state of its own, so drawing them
cannot touch the ledger. -/
namespace Pseudonym

structure Ledger where
  /-- Names issued, preserved or put aside by the caller. -/
  claimed : NameSet
  reserved : NameSet
  globalPrefix : String
  maxAttempts : Nat
  attempts_pos : 0 < maxAttempts

namespace Ledger

def defaultMaxAttempts : Nat := 200

def empty : Ledger := ⟨∅, ∅, "", defaultMaxAttempts, by decide⟩

instance : Inhabited Ledger := ⟨empty⟩

def withPrefix (ledger : Ledger) (globalPrefix : String) : Ledger := {ledger with globalPrefix}

def withReserved (ledger : Ledger) (names : List String) : Ledger :=
  {ledger with reserved := .ofNames names}

/-- A request always has one attempt, so a limit of zero counts as one. -/
def withMaxAttempts (ledger : Ledger) (maxAttempts : Nat) : Ledger :=
  {ledger with maxAttempts := max 1 maxAttempts, attempts_pos := by omega}

def claim (ledger : Ledger) (name : String) : Ledger :=
  {ledger with claimed := ledger.claimed.insert name}

def claimAll (ledger : Ledger) (names : List String) : Ledger := names.foldl claim ledger

def isTaken (ledger : Ledger) (name : String) : Bool :=
  ledger.reserved.contains name || ledger.claimed.contains name

def accepts (ledger : Ledger) (name : String) : Bool :=
  Identifier.isWellFormed name && !ledger.isTaken name

/-- A stream without repeats meets no more taken names than there are; the attempts are added
for streams that repeat themselves. -/
def skipBudget (ledger : Ledger) : Nat :=
  ledger.claimed.size + ledger.reserved.size + ledger.maxAttempts

def limits (ledger : Ledger) : Limits := ⟨ledger.maxAttempts, ledger.skipBudget⟩

def exhausted (label : String) (tally : Tally) : NameError :=
  .exhausted label (min tally.drawn (UInt32.size - 1))

def judge (ledger : Ledger) (candidate : String) : Attempt (Except NameError String) :=
  if !Identifier.isWellFormed candidate then .rejected
  else if ledger.isTaken candidate then .skipped
  else .settled (.ok candidate)

def search {σ : Type} (ledger : Ledger) (label : String) (draw : σ → String × σ) (stream : σ) :
    Except NameError String × σ :=
  retry ledger.limits (fun tally => .error (exhausted label tally))
    (fun stream => let (candidate, stream) := draw stream; (ledger.judge candidate, stream))
    .zero stream

def issue {σ : Type} (ledger : Ledger) (label : String) (draw : σ → String × σ) (stream : σ) :
    Except NameError String × Ledger × σ :=
  match ledger.search label draw stream with
  | (.ok name, stream) => (.ok name, ledger.claim name, stream)
  | (.error cause, stream) => (.error cause, ledger, stream)

def isSeparator (c : Char) : Bool := c == '_' || c == '$'

def join (lead name : String) : String :=
  match lead.toList.getLast?, name.toList with
  | some last, first :: rest =>
      if last = first ∧ isSeparator last then lead ++ String.ofList rest else lead ++ name
  | _, _ => lead ++ name

def prefixed (ledger : Ledger) (name : String) : String := join ledger.globalPrefix name

end Ledger

/-- A way to issue names from books that need not be a ledger alone. Whatever asks for names is written over it, so
that its requests can be made of a ledger that keeps count of them. -/
abbrev Issuing (Books : Type) : Type 1 :=
  {σ : Type} → Books → String → (σ → String × σ) → σ → Except NameError String × Books × σ

end Pseudonym
