import Pseudonym.Proofs.HexName
import Pseudonym.Proofs.Session.Run

/-! Widths in a session. The width in use for a length starts at that length and only grows, up to the greatest;
every name has the width in use at its request or, where that had no free name to find, the next that had. -/
namespace Pseudonym
open HexName

namespace Generator

variable {σ : Type}

/-- The lead of a generator's names and its widths in use, where its names are hexadecimal. -/
def hex? (generator : Generator σ) : Option (String × Widths) :=
  match generator.strategy with
  | .hexadecimal widths => some ("_0x", widths)
  | .keepOriginal widths => some ("_", widths)
  | .dictionary _ | .mangled _ | .mangledShuffled _ _ => none

end Generator

namespace HexName
open Session

variable {σ : Type} {generator : Generator σ} {lead : String} {widths : Widths}

def Bounded (widths : Widths) : Prop :=
  ∀ length, requested length ≤ widths.width (requested length) ∧ widths.width (requested length) ≤ maxWidth

theorem requestedSome (length : Option Nat) : 0 < requested length ∧ requested length ≤ maxWidth := by
  simp only [requested, maxWidth]
  omega

variable [RandomSource σ]

theorem nextIssue (state : generator.hex? = some (lead, widths)) (length : Option Nat) :
    let issued := issue Ledger.issue lead generator.kind.token length generator.ledger widths generator.random
    (generator.next length).1 = issued.1 ∧ (generator.next length).2.ledger = issued.2.1 ∧
      (generator.next length).2.hex? = some (lead, issued.2.2.1) := by
  obtain ⟨ledger, random, strategy⟩ := generator
  cases strategy with
  | hexadecimal => cases state; exact ⟨rfl, rfl, rfl⟩
  | keepOriginal => cases state; exact ⟨rfl, rfl, rfl⟩
  | dictionary => cases state
  | mangled => cases state
  | mangledShuffled => cases state

theorem Bounded.issue (bounded : Bounded widths) (lead label : String) (length : Option Nat) (ledger : Ledger)
    (source : σ) : Bounded (HexName.issue Ledger.issue lead label length ledger widths source).2.2.1 := by
  have widens := issueWidens lead label length ledger widths source (bounded length).2
  intro other
  refine ⟨Nat.le_trans (bounded other).1 (widens.grows (bounded length).2 _), ?_⟩
  by_cases same : requested other = requested length
  · exact same ▸ widens.bounded
  · exact widens.elsewhere same ▸ (bounded other).2

structure Follows (lead : String) (earlier : Widths) (generator : Generator σ) (widths : Widths) : Prop where
  state : generator.hex? = some (lead, widths)
  bounded : Bounded widths
  grown : ∀ asked, earlier.width asked ≤ widths.width asked

theorem Follows.widens {earlier : Widths} (follows : Follows lead earlier generator widths) (length : Option Nat) :
    Widens lead generator.kind.token (requested length) generator.ledger (widths.width (requested length)) widths
      generator.random (issue Ledger.issue lead generator.kind.token length generator.ledger widths generator.random) :=
  issueWidens _ _ _ _ _ _ (follows.bounded length).2

theorem Follows.next {earlier : Widths} (follows : Follows lead earlier generator widths) (length : Option Nat) :
    ∃ later, Follows lead earlier (generator.next length).2 later := by
  obtain ⟨_, _, state⟩ := nextIssue follows.state length
  refine ⟨_, state, follows.bounded.issue _ _ _ _ _, fun asked => ?_⟩
  exact Nat.le_trans (follows.grown asked) ((follows.widens length).grows (follows.bounded length).2 asked)

theorem Follows.run {earlier : Widths} (follows : Follows lead earlier generator widths) (operations : List Operation) :
    ∃ later, Follows lead earlier (run generator operations).2 later := by
  refine @runKeeps σ _ (fun generator => ∃ later, Follows lead earlier generator later) ?_ ?_ generator operations
    ⟨widths, follows⟩
  · intro generator length holds
    obtain ⟨later, follows⟩ := holds
    exact follows.next length
  · intro generator name holds
    obtain ⟨later, follows⟩ := holds
    exact ⟨later, follows.state, follows.bounded, follows.grown⟩

/-- What a request comes to that a name answers: it has the first width, from the one in use on, whose retries found
a free name, and that is the width in use afterwards. -/
structure Answered (lead : String) (asked : Nat) (widths : Widths) (generator : Generator σ) (name : String)
    (width : Nat) (after : Generator σ) : Prop where
  spells : Spells lead width name
  atLeast : widths.width asked ≤ width
  atMost : width ≤ maxWidth
  first : ∃ source rest,
    Fruitless lead generator.kind.token generator.ledger (widths.width asked) generator.random width source ∧
    generator.ledger.issue generator.kind.token (draw lead width) source = (.ok name, after.ledger, rest)
  recorded : ∃ widened, after.hex? = some (lead, widened) ∧ widened.width asked = width ∧
    ∀ other, other ≠ asked → widened.width other = widths.width other
  crowded : (∀ taken, Spells lead (widths.width asked) taken → generator.ledger.isTaken taken = true) →
    widths.width asked < width

structure Widening (lead : String) (generator : Generator σ) (widths : Widths) : Prop where
  state : generator.hex? = some (lead, widths)
  answered : ∀ length name, (generator.next length).1 = .ok name →
    ∃ width, Answered lead (requested length) widths generator name width (generator.next length).2
  failed : ∀ length cause, (generator.next length).1 = .error cause →
    widths.width (requested length) ≤ maxWidth ∧
    (∃ source, Fruitless lead generator.kind.token generator.ledger (widths.width (requested length)) generator.random
      (maxWidth + 1) source) ∧ (generator.next length).2.ledger = generator.ledger
  neverNarrower : ∀ operations, ∃ later, (Session.run generator operations).2.hex? = some (lead, later) ∧
    ∀ asked, widths.width asked ≤ later.width asked

theorem Follows.widening {earlier : Widths} (follows : Follows lead earlier generator widths) :
    Widening lead generator widths := by
  constructor
  case state => exact follows.state
  case answered =>
    intro length name answer
    obtain ⟨issued, ledger, state⟩ := nextIssue follows.state length
    have widens := follows.widens length
    rw [issued] at answer
    generalize issue Ledger.issue lead generator.kind.token length generator.ledger widths generator.random = outcome
      at widens answer ledger state
    cases widens with
    | failed => cases answer
    | @found width _ widened source rest atMost fruitless issued recorded others =>
      cases answer
      have some : 0 < width :=
        Nat.lt_of_lt_of_le (requestedSome length).1 (Nat.le_trans (follows.bounded length).1 fruitless.upward)
      obtain ⟨spells, free⟩ := issuedSpells some issued
      refine ⟨width, spells, fruitless.upward, atMost, ⟨source, rest, fruitless, ledger ▸ issued⟩,
        ⟨widened, state, recorded, others⟩, fun taken => ?_⟩
      -- The name that was found is of the width in use itself, and was free.
      refine Nat.lt_of_le_of_ne fruitless.upward fun same => ?_
      simp [Ledger.accepts, taken name (same ▸ spells)] at free
  case failed =>
    intro length cause answer
    obtain ⟨issued, ledger, _⟩ := nextIssue follows.state length
    have widens := follows.widens length
    rw [issued] at answer
    generalize issue Ledger.issue lead generator.kind.token length generator.ledger widths generator.random = outcome
      at widens answer ledger
    cases widens with
    | found => cases answer
    | failed fruitless => exact ⟨(follows.bounded length).2, ⟨_, fruitless⟩, ledger⟩
  case neverNarrower =>
    intro operations
    have start : Follows lead widths generator widths := ⟨follows.state, follows.bounded, fun _ => Nat.le_refl _⟩
    obtain ⟨later, following⟩ := start.run operations
    exact ⟨later, following.state, following.grown⟩

theorem createdBounded : Bounded [] := fun length => ⟨Nat.le_refl _, (requestedSome length).2⟩

theorem hexNamesWiden {kind : Kind}
    (hexadecimal : (kind = .hexadecimal ∧ lead = "_0x") ∨ (kind = .keepOriginal ∧ lead = "_")) {ledger : Ledger}
    {source : σ} {entries : List String} {order : DrawOrder} {fresh : Generator σ}
    (built : Generator.create kind ledger source entries order = .ok fresh) (operations : List Operation) :
    ∃ widths, Widening lead (run fresh operations).2 widths := by
  have start : Follows lead [] fresh [] := by
    rcases hexadecimal with ⟨rfl, rfl⟩ | ⟨rfl, rfl⟩
    · cases built; exact ⟨rfl, createdBounded, fun _ => Nat.le_refl _⟩
    · cases built; exact ⟨rfl, createdBounded, fun _ => Nat.le_refl _⟩
  obtain ⟨widths, follows⟩ := start.run operations
  exact ⟨widths, follows.widening⟩

def stubbornHex : Generator Script :=
  ⟨Ledger.empty.withMaxAttempts 2, ⟨#[0xabcdef], by decide, 0⟩, .hexadecimal []⟩

theorem stubbornNamesWiden :
    Generator.create .hexadecimal stubbornHex.ledger stubbornHex.random [] .sequential = .ok stubbornHex ∧
      (stubbornHex.next none).1 = .ok "_0xabcdef" ∧
      ((run stubbornHex [.call (.next none)]).2.next none).1 = .ok "_0xabcdefa" ∧
      ∃ widths, Widening "_0x" (run stubbornHex [.call (.next none)]).2 widths := by
  have built : Generator.create .hexadecimal stubbornHex.ledger stubbornHex.random [] .sequential =
      .ok stubbornHex := rfl
  have first := toOptionIff.mp (show (stubbornHex.next none).1.toOption = some "_0xabcdef" by decide +kernel)
  have second := toOptionIff.mp (show ((run stubbornHex [.call (.next none)]).2.next none).1.toOption =
    some "_0xabcdefa" by decide +kernel)
  exact ⟨built, first, second, hexNamesWiden (.inl ⟨rfl, rfl⟩) built _⟩

end HexName
end Pseudonym
