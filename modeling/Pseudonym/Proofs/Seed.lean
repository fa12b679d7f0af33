import Pseudonym.Proofs.CommandLine
import Pseudonym.Proofs.Json.Decode
import Pseudonym.Proofs.Text.Numeral

/-! Which seed is meant. A number is the same seed on a command line, in a configuration's text and as a
configuration's number, however it is spelled; text that spells no number of 64 bits is digested whole. -/
namespace Pseudonym
open CommandLine

namespace NameOptions

/-- A configuration that writes its seed like this has this seed, if it loads without the seed. -/
def Configured (written : Json) (value : UInt64) : Prop :=
  ∀ before after : List (Option String × Json), (∀ member ∈ before ++ after, member.1 ≠ some "seed") →
    (ofJson? (.object (before ++ (some "seed", written) :: after))).map seedValue =
      (ofJson? (.object (before ++ after))).map fun _ => some value

theorem configured {written : Json} {seed : Seed}
    (read : ∀ levels, Decoder.option Seed.decode levels written = some (some seed)) :
    Configured written seed.value := by
  intro before after new
  have known : "seed" ∈ keys := by decide
  unfold ofJson? decode Decoder.maxLevels
  simp only [Decoder.record]
  rcases Decoder.namedInserted known written new with ⟨bare, full⟩ | ⟨front, back, bare, full⟩
  · rw [bare, full]
    rfl
  · have missing : (front ++ back).lookup "seed" = none := by
      simp only [List.lookup_eq_none_iff, bne_iff_ne]
      exact fun member among same => new _ (Decoder.namedMembers bare member among) (congrArg some same.symm)
    have missingFront : front.lookup "seed" = none := by
      rw [List.lookup_append, Option.or_eq_none_iff] at missing
      exact missing.1
    rw [bare, full]
    simp [Decoder.fieldOther, Decoder.fieldInserted _ missingFront, Decoder.fieldMissing missing, read, Option.map_bind,
      Function.comp_def, seedValue]

end NameOptions

namespace Seed

theorem ofTextNumbered (spelling : Numeral.Spelling) (fits : spelling.number < UInt64.size) :
    ofText spelling.text = UInt64.ofNat spelling.number := by
  rw [ofText, spelling.readBack, if_pos fits]
  rfl

theorem ofTextOther {content : String} (other : ¬Numeral.Numbered content) : ofText content = hashed content := by
  rw [ofText, Numeral.numberedUnread other]
  rfl

theorem optionsSeeded (arguments : GeneratorArguments) (content : String) (world : World) (config : Config) :
    ((arguments.seeded content).options world config).map NameOptions.seedValue =
      (arguments.options world config).map fun _ => some (ofText content) := by
  simp only [GeneratorArguments.options, GeneratorArguments.seeded]
  cases arguments.config with
  | none => rfl
  | some path =>
    dsimp only
    cases load NameOptions.read? (world.file (config.resolve path)) with
    | error fault => rfl
    | ok base => rfl

/-- A text that is this seed wherever it is given: at the end of a command line that gives none yet, among the arguments
of a command, and in a configuration. -/
structure Resolves (content : String) (value : UInt64) : Prop where
  typed {environment : Option String} {words given : List String} {bare : Invocation} :
    CommandLine.read? environment words = some bare → bare.command.Seedless → "--" ∉ words → Gives content given →
      CommandLine.read? environment (words ++ given) = some {bare with command := bare.command.seeded content}
  passed (arguments : GeneratorArguments) (world : World) (config : Config) :
    ((arguments.seeded content).options world config).map NameOptions.seedValue =
      (arguments.options world config).map fun _ => some value
  configured : NameOptions.Configured (.ofText content) value

theorem resolves (content : String) : Resolves content (ofText content) := by
  have read (levels : Nat) : Decoder.option decode levels (.ofText content) = some (some (text content)) := rfl
  exact ⟨lineSeeded, fun arguments => optionsSeeded arguments content, NameOptions.configured read⟩

theorem numericSeedsAgree :
    (∀ spelling : Numeral.Spelling, spelling.number < UInt64.size →
      Resolves spelling.text (.ofNat spelling.number) ∧
        NameOptions.Configured (.ofNat spelling.number) (.ofNat spelling.number)) ∧
    (∀ content, ¬Numeral.Numbered content → Resolves content (hashed content)) ∧
    (∀ spelling : Numeral.Spelling, UInt64.size ≤ spelling.number → ¬Numeral.Numbered spelling.text) ∧
    (∀ content, '-' ∈ content.toList → ¬Numeral.Numbered content) ∧
    ∀ content, (∀ c ∈ content.toList, c.isDigit = false) → ¬Numeral.Numbered content := by
  refine ⟨fun spelling fits => ⟨?text, ?number⟩, fun content other => ?other, Numeral.tooLarge, ?minus, ?digitless⟩
  case text => exact ofTextNumbered spelling fits ▸ resolves spelling.text
  case number =>
    have read (levels : Nat) : Decoder.option decode levels (.ofNat spelling.number) =
        some (some (.number (.ofNat spelling.number))) := by
      simp [Decoder.option, Json.ofNat, decode, Decoder.uint64, Decoder.natural, fits]
    exact NameOptions.configured read
  case other => exact ofTextOther other ▸ resolves content
  case minus => exact fun content => Numeral.minusUnnumbered
  case digitless => exact fun content => Numeral.digitlessUnnumbered

def paddedNumber : Numeral.Spelling where
  before := ['\u3000']
  plus := true
  zeros := 3
  number := 42
  after := ['\u2029']
  blankBefore := List.forall_mem_singleton.mpr rfl
  blankAfter := List.forall_mem_singleton.mpr rfl

def largeNumber : Numeral.Spelling :=
  {paddedNumber with
    before := []
    zeros := 1
    number := UInt64.size
    after := [' ']
    blankBefore := List.forall_mem_nil _
    blankAfter := List.forall_mem_singleton.mpr rfl}

theorem paddedSeedAgrees :
    (∃ invocation arguments, CommandLine.read? none ["names", "--seed=\u3000+00042\u2029"] = some invocation ∧
      invocation.command.arguments? = some arguments ∧
      ∀ world config, (arguments.options world config).map NameOptions.seedValue = .ok (some 42)) ∧
    (NameOptions.ofJson? (.object [(some "seed", .ofText "\u3000+00042\u2029")])).map NameOptions.seedValue =
      some (some 42) ∧
    (NameOptions.ofJson? (.object [(some "seed", .ofNat 42)])).map NameOptions.seedValue = some (some 42) ∧
    (NameOptions.ofJson? (.object [(some "seed", .ofText "+018446744073709551616 ")])).map NameOptions.seedValue =
      some (some (hashed "+018446744073709551616 ")) ∧
    (NameOptions.ofJson? (.object [(some "seed", .ofText "-42")])).map NameOptions.seedValue =
      some (some (hashed "-42")) ∧
    (NameOptions.ofJson? (.object [(some "seed", .ofText "+")])).map NameOptions.seedValue =
      some (some (hashed "+")) := by
  obtain ⟨numbers, texts, large, minus, digitless⟩ := numericSeedsAgree
  obtain ⟨padded, number⟩ := numbers paddedNumber (by decide)
  refine ⟨?typed, ?text, ?number, ?large, ?minus, ?plus⟩
  case typed =>
    have line := padded.typed (rfl : CommandLine.read? none ["names"] = _) ⟨_, rfl, rfl⟩ (by decide) .joined
    exact ⟨_, _, line, rfl, fun world config => padded.passed _ world config⟩
  case text => exact padded.configured [] [] (by simp)
  case number => exact number [] [] (by simp)
  case large => exact (texts _ (large largeNumber (by decide))).configured [] [] (by simp)
  case minus => exact (texts "-42" (minus _ (by decide))).configured [] [] (by simp)
  case plus => exact (texts "+" (digitless _ (by simp))).configured [] [] (by simp)

end Seed
end Pseudonym
