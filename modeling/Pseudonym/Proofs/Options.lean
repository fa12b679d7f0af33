import Pseudonym.Proofs.WordPool.Entries

/-! Which options give a generator. What they have to meet is a list of requirements, each with the error of options
that do not meet it; options are refused with the error of the first one they break, and otherwise the generator is new
and set as they say. -/
namespace Pseudonym

namespace Identifier

theorem partIff {c : Char} : isPart c = true ↔ c.isAlphanum = true ∨ c = '_' ∨ c = '$' := by
  simp only [isPart, isStart, Char.isAlphanum, Bool.or_eq_true, beq_iff_eq]
  tauto

end Identifier

theorem Kind.knownIff {token : String} :
    token ∈ ["dictionary", "hexadecimal", "keep-original", "mangled", "mangled-shuffled"] ↔
      ∃ kind, ofToken? token = some kind := by
  constructor
  · intro known
    obtain ⟨kind, _, rfl⟩ := List.mem_map.mp (show token ∈ all.map Kind.token from known)
    exact ⟨kind, ofTokenToken kind⟩
  · rintro ⟨kind, known⟩
    rw [← tokenOfToken known]
    cases kind <;> simp [Kind.token]

theorem Kind.tokenInjective {kind other : Kind} (same : kind.token = other.token) : kind = other := by
  have found := ofTokenToken kind
  rw [same, ofTokenToken] at found
  exact (Option.some.inj found).symm

namespace Word

theorem listSome {entries : List String} :
    list entries ≠ [] ↔ ∃ entry ∈ entries, ∃ c ∈ entry.toList, Identifier.isPart c = true := by
  have unusable (entry : String) : normalize? entry = none ↔ ∀ c ∈ entry.toList, Identifier.isPart c = false := by
    obtain ⟨runs, cut⟩ := runsExist entry.toList
    exact (runsNormalize cut).unusable
  have none : list entries = [] ↔ ∀ entry ∈ entries, normalize? entry = none := by
    rw [← List.filterMap_eq_nil_iff, List.eq_nil_iff_forall_not_mem, List.eq_nil_iff_forall_not_mem]
    exact forall_congr' fun name => not_congr ((listFirst entries).same name)
  simp [none, unusable]

end Word

namespace WordPool

theorem entriesUsable (entries : List String) (order : DrawOrder) :
    (∃ pool, ofEntries? entries order = some pool) ↔
      entries = [] ∨ ∃ entry ∈ entries, ∃ c ∈ entry.toList, Identifier.isPart c = true := by
  rw [← Word.listSome]
  constructor
  · rintro ⟨pool, usable⟩
    have words := (ofEntriesMade usable).1
    have some := pool.words_pos
    rw [← Array.length_toList, words] at some
    cases entries with
    | nil => exact .inl rfl
    | cons entry rest => exact .inr (List.ne_nil_of_length_pos some)
  · rintro (rfl | some)
    · obtain ⟨pool, usable, _⟩ := @ofEntriesUsable [] order standardUsable
      exact ⟨pool, usable⟩
    · cases entries with
      | nil => exact absurd rfl some
      | cons entry rest =>
        obtain ⟨pool, usable, _⟩ := @ofEntriesUsable (entry :: rest) order some
        exact ⟨pool, usable⟩

end WordPool

/-- A condition on options, and what they are refused with where they do not meet it. -/
structure Requirement where
  holds : Prop
  cause : NameError

/-- How requirements decide: the first broken one refuses, and where none is broken something is made. -/
inductive Verdict {α : Type} (Made : α → Prop) : List Requirement → Except NameError α → Prop where
  | accepted {value : α} (made : Made value) : Verdict Made [] (.ok value)
  | refused {requirement : Requirement} {rest : List Requirement} (broken : ¬requirement.holds) :
      Verdict Made (requirement :: rest) (.error requirement.cause)
  | passed {requirement : Requirement} {rest : List Requirement} {outcome : Except NameError α}
      (met : requirement.holds) (later : Verdict Made rest outcome) : Verdict Made (requirement :: rest) outcome

namespace Verdict

variable {α : Type} {Made : α → Prop} {requirements : List Requirement} {outcome : Except NameError α}

theorem answers (verdict : Verdict Made requirements outcome) (met : ∀ requirement ∈ requirements, requirement.holds) :
    ∃ value, outcome = .ok value := by
  induction verdict with
  | accepted made => exact ⟨_, rfl⟩
  | refused broken => exact absurd (met _ (List.mem_cons_self ..)) broken
  | passed _ _ ih => exact ih (List.forall_mem_cons.mp met).2

theorem made {value : α} (verdict : Verdict Made requirements (.ok value)) :
    (∀ requirement ∈ requirements, requirement.holds) ∧ Made value := by
  generalize same : Except.ok value = outcome at verdict
  induction verdict with
  | accepted made =>
    cases same
    exact ⟨by simp, made⟩
  | refused => cases same
  | passed met _ ih => exact (ih same).imp_left fun rest => List.forall_mem_cons.mpr ⟨met, rest⟩

theorem first {cause : NameError} (verdict : Verdict Made requirements (.error cause)) :
    ∃ met broken rest, requirements = met ++ broken :: rest ∧ (∀ requirement ∈ met, requirement.holds) ∧
      ¬broken.holds ∧ broken.cause = cause := by
  generalize same : Except.error cause = outcome at verdict
  induction verdict with
  | accepted => cases same
  | refused broken =>
    cases same
    exact ⟨[], _, _, rfl, by simp, broken, rfl⟩
  | @passed requirement _ _ met _ ih =>
    obtain ⟨before, broken, rest, rfl, holds, fails⟩ := ih same
    exact ⟨requirement :: before, broken, rest, rfl, List.forall_mem_cons.mpr ⟨met, holds⟩, fails⟩

theorem ofFirst {met rest : List Requirement} {broken : Requirement}
    (verdict : Verdict Made (met ++ broken :: rest) outcome) (holds : ∀ requirement ∈ met, requirement.holds)
    (fails : ¬broken.holds) : outcome = .error broken.cause := by
  induction met with
  | nil =>
    cases verdict with
    | refused => rfl
    | passed met => exact absurd met fails
  | cons requirement met ih =>
    obtain ⟨here, later⟩ := List.forall_mem_cons.mp holds
    cases verdict with
    | refused broken => exact absurd here broken
    | passed _ verdict => exact ih verdict later

end Verdict

namespace NameOptions

def knownGenerator (options : NameOptions) : Requirement where
  holds := options.generator ∈ ["dictionary", "hexadecimal", "keep-original", "mangled", "mangled-shuffled"]
  cause := .unknownGenerator options.generator

def fittingPrefix (options : NameOptions) : Requirement where
  holds := options.globalPrefix = "" ∨ Identifier.Grammatical options.globalPrefix.toList
  cause := .invalidPrefix options.globalPrefix

def someAttempts (options : NameOptions) : Requirement where
  holds := 1 ≤ options.maxAttempts.toNat
  cause := .invalidOption .noAttempts

def fittingLength (options : NameOptions) : Requirement where
  holds := ∀ length ∈ options.nameLength, 1 ≤ length.toNat ∧ length.toNat ≤ 64
  cause := .invalidOption .nameLength

def usableWords (options : NameOptions) : Requirement where
  holds := options.generator = "dictionary" → options.dictionary = [] ∨
    ∃ entry ∈ options.dictionary, ∃ c ∈ entry.toList, c.isAlphanum = true ∨ c = '_' ∨ c = '$'
  cause := .invalidOption .noWords

/-- What options have to meet, in the order in which it is looked at. -/
def requirements (options : NameOptions) : List Requirement :=
  [options.knownGenerator, options.fittingPrefix, options.someAttempts, options.fittingLength, options.usableWords]

/-- A generator as options ask for it, before its first request. -/
structure Makes {σ : Type} (options : NameOptions) (generator : Generator σ) : Prop where
  kind : generator.kind.token = options.generator
  globalPrefix : generator.ledger.globalPrefix = options.globalPrefix
  maxAttempts : generator.ledger.maxAttempts = options.maxAttempts.toNat
  reserved : ∀ name, name ∈ generator.ledger.reserved ↔ name ∈ options.reserved
  unclaimed : ∀ name, name ∉ generator.ledger.claimed

variable {σ : Type}

theorem ledgerMakes {options : NameOptions} (attempts : 1 ≤ options.maxAttempts.toNat) {generator : Generator σ}
    (kind : generator.kind.token = options.generator) (ledger : generator.ledger = options.ledger) :
    options.Makes generator := by
  have lead : options.ledger.globalPrefix = options.globalPrefix := rfl
  have most : options.ledger.maxAttempts = options.maxAttempts.toNat := Nat.max_eq_right attempts
  have reserved (name : String) : name ∈ options.ledger.reserved ↔ name ∈ options.reserved := by
    simp [NameOptions.ledger, Ledger.withMaxAttempts, Ledger.withReserved, NameSet.ofNames, Std.TreeSet.mem_ofList]
  have empty (name : String) : name ∉ options.ledger.claimed := by
    simp [NameOptions.ledger, Ledger.withMaxAttempts, Ledger.withReserved, Ledger.withPrefix, Ledger.empty]
  exact ⟨kind, ledger ▸ lead, ledger ▸ most, ledger ▸ reserved, ledger ▸ empty⟩

variable [RandomSource σ]

theorem createAnswers {kind : Kind} (other : kind ≠ .dictionary) (ledger : Ledger) (source : σ) (entries : List String)
    (order : DrawOrder) :
    ∃ generator, Generator.create kind ledger source entries order = .ok generator ∧ generator.kind = kind ∧
      generator.ledger = ledger := by
  cases kind with
  | dictionary => exact absurd rfl other
  | hexadecimal => exact ⟨_, rfl, rfl, rfl⟩
  | keepOriginal => exact ⟨_, rfl, rfl, rfl⟩
  | mangled => exact ⟨_, rfl, rfl, rfl⟩
  | mangledShuffled => exact ⟨_, rfl, rfl, rfl⟩

theorem createVerdict {options : NameOptions} (attempts : 1 ≤ options.maxAttempts.toNat) {kind : Kind}
    (named : kind.token = options.generator) (source : σ) :
    Verdict options.Makes [options.usableWords]
      (Generator.create kind options.ledger source options.dictionary options.order) := by
  have usable := WordPool.entriesUsable options.dictionary options.order
  simp only [Identifier.partIff] at usable
  by_cases drawn : kind = .dictionary
  · subst drawn
    rw [Generator.create]
    cases made : WordPool.ofEntries? options.dictionary options.order with
    | none =>
      refine .refused fun words => ?_
      obtain ⟨pool, some⟩ := usable.mpr (words named.symm)
      cases made.symm.trans some
    | some pool => exact .passed (fun _ => usable.mp ⟨pool, made⟩) (.accepted (ledgerMakes attempts named rfl))
  · obtain ⟨generator, made, same, ledger⟩ := createAnswers drawn options.ledger source options.dictionary options.order
    rw [made]
    refine .passed (fun dictionary => absurd ?_ drawn) (.accepted (ledgerMakes attempts (same ▸ named) ledger))
    exact Kind.tokenInjective (named.trans dictionary)

theorem validateVerdict {α : Type} {Made : α → Prop} (options : NameOptions) {rest : List Requirement}
    {next : Except NameError α} (later : 1 ≤ options.maxAttempts.toNat → Verdict Made rest next) :
    Verdict Made (options.fittingPrefix :: options.someAttempts :: options.fittingLength :: rest)
      (options.validate >>= fun _ => next) := by
  have lead : options.PrefixFits ↔ options.fittingPrefix.holds := or_congr_right Identifier.spellsIff
  have attempts : ¬options.maxAttempts = 0 ↔ 1 ≤ options.maxAttempts.toNat := by
    rw [← UInt32.toNat_inj]
    exact Nat.one_le_iff_ne_zero.symm
  unfold validate
  split
  · next broken => exact .refused (mt lead.mpr broken)
  · next fits =>
    refine .passed (lead.mp (Decidable.not_not.mp fits)) ?_
    split
    · next none => exact .refused (mt attempts.mpr (not_not_intro none))
    · next some =>
      refine .passed (attempts.mp some) ?_
      split
      · next broken => exact .refused broken
      · next within =>
        have within : options.LengthFits := Decidable.not_not.mp within
        exact .passed within (later (attempts.mp some))

theorem optionsVerdict (options : NameOptions) (source : σ) :
    Verdict options.Makes options.requirements (Generator.ofOptions options source) := by
  unfold Generator.ofOptions
  cases known : Kind.ofToken? options.generator with
  | none =>
    refine .refused fun listed => ?_
    obtain ⟨kind, found⟩ := Kind.knownIff.mp listed
    cases known.symm.trans found
  | some kind =>
    have named := Kind.tokenOfToken known
    exact .passed (Kind.knownIff.mpr ⟨kind, known⟩)
      (validateVerdict options fun attempts => createVerdict attempts named source)

theorem optionsAccepted (options : NameOptions) (source : σ) :
    ((∃ generator, Generator.ofOptions options source = .ok generator) ↔
      ∀ requirement ∈ options.requirements, requirement.holds) ∧
    (∀ generator, Generator.ofOptions options source = .ok generator → options.Makes generator) ∧
    ∀ cause, Generator.ofOptions options source = .error cause ↔
      ∃ met broken rest, options.requirements = met ++ broken :: rest ∧ (∀ requirement ∈ met, requirement.holds) ∧
        ¬broken.holds ∧ broken.cause = cause := by
  have verdict := optionsVerdict options source
  refine ⟨⟨?accepted, verdict.answers⟩, ?made, fun cause => ⟨?refused, ?first⟩⟩
  case accepted =>
    rintro ⟨generator, built⟩
    exact (built ▸ verdict).made.1
  case made =>
    intro generator built
    exact (built ▸ verdict).made.2
  case refused =>
    intro refused
    exact (refused ▸ verdict).first
  case first =>
    rintro ⟨met, broken, rest, split, holds, fails, rfl⟩
    exact (split ▸ verdict).ofFirst holds fails

def wordyOptions : NameOptions :=
  {generator := "dictionary", globalPrefix := "app_", dictionary := ["--", "two words"], reserved := ["keep", "keep"],
    maxAttempts := 1, nameLength := some 64}

theorem wordyAccepted :
    (∃ generator, Generator.ofOptions wordyOptions Script.lowest = .ok generator ∧ wordyOptions.Makes generator) ∧
      Generator.ofOptions {wordyOptions with globalPrefix := "app-", maxAttempts := 0, dictionary := ["--"]}
        Script.lowest = .error (.invalidPrefix "app-") := by
  obtain ⟨accepted, made, _⟩ := optionsAccepted wordyOptions Script.lowest
  obtain ⟨_, _, refused⟩ := optionsAccepted
    {wordyOptions with globalPrefix := "app-", maxAttempts := 0, dictionary := ["--"]} Script.lowest
  have lead : Identifier.Grammatical "app_".toList := Identifier.spellsIff.mp (by decide)
  have faulty : ¬Identifier.Grammatical "app-".toList := mt Identifier.spellsIff.mpr (by decide)
  have held : ∀ requirement ∈ wordyOptions.requirements, requirement.holds := by
    have length : ∀ length ∈ wordyOptions.nameLength, 1 ≤ length.toNat ∧ length.toNat ≤ 64 := by
      rintro _ ⟨⟩
      decide
    have words : ∃ entry ∈ wordyOptions.dictionary, ∃ c ∈ entry.toList, c.isAlphanum = true ∨ c = '_' ∨ c = '$' :=
      ⟨"two words", by decide, 't', by decide, by decide⟩
    simp only [requirements, List.forall_mem_cons, knownGenerator, fittingPrefix, someAttempts, fittingLength,
      usableWords]
    exact ⟨by decide, .inr lead, by decide, length, fun _ => .inr words, by simp⟩
  obtain ⟨generator, built⟩ := accepted.mpr held
  refine ⟨⟨generator, built, made generator built⟩, (refused _).mpr ⟨[_], _, _, rfl, ?_, ?_, rfl⟩⟩
  · simp [wordyOptions, knownGenerator]
  · rintro (none | grammatical)
    · exact absurd none (by decide)
    · exact faulty grammatical

end NameOptions
end Pseudonym
