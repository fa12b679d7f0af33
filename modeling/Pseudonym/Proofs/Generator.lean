import Pseudonym.Generator
import Pseudonym.Proofs.Ledger
import Pseudonym.Random.Scripted

/-! What a request does to a generator. Every strategy answers with a name its ledger accepted and claims
it, or fails and leaves the ledger alone; the requests of other sorts are made of these. -/
namespace Pseudonym

def Script.lowest : Script := ⟨#[0], by decide, 0⟩

namespace HexName

variable {σ : Type} [RandomSource σ]

theorem issueFromCases (lead label : String) (requested width : Nat) (ledger : Ledger) (widths : Widths)
    (source : σ) :
    (∃ name rest, issueFrom Ledger.issue lead label requested width ledger widths source =
      (.ok name, ledger.claim name, rest) ∧ ledger.accepts name = true) ∨
    ∃ cause rest, issueFrom Ledger.issue lead label requested width ledger widths source =
      (.error cause, ledger, rest) := by
  rw [issueFrom]
  rcases ledger.issueCases (draw lead width) label source with ⟨name, after, eq, free⟩ | ⟨cause, after, eq⟩
  · rw [eq]
    exact .inl ⟨name, (widths, after), rfl, free⟩
  · rw [eq]
    dsimp only
    split
    · exact issueFromCases lead label requested (width + 1) ledger _ after
    · exact .inr ⟨cause, (widths, after), rfl⟩
termination_by maxWidth - width

end HexName

namespace Generator

variable {σ : Type}

theorem preserveAllKeeps (generator : Generator σ) (names : List String) :
    (generator.preserveAll names).ledger = generator.ledger.claimAll names ∧
      (generator.preserveAll names).strategy = generator.strategy := by
  induction names generalizing generator with
  | nil => exact ⟨rfl, rfl⟩
  | cons name rest ih => exact ih (generator.preserve name)

theorem preserveAllKind (generator : Generator σ) (names : List String) :
    (generator.preserveAll names).kind = generator.kind := congrArg Strategy.kind (generator.preserveAllKeeps names).2

inductive Answers (generator : Generator σ) : Except NameError String × Generator σ → Prop where
  | issued {name : String} {after : Generator σ} (free : generator.ledger.accepts name = true)
      (ledger : after.ledger = generator.ledger.claim name) (kind : after.kind = generator.kind) :
      Answers generator (.ok name, after)
  | failed {cause : NameError} {after : Generator σ} (ledger : after.ledger = generator.ledger)
      (kind : after.kind = generator.kind) : Answers generator (.error cause, after)

theorem Answers.ofIssued {generator : Generator σ} {ρ : Type} {outcome : Except NameError String × Ledger × ρ}
    (issued : (∃ name rest, outcome = (.ok name, generator.ledger.claim name, rest) ∧
      generator.ledger.accepts name = true) ∨ ∃ cause rest, outcome = (.error cause, generator.ledger, rest))
    (later : ρ → σ × Strategy) (same : ∀ rest, (later rest).2.kind = generator.kind) :
    Answers generator (outcome.1, ⟨outcome.2.1, (later outcome.2.2).1, (later outcome.2.2).2⟩) := by
  rcases issued with ⟨name, rest, rfl, free⟩ | ⟨cause, rest, rfl⟩
  · exact .issued free rfl (same rest)
  · exact .failed rfl (same rest)

theorem Answers.grows {generator : Generator σ} {outcome : Except NameError String × Generator σ}
    (answers : Answers generator outcome) : generator.ledger.Grows outcome.2.ledger := by
  cases answers with
  | issued free ledger kind => exact ledger ▸ Ledger.Grows.claim _ _
  | failed ledger kind => exact ledger ▸ Ledger.Grows.refl _

theorem Answers.sameKind {generator : Generator σ} {outcome : Except NameError String × Generator σ}
    (answers : Answers generator outcome) : outcome.2.kind = generator.kind := by
  cases answers with
  | issued free ledger kind => exact kind
  | failed ledger kind => exact kind

inductive Attempts (generator : Generator σ) : Attempt (Except NameError String) × Generator σ → Prop where
  | failed {cause : NameError} {after : Generator σ} (answers : Answers generator (.error cause, after)) :
      Attempts generator (.settled (.error cause), after)
  | plain {base : String} {after : Generator σ} (answers : Answers generator (.ok base, after))
      (same : after.ledger.prefixed base = base) : Attempts generator (.settled (.ok base), after)
  | joined {base : String} {after : Generator σ} (answers : Answers generator (.ok base, after))
      (free : after.ledger.accepts (after.ledger.prefixed base) = true) :
      Attempts generator (.settled (.ok (after.ledger.prefixed base)), after.preserve (after.ledger.prefixed base))
  | missed {base : String} {after : Generator σ} {outcome : Attempt (Except NameError String)}
      (answers : Answers generator (.ok base, after)) (missed : outcome.Missed)
      (taken : after.ledger.accepts (after.ledger.prefixed base) = false) : Attempts generator (outcome, after)

theorem Attempts.grows {generator : Generator σ} {outcome : Attempt (Except NameError String) × Generator σ}
    (attempts : Attempts generator outcome) :
    generator.ledger.Grows outcome.2.ledger ∧
      ∀ name, outcome.1 = .settled (.ok name) →
        generator.ledger.accepts name = true ∧ name ∈ outcome.2.ledger.claimed := by
  cases attempts with
  | failed answers => exact ⟨answers.grows, by simp⟩
  | @plain base after answers same =>
    refine ⟨answers.grows, fun name settled => ?_⟩
    cases settled
    cases answers with
    | issued free ledger kind => exact ⟨free, ledger ▸ Ledger.memClaim.mpr (.inl rfl)⟩
  | @joined base after answers free =>
    refine ⟨answers.grows.trans (Ledger.Grows.claim _ _), fun name settled => ?_⟩
    cases settled
    exact ⟨answers.grows.accepts free, Ledger.memClaim.mpr (.inl rfl)⟩
  | @missed base after outcome answers missed taken =>
    refine ⟨answers.grows, fun name settled => ?_⟩
    have none : outcome = .settled (.ok name) := settled
    subst none
    exact missed.elim

theorem Attempts.leads {generator : Generator σ} {outcome : Attempt (Except NameError String) × Generator σ}
    (attempts : Attempts generator outcome) {name : String} (settled : outcome.1 = .settled (.ok name)) :
    generator.ledger.globalPrefix.toList <+: name.toList := by
  cases attempts with
  | failed => cases settled
  | @plain base after answers same =>
    cases settled
    have lead := Ledger.joinLeads after.ledger.globalPrefix name
    rw [← Ledger.prefixed, same] at lead
    exact answers.grows.globalPrefix ▸ lead
  | @joined base after answers =>
    cases settled
    exact answers.grows.globalPrefix ▸ Ledger.joinLeads ..
  | @missed _ _ outcome _ missed =>
    have found : outcome = .settled (.ok name) := settled
    subst found
    exact missed.elim

variable [RandomSource σ]

theorem nextAnswers (generator : Generator σ) (length : Option Nat) :
    Answers generator (generator.next length) := by
  obtain ⟨ledger, random, strategy⟩ := generator
  -- Each strategy keeps its own state after a request; what the request does to the ledger is the same for all.
  cases strategy with
  | dictionary pool =>
    exact .ofIssued (ledger.issueCases WordPool.draw _ (pool, random))
      (fun (rest : WordPool × σ) => (rest.2, .dictionary rest.1)) fun _ => rfl
  | hexadecimal widths =>
    exact .ofIssued (HexName.issueFromCases "_0x" _ _ _ ledger widths random)
      (fun (rest : HexName.Widths × σ) => (rest.2, .hexadecimal rest.1)) fun _ => rfl
  | keepOriginal widths =>
    exact .ofIssued (HexName.issueFromCases "_" _ _ _ ledger widths random)
      (fun (rest : HexName.Widths × σ) => (rest.2, .keepOriginal rest.1)) fun _ => rfl
  | mangled position =>
    exact .ofIssued (ledger.issueCases Alphabets.standard.draw _ position) (fun rest => (random, .mangled rest))
      fun _ => rfl
  | mangledShuffled alphabets position =>
    exact .ofIssued (ledger.issueCases alphabets.draw _ position) (fun rest => (random, .mangledShuffled alphabets rest))
      fun _ => rfl

theorem attemptGlobalAttempts (generator : Generator σ) (length : Option Nat) :
    Attempts generator (attemptGlobal length generator) := by
  have answers := generator.nextAnswers length
  unfold attemptGlobal
  generalize generator.next length = outcome at answers ⊢
  obtain ⟨answer, after⟩ := outcome
  cases answer with
  | error cause => exact .failed answers
  | ok base =>
    dsimp only [joinBase]
    split
    · exact .plain answers (by assumption)
    · split
      · exact .joined answers (by assumption)
      · have unaccepted := Bool.eq_false_iff.mpr (by assumption)
        split
        · exact .missed answers trivial unaccepted
        · exact .missed answers trivial unaccepted

theorem globalKeeps {Holds : Generator σ → Prop}
    (nexts : ∀ generator length, Holds generator → Holds (generator.next length).2)
    (preserves : ∀ generator name, Holds generator → Holds (generator.preserve name))
    (generator : Generator σ) (length : Option Nat) (holds : Holds generator) :
    Holds (generator.forGlobal length).2 := by
  have attempts (generator : Generator σ) (holds : Holds generator) :
      Holds (attemptGlobal length generator).2 := by
    have after := nexts generator length holds
    unfold attemptGlobal
    generalize generator.next length = outcome at after ⊢
    obtain ⟨answer, next⟩ := outcome
    cases answer with
    | error cause => exact after
    | ok base =>
      dsimp only [joinBase]
      split
      · exact after
      · split
        · exact preserves _ _ after
        · split <;> exact after
  exact Retry.retryKeeps (fun generator holds _ => attempts generator holds)
    (fun generator _ holds _ => attempts generator holds) (fun _ _ holds => holds) .zero generator holds

theorem labelMade {generator : Generator σ} (made : generator.kind ≠ .keepOriginal) (label : String)
    (length : Option Nat) : generator.forLabel label length = generator.next length := by
  unfold forLabel
  split
  · next verbatim => exact absurd verbatim made
  · rfl

theorem globalKind (generator : Generator σ) (length : Option Nat) :
    (generator.forGlobal length).2.kind = generator.kind :=
  globalKeeps (fun current length same => ((current.nextAnswers length).sameKind).trans same)
    (fun _ _ same => same) generator length rfl

theorem globalGrows (generator : Generator σ) (length : Option Nat) :
    generator.ledger.Grows (generator.forGlobal length).2.ledger ∧
      ∀ name, (generator.forGlobal length).1 = .ok name →
        generator.ledger.accepts name = true ∧ name ∈ (generator.forGlobal length).2.ledger.claimed := by
  let Before (current : Generator σ) : Prop := generator.ledger.Grows current.ledger
  let After (answer : Except NameError String) (current : Generator σ) : Prop :=
    generator.ledger.Grows current.ledger ∧
      ∀ name, answer = .ok name → generator.ledger.accepts name = true ∧ name ∈ current.ledger.claimed
  have misses (current : Generator σ) (before : Before current) (_ : (attemptGlobal length current).1.Missed) :
      Before (attemptGlobal length current).2 :=
    before.trans (current.attemptGlobalAttempts length).grows.1
  have settles (current : Generator σ) (answer : Except NameError String) (before : Before current)
      (settled : (attemptGlobal length current).1 = .settled answer) :
      After answer (attemptGlobal length current).2 := by
    have step := (current.attemptGlobalAttempts length).grows
    refine ⟨before.trans step.1, fun name same => ?_⟩
    have found := step.2 name (settled.trans (congrArg _ same))
    exact ⟨before.accepts found.1, found.2⟩
  exact Retry.retryKeeps misses settles (fun _ _ before => ⟨before, by simp⟩) .zero generator
    (Ledger.Grows.refl _)

/-- A global name starts with the prefix of its session. -/
theorem globalLeads (generator : Generator σ) (length : Option Nat) :
    ∀ name, (generator.forGlobal length).1 = .ok name → generator.ledger.globalPrefix.toList <+: name.toList := by
  let Before (current : Generator σ) : Prop := current.ledger.globalPrefix = generator.ledger.globalPrefix
  let After (answer : Except NameError String) (_ : Generator σ) : Prop :=
    ∀ name, answer = .ok name → generator.ledger.globalPrefix.toList <+: name.toList
  have misses (current : Generator σ) (before : Before current) (_ : (attemptGlobal length current).1.Missed) :
      Before (attemptGlobal length current).2 :=
    (current.attemptGlobalAttempts length).grows.1.globalPrefix.trans before
  have settles (current : Generator σ) (answer : Except NameError String) (before : Before current)
      (settled : (attemptGlobal length current).1 = .settled answer) :
      After answer (attemptGlobal length current).2 := fun name same =>
    before ▸ (current.attemptGlobalAttempts length).leads (settled.trans (congrArg _ same))
  have givesUp (tally : Tally) (current : Generator σ) (_ : Before current) :
      After (.error (Ledger.exhausted generator.kind.token tally)) current := by simp [After]
  exact Retry.retryKeeps misses settles givesUp .zero generator rfl

end Generator
end Pseudonym
