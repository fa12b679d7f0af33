import Mathlib.Tactic.Ring
import Pseudonym.Proofs.HexName
import Pseudonym.Proofs.Session.Call

/-! How much work a request is. Every loop of a request has a bound that is known when it starts: the candidates of one
search, the bases of a global name, the widths of a hexadecimal name and the integers that its digits take. The bounds
compose, so that no call draws more candidates than a square of what its ledger affords. The counts come from runs of
the requests themselves, on a source of chance, a stream or a ledger that keeps count. -/
namespace Pseudonym

/-- A source of chance that keeps count of the draws from it. -/
structure Metered (σ : Type) where
  source : σ
  drawn : Nat

variable {σ : Type} [RandomSource σ]

instance : RandomSource (Metered σ) where
  between metered low high ordered :=
    let (drawn, source) := RandomSource.between metered.source low high ordered
    (drawn, ⟨source, metered.drawn + 1⟩)
  partner metered last :=
    let (drawn, source) := RandomSource.partner metered.source last
    (drawn, ⟨source, metered.drawn + 1⟩)

theorem meteredBetween (source : σ) (count low high : Nat) (ordered : low ≤ high) :
    RandomSource.between (⟨source, count⟩ : Metered σ) low high ordered =
      ((RandomSource.between source low high ordered).1,
        ⟨(RandomSource.between source low high ordered).2, count + 1⟩) := rfl

namespace Ledger

/-- A ledger that keeps count of the requests made of it and of the candidates they draw. -/
structure Metered where
  ledger : Ledger
  requests : Nat
  candidates : Nat

namespace Metered

def issue {σ : Type} (metered : Metered) (label : String) (draw : σ → String × σ) (stream : σ) :
    Except NameError String × Metered × σ :=
  let (answer, ledger, stream, candidates) :=
    metered.ledger.issue label (Retry.counted draw) (stream, metered.candidates)
  (answer, ⟨ledger, metered.requests + 1, candidates⟩, stream)

theorem issueOnce {σ : Type} (ledger : Ledger) (requests candidates : Nat) (label : String) (draw : σ → String × σ)
    (stream : σ) :
    ∃ drawn ≤ ledger.maxAttempts + ledger.skipBudget, issue ⟨ledger, requests, candidates⟩ label draw stream =
      let (answer, after, rest) := ledger.issue label draw stream
      (answer, ⟨after, requests + 1, candidates + drawn⟩, rest) := by
  obtain ⟨drawn, few, same⟩ := issueCosts draw ledger label stream candidates
  exact ⟨drawn, few, by rw [issue, same]⟩

end Metered
end Ledger

namespace HexName

theorem writtenLong {n : Nat} (large : 10000 ≤ n) : 4 ≤ (Nat.toDigits 16 n).length := by
  have short := @Nat.length_toDigits_le_iff 16 n 3 (by decide) (by decide)
  omega

theorem digitsMetered (wanted : Nat) (source : σ) (count : Nat) :
    ∃ integers ≤ (wanted + 3) / 4, digits wanted (⟨source, count⟩ : Metered σ) =
      ((digits wanted source).1, ⟨(digits wanted source).2, count + integers⟩) := by
  fun_induction digits wanted source generalizing count with
  | case1 source => exact ⟨0, by omega, by simp [digits]⟩
  | case2 wanted source more drawn after drew written rest last filled ih =>
    obtain ⟨integers, few, same⟩ := ih (count + 1)
    have long : 4 ≤ written.length := writtenLong drawn.property.1
    refine ⟨integers + 1, by omega, ?_⟩
    rw [digits, if_neg more, meteredBetween, drew]
    simp only [same, filled, written, Nat.add_assoc, Nat.add_comm 1]

theorem issueFromCounts (lead label : String) (asked width : Nat) (ledger : Ledger) (requests candidates : Nat)
    (widths : Widths) (source : σ) :
    ∃ made ≤ max 1 (maxWidth + 1 - width), ∃ drawn ≤ made * (ledger.maxAttempts + ledger.skipBudget),
      issueFrom Ledger.Metered.issue lead label asked width ⟨ledger, requests, candidates⟩ widths source =
        let (answer, after, widened, rest) := issueFrom Ledger.issue lead label asked width ledger widths source
        (answer, ⟨after, requests + made, candidates + drawn⟩, widened, rest) := by
  obtain ⟨drawn, few, once⟩ := Ledger.Metered.issueOnce ledger requests candidates label (draw lead width) source
  rw [issueFrom, issueFrom, once]
  rcases ledger.issueCases (draw lead width) label source with ⟨name, after, issued, _⟩ | ⟨cause, after, failed⟩
  · rw [issued]
    exact ⟨1, Nat.le_max_left .., drawn, by rwa [Nat.one_mul], rfl⟩
  · rw [failed]
    dsimp only
    split
    · next small =>
      obtain ⟨made, wide, more, within, same⟩ := issueFromCounts lead label asked (width + 1) ledger (requests + 1)
        (candidates + drawn) (widths.widen asked (width + 1)) after
      refine ⟨made + 1, by omega, drawn + more, ?_, ?_⟩
      · rw [Nat.add_mul, Nat.one_mul, Nat.add_comm]
        exact Nat.add_le_add within few
      · rw [same, Nat.add_assoc, Nat.add_assoc, Nat.add_comm 1 made]
    · exact ⟨1, Nat.le_max_left .., drawn, by rwa [Nat.one_mul], rfl⟩
termination_by maxWidth - width

end HexName

theorem Strategy.nextCounts (strategy : Strategy) (length : Option Nat) (ledger : Ledger) (requests candidates : Nat)
    (random : σ) :
    ∃ made ≤ HexName.maxWidth + 1, ∃ drawn ≤ made * (ledger.maxAttempts + ledger.skipBudget),
      strategy.next Ledger.Metered.issue length ⟨ledger, requests, candidates⟩ random =
        let (answer, after, rest, later) := strategy.next Ledger.issue length ledger random
        (answer, ⟨after, requests + made, candidates + drawn⟩, rest, later) := by
  have once {τ : Type} (label : String) (draw : τ → String × τ) (stream : τ) :
      ∃ drawn ≤ 1 * (ledger.maxAttempts + ledger.skipBudget),
        Ledger.Metered.issue ⟨ledger, requests, candidates⟩ label draw stream =
          let (answer, after, rest) := ledger.issue label draw stream
          (answer, ⟨after, requests + 1, candidates + drawn⟩, rest) := by
    rw [Nat.one_mul]
    exact Ledger.Metered.issueOnce ledger requests candidates label draw stream
  have widening (lead label : String) (widths : HexName.Widths) :
      ∃ made ≤ HexName.maxWidth + 1, ∃ drawn ≤ made * (ledger.maxAttempts + ledger.skipBudget),
        HexName.issue Ledger.Metered.issue lead label length ⟨ledger, requests, candidates⟩ widths random =
          let (answer, after, widened, rest) := HexName.issue Ledger.issue lead label length ledger widths random
          (answer, ⟨after, requests + made, candidates + drawn⟩, widened, rest) := by
    obtain ⟨made, wide, more⟩ := HexName.issueFromCounts lead label (HexName.requested length)
      (widths.width (HexName.requested length)) ledger requests candidates widths random
    exact ⟨made, by simp only [HexName.maxWidth] at wide ⊢; omega, more⟩
  cases strategy with
  | dictionary pool =>
    obtain ⟨drawn, few, same⟩ := once Kind.dictionary.token WordPool.draw (pool, random)
    exact ⟨1, by decide, drawn, few, by rw [next, kind, same]; rfl⟩
  | hexadecimal widths =>
    obtain ⟨made, wide, drawn, few, same⟩ := widening "_0x" Kind.hexadecimal.token widths
    exact ⟨made, wide, drawn, few, by rw [next, kind, same]; rfl⟩
  | keepOriginal widths =>
    obtain ⟨made, wide, drawn, few, same⟩ := widening "_" Kind.keepOriginal.token widths
    exact ⟨made, wide, drawn, few, by rw [next, kind, same]; rfl⟩
  | mangled position =>
    obtain ⟨drawn, few, same⟩ := once Kind.mangled.token Alphabets.standard.draw position
    exact ⟨1, by decide, drawn, few, by rw [next, kind, same]; rfl⟩
  | mangledShuffled alphabets position =>
    obtain ⟨drawn, few, same⟩ := once Kind.mangledShuffled.token alphabets.draw position
    exact ⟨1, by decide, drawn, few, by rw [next, kind, same]; rfl⟩

namespace Generator

/-- `next` with a meter beside the generator that shows how many candidates were drawn. -/
def nextMetered (length : Option Nat) (metered : Generator σ × Nat) : Except NameError String × Generator σ × Nat :=
  let (⟨ledger, random, strategy⟩, shown) := metered
  let (answer, ⟨ledger, _, shown⟩, random, strategy) :=
    strategy.next Ledger.Metered.issue length ⟨ledger, 0, shown⟩ random
  (answer, ⟨ledger, random, strategy⟩, shown)

theorem nextCosts (generator : Generator σ) (length : Option Nat) (shown : Nat) :
    Retry.Costs ((HexName.maxWidth + 1) * (generator.ledger.maxAttempts + generator.ledger.skipBudget)) shown
      (generator.next length) (nextMetered length (generator, shown)) := by
  obtain ⟨made, wide, drawn, few, same⟩ :=
    generator.strategy.nextCounts length generator.ledger 0 shown generator.random
  exact ⟨drawn, Nat.le_trans few (Nat.mul_le_mul_right _ wide), by rw [nextMetered, same]; rfl⟩

/-- A global name is asked for with `next` as many times as there are attempts. -/
theorem globalCalls (generator : Generator σ) (length : Option Nat) :
    ∃ calls ≤ generator.ledger.maxAttempts + generator.ledger.skipBudget,
      retry generator.ledger.limits (fun tally => .error (Ledger.exhausted generator.kind.token tally))
          (Retry.counted (attemptGlobal length)) .zero (generator, 0) =
        ((generator.forGlobal length).1, (generator.forGlobal length).2, calls) :=
  (Retry.retryCounted _ _ _ generator 0 generator.ledger.unspentZero).fromZero

def attemptMetered (length : Option Nat) (metered : Generator σ × Nat) :
    Attempt (Except NameError String) × Generator σ × Nat :=
  let (base, generator, shown) := nextMetered length metered
  let (outcome, generator) := generator.joinBase base
  (outcome, generator, shown)

theorem attemptCosts (generator : Generator σ) (length : Option Nat) (shown : Nat) :
    Retry.Costs ((HexName.maxWidth + 1) * (generator.ledger.maxAttempts + generator.ledger.skipBudget)) shown
      (attemptGlobal length generator) (attemptMetered length (generator, shown)) := by
  obtain ⟨cost, few, same⟩ := generator.nextCosts length shown
  exact ⟨cost, few, by rw [attemptMetered, same]; rfl⟩

def globalMetered (length : Option Nat) (metered : Generator σ × Nat) : Except NameError String × Generator σ × Nat :=
  retry metered.1.ledger.limits (fun tally => .error (Ledger.exhausted metered.1.kind.token tally))
    (attemptMetered length) .zero metered

theorem missedBudget {length : Option Nat} {generator : Generator σ}
    (missed : (attemptGlobal length generator).1.Missed) :
    (attemptGlobal length generator).2.ledger.maxAttempts = generator.ledger.maxAttempts ∧
      (attemptGlobal length generator).2.ledger.skipBudget ≤ generator.ledger.skipBudget + 1 := by
  have attempts := generator.attemptGlobalAttempts length
  generalize attemptGlobal length generator = outcome at attempts missed ⊢
  cases attempts with
  | failed | plain | joined => exact missed.elim
  | @missed base after _ answers =>
    cases answers with
    | issued free ledger kind =>
      have one := (generator.ledger.claimAllBudget [base]).1
      rw [List.length_singleton, Nat.add_comm] at one
      rw [ledger]
      exact ⟨rfl, one⟩

theorem globalCosts (generator : Generator σ) (length : Option Nat) (shown : Nat) :
    Retry.Costs (2 * (HexName.maxWidth + 1) * (generator.ledger.maxAttempts + generator.ledger.skipBudget) ^ 2) shown
      (generator.forGlobal length) (globalMetered length (generator, shown)) := by
  generalize start : generator.ledger.maxAttempts + generator.ledger.skipBudget = afforded
  let Holds (tally : Tally) (current : Generator σ) : Prop :=
    current.ledger.maxAttempts + current.ledger.skipBudget ≤ afforded + tally.drawn
  have misses (tally : Tally) (current : Generator σ) (holds : Holds tally current)
      (missed : (attemptGlobal length current).1.Missed) :
      Holds (tally.count (attemptGlobal length current).1) (attemptGlobal length current).2 := by
    obtain ⟨same, budget⟩ := missedBudget missed
    have later := tally.countMissed missed
    simp only [Holds] at holds ⊢
    omega
  have costs (tally : Tally) (current : Generator σ) (shown : Nat) (unspent : ¬generator.ledger.limits.Spent tally)
      (holds : Holds tally current) : Retry.Costs ((HexName.maxWidth + 1) * (afforded + afforded)) shown
        (attemptGlobal length current) (attemptMetered length (current, shown)) := by
    have early : tally.drawn + 1 ≤ afforded := start ▸ Retry.unspentDrawn unspent
    refine (current.attemptCosts length shown).within (Nat.mul_le_mul_left _ (Nat.le_trans holds ?_))
    omega
  obtain ⟨total, same, few⟩ := Retry.retryMetered
    (fun tally => Except.error (Ledger.exhausted generator.kind.token tally)) misses costs
    shown generator.ledger.unspentZero (Nat.le_of_eq start : Holds .zero generator)
  have limits : generator.ledger.limits.rejections + generator.ledger.limits.skips = afforded := start
  rw [limits, Tally.zero, Tally.drawn, Nat.add_zero, Nat.zero_mul, Nat.add_zero] at few
  refine ⟨total, ?_, same⟩
  calc total
    _ ≤ afforded * ((HexName.maxWidth + 1) * (afforded + afforded)) := few
    _ = 2 * (HexName.maxWidth + 1) * afforded ^ 2 := by ring

end Generator

namespace Session

/-- `perform` with the generator's meter. -/
def Call.performMetered (call : Call) (metered : Generator σ × Nat) : Except NameError String × Generator σ × Nat :=
  match call with
  | .next length | .lexical _ length => Generator.nextMetered length metered
  | .global length => Generator.globalMetered length metered
  | .label name length =>
      match metered.1.kind with
      | .keepOriginal => (.ok name, metered.1.preserve name, metered.2)
      | _ => Generator.nextMetered length metered
  | .preserve name => (.ok name, metered.1.preserve name, metered.2)

theorem Call.performCosts (call : Call) (generator : Generator σ) (shown : Nat) :
    Retry.Costs (2 * (HexName.maxWidth + 1) * (generator.ledger.maxAttempts + generator.ledger.skipBudget) ^ 2) shown
      (call.perform generator) (call.performMetered (generator, shown)) := by
  have once (length : Option Nat) : Retry.Costs
      (2 * (HexName.maxWidth + 1) * (generator.ledger.maxAttempts + generator.ledger.skipBudget) ^ 2) shown
      (generator.next length) (Generator.nextMetered length (generator, shown)) := by
    refine (generator.nextCosts length shown).within (Nat.mul_le_mul (by decide) ?_)
    exact Nat.le_self_pow (by decide) _
  cases call with
  | next length => exact once length
  | lexical scope length => exact once length
  | global length => exact generator.globalCosts length shown
  | label name length =>
    rw [performMetered]
    split
    · next keep =>
      have kept : (Call.label name length).perform generator = (.ok name, generator.preserve name) := by
        simp only [perform, Generator.forLabel, keep]
      exact kept ▸ ⟨0, Nat.zero_le _, rfl⟩
    · next made =>
      have asked : (Call.label name length).perform generator = generator.next length :=
        Generator.labelMade made name length
      exact asked ▸ once length
  | preserve name => exact ⟨0, Nat.zero_le _, rfl⟩

/-- The work of every loop of a request, and that of a whole call. -/
theorem effortBounded :
    (∀ {τ : Type} (ledger : Ledger) (label : String) (draw : τ → String × τ) (stream : τ),
      ∃ drawn ≤ ledger.maxAttempts + ledger.skipBudget,
        ledger.issue label (Retry.counted draw) (stream, 0) =
          let (answer, after, rest) := ledger.issue label draw stream
          (answer, after, rest, drawn)) ∧
    (∀ (generator : Generator σ) (length : Option Nat),
      ∃ calls ≤ generator.ledger.maxAttempts + generator.ledger.skipBudget,
        retry generator.ledger.limits (fun tally => .error (Ledger.exhausted generator.kind.token tally))
            (Retry.counted (Generator.attemptGlobal length)) .zero (generator, 0) =
          let (answer, after) := generator.forGlobal length
          (answer, after, calls)) ∧
    (∀ (lead label : String) (asked width : Nat) (ledger : Ledger) (widths : HexName.Widths) (source : σ),
      ∃ requests ≤ max 1 (65 - width), ∃ candidates ≤ requests * (ledger.maxAttempts + ledger.skipBudget),
        HexName.issueFrom Ledger.Metered.issue lead label asked width ⟨ledger, 0, 0⟩ widths source =
          let (answer, after, widened, rest) :=
            HexName.issueFrom Ledger.issue lead label asked width ledger widths source
          (answer, ⟨after, requests, candidates⟩, widened, rest)) ∧
    (∀ (wanted : Nat) (source : σ), ∃ integers ≤ (wanted + 3) / 4,
      HexName.digits wanted (⟨source, 0⟩ : Metered σ) =
        let (written, after) := HexName.digits wanted source
        (written, ⟨after, integers⟩)) ∧
    (∀ (generator : Generator σ) (length : Option Nat),
      ∃ candidates ≤ 65 * (generator.ledger.maxAttempts + generator.ledger.skipBudget),
        Generator.nextMetered length (generator, 0) =
          let (answer, after) := generator.next length
          (answer, after, candidates)) ∧
    ∀ (call : Call) (generator : Generator σ),
      ∃ candidates ≤ 130 * (generator.ledger.maxAttempts + generator.ledger.skipBudget) ^ 2,
        call.performMetered (generator, 0) =
          let (answer, after) := call.perform generator
          (answer, after, candidates) := by
  refine ⟨?issue, ?global, ?widths, ?digits, ?next, ?call⟩
  case issue =>
    intro τ ledger label draw stream
    obtain ⟨same, few⟩ := Ledger.issueCounted draw ledger label stream
    exact ⟨_, few, same⟩
  case global => exact Generator.globalCalls
  case widths =>
    intro lead label asked width ledger widths source
    have metered := HexName.issueFromCounts lead label asked width ledger 0 0 widths source
    simp only [Nat.zero_add] at metered
    exact metered
  case digits =>
    intro wanted source
    obtain ⟨integers, few, same⟩ := HexName.digitsMetered wanted source 0
    rw [Nat.zero_add] at same
    exact ⟨integers, few, same⟩
  case next =>
    intro generator length
    exact (generator.nextCosts length 0).fromZero
  case call =>
    intro call generator
    exact (call.performCosts generator 0).fromZero

end Session
end Pseudonym
