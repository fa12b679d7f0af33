import Pseudonym.Proofs.Session.Run
import Pseudonym.Proofs.WordPool.Exhaustion

/-! Dictionaries that recycle their words. A dictionary never fails, in no session and however many names are
taken before the next free one, as long as its words do not offer the same names too often; words that end in
digits may, and then there is a session in which a request fails. -/
namespace Pseudonym

namespace Generator

variable {σ : Type}

def round (generator : Generator σ) : Nat :=
  match generator.strategy with
  | .dictionary pool => pool.round
  | _ => 0

def words (generator : Generator σ) : List String :=
  match generator.strategy with
  | .dictionary pool => pool.words.toList
  | _ => []

end Generator

namespace WordPool
open Session

variable {σ : Type}

structure Deals (first : Ledger) (words : Array String) (generator : Generator σ) (pool : WordPool) : Prop where
  strategy : generator.strategy = .dictionary pool
  fair : pool.Fair
  words : pool.words = words
  grows : first.Grows generator.ledger

structure New (ledger : Ledger) (pool : WordPool) (fresh : Generator σ) : Prop where
  ledger : fresh.ledger = ledger
  strategy : fresh.strategy = .dictionary pool
  fair : pool.Fair
  grammatical : ∀ word ∈ pool.words, Identifier.Grammatical word.toList
  untouched : ∀ pair, pool.Left pair ↔ pair.2 ∈ pool.words

theorem New.words {ledger : Ledger} {pool : WordPool} {fresh : Generator σ} (new : New ledger pool fresh) :
    fresh.words = pool.words.toList := by rw [Generator.words, new.strategy]

theorem ofEntriesNew {entries : List String} {order : DrawOrder} {pool : WordPool}
    (usable : ofEntries? entries order = some pool) (ledger : Ledger) (source : σ) :
    New ledger pool ⟨ledger, source, .dictionary pool⟩ := by
  simp only [ofEntries?] at usable
  generalize (if entries.isEmpty = true then Word.standard else entries) = entries at usable
  split at usable
  · cases usable
    refine ⟨rfl, rfl, ⟨Word.listNodup entries, by simpa using Word.listNodup entries, by simp⟩, ?_, ?_⟩
    · exact fun word member => Word.listGrammatical (List.mem_toArray.mp member)
    · rintro ⟨round, word⟩
      simp only [Left, Array.mem_reverse, ← or_and_right]
      exact and_iff_right (Nat.eq_zero_or_pos round)
  · cases usable

variable [RandomSource σ]

theorem searchFair {pool : WordPool} (fair : pool.Fair) (ledger : Ledger) (label : String) (source : σ) :
    (ledger.search label draw (pool, source)).2.1.Fair ∧
      (ledger.search label draw (pool, source)).2.1.words = pool.words := by
  obtain ⟨n, same⟩ := ledger.searchStream draw label (pool, source)
  rw [same, streamPicks]
  exact ⟨(picksGive (pool, source) fair n).fair, (picksGive (pool, source) fair n).words⟩

theorem nextSearches {generator : Generator σ} {pool : WordPool} (strategy : generator.strategy = .dictionary pool)
    (length : Option Nat) :
    (generator.next length).1 =
        (generator.ledger.search Kind.dictionary.token draw (pool, generator.random)).1 ∧
      (generator.next length).2.strategy =
        .dictionary (generator.ledger.search Kind.dictionary.token draw (pool, generator.random)).2.1 := by
  obtain ⟨ledger, random, _⟩ := generator
  cases strategy
  simp only [Generator.next, Strategy.next, Strategy.kind, Ledger.issue]
  rcases ledger.search Kind.dictionary.token draw (pool, random) with ⟨_ | name, after⟩
  · exact ⟨rfl, rfl⟩
  · exact ⟨rfl, rfl⟩

theorem Deals.next {first : Ledger} {words : Array String} {generator : Generator σ} {pool : WordPool}
    (deals : Deals first words generator pool) (length : Option Nat) :
    ∃ pool, Deals first words (generator.next length).2 pool := by
  obtain ⟨fair, same⟩ := searchFair deals.fair generator.ledger Kind.dictionary.token generator.random
  refine ⟨_, (nextSearches deals.strategy length).2, fair, same.trans deals.words, ?_⟩
  exact deals.grows.trans (generator.nextAnswers length).grows

theorem Deals.run {first : Ledger} {words : Array String} {generator : Generator σ} {pool : WordPool}
    (deals : Deals first words generator pool) (operations : List Operation) :
    ∃ pool, Deals first words (run generator operations).2 pool := by
  refine @runKeeps σ _ (fun generator => ∃ pool, Deals first words generator pool) ?_ ?_ generator operations
    ⟨pool, deals⟩
  · rintro generator length ⟨pool, deals⟩
    exact deals.next length
  · rintro generator name ⟨pool, deals⟩
    exact ⟨pool, deals.strategy, deals.fair, deals.words, deals.grows.trans (Ledger.Grows.claim _ _)⟩

theorem ofEntriesUsable {entries : List String} {order : DrawOrder}
    (some : Word.list (if entries.isEmpty then Word.standard else entries) ≠ []) :
    ∃ pool, ofEntries? entries order = .some pool ∧
      pool.words.toList = Word.list (if entries.isEmpty then Word.standard else entries) := by
  rw [ofEntries?]
  generalize Word.list (if entries.isEmpty = true then Word.standard else entries) = words at some ⊢
  have usable : 0 < words.toArray.size := by simpa [List.length_pos_iff] using some
  exact ⟨_, dif_pos usable, rfl⟩

theorem ofEntriesMade {entries : List String} {order : DrawOrder} {pool : WordPool}
    (usable : ofEntries? entries order = some pool) :
    pool.words.toList = Word.list (if entries.isEmpty then Word.standard else entries) ∧ pool.order = order ∧
      pool.round = 0 ∧ pool.remaining = pool.words.reverse := by
  simp only [ofEntries?] at usable
  generalize (if entries.isEmpty = true then Word.standard else entries) = entries at usable ⊢
  split at usable
  · cases usable
    exact ⟨rfl, rfl, rfl, rfl⟩
  · cases usable

theorem createdPool {ledger : Ledger} {source : σ} {entries : List String} {order : DrawOrder}
    {fresh : Generator σ} (built : Generator.create .dictionary ledger source entries order = .ok fresh) :
    ∃ pool, ofEntries? entries order = some pool ∧ fresh = ⟨ledger, source, .dictionary pool⟩ := by
  rw [Generator.create] at built
  cases usable : ofEntries? entries order with
  | none => simp [usable] at built
  | some pool =>
    simp only [usable, Except.ok.injEq] at built
    exact ⟨pool, rfl, built.symm⟩

theorem createdNew {ledger : Ledger} {source : σ} {entries : List String} {order : DrawOrder}
    {fresh : Generator σ} (built : Generator.create .dictionary ledger source entries order = .ok fresh) :
    ∃ pool, New ledger pool fresh := by
  obtain ⟨pool, usable, rfl⟩ := createdPool built
  exact ⟨pool, ofEntriesNew usable ledger source⟩

theorem runPreserves (generator : Generator σ) (names : List String) :
    (run generator (names.map fun name => .call (.preserve name))).2 = generator.preserveAll names := by
  induction names generalizing generator with
  | nil => rfl
  | cons name rest ih => exact ih (generator.preserve name)

variable {ledger : Ledger} {source : σ} {pool : WordPool} {fresh : Generator σ} {limit : Nat}

theorem spelledFormed {round : Nat} {word : String} (formed : Identifier.isWellFormed word = true) :
    Identifier.isWellFormed (spell round word) = true := by
  by_cases first : round = 0
  · rwa [first, spell, if_pos rfl]
  · exact spelledLater (Identifier.wellFormedIff.mp formed).1 first

/-- Well-formed words that no number can be read into never fail, however few the attempts. -/
theorem Deals.answers {first : Ledger} {words : Array String} {generator : Generator σ}
    (deals : Deals first words generator pool) (formed : ∀ word ∈ words, Identifier.isWellFormed word = true)
    (undigited : ∀ word ∈ words, Undigited word) (length : Option Nat) :
    ∃ name, (generator.next length).1 = .ok name := by
  rw [(nextSearches deals.strategy length).1]
  have finds := generator.ledger.searchFinds draw Kind.dictionary.token (pool, generator.random)
  generalize generator.ledger.search Kind.dictionary.token draw (pool, generator.random) = outcome at finds
  cases finds with
  | found => exact ⟨_, rfl⟩
  | @gaveUp n unspent missed spent =>
    have gives := picksGive (pool, generator.random) deals.fair (n + 1)
    have among : ∀ pair ∈ Ledger.candidates pick (pool, generator.random) (n + 1), pair.2 ∈ words := fun pair member =>
      deals.words ▸ ((gives.left pair).mpr (.inl member)).word deals.fair
    have distinct : (Ledger.candidates draw (pool, generator.random) (n + 1)).Nodup := by
      rw [candidatesPicks]
      refine List.Nodup.map_on (fun one first two second same => ?_) gives.distinct
      obtain ⟨round, word⟩ := spelledInjective (undigited _ (among _ first)) (undigited _ (among _ second)) same
      exact Prod.ext round word
    have none : (generator.ledger.tallyOf (Ledger.candidates draw (pool, generator.random) (n + 1))).rejected = 0 := by
      rw [Ledger.tallyOf, candidatesPicks, List.countP_map, List.countP_eq_zero]
      intro pair member
      simp [spelledFormed (formed _ (among _ member))]
    have few := generator.ledger.skippedFew distinct
    have attempts := generator.ledger.attempts_pos
    simp only [Limits.Spent, Ledger.limits, Ledger.skipBudget, none] at spent
    omega

theorem newAnswers (new : New ledger pool fresh) (patient : Identifier.reservedWords.length < ledger.maxAttempts)
    (roomy : Roomy ledger pool.words.toList limit) (operations : List Operation) (length : Option Nat)
    (early : ((run fresh operations).2.next length).2.round < limit) :
    ∃ name, ((run fresh operations).2.next length).1 = .ok name := by
  have start : Deals ledger pool.words fresh pool :=
    ⟨new.strategy, new.fair, rfl, new.ledger ▸ Ledger.Grows.refl _⟩
  obtain ⟨later, deals⟩ := start.run operations
  obtain ⟨answer, strategy⟩ := nextSearches deals.strategy length
  rw [Generator.round, strategy] at early
  rw [answer]
  exact searchAnswers deals.fair (deals.words ▸ new.grammatical) deals.grows patient (deals.words ▸ roomy) _ _ early

theorem newGivesUp (new : New ledger pool fresh) (names : List String)
    (all : ∀ name ∈ offers pool.words.toList limit, name ∈ names ∨ ledger.isTaken name = true)
    (few : names.length + ledger.skipBudget < (offers pool.words.toList limit).length) (length : Option Nat) :
    (∃ cause, ((run fresh (names.map fun name => .call (.preserve name))).2.next length).1 = .error cause) ∧
      ((run fresh (names.map fun name => .call (.preserve name))).2.next length).2.round < limit := by
  rw [runPreserves]
  obtain ⟨budget, reserved⟩ := ledger.claimAllBudget names
  obtain ⟨claimed, strategy⟩ := fresh.preserveAllKeeps names
  rw [new.ledger] at claimed
  rw [new.strategy] at strategy
  have taken : ∀ name ∈ offers pool.words.toList limit, (fresh.preserveAll names).ledger.isTaken name = true := by
    intro name offered
    rw [claimed, Ledger.isTakenIff, reserved, Ledger.memClaimAll]
    rcases all name offered with inside | before
    · exact .inr (.inl inside)
    · exact (Ledger.isTakenIff.mp before).imp_right .inr
  obtain ⟨answer, after⟩ := nextSearches strategy length
  rw [Generator.round, answer, after]
  exact searchGivesUp new.fair new.untouched taken (claimed ▸ by omega) _ _

theorem undigitedAnswers {entries : List String} {order : DrawOrder}
    (built : Generator.create .dictionary ledger source entries order = .ok fresh)
    (patient : Identifier.reservedWords.length < ledger.maxAttempts)
    (undigited : ∀ word ∈ fresh.words, Undigited word) (operations : List Operation) (length : Option Nat) :
    ∃ name, ((run fresh operations).2.next length).1 = .ok name := by
  obtain ⟨pool, new⟩ := createdNew built
  have roomy := roomyUndigited new.fair.distinct (new.words ▸ undigited) ledger
    (((run fresh operations).2.next length).2.round + 1)
  exact newAnswers new patient roomy operations length (Nat.lt_succ_self _)

theorem standardUndigited : ∀ word ∈ Word.list Word.standard, Undigited word := by
  have letters : ∀ entry ∈ Word.standard, Identifier.spells entry.toList = true ∧
      entry.toList.getLast?.all (fun last => !last.isDigit) = true := by decide +kernel
  intro word member last ends
  obtain ⟨entry, inside, usable⟩ := List.mem_filterMap.mp (List.mem_eraseDups.mp member)
  obtain ⟨formed, letter⟩ := letters entry inside
  rw [Word.normalizeSame (Identifier.spellsIff.mp formed)] at usable
  cases usable
  simpa [Option.mem_def.mp ends] using letter

theorem standardUsable : Word.list Word.standard ≠ [] := by
  have usable : Word.normalize? "alpha" = some "alpha" :=
    Word.normalizeSame (Identifier.spellsIff.mp (by decide))
  have member : "alpha" ∈ Word.list Word.standard :=
    List.mem_eraseDups.mpr (List.mem_filterMap.mpr ⟨"alpha", by decide, usable⟩)
  exact List.ne_nil_of_mem member

theorem dictionaryAnswersIff {entries : List String} {order : DrawOrder}
    (built : Generator.create .dictionary ledger source entries order = .ok fresh)
    (patient : Identifier.reservedWords.length < ledger.maxAttempts) (limit : Nat) :
    (∀ operations length, ((run fresh operations).2.next length).2.round < limit →
      ∃ name, ((run fresh operations).2.next length).1 = .ok name) ↔
    Roomy ledger fresh.words limit := by
  obtain ⟨pool, new⟩ := createdNew built
  rw [new.words]
  constructor
  · intro answers
    refine Nat.le_of_not_lt fun crowded => ?_
    have failing := newGivesUp new (free ledger (offers pool.words.toList limit)) ?_ crowded none
    · obtain ⟨⟨cause, failed⟩, early⟩ := failing
      obtain ⟨name, answered⟩ := answers _ none early
      cases failed.symm.trans answered
    · intro name offered
      cases taken : ledger.isTaken name with
      | true => exact .inr rfl
      | false =>
        have formed := (List.mem_filter.mp offered).2
        exact .inl (List.mem_eraseDups.mpr (List.mem_filter.mpr ⟨offered, by simp [Ledger.accepts, formed, taken]⟩))
  · exact fun roomy operations length early => newAnswers new patient roomy operations length early

theorem standardAnswers :
    ∃ fresh, Generator.create .dictionary .empty Script.lowest [] .sequential = .ok fresh ∧
      Identifier.reservedWords.length < Ledger.empty.maxAttempts ∧
      ∀ operations length, ((run fresh operations).2.next length).2.round < UInt32.size - 1 →
        ∃ name, ((run fresh operations).2.next length).1 = .ok name := by
  obtain ⟨pool, usable, words⟩ := @ofEntriesUsable [] .sequential standardUsable
  have built : Generator.create .dictionary .empty Script.lowest [] .sequential =
      .ok ⟨.empty, Script.lowest, .dictionary pool⟩ := by rw [Generator.create, usable]
  have new := ofEntriesNew usable .empty Script.lowest
  have roomy := roomyUndigited new.fair.distinct (words ▸ standardUndigited) .empty (UInt32.size - 1)
  exact ⟨_, built, by decide, (dictionaryAnswersIff built (by decide) _).mpr (new.words ▸ roomy)⟩

/-- One letter and so many ones. Every round but the last spells most of the words of the next. -/
def one (length : Nat) : String := String.ofList ('a' :: List.replicate length '1')

def ones (length : Nat) : List String := (List.range length).map one

theorem oneLetters (length : Nat) : (one length).toList = 'a' :: List.replicate length '1' := String.toList_ofList

theorem oneGrammatical (length : Nat) : Identifier.Grammatical (one length).toList := by
  rw [oneLetters]
  refine .intro rfl fun c member => ?_
  rw [List.eq_of_mem_replicate member]
  rfl

theorem onesNodup (length : Nat) : (ones length).Nodup := by
  refine List.Nodup.map (fun few many same => ?_) List.nodup_range
  have letters := congrArg (List.length ∘ String.toList) same
  simpa [oneLetters] using letters

theorem spelledOne (length : Nat) : spell 1 (one length) = one (length + 1) := by
  refine String.toList_injective ?_
  rw [spelledLetters, oneLetters, oneLetters, List.replicate_succ']
  rfl

theorem oneFormed (length : Nat) : Identifier.isWellFormed (one length) = true := by
  cases length with
  | zero => decide
  | succ length => exact spelledOne length ▸ spelledLater (oneGrammatical length) Nat.one_ne_zero

theorem givenOnes {length : Nat} {pair : Nat × String} (given : pair ∈ pairs (ones length) 2) :
    ∃ n < length + 1, spell pair.1 pair.2 = one n := by
  obtain ⟨early, inside⟩ := memPairs.mp given
  obtain ⟨n, small, same⟩ := List.mem_map.mp inside
  rw [List.mem_range] at small
  rw [← same]
  rcases Nat.le_one_iff_eq_zero_or_eq_one.mp (Nat.le_of_lt_succ early) with bare | numbered
  · exact ⟨n, by omega, by rw [bare]; rfl⟩
  · exact ⟨n + 1, by omega, by rw [numbered, spelledOne]⟩

theorem offersOnes (length : Nat) : (offers (ones length) 2).length = 2 * length ∧
    ∀ name ∈ offers (ones length) 2, name ∈ ones (length + 1) := by
  have all : offers (ones length) 2 = (pairs (ones length) 2).map fun pair => spell pair.1 pair.2 := by
    refine List.filter_eq_self.mpr fun name member => ?_
    obtain ⟨pair, given, rfl⟩ := List.mem_map.mp member
    obtain ⟨n, _, same⟩ := givenOnes given
    rw [same]
    exact oneFormed n
  rw [all]
  constructor
  · simp [pairs, List.length_product, ones]
  · intro name member
    obtain ⟨pair, given, rfl⟩ := List.mem_map.mp member
    obtain ⟨n, small, same⟩ := givenOnes given
    rw [same]
    exact List.mem_map_of_mem (List.mem_range.mpr small)

theorem onesUsable (length : Nat) (order : DrawOrder) :
    ∃ pool, ofEntries? (ones (length + 1)) order = some pool ∧ pool.words.toList = ones (length + 1) := by
  have entries : (ones (length + 1)).isEmpty = false := by simp [ones]
  have words : Word.list (ones (length + 1)) = ones (length + 1) := by
    refine Word.listSame (fun word member => ?_) (onesNodup (length + 1))
    obtain ⟨n, _, rfl⟩ := List.mem_map.mp member
    exact oneGrammatical n
  have usable := @ofEntriesUsable (ones (length + 1)) order
  rw [entries, if_neg (by decide), words] at usable
  exact usable (by simp [ones])

theorem onesGiveUp (ledger : Ledger) (source : σ) (order : DrawOrder) (length : Option Nat) :
    ∃ fresh, Generator.create .dictionary ledger source (ones (ledger.skipBudget + 2)) order = .ok fresh ∧
      (∃ cause, ((run fresh ((ones (ledger.skipBudget + 3)).map fun name => .call (.preserve name))).2.next
        length).1 = .error cause) ∧
      ((run fresh ((ones (ledger.skipBudget + 3)).map fun name => .call (.preserve name))).2.next
        length).2.round < 2 := by
  obtain ⟨pool, usable, words⟩ := onesUsable (ledger.skipBudget + 1) order
  obtain ⟨many, within⟩ := offersOnes (ledger.skipBudget + 2)
  refine ⟨⟨ledger, source, .dictionary pool⟩, by rw [Generator.create, usable], ?_⟩
  have new := ofEntriesNew usable ledger source
  rw [← words] at many within
  refine newGivesUp new (ones (ledger.skipBudget + 3)) (fun name offered => .inl (within name offered)) ?_ length
  rw [many, ones, List.length_map, List.length_range]
  omega

theorem onesFail :
    ∃ fresh, Generator.create .dictionary (Ledger.empty.withMaxAttempts 52) Script.lowest (ones 54) .sequential =
        .ok fresh ∧
      Identifier.reservedWords.length < (Ledger.empty.withMaxAttempts 52).maxAttempts ∧
      (∃ cause, ((run fresh ((ones 55).map fun name => .call (.preserve name))).2.next none).1 = .error cause) ∧
      ((run fresh ((ones 55).map fun name => .call (.preserve name))).2.next none).2.round < UInt32.size - 1 := by
  obtain ⟨fresh, built, failed, early⟩ :=
    onesGiveUp (Ledger.empty.withMaxAttempts 52) Script.lowest .sequential none
  exact ⟨fresh, built, by decide, failed, Nat.lt_trans early (by decide)⟩

end WordPool
end Pseudonym
