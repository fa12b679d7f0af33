import Pseudonym.Proofs.Ledger.Issue
import Pseudonym.Proofs.WordPool.Recycling

/-! Rounds of a dictionary. Its draws are numbered from zero since it was made, and a pool tells how many there have
been: each block of as many draws as there are words gives every word once and spells the number of blocks before it.
Requests go on in this one stream, whatever else happens in the session. -/
namespace Pseudonym
namespace WordPool
open Session Ledger

/-- The words of this round that are no longer left. -/
def used (pool : WordPool) : Nat := pool.words.size - pool.remaining.size

/-- How many words a pool has given since it was made. -/
def position (pool : WordPool) : Nat := pool.round * pool.words.size + pool.used

variable {σ : Type} [RandomSource σ]

/-- The word of the draw with number `t`, before its round is spelled. -/
def wordAt (start : WordPool × σ) (t : Nat) : String := (pick (streamAt draw start t)).1.2

/-- The words left to the draw with number `t`. -/
def leftAt (start : WordPool × σ) (t : Nat) : Array String := (streamAt draw start t).1.refill.remaining

def block (start : WordPool × σ) (round count : Nat) : List String :=
  (List.range count).map fun i => wordAt start (round * start.1.words.size + i)

/-- A pool after `t` draws. What it has given in its round, and what is left, are the words together. -/
structure Dealt (start : WordPool × σ) (t : Nat) (pool : WordPool) : Prop where
  words : pool.words = start.1.words
  order : pool.order = start.1.order
  fits : pool.remaining.size ≤ pool.words.size
  position : pool.position = t
  perm : (block start pool.round pool.used ++ pool.remaining.toList).Perm start.1.words.toList
  listed : start.1.order = .sequential →
    block start pool.round pool.used ++ pool.remaining.toList.reverse = start.1.words.toList

theorem takePlaced (order : DrawOrder) (words : Array String) (some : 0 < words.size) (source : σ) :
    ∃ place, ∃ inside : place < words.size, words[place] = (take order words some source).1 ∧
      (take order words some source).2.1 = (words.swap place (words.size - 1) inside (by omega)).pop ∧
      (order = .random → place = (RandomSource.between source 0 (words.size - 1) (Nat.zero_le _)).1.val) := by
  cases order with
  | sequential =>
    have last : words.size - 1 < words.size := by omega
    have same : words.swap (words.size - 1) (words.size - 1) last last = words := by
      ext i h _
      · simp
      · simp only [Array.getElem_swap]
        split <;> simp_all
    exact ⟨words.size - 1, last, rfl, by rw [same]; rfl, fun other => by cases other⟩
  | random =>
    have small := (RandomSource.between source 0 (words.size - 1) (Nat.zero_le _)).1.property.2
    exact ⟨(RandomSource.between source 0 (words.size - 1) (Nat.zero_le _)).1.val, by omega, rfl, rfl, fun _ => rfl⟩

theorem takeLast (words : Array String) (some : 0 < words.size) (source : σ) :
    words.toList.reverse =
      (take .sequential words some source).1 :: (take .sequential words some source).2.1.toList.reverse := by
  have ends : words[words.size - 1]? = Option.some words[words.size - 1] := Array.getElem?_eq_getElem (by omega)
  rw [← popWhole ends, List.reverse_append]
  rfl

variable {start : WordPool × σ} {t : Nat}

theorem Dealt.refill {pool : WordPool} (dealt : Dealt start t pool) : Dealt start t pool.refill := by
  unfold WordPool.refill
  split
  · next empty =>
    have none := Array.isEmpty_iff_size_eq_zero.mp empty
    obtain ⟨words, order, fits, position, perm, listed⟩ := dealt
    refine ⟨words, order, by simp, ?_, ?_, fun sequential => ?_⟩
    · rw [← position]
      simp only [WordPool.position, used, none, Array.size_reverse, Nat.sub_self, Nat.sub_zero, Nat.add_zero]
      rw [Nat.add_mul, Nat.one_mul]
    · simp [block, used, words]
    · simp [block, used, words]
  · exact dealt

theorem Dealt.turn {pool : WordPool} (dealt : Dealt start t pool) (some : 0 < pool.remaining.size) :
    t / start.1.words.size = pool.round ∧ t % start.1.words.size = pool.used := by
  have fits := dealt.fits
  have less : pool.used < pool.words.size := by simp only [used]; omega
  rw [← dealt.position, ← dealt.words, WordPool.position, Nat.mul_comm]
  exact ⟨by rw [Nat.mul_add_div (by omega), Nat.div_eq_of_lt less, Nat.add_zero],
    by rw [Nat.mul_add_mod, Nat.mod_eq_of_lt less]⟩

theorem Dealt.taken {pool : WordPool} (dealt : Dealt start t pool) (some : 0 < pool.remaining.size) {source : σ}
    (word : wordAt start t = (take pool.order pool.remaining some source).1) :
    Dealt start (t + 1) {pool with remaining := (take pool.order pool.remaining some source).2.1} := by
  obtain ⟨words, order, fits, position, perm, listed⟩ := dealt
  have taken := takePerm pool.order pool.remaining some source
  have size := taken.length_eq
  simp only [List.length_cons, Array.length_toList] at size
  have more : used {pool with remaining := (take pool.order pool.remaining some source).2.1} = pool.used + 1 := by
    simp only [used]
    omega
  have given : block start pool.round (pool.used + 1) = block start pool.round pool.used ++ [wordAt start t] := by
    rw [WordPool.position, words] at position
    simp [block, List.range_succ, position]
  refine ⟨words, order, ?_, ?_, ?_, fun sequential => ?_⟩
  · dsimp only
    omega
  · rw [WordPool.position, more, ← position]
    rfl
  · rw [more, given, List.append_assoc, word]
    exact (taken.append_left _).trans perm
  · have last := takeLast pool.remaining some source
    rw [← order.trans sequential] at last
    rw [more, given, List.append_assoc, word]
    exact (congrArg _ last.symm).trans (listed sequential)

theorem Dealt.next (dealt : Dealt start t (streamAt draw start t).1) :
    Dealt start (t + 1) (draw (streamAt draw start t)).2.1 :=
  dealt.refill.taken (refillPos _) rfl

theorem dealtAt (dealt : Dealt start 0 start.1) (t : Nat) : Dealt start t (streamAt draw start t).1 := by
  induction t with
  | zero => exact dealt
  | succ t ih => rw [streamAtSucc]; exact ih.next

theorem madeDealt {entries : List String} {order : DrawOrder} (usable : ofEntries? entries order = some start.1) :
    Dealt start 0 start.1 := by
  obtain ⟨_, _, round, remaining⟩ := ofEntriesMade usable
  refine ⟨rfl, rfl, ?_, ?_, ?_, fun _ => ?_⟩
  · simp [remaining]
  · simp [position, used, round, remaining]
  · simp [block, used, remaining]
  · simp [block, used, remaining]

/-- The draw with number `t` takes a word from a place among those left and spells the number of rounds before. -/
structure Turn (start : WordPool × σ) (t : Nat) : Prop where
  position : (streamAt draw start t).1.position = t
  known : wordAt start t ∈ start.1.words
  spelled : candidate draw start t =
    if t < start.1.words.size then wordAt start t else wordAt start t ++ toString (t / start.1.words.size)
  placed : ∃ place, ∃ inside : place < (leftAt start t).size, (leftAt start t)[place] = wordAt start t ∧
    (streamAt draw start (t + 1)).1.remaining =
      ((leftAt start t).swap place ((leftAt start t).size - 1) inside (by omega)).pop ∧
    (start.1.order = .random → place =
      (RandomSource.between (streamAt draw start t).2 0 ((leftAt start t).size - 1) (Nat.zero_le _)).1.val)

/-- The round after `before` others gives every word once, and gives them as listed where they are taken in turn. -/
structure Round (start : WordPool × σ) (before : Nat) : Prop where
  perm : (block start before start.1.words.size).Perm start.1.words.toList
  listed : start.1.order = .sequential → block start before start.1.words.size = start.1.words.toList

theorem Dealt.turns (dealt : Dealt start 0 start.1) (t : Nat) : Turn start t := by
  have here := dealtAt dealt t
  have full := here.refill
  have some := refillPos (streamAt draw start t).1
  have round := (full.turn some).1
  obtain ⟨place, inside, word, rest, drawn⟩ := takePlaced (streamAt draw start t).1.refill.order
    (streamAt draw start t).1.refill.remaining some (streamAt draw start t).2
  refine ⟨here.position, ?_, ?_, place, inside, word, ?_, fun random => drawn (full.order.trans random)⟩
  · refine Array.mem_def.mpr (full.perm.subset (List.mem_append_right _ ?_))
    exact Array.mem_def.mp (Array.mem_of_getElem word)
  · have early := Nat.div_eq_zero_iff_lt (x := t) start.1.words_pos
    rw [candidate, drawnPick, spell]
    simp only [pick, ← round, early]
    rfl
  · rw [streamAtSucc]
    exact rest

theorem Dealt.rounds (dealt : Dealt start 0 start.1) (before : Nat) : Round start before := by
  have some := start.1.words_pos
  -- The last draw of the round leaves nothing, so that all the round has given are the words.
  obtain ⟨last, whole⟩ : ∃ last, last + 1 = start.1.words.size := ⟨start.1.words.size - 1, by omega⟩
  have here := dealtAt dealt (before * start.1.words.size + last)
  have quotient : (before * start.1.words.size + last) / start.1.words.size = before := by
    rw [Nat.mul_comm, Nat.mul_add_div some, Nat.div_eq_of_lt (by omega), Nat.add_zero]
  have after : (draw (streamAt draw start (before * start.1.words.size + last))).2.1.round = before :=
    (here.refill.turn (refillPos _)).1.symm.trans quotient
  obtain ⟨words, _, fits, position, perm, listed⟩ := here.next
  generalize (draw (streamAt draw start (before * start.1.words.size + last))).2.1 = pool at *
  have all : pool.used = start.1.words.size := by
    rw [WordPool.position, after, words] at position
    omega
  have none : pool.remaining = #[] := by
    rw [used, words] at all
    rw [words] at fits
    exact Array.eq_empty_of_size_eq_zero (by omega)
  simp only [after, all, none, List.append_nil, List.reverse_nil] at perm listed
  exact ⟨perm, listed⟩

/-- A generator whose pool has made `t` draws since `start`. -/
structure Stands (start : WordPool × σ) (t : Nat) (generator : Generator σ) : Prop where
  strategy : generator.strategy = .dictionary (streamAt draw start t).1
  random : generator.random = (streamAt draw start t).2

/-- A request goes on where the draws stand, and a name that it answers with is the first free one from there. -/
structure Continues (start : WordPool × σ) (t : Nat) (generator : Generator σ) (drawn : Nat)
    (outcome : Except NameError String × Generator σ) : Prop where
  counted : generator.ledger.drawn draw generator.kind.token (streamAt draw start t) = drawn
  stands : Stands start (t + drawn) outcome.2
  answered : ∀ name, outcome.1 = .ok name → ∃ k, drawn = k + 1 ∧ candidate draw start (t + k) = name ∧
    generator.ledger.accepts name = true ∧ ∀ i < k, generator.ledger.accepts (candidate draw start (t + i)) = false

theorem Stands.next {generator : Generator σ} (stands : Stands start t generator) (length : Option Nat) :
    ∃ drawn, Continues start t generator drawn (generator.next length) := by
  obtain ⟨ledger, random, strategy⟩ := generator
  obtain ⟨rfl, rfl⟩ := stands
  obtain ⟨after, found⟩ := issueDrawn draw ledger Kind.dictionary.token (streamAt draw start t)
  rw [← streamAtAdd] at after
  have strategy := congrArg (fun state : WordPool × σ => Strategy.dictionary state.1) after
  refine ⟨_, rfl, ⟨strategy, congrArg Prod.snd after⟩, ?_⟩
  intro name answer
  obtain ⟨k, ⟨free, passed⟩, named, drawn⟩ := found name answer
  simp only [candidateAdd] at free passed named
  exact ⟨k, drawn, named, named ▸ free, passed⟩

theorem Stands.run {generator : Generator σ} (stands : Stands start t generator) (operations : List Operation) :
    ∃ later, Stands start later (run generator operations).2 := by
  refine @runKeeps σ _ (fun current => ∃ later, Stands start later current) ?_ ?_ generator operations ⟨t, stands⟩
  · rintro current length ⟨later, here⟩
    obtain ⟨drawn, continues⟩ := here.next length
    exact ⟨later + drawn, continues.stands⟩
  · rintro current name ⟨later, strategy, random⟩
    exact ⟨later, strategy, random⟩

theorem wordsGoRound {ledger : Ledger} {source : σ} {entries : List String} {order : DrawOrder} {fresh : Generator σ}
    (built : Generator.create .dictionary ledger source entries order = .ok fresh) :
    ∃ start : WordPool × σ, Stands start 0 fresh ∧ start.1.order = order ∧ start.1.words.toList = fresh.words ∧
      fresh.words.Nodup ∧ (∀ t, Turn start t) ∧ (∀ before, Round start before) ∧
      (∀ t generator length, Stands start t generator →
        ∃ drawn, Continues start t generator drawn (generator.next length)) ∧
      ∀ operations, ∃ t, Stands start t (run fresh operations).2 := by
  obtain ⟨pool, usable, rfl⟩ := createdPool built
  have dealt := @madeDealt σ _ (pool, source) entries order usable
  have stands : Stands (pool, source) 0 ⟨ledger, source, .dictionary pool⟩ := ⟨rfl, rfl⟩
  exact ⟨(pool, source), stands, (ofEntriesMade usable).2.1, rfl, (ofEntriesNew usable ledger source).fair.distinct,
    dealt.turns, dealt.rounds, fun t generator length here => here.next length, stands.run⟩

def pair : WordPool := ⟨#["one", "two"], by decide, .sequential, 0, #["two", "one"]⟩

def pairOnce : List Operation := [.call (.next none), .call (.preserve "two")]

theorem pairGoesRound :
    ∃ fresh, Generator.create .dictionary .empty Script.lowest ["one", "two"] .sequential = .ok fresh ∧
      ((run fresh pairOnce).2.next none).1 = .ok "one1" ∧
      ∃ start t drawn, Stands start 0 fresh ∧ Round start 1 ∧ Turn start 3 ∧
        Continues start t (run fresh pairOnce).2 drawn ((run fresh pairOnce).2.next none) := by
  have usable : ofEntries? ["one", "two"] .sequential = some pair := by decide +kernel
  have built : Generator.create .dictionary .empty Script.lowest ["one", "two"] .sequential =
      .ok ⟨.empty, Script.lowest, .dictionary pair⟩ := by rw [Generator.create, usable]
  obtain ⟨start, stands, _, _, _, turns, rounds, steps, runs⟩ := wordsGoRound built
  obtain ⟨t, later⟩ := runs pairOnce
  obtain ⟨drawn, continues⟩ := steps t _ none later
  exact ⟨_, built, toOptionIff.mp (by decide +kernel), start, t, drawn, stands, rounds 1, turns 3, continues⟩

end WordPool
end Pseudonym
