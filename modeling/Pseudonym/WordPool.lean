import Pseudonym.Random.Source
import Pseudonym.Word

/-! A pool of words that never runs dry. Every round gives each word once; from the second round on
the words carry the number of rounds before, and there is no last round. -/
namespace Pseudonym

inductive DrawOrder where
  | sequential
  | random
  deriving DecidableEq, Repr, Inhabited

def DrawOrder.token : DrawOrder → String
  | .sequential => "sequential"
  | .random => "random"

structure WordPool where
  words : Array String
  words_pos : 0 < words.size
  order : DrawOrder
  round : Nat
  /-- The words left in this round, the next one of the sequence last. -/
  remaining : Array String
  deriving DecidableEq, Repr

namespace WordPool

def ofEntries? (entries : List String) (order : DrawOrder) : Option WordPool :=
  let words := (Word.list (if entries.isEmpty then Word.standard else entries)).toArray
  if some : 0 < words.size then .some ⟨words, some, order, 0, words.reverse⟩ else none

def refill (pool : WordPool) : WordPool :=
  if pool.remaining.isEmpty then {pool with round := pool.round + 1, remaining := pool.words.reverse}
  else pool

theorem refillPos (pool : WordPool) : 0 < pool.refill.remaining.size := by
  unfold refill
  split
  · simpa using pool.words_pos
  · rename_i some
    simpa [Array.isEmpty_iff, Array.size_pos_iff] using some

variable {σ : Type} [RandomSource σ]

/-- Takes the last word, or any one, whose place the last word then fills. -/
def take (order : DrawOrder) (words : Array String) (some : 0 < words.size) (source : σ) :
    String × Array String × σ :=
  match order with
  | .sequential => (words[words.size - 1], words.pop, source)
  | .random =>
      let (drawn, source) := RandomSource.between source 0 (words.size - 1) (Nat.zero_le _)
      have inside : drawn.val < words.size := by have := drawn.property; omega
      (words[drawn.val], (words.swap drawn.val (words.size - 1)).pop, source)

def spell (round : Nat) (word : String) : String :=
  if round = 0 then word else word ++ toString round

def draw : WordPool × σ → String × WordPool × σ
  | (pool, source) =>
      let full := pool.refill
      let (word, remaining, source) := take full.order full.remaining pool.refillPos source
      (spell full.round word, {full with remaining}, source)

end WordPool
end Pseudonym
