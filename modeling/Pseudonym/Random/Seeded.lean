import Pseudonym.Random.Keystream
import Pseudonym.Random.Source

/-! Chance from a 64-bit seed. The seed is stretched to a key; draws scale words of the
keystream to the range asked for and refuse the words that would favour some results. -/
namespace Pseudonym

structure Seeded where
  seed : UInt64
  stream : Keystream
  deriving DecidableEq, Repr

namespace Seeded

def stretch (state : UInt64) : UInt32 × UInt64 :=
  let state := state * 6364136223846793005 + 11634580027462260723
  let shown := (((state >>> 18) ^^^ state) >>> 27).toUInt32
  let amount := (state >>> 59).toUInt32
  ((shown >>> amount) ||| (shown <<< ((32 - amount) % 32)), state)

def words (state : UInt64) : Nat → List UInt32
  | 0 => []
  | count + 1 => let (word, state) := stretch state; word :: words state count

theorem wordsLength (state : UInt64) (count : Nat) : (words state count).length = count := by
  induction count generalizing state with
  | zero => rfl
  | succ count ih => simp [words, ih]

def key (seed : UInt64) : Keystream.Key := ⟨(words seed 8).toArray, by simp [wordsLength]⟩

def ofSeed (seed : UInt64) : Seeded := ⟨seed, ⟨key seed, 0⟩⟩

def scale {size : Nat} (range : Nat) (word : Fin size) (some : 0 < range) : Fin range :=
  ⟨word.val * range / size, by
    apply Nat.div_lt_of_lt_mul
    exact Nat.mul_lt_mul_of_pos_right word.isLt some⟩

/-- The last low part that is kept: one below the multiple of `range` by a power of two that fills
the word. -/
def zone (size range : Nat) : Nat := (range <<< (size.log2 - 1 - range.log2)) - 1

/-- How many words in a row may be refused; the word after them is kept as it is. Each is kept
with a chance above one half. -/
def patience : Nat := 4096

def below {size : Nat} (next : Keystream → Fin size × Keystream) (range : Nat) (some : 0 < range) :
    Nat → Keystream → Fin range × Keystream
  | 0, stream => let (word, stream) := next stream; (scale range word some, stream)
  | tries + 1, stream =>
      let (word, stream) := next stream
      if word.val * range % size ≤ zone size range then (scale range word some, stream)
      else below next range some tries stream

/-- Bounds that leave no choice draw nothing; a range that no word exceeds takes a word as it is. -/
def between (source : Seeded) (low high : Nat) (ordered : low ≤ high) :
    {n : Nat // low ≤ n ∧ n ≤ high} × Seeded :=
  if low = high then (⟨low, by omega⟩, source)
  else if wide : UInt64.size ≤ high - low + 1 then
    let (word, stream) := source.stream.word64
    (⟨low + word, by omega⟩, {source with stream})
  else
    let (drawn, stream) := below Keystream.word64 (high - low + 1) (by omega) patience source.stream
    (⟨low + drawn, by omega⟩, {source with stream})

def partner (source : Seeded) (last : Nat) : {n : Nat // n ≤ last} × Seeded :=
  if last + 1 < UInt32.size then
    let (drawn, stream) := below Keystream.word32 (last + 1) (by omega) patience source.stream
    (⟨drawn, by omega⟩, {source with stream})
  else
    let (drawn, source) := source.between 0 last (Nat.zero_le last)
    (RandomSource.atMost drawn, source)

instance : RandomSource Seeded where
  between := between
  partner := partner

end Seeded
end Pseudonym
