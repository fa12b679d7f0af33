import Pseudonym.Block

/-! The ChaCha keystream with twelve rounds. A block is a function of the key and its number,
so a stream is a key and a position in words, and reading moves the position only. -/
namespace Pseudonym
namespace Keystream

abbrev Key := Vector UInt32 8

def rotateLeft (word amount : UInt32) : UInt32 := (word <<< amount) ||| (word >>> (32 - amount))

def doubleRound (block : Block) : Block := block.round rotateLeft (Vector.replicate 16 0)

def start (key : Key) (number : Nat) : Block :=
  (#v[0x61707865, 0x3320646e, 0x79622d32, 0x6b206574] : Vector UInt32 4) ++ key ++
    (#v[UInt32.ofNat number, UInt32.ofNat (number / UInt32.size), 0, 0] : Vector UInt32 4)

def block (key : Key) (number : Nat) : Block :=
  let first := start key number
  let mixed := Nat.repeat doubleRound 6 first
  Vector.zipWith (· + ·) first mixed

end Keystream

structure Keystream where
  key : Keystream.Key
  position : Nat
  deriving DecidableEq, Repr

namespace Keystream

def word32 (stream : Keystream) : Fin UInt32.size × Keystream :=
  have inside := Nat.mod_lt stream.position (by decide : 16 > 0)
  let word := (block stream.key (stream.position / 16))[stream.position % 16]
  (word.toFin, {stream with position := stream.position + 1})

theorem joinedLt (low high : Fin 4294967296) : low.val + 4294967296 * high.val < 18446744073709551616 := by omega

def word64 (stream : Keystream) : Fin UInt64.size × Keystream :=
  let (low, stream) := stream.word32
  let (high, stream) := stream.word32
  (⟨low + UInt32.size * high, joinedLt low high⟩, stream)

end Keystream
end Pseudonym
