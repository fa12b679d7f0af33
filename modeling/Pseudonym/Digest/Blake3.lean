import Pseudonym.Block

/-! BLAKE3 digests, plain or keyed by a context. The input is cut into chunks, the chunks are the
leaves of a tree whose left halves are full, and the compression at the root gives the digest. -/
namespace Pseudonym.Blake3

abbrev Chain := Vector UInt32 8

def initial : Chain :=
  #v[0x6A09E667, 0xBB67AE85, 0x3C6EF372, 0xA54FF53A, 0x510E527F, 0x9B05688C, 0x1F83D9AB, 0x5BE0CD19]

def rotateRight (word amount : UInt32) : UInt32 := (word >>> amount) ||| (word <<< (32 - amount))

def rounds : Nat → Block → Block → Block
  | 0, state, _ => state
  | count + 1, state, block => rounds count (state.round rotateRight block) block.permute

structure Node where
  chain : Chain
  block : Block
  counter : Nat
  length : Nat
  flags : UInt32
  deriving DecidableEq, Repr

def chunkStart : UInt32 := 1
def chunkEnd : UInt32 := 2
def parent : UInt32 := 4
def root : UInt32 := 8
def contextText : UInt32 := 32
def contextInput : UInt32 := 64

def Node.value (node : Node) (more : UInt32) : Chain :=
  let state := rounds 7 (node.chain ++ (#v[initial[0], initial[1], initial[2], initial[3],
    UInt32.ofNat node.counter, UInt32.ofNat (node.counter / UInt32.size),
    UInt32.ofNat node.length, node.flags ||| more] : Chain)) node.block
  Vector.ofFn fun i => state[i.val] ^^^ state[i.val + 8]

structure Mode where
  key : Chain
  flags : UInt32
  deriving DecidableEq, Repr

def byte (input : ByteArray) (stop position : Nat) : UInt32 :=
  if position < stop then
    if inside : position < input.size then input[position].toUInt32 else 0
  else 0

def load (input : ByteArray) (start stop : Nat) : Block :=
  Vector.ofFn fun i =>
    let position := start + 4 * i.val
    byte input stop position ||| (byte input stop (position + 1) <<< 8) |||
      (byte input stop (position + 2) <<< 16) ||| (byte input stop (position + 3) <<< 24)

def chunk (mode : Mode) (input : ByteArray) (number start length : Nat) (chain : Chain) (mark : UInt32) : Node :=
  if length ≤ 64 then
    ⟨chain, load input start (start + length), number, length, mode.flags ||| mark ||| chunkEnd⟩
  else
    let node : Node := ⟨chain, load input start (start + 64), number, 64, mode.flags ||| mark⟩
    chunk mode input number (start + 64) (length - 64) (node.value 0) 0
termination_by length

/-- The bytes of the left half: the most chunks, a power of two, that leave some for the right half. -/
def leftLength (length : Nat) : Nat := 1024 <<< ((length - 1) / 1024).log2

theorem leftLengthPos (length : Nat) : 0 < leftLength length := by
  rw [leftLength, Nat.shiftLeft_eq]
  exact Nat.mul_pos (by decide) (Nat.two_pow_pos _)

theorem leftLengthLt {length : Nat} (many : 1024 < length) : leftLength length < length := by
  have chunks : (length - 1) / 1024 ≠ 0 := by omega
  have := Nat.log2_self_le chunks
  rw [leftLength, Nat.shiftLeft_eq]
  omega

/-- The tree over the bytes from `start` on, whose first chunk has the number `number`. -/
def tree (mode : Mode) (input : ByteArray) (number start length : Nat) : Node :=
  if length ≤ 1024 then chunk mode input number start length mode.key chunkStart
  else
    let left := leftLength length
    let leftValue := (tree mode input number start left).value 0
    let rightValue := (tree mode input (number + left / 1024) (start + left) (length - left)).value 0
    ⟨mode.key, leftValue ++ rightValue, 0, 64, mode.flags ||| parent⟩
termination_by length
decreasing_by
  · exact leftLengthLt (by omega)
  · have := leftLengthPos length; omega

def digest (mode : Mode) (input : ByteArray) : Chain := (tree mode input 0 0 input.size).value root

def hash (input : ByteArray) : Chain := digest ⟨initial, 0⟩ input

/-- The digest of an input under a key that only the context determines. -/
def derive (context : String) (input : ByteArray) : Chain :=
  digest ⟨digest ⟨initial, contextText⟩ context.toUTF8, contextInput⟩ input

def leading (digest : Chain) : UInt64 := digest[0].toUInt64 ||| (digest[1].toUInt64 <<< 32)

def hexByte (byte : Nat) : List Char := [Nat.digitChar (byte / 16 % 16), Nat.digitChar (byte % 16)]

def hex (digest : Chain) : String :=
  String.ofList (digest.toList.flatMap fun word =>
    [0, 8, 16, 24].flatMap fun shift => hexByte ((word >>> shift).toNat))

end Pseudonym.Blake3
