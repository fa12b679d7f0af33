/-! Blocks of sixteen words, mixed in place: columns first, then diagonals, with a word taken in at every half
of a step. -/
namespace Pseudonym

abbrev Block := Vector UInt32 16

namespace Block

def mix (rotate : UInt32 → UInt32 → UInt32) (block : Block) (i j k l : Fin 16) (x y : UInt32) : Block :=
  let a := block[i] + block[j] + x
  let d := rotate (block[l] ^^^ a) 16
  let c := block[k] + d
  let b := rotate (block[j] ^^^ c) 12
  let a := a + b + y
  let d := rotate (d ^^^ a) 8
  let c := c + d
  let b := rotate (b ^^^ c) 7
  (((block.set i a).set j b).set k c).set l d

def round (rotate : UInt32 → UInt32 → UInt32) (block words : Block) : Block :=
  let block := mix rotate block 0 4 8 12 words[0] words[1]
  let block := mix rotate block 1 5 9 13 words[2] words[3]
  let block := mix rotate block 2 6 10 14 words[4] words[5]
  let block := mix rotate block 3 7 11 15 words[6] words[7]
  let block := mix rotate block 0 5 10 15 words[8] words[9]
  let block := mix rotate block 1 6 11 12 words[10] words[11]
  let block := mix rotate block 2 7 8 13 words[12] words[13]
  mix rotate block 3 4 9 14 words[14] words[15]

def permute (block : Block) : Block :=
  #v[block[2], block[6], block[3], block[10], block[7], block[0], block[4], block[13],
    block[1], block[11], block[12], block[5], block[9], block[14], block[15], block[8]]

end Block
end Pseudonym
