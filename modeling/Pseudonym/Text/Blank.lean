/-! White space: the characters that the Unicode property of that name holds. -/
namespace Pseudonym.Blank

def ranges : List (Nat × Nat) :=
  [(0x9, 0xD), (0x20, 0x20), (0x85, 0x85), (0xA0, 0xA0), (0x1680, 0x1680), (0x2000, 0x200A),
    (0x2028, 0x2029), (0x202F, 0x202F), (0x205F, 0x205F), (0x3000, 0x3000)]

def isBlank (c : Char) : Bool := ranges.any fun (low, high) => low ≤ c.toNat && c.toNat ≤ high

def trimLeft (chars : List Char) : List Char := chars.dropWhile isBlank

def trim (chars : List Char) : List Char := (trimLeft (trimLeft chars).reverse).reverse

end Pseudonym.Blank
