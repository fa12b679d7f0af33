/-! Numbers below 2 ^ 64 in decimal digits. Leading zeros and one plus sign are allowed. -/
namespace Pseudonym.Numeral

def read? (chars : List Char) : Option UInt64 :=
  let digits := match chars with
    | '+' :: rest => rest
    | _ => chars
  if digits.isEmpty || !digits.all Char.isDigit then none
  else
    let value := Nat.ofDigitChars 10 digits 0
    if value < UInt64.size then some (UInt64.ofNat value) else none

end Pseudonym.Numeral
