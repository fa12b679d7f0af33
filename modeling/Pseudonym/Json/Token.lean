import Pseudonym.Json.Value

/-! The tokens of JSON text, how each is written, and how text is cut into them. -/
namespace Pseudonym

inductive Token where
  | openArray
  | closeArray
  | openObject
  | closeObject
  | colon
  | comma
  | scalar (value : Scalar)
  deriving DecidableEq, Repr

namespace Token

/-! Writing. -/

def hexDigit (n : Nat) : Char := Nat.digitChar (n % 16)

def escape (c : Char) : List Char :=
  match c with
  | '"' => ['\\', '"']
  | '\\' => ['\\', '\\']
  | '\n' => ['\\', 'n']
  | '\r' => ['\\', 'r']
  | '\t' => ['\\', 't']
  | '\x08' => ['\\', 'b']
  | '\x0c' => ['\\', 'f']
  | c => if c.toNat < 32 then ['\\', 'u', '0', '0', hexDigit (c.toNat / 16), hexDigit c.toNat] else [c]

/-- A string that spells no text is written as one unpaired escape. -/
def quote : Option String → List Char
  | some content => '"' :: content.toList.flatMap escape ++ ['"']
  | none => ['"', '\\', 'u', 'd', '8', '0', '0', '"']

def ofScalar : Scalar → List Char
  | .null => ['n', 'u', 'l', 'l']
  | .bool true => ['t', 'r', 'u', 'e']
  | .bool false => ['f', 'a', 'l', 's', 'e']
  | .natural value => Nat.toDigits 10 value
  | .decimal spelling => spelling.toList
  | .text content => quote content

def chars : Token → List Char
  | .openArray => ['[']
  | .closeArray => [']']
  | .openObject => ['\x7b']
  | .closeObject => ['\x7d']
  | .colon => [':']
  | .comma => [',']
  | .scalar value => ofScalar value

/-! Reading. -/

inductive Piece where
  | char (value : Char)
  | code (value : Nat)
  deriving DecidableEq, Repr

def hexValue? (c : Char) : Option Nat :=
  if c.isDigit then some (c.toNat - '0'.toNat)
  else if 'a' ≤ c ∧ c ≤ 'f' then some (c.toNat - 'a'.toNat + 10)
  else if 'A' ≤ c ∧ c ≤ 'F' then some (c.toNat - 'A'.toNat + 10)
  else none

def code? (a b c d : Char) : Option Nat := do
  let a ← hexValue? a
  let b ← hexValue? b
  let c ← hexValue? c
  let d ← hexValue? d
  some (((a * 16 + b) * 16 + c) * 16 + d)

def unescape? : Char → Option Char
  | '"' => some '"'
  | '\\' => some '\\'
  | '/' => some '/'
  | 'b' => some '\x08'
  | 'f' => some '\x0c'
  | 'n' => some '\n'
  | 'r' => some '\r'
  | 't' => some '\t'
  | _ => none

def escaped? : List Char → Option (Piece × List Char)
  | 'u' :: a :: b :: c :: d :: rest => (code? a b c d).map fun value => (.code value, rest)
  | c :: rest => (unescape? c).map fun value => (.char value, rest)
  | [] => none

theorem escapedShortens {chars rest : List Char} {piece : Piece}
    (read : escaped? chars = some (piece, rest)) : rest.length < chars.length := by
  unfold escaped? at read
  split at read
  all_goals simp only [Option.map_eq_some_iff, Prod.mk.injEq, reduceCtorEq] at read
  all_goals obtain ⟨_, _, _, rfl⟩ := read
  all_goals simp <;> omega

def pieces? (read : List Piece) (chars : List Char) : Option (List Piece × List Char) :=
  match chars with
  | [] => none
  | c :: rest =>
      if c = '"' then some (read.reverse, rest)
      else if c = '\\' then
        match _found : escaped? rest with
        | none => none
        | some (piece, rest) => pieces? (piece :: read) rest
      else if c.toNat < 32 then none
      else pieces? (.char c :: read) rest
termination_by chars.length
decreasing_by
  · have := escapedShortens _found; simp_all; omega
  · simp

def isHigh (code : Nat) : Bool := 0xD800 ≤ code && code < 0xDC00

def isLow (code : Nat) : Bool := 0xDC00 ≤ code && code < 0xE000

/-- Codes stand for characters alone or, above the first plane, in pairs of a high and a low one. -/
def text? (read : List Char) : List Piece → Option (List Char)
  | [] => some read.reverse
  | .char c :: rest => text? (c :: read) rest
  | .code high :: .code low :: rest =>
      if isHigh high then
        if isLow low then
          text? (Char.ofNat (0x10000 + (high - 0xD800) * 0x400 + (low - 0xDC00)) :: read) rest
        else none
      else if isLow high then none
      else text? (Char.ofNat high :: read) (.code low :: rest)
  | .code value :: rest =>
      if isHigh value || isLow value then none else text? (Char.ofNat value :: read) rest

def isSpace (c : Char) : Bool := c == ' ' || c == '\t' || c == '\n' || c == '\r'

def digits? (chars : List Char) : Option (List Char × List Char) :=
  match chars.takeWhile Char.isDigit with
  | [] => none
  | digits => some (digits, chars.dropWhile Char.isDigit)

def fraction? : List Char → Option (List Char × List Char)
  | '.' :: rest => (digits? rest).map fun (digits, rest) => ('.' :: digits, rest)
  | chars => some ([], chars)

def exponent? : List Char → Option (List Char × List Char)
  | mark :: rest =>
      if mark = 'e' ∨ mark = 'E' then
        match rest with
        | sign :: after =>
            if sign = '+' ∨ sign = '-' then
              (digits? after).map fun (digits, rest) => (mark :: sign :: digits, rest)
            else (digits? rest).map fun (digits, rest) => (mark :: digits, rest)
        | [] => none
      else some ([], mark :: rest)
  | [] => some ([], [])

def unsigned? (chars : List Char) : Option (Scalar × List Char) := do
  let (digits, rest) ← digits? chars
  if digits.head? = some '0' ∧ digits.length ≠ 1 then none
  else
    let (fraction, rest) ← fraction? rest
    let (exponent, rest) ← exponent? rest
    match fraction ++ exponent with
    | [] => some (.natural (Nat.ofDigitChars 10 digits 0), rest)
    | more => some (.decimal (String.ofList (digits ++ more)), rest)

def negate : Scalar → Scalar
  | .natural value => .decimal (String.ofList ('-' :: Nat.toDigits 10 value))
  | .decimal spelling => .decimal ("-" ++ spelling)
  | value => value

def number? : List Char → Option (Scalar × List Char)
  | '-' :: rest => (unsigned? rest).map fun (value, rest) => (negate value, rest)
  | chars => unsigned? chars

def string? (chars : List Char) : Option (Scalar × List Char) :=
  (pieces? [] chars).map fun (pieces, rest) => (.text ((text? [] pieces).map String.ofList), rest)

def next? : List Char → Option (Token × List Char)
  | '[' :: rest => some (.openArray, rest)
  | ']' :: rest => some (.closeArray, rest)
  | '\x7b' :: rest => some (.openObject, rest)
  | '\x7d' :: rest => some (.closeObject, rest)
  | ':' :: rest => some (.colon, rest)
  | ',' :: rest => some (.comma, rest)
  | '"' :: rest => (string? rest).map fun (value, rest) => (.scalar value, rest)
  | 'n' :: 'u' :: 'l' :: 'l' :: rest => some (.scalar .null, rest)
  | 't' :: 'r' :: 'u' :: 'e' :: rest => some (.scalar (.bool true), rest)
  | 'f' :: 'a' :: 'l' :: 's' :: 'e' :: rest => some (.scalar (.bool false), rest)
  | chars => (number? chars).map fun (value, rest) => (.scalar value, rest)

theorem piecesShortens (read : List Piece) (chars : List Char) {pieces : List Piece} {rest : List Char}
    (found : pieces? read chars = some (pieces, rest)) : rest.length < chars.length := by
  fun_induction pieces? read chars with
  | case1 => contradiction
  | case2 => simp_all
  | case3 => contradiction
  | case4 =>
      rename_i cut _ ih
      have := escapedShortens cut
      have := ih found
      simp_all; omega
  | case5 => contradiction
  | case6 =>
      rename_i ih
      have := ih found
      simp_all; omega

theorem digitsShortens {chars digits rest : List Char} (read : digits? chars = some (digits, rest)) :
    rest.length < chars.length := by
  unfold digits? at read
  split at read
  · contradiction
  · rename_i some
    cases chars with
    | nil => simp at some
    | cons c chars =>
      by_cases digit : c.isDigit
      · simp only [Option.some.injEq, Prod.mk.injEq, List.dropWhile_cons, digit, if_true] at read
        have := (List.dropWhile_suffix (l := chars) Char.isDigit).length_le
        simp [← read.2]; omega
      · simp [digit] at some

theorem fractionNotLonger {chars fraction rest : List Char}
    (read : fraction? chars = some (fraction, rest)) : rest.length ≤ chars.length := by
  unfold fraction? at read
  split at read
  · simp only [Option.map_eq_some_iff, Prod.mk.injEq] at read
    obtain ⟨⟨_, _⟩, found, _, rfl⟩ := read
    have := digitsShortens found
    simp; omega
  · simp_all

theorem exponentNotLonger {chars exponent rest : List Char}
    (read : exponent? chars = some (exponent, rest)) : rest.length ≤ chars.length := by
  unfold exponent? at read
  repeat' split at read
  all_goals simp only [Option.map_eq_some_iff, Prod.mk.injEq, Option.some.injEq, reduceCtorEq] at read
  · obtain ⟨⟨_, _⟩, found, _, rfl⟩ := read
    have := digitsShortens found
    simp; omega
  · obtain ⟨⟨_, _⟩, found, _, rfl⟩ := read
    have := digitsShortens found
    simp_all; omega
  · simp [← read.2]
  · simp [← read.2]

theorem unsignedShortens {chars rest : List Char} {value : Scalar}
    (read : unsigned? chars = some (value, rest)) : rest.length < chars.length := by
  simp only [unsigned?, bind, Option.bind_eq_some_iff] at read
  obtain ⟨⟨digits, middle⟩, found, read⟩ := read
  have := digitsShortens found
  split at read
  · contradiction
  · simp only [Option.bind_eq_some_iff] at read
    obtain ⟨⟨_, after⟩, fraction, ⟨_, last⟩, exponent, read⟩ := read
    have shorter : after.length ≤ middle.length := fractionNotLonger fraction
    have shortest : last.length ≤ after.length := exponentNotLonger exponent
    split at read <;> simp at read <;> rw [← read.2] <;> omega

theorem numberShortens {chars rest : List Char} {value : Scalar}
    (read : number? chars = some (value, rest)) : rest.length < chars.length := by
  unfold number? at read
  split at read
  · simp only [Option.map_eq_some_iff, Prod.mk.injEq] at read
    obtain ⟨⟨_, _⟩, found, _, rfl⟩ := read
    have := unsignedShortens found
    simp; omega
  · exact unsignedShortens read

theorem nextShortens {chars rest : List Char} {token : Token}
    (read : next? chars = some (token, rest)) : rest.length < chars.length := by
  unfold next? at read
  split at read
  all_goals try
    simp only [Option.some.injEq, Prod.mk.injEq] at read
    rw [← read.2]; simp; try omega
  · simp only [string?, Option.map_map, Option.map_eq_some_iff, Function.comp_apply, Prod.mk.injEq] at read
    obtain ⟨⟨_, _⟩, found, _, rfl⟩ := read
    have := piecesShortens _ _ found
    simp; omega
  · simp only [Option.map_eq_some_iff, Prod.mk.injEq] at read
    obtain ⟨⟨_, _⟩, found, _, rfl⟩ := read
    exact numberShortens found

def lex (read : List Token) (chars : List Char) : Option (List Token) :=
  match _cut : chars.dropWhile isSpace with
  | [] => some read.reverse
  | c :: rest =>
      match _found : next? (c :: rest) with
      | none => none
      | some (token, after) => lex (token :: read) after
termination_by chars.length
decreasing_by
  have := nextShortens _found
  have := (List.dropWhile_suffix (l := chars) isSpace).length_le
  rw [_cut] at this
  omega

end Token
end Pseudonym
