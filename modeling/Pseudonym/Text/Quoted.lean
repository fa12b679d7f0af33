import Pseudonym.Text.Faceless

/-! Text between quotation marks, for dumps. What would not show is written as an escape. -/
namespace Pseudonym.Quoted

def codeEscape (c : Char) : List Char :=
  ['\\', 'u', '\x7b'] ++ Nat.toDigits 16 c.toNat ++ ['\x7d']

def escape (c : Char) : List Char :=
  match c with
  | '"' => ['\\', '"']
  | '\\' => ['\\', '\\']
  | '\n' => ['\\', 'n']
  | '\r' => ['\\', 'r']
  | '\t' => ['\\', 't']
  | '\x00' => ['\\', '0']
  | c => if c.toNat < 32 ∨ c.toNat = 127 ∨ Faceless.isFaceless c then codeEscape c else [c]

def quote (content : String) : String :=
  String.ofList ('"' :: content.toList.flatMap escape ++ ['"'])

end Pseudonym.Quoted
