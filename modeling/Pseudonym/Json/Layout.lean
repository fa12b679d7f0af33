import Pseudonym.Json.Token

/-! JSON over several lines: each item and each member on a line of its own, two spaces deeper than
the brackets around it. Empty containers stay on one line. -/
namespace Pseudonym
namespace Json

def lineBreak (depth : Nat) : List Char := '\n' :: List.replicate (2 * depth) ' '

mutual

def laidOut (depth : Nat) : Json → List Char
  | .scalar value => Token.ofScalar value
  | .array [] => ['[', ']']
  | .array (item :: rest) =>
      '[' :: laidOutItems (depth + 1) (item :: rest) ++ lineBreak depth ++ [']']
  | .object [] => ['\x7b', '\x7d']
  | .object (member :: rest) =>
      '\x7b' :: laidOutMembers (depth + 1) (member :: rest) ++ lineBreak depth ++ ['\x7d']

def laidOutItems (depth : Nat) : List Json → List Char
  | [] => []
  | [item] => lineBreak depth ++ laidOut depth item
  | item :: rest => lineBreak depth ++ laidOut depth item ++ ',' :: laidOutItems depth rest

def laidOutMembers (depth : Nat) : List (Option String × Json) → List Char
  | [] => []
  | [(key, value)] => lineBreak depth ++ Token.quote key ++ ':' :: ' ' :: laidOut depth value
  | (key, value) :: rest =>
      lineBreak depth ++ Token.quote key ++ ':' :: ' ' :: laidOut depth value ++
        ',' :: laidOutMembers depth rest

end

def layOut (value : Json) : String := String.ofList (laidOut 0 value)

end Json
end Pseudonym
