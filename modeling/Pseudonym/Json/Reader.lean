import Pseudonym.Json.Token

/-! Reading JSON values from tokens, and the tokens a value is written in. The reader goes over the
tokens once and keeps the containers still open on a list, so values may nest at any depth. -/
namespace Pseudonym
namespace Json

mutual

def tokens : Json → List Token
  | .scalar value => [.scalar value]
  | .array items => .openArray :: itemTokens items ++ [.closeArray]
  | .object members => .openObject :: memberTokens members ++ [.closeObject]

def itemTokens : List Json → List Token
  | [] => []
  | [item] => tokens item
  | item :: rest => tokens item ++ .comma :: itemTokens rest

def memberTokens : List (Option String × Json) → List Token
  | [] => []
  | [(key, value)] => .scalar (.text key) :: .colon :: tokens value
  | (key, value) :: rest => .scalar (.text key) :: .colon :: tokens value ++ .comma :: memberTokens rest

end

def render (value : Json) : String := String.ofList (value.tokens.flatMap Token.chars)

/-- A container around the value that is read next: what it holds so far, the latest first. -/
inductive Frame where
  | array (read : List Json)
  | object (read : List (Option String × Json)) (key : Option String)

inductive Reading where
  | atValue (outer : List Frame)
  | atFirstItem (outer : List Frame)
  | atFirstKey (outer : List Frame)
  | atKey (read : List (Option String × Json)) (outer : List Frame)
  | atColon (read : List (Option String × Json)) (key : Option String) (outer : List Frame)
  | afterItem (read : List Json) (outer : List Frame)
  | afterMember (read : List (Option String × Json)) (outer : List Frame)
  | complete (value : Json)

namespace Reading

def finish (value : Json) : List Frame → Reading
  | [] => .complete value
  | .array read :: outer => .afterItem (value :: read) outer
  | .object read key :: outer => .afterMember ((key, value) :: read) outer

def begin? (outer : List Frame) : Token → Option Reading
  | .scalar value => some (finish (.scalar value) outer)
  | .openArray => some (.atFirstItem outer)
  | .openObject => some (.atFirstKey outer)
  | _ => none

def step? : Reading → Token → Option Reading
  | .atValue outer, token => begin? outer token
  | .atFirstItem outer, .closeArray => some (finish (.array []) outer)
  | .atFirstItem outer, token => begin? (.array [] :: outer) token
  | .atFirstKey outer, .closeObject => some (finish (.object []) outer)
  | .atFirstKey outer, .scalar (.text key) => some (.atColon [] key outer)
  | .atKey read outer, .scalar (.text key) => some (.atColon read key outer)
  | .atColon read key outer, .colon => some (.atValue (.object read key :: outer))
  | .afterItem read outer, .comma => some (.atValue (.array read :: outer))
  | .afterItem read outer, .closeArray => some (finish (.array read.reverse) outer)
  | .afterMember read outer, .comma => some (.atKey read outer)
  | .afterMember read outer, .closeObject => some (finish (.object read.reverse) outer)
  | _, _ => none

def run? (reading : Reading) : List Token → Option Reading
  | [] => some reading
  | token :: rest =>
      match reading.step? token with
      | none => none
      | some reading => run? reading rest

end Reading

def ofTokens? (tokens : List Token) : Option Json :=
  match Reading.run? (.atValue []) tokens with
  | some (.complete value) => some value
  | _ => none

def read? (content : String) : Option Json := (Token.lex [] content.toList).bind ofTokens?

end Json
end Pseudonym
