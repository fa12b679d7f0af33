/-! Identifier grammar. Only ASCII letters, digits, underscore and dollar occur in names;
a word of the language is grammatical and still no name. -/
namespace Pseudonym.Identifier

def isStart (c : Char) : Bool := c.isAlpha || c == '_' || c == '$'

def isPart (c : Char) : Bool := isStart c || c.isDigit

inductive Grammatical : List Char → Prop where
  | intro {first : Char} {rest : List Char} (start : isStart first) (parts : ∀ c ∈ rest, isPart c) :
      Grammatical (first :: rest)

def spells : List Char → Bool
  | [] => false
  | first :: rest => isStart first && rest.all isPart

theorem spellsIff {chars : List Char} : spells chars = true ↔ Grammatical chars := by
  cases chars with
  | nil => exact ⟨by simp [spells], fun h => by cases h⟩
  | cons first rest =>
    refine ⟨fun h => ?_, fun h => ?_⟩
    · simp only [spells, Bool.and_eq_true, List.all_eq_true] at h
      exact .intro h.1 h.2
    · cases h with
      | intro start parts => simpa [spells, start] using parts

def isGrammatical (name : String) : Bool := spells name.toList

def reservedWords : List String :=
  ["do", "if", "in", "for", "let", "new", "try", "var", "case", "else", "enum", "eval", "null",
    "this", "true", "void", "with", "await", "break", "catch", "class", "const", "false", "super",
    "throw", "while", "yield", "delete", "export", "import", "public", "return", "static", "switch",
    "typeof", "default", "extends", "finally", "package", "private", "continue", "debugger",
    "function", "arguments", "interface", "protected", "implements", "instanceof", "undefined",
    "NaN", "Infinity"]

def isReservedWord (name : String) : Bool := reservedWords.contains name

def isWellFormed (name : String) : Bool := isGrammatical name && !isReservedWord name

end Pseudonym.Identifier
