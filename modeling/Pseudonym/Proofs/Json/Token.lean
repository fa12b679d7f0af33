import Mathlib.Data.List.TakeWhile
import Pseudonym.Json.Token

/-! Tokens that read back. What a token is written as is read as that token where no number goes on behind it, so
text with blanks between its tokens is cut into just these. Decimals are kept as they are spelled and left out. -/
namespace Pseudonym
namespace Token

section Strings

/-- Control characters that have no letter of their own are written by code. -/
def pieceOf (c : Char) : Piece :=
  if c.toNat < 32 ∧ c ∉ ['\n', '\r', '\t', '\x08', '\x0c'] then .code c.toNat else .char c

theorem hexRead (n : Nat) : hexValue? (hexDigit n) = some (n % 16) := by
  have small : ∀ digit < 16, hexValue? (Nat.digitChar digit) = some digit := by decide
  exact small (n % 16) (Nat.mod_lt _ (by decide))

theorem piecesEnd (read : List Piece) (rest : List Char) : pieces? read ('"' :: rest) = some (read.reverse, rest) := by
  rw [pieces?]
  simp

theorem piecesPlain {c : Char} (quoted : c ≠ '"') (escaped : c ≠ '\\') (shown : ¬c.toNat < 32) (read : List Piece)
    (rest : List Char) : pieces? read (c :: rest) = pieces? (.char c :: read) rest := by
  rw [pieces?]
  simp [quoted, escaped, shown]

theorem piecesEscaped {chars rest : List Char} {piece : Piece} (found : escaped? chars = some (piece, rest))
    (read : List Piece) : pieces? read ('\\' :: chars) = pieces? (piece :: read) rest := by
  rw [pieces?, if_neg (by decide), if_pos rfl]
  split
  · next missing => cases missing.symm.trans found
  · next again => cases again.symm.trans found; rfl

theorem codeEscaped {n : Nat} (small : n < 32) (rest : List Char) :
    escaped? ('u' :: '0' :: '0' :: hexDigit (n / 16) :: hexDigit n :: rest) = some (.code n, rest) := by
  have zero : hexValue? '0' = some 0 := by decide
  have whole : n / 16 % 16 * 16 + n % 16 = n := by omega
  simp [escaped?, code?, zero, hexRead, whole]

theorem escapeRead (c : Char) (read : List Piece) (rest : List Char) :
    pieces? read (escape c ++ rest) = pieces? (pieceOf c :: read) rest := by
  fun_cases escape c with
  | case8 _ quoted slash line carriage tab back feed shown =>
    have piece : pieceOf c = .code c.toNat := if_pos ⟨shown, by simp_all⟩
    rw [piece]
    exact piecesEscaped (codeEscaped shown rest) read
  | case9 _ quoted slash line carriage tab back feed shown =>
    have piece : pieceOf c = .char c := if_neg fun coded => shown coded.1
    rw [piece]
    exact piecesPlain quoted slash shown read rest
  | _ => exact piecesEscaped rfl read

theorem piecesRead (chars rest : List Char) (read : List Piece) :
    pieces? read (chars.flatMap escape ++ '"' :: rest) = some (read.reverse ++ chars.map pieceOf, rest) := by
  induction chars generalizing read with
  | nil => simp [piecesEnd]
  | cons c chars ih =>
    rw [List.flatMap_cons, List.append_assoc, escapeRead, ih]
    simp

theorem codeRead {code : Nat} (small : code < 0xD800) (read : List Char) (rest : List Piece) :
    text? read (.code code :: rest) = text? (Char.ofNat code :: read) rest := by
  have high : isHigh code = false := by simp only [isHigh, Bool.and_eq_false_iff, decide_eq_false_iff_not]; omega
  have low : isLow code = false := by simp only [isLow, Bool.and_eq_false_iff, decide_eq_false_iff_not]; omega
  rw [text?.eq_def]
  split <;> simp_all

theorem textRead (chars read : List Char) : text? read (chars.map pieceOf) = some (read.reverse ++ chars) := by
  induction chars generalizing read with
  | nil => simp [text?]
  | cons c chars ih =>
    have piece : text? read (pieceOf c :: chars.map pieceOf) = text? (c :: read) (chars.map pieceOf) := by
      unfold pieceOf
      split
      · next coded => rw [codeRead (by omega), Char.ofNat_toNat]
      · rfl
    rw [List.map_cons, piece, ih]
    simp

theorem stringRead (content : Option String) (rest : List Char) :
    next? (quote content ++ rest) = some (.scalar (.text content), rest) := by
  cases content with
  | none =>
    have lone : escaped? ('u' :: 'd' :: '8' :: '0' :: '0' :: '"' :: rest) = some (.code 0xD800, '"' :: rest) := rfl
    have read := (piecesEscaped lone []).trans (piecesEnd [.code 0xD800] rest)
    have text : text? [] [.code 0xD800] = none := by decide
    simp [next?, quote, string?, read, text]
  | some content =>
    have read := piecesRead content.toList rest []
    have text := textRead content.toList []
    simp [next?, quote, string?, read, text]

end Strings

section Numbers

/-- What a number would go on with. -/
def goesOn (c : Char) : Bool := c.isDigit || c == '.' || c == 'e' || c == 'E'

def Stops (rest : List Char) : Prop := ∀ c ∈ rest.head?, goesOn c = false

theorem digitsRead {digits rest : List Char} (some : digits ≠ []) (all : ∀ c ∈ digits, c.isDigit = true)
    (stops : Stops rest) : digits? (digits ++ rest) = .some (digits, rest) := by
  have ends : rest.takeWhile Char.isDigit = [] ∧ rest.dropWhile Char.isDigit = rest := by
    cases rest with
    | nil => exact ⟨rfl, rfl⟩
    | cons c rest =>
      have other : c.isDigit = false := by
        have := stops c rfl
        simp_all [goesOn]
      simp [other]
  rw [digits?, List.takeWhile_append_of_pos all, List.dropWhile_append_of_pos all, ends.1, ends.2, List.append_nil]
  split
  · contradiction
  · rfl

theorem fractionRead {rest : List Char} (stops : Stops rest) : fraction? rest = some ([], rest) := by
  unfold fraction?
  split
  · next tail => cases stops '.' rfl
  · rfl

theorem exponentRead {rest : List Char} (stops : Stops rest) : exponent? rest = some ([], rest) := by
  cases rest with
  | nil => rfl
  | cons mark rest =>
    have other := stops mark rfl
    have plain : ¬(mark = 'e' ∨ mark = 'E') := by
      rintro (rfl | rfl) <;> cases other
    rw [exponent?.eq_def]
    exact if_neg plain

theorem leadingDigit {n : Nat} (some : 0 < n) : (Nat.toDigits 10 n).head? ≠ .some '0' := by
  induction n using Nat.strongRecOn with
  | ind n ih =>
    rcases Nat.lt_or_ge n 10 with small | large
    · rw [Nat.toDigits_of_lt_base small]
      have digits : ∀ n < 10, 0 < n → Nat.digitChar n ≠ '0' := by decide
      simpa using digits n small some
    · obtain ⟨first, more, digits⟩ := List.exists_cons_of_ne_nil (Nat.toDigits_ne_nil (n := n / 10) (b := 10))
      have shorter := ih (n / 10) (by omega) (by omega)
      rw [digits] at shorter
      rwa [Nat.toDigits_of_base_le (by decide) large, digits]

theorem naturalRead (n : Nat) {rest : List Char} (stops : Stops rest) :
    unsigned? (Nat.toDigits 10 n ++ rest) = some (.natural n, rest) := by
  have all : ∀ c ∈ Nat.toDigits 10 n, c.isDigit = true := fun c member =>
    Nat.isDigit_of_mem_toDigits (by decide) (Nat.le_refl 10) member
  have digits := digitsRead Nat.toDigits_ne_nil all stops
  have proper : ¬((Nat.toDigits 10 n).head? = some '0' ∧ (Nat.toDigits 10 n).length ≠ 1) := by
    rintro ⟨zero, long⟩
    rcases Nat.eq_zero_or_pos n with rfl | some
    · exact long rfl
    · exact leadingDigit some zero
  have value : Nat.ofDigitChars 10 (Nat.toDigits 10 n) 0 = n := Nat.ofDigitChars_toDigits (by decide) (by decide)
  simp [unsigned?, digits, proper, fractionRead stops, exponentRead stops, value]

theorem numberNext {c : Char} (digit : c.isDigit = true) (rest : List Char) :
    next? (c :: rest) = (unsigned? (c :: rest)).map fun (value, rest) => (.scalar value, rest) := by
  have plain : number? (c :: rest) = unsigned? (c :: rest) := by
    unfold number?
    split
    · next same => cases (List.cons.inj same).1 ▸ digit
    · rfl
  unfold next?
  split
  case h_11 => rw [plain]
  all_goals
    rename_i same
    cases (List.cons.inj same).1 ▸ digit

end Numbers

section Texts

/-- Whether a token is over where its characters are. -/
def Ends (rest : List Char) : Token → Prop
  | .scalar (.natural _) => Stops rest
  | .scalar (.decimal _) => False
  | _ => True

/-- Text in which tokens follow each other, with blanks between them or not. -/
inductive Spells : List Token → List Char → Prop where
  | done {blanks : List Char} (blank : ∀ c ∈ blanks, isSpace c = true) : Spells [] blanks
  | token {blanks rest : List Char} {token : Token} {tokens : List Token} (blank : ∀ c ∈ blanks, isSpace c = true)
      (ends : token.Ends rest) (spells : Spells tokens rest) :
      Spells (token :: tokens) (blanks ++ (token.chars ++ rest))

theorem Spells.next {token : Token} {tokens : List Token} {rest : List Char} (ends : token.Ends rest)
    (spells : Spells tokens rest) : Spells (token :: tokens) (token.chars ++ rest) :=
  .token (List.forall_mem_nil _) ends spells

theorem Spells.blank {tokens : List Token} {blanks chars : List Char} (blank : ∀ c ∈ blanks, isSpace c = true)
    (spells : Spells tokens chars) : Spells tokens (blanks ++ chars) := by
  cases spells with
  | done more => exact .done (List.forall_mem_append.mpr ⟨blank, more⟩)
  | token more ends spells =>
    rw [← List.append_assoc]
    exact .token (List.forall_mem_append.mpr ⟨blank, more⟩) ends spells

theorem tokenNext {token : Token} {rest : List Char} (ends : token.Ends rest) :
    next? (token.chars ++ rest) = some (token, rest) := by
  cases token with
  | scalar value =>
    cases value with
    | null => rfl
    | bool value => cases value <;> rfl
    | natural n =>
      obtain ⟨first, more, digits⟩ := List.exists_cons_of_ne_nil (Nat.toDigits_ne_nil (n := n) (b := 10))
      have digit : first.isDigit = true :=
        Nat.isDigit_of_mem_toDigits (by decide) (Nat.le_refl 10) (digits ▸ List.mem_cons_self)
      have read := naturalRead n ends
      rw [digits, List.cons_append] at read
      rw [chars, ofScalar, digits, List.cons_append, numberNext digit, read]
      rfl
    | decimal spelling => exact ends.elim
    | text content => exact stringRead content rest
  | openArray | closeArray | openObject | closeObject | colon | comma => rfl

theorem blankNext {c : Char} (blank : isSpace c = true) (rest : List Char) : next? (c :: rest) = none := by
  have blanks : ((c = ' ' ∨ c = '\t') ∨ c = '\n') ∨ c = '\r' := by simpa [isSpace] using blank
  rcases blanks with ((rfl | rfl) | rfl) | rfl <;> rfl

theorem lexNext {chars rest : List Char} {token : Token} (found : next? (chars.dropWhile isSpace) = some (token, rest))
    (read : List Token) : lex read chars = lex (token :: read) rest := by
  rw [lex]
  split
  · next left => rw [left] at found; cases found
  · next left =>
    rw [left] at found
    split
    · next missing => cases missing.symm.trans found
    · next again => cases again.symm.trans found; rfl

theorem lexDone {chars : List Char} (blank : ∀ c ∈ chars, isSpace c = true) (read : List Token) :
    lex read chars = some read.reverse := by
  have left : chars.dropWhile isSpace = [] := List.dropWhile_eq_nil_iff.mpr blank
  rw [lex]
  split
  · rfl
  · next more => cases left.symm.trans more

theorem lexSpells {tokens : List Token} {chars : List Char} (spells : Spells tokens chars) (read : List Token) :
    lex read chars = some (read.reverse ++ tokens) := by
  induction spells generalizing read with
  | done blank => rw [lexDone blank, List.append_nil]
  | @token blanks rest token tokens blank ends spells ih =>
    have next := tokenNext ends
    have cut : (blanks ++ (token.chars ++ rest)).dropWhile isSpace = token.chars ++ rest := by
      rw [List.dropWhile_append_of_pos blank]
      generalize token.chars ++ rest = chars at next
      cases chars with
      | nil => rfl
      | cons c chars =>
        refine List.dropWhile_cons_of_neg fun space => ?_
        cases (blankNext space chars).symm.trans next
    rw [lexNext (by rw [cut, next]), ih, List.reverse_cons, List.append_assoc]
    rfl

end Texts

end Token
end Pseudonym
