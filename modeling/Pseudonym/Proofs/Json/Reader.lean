import Pseudonym.Json.Layout
import Pseudonym.Json.Reader
import Pseudonym.Proofs.Json.Token

/-! Values that read back. The tokens of a value take the reader past that value whatever is open around it, and
both ways of writing a value spell its tokens. -/
namespace Pseudonym
namespace Json
open Token (Spells Stops)

mutual

/-- Whether all numbers in a value are written in digits alone. -/
def Plain : Json → Prop
  | .scalar (.decimal _) => False
  | .scalar _ => True
  | .array items => PlainItems items
  | .object members => PlainMembers members

def PlainItems : List Json → Prop
  | [] => True
  | item :: rest => item.Plain ∧ PlainItems rest

def PlainMembers : List (Option String × Json) → Prop
  | [] => True
  | (_, value) :: rest => value.Plain ∧ PlainMembers rest

end

section Reading
open Reading

theorem itemTokensNext (item next : Json) (items : List Json) :
    itemTokens (item :: next :: items) = item.tokens ++ .comma :: itemTokens (next :: items) := rfl

theorem memberTokensNext (key : Option String) (value : Json) (next : Option String × Json)
    (members : List (Option String × Json)) :
    memberTokens ((key, value) :: next :: members) =
      .scalar (.text key) :: .colon :: (value.tokens ++ .comma :: memberTokens (next :: members)) := rfl

theorem firstItem (outer : List Frame) (rest : List Token) (item : Json) (items : List Json) :
    run? (.atFirstItem outer) (itemTokens (item :: items) ++ rest) =
      run? (.atValue (.array [] :: outer)) (itemTokens (item :: items) ++ rest) := by
  cases items <;> cases item <;> rfl

theorem firstKey (outer : List Frame) (rest : List Token) (member : Option String × Json)
    (members : List (Option String × Json)) :
    run? (.atFirstKey outer) (memberTokens (member :: members) ++ rest) =
      run? (.atKey [] outer) (memberTokens (member :: members) ++ rest) := by
  cases members <;> rfl

mutual

theorem readValue (outer : List Frame) (rest : List Token) : (value : Json) →
    run? (.atValue outer) (value.tokens ++ rest) = run? (finish value outer) rest
  | .scalar _ | .array [] | .object [] => rfl
  | .array (item :: items) => calc
      _ = run? (.atFirstItem outer) (itemTokens (item :: items) ++ .closeArray :: rest) := by
        rw [tokens, List.append_assoc]
        rfl
      _ = run? (.atValue (.array [] :: outer)) (itemTokens (item :: items) ++ .closeArray :: rest) := firstItem ..
      _ = run? (finish (.array (item :: items)) outer) rest :=
        readItems [] outer rest (item :: items) (List.cons_ne_nil _ _)
  | .object (member :: members) => calc
      _ = run? (.atFirstKey outer) (memberTokens (member :: members) ++ .closeObject :: rest) := by
        rw [tokens, List.append_assoc]
        rfl
      _ = run? (.atKey [] outer) (memberTokens (member :: members) ++ .closeObject :: rest) := firstKey ..
      _ = run? (finish (.object (member :: members)) outer) rest :=
        readMembers [] outer rest (member :: members) (List.cons_ne_nil _ _)

theorem readItems (read : List Json) (outer : List Frame) (rest : List Token) : (items : List Json) → items ≠ [] →
    run? (.atValue (.array read :: outer)) (itemTokens items ++ .closeArray :: rest) =
      run? (finish (.array (read.reverse ++ items)) outer) rest
  | [], filled => absurd rfl filled
  | [item], _ => calc
      _ = run? (finish (.array (item :: read).reverse) outer) rest :=
        readValue (.array read :: outer) (.closeArray :: rest) item
      _ = _ := by rw [List.reverse_cons]
  | item :: next :: items, _ => calc
      _ = run? (.atValue (.array read :: outer))
          (item.tokens ++ .comma :: (itemTokens (next :: items) ++ .closeArray :: rest)) := by
        rw [itemTokensNext, List.append_assoc, List.cons_append]
      _ = run? (.atValue (.array (item :: read) :: outer)) (itemTokens (next :: items) ++ .closeArray :: rest) :=
        readValue ..
      _ = run? (finish (.array ((item :: read).reverse ++ next :: items)) outer) rest :=
        readItems (item :: read) outer rest (next :: items) (List.cons_ne_nil _ _)
      _ = _ := by rw [List.reverse_cons, List.append_assoc, List.singleton_append]

theorem readMembers (read : List (Option String × Json)) (outer : List Frame) (rest : List Token) :
    (members : List (Option String × Json)) → members ≠ [] →
    run? (.atKey read outer) (memberTokens members ++ .closeObject :: rest) =
      run? (finish (.object (read.reverse ++ members)) outer) rest
  | [], filled => absurd rfl filled
  | [(key, value)], _ => calc
      _ = run? (.atValue (.object read key :: outer)) (value.tokens ++ .closeObject :: rest) := rfl
      _ = run? (finish (.object ((key, value) :: read).reverse) outer) rest := readValue ..
      _ = _ := by rw [List.reverse_cons]
  | (key, value) :: next :: members, _ => calc
      _ = run? (.atValue (.object read key :: outer))
          (value.tokens ++ .comma :: (memberTokens (next :: members) ++ .closeObject :: rest)) := by
        rw [memberTokensNext, List.cons_append, List.cons_append, List.append_assoc, List.cons_append]
        rfl
      _ = run? (.atKey ((key, value) :: read) outer) (memberTokens (next :: members) ++ .closeObject :: rest) :=
        readValue ..
      _ = run? (finish (.object (((key, value) :: read).reverse ++ next :: members)) outer) rest :=
        readMembers ((key, value) :: read) outer rest (next :: members) (List.cons_ne_nil _ _)
      _ = _ := by rw [List.reverse_cons, List.append_assoc, List.singleton_append]

end

theorem ofTokensRead (value : Json) : ofTokens? value.tokens = some value := by
  have read := readValue [] [] value
  rw [List.append_nil] at read
  rw [ofTokens?, read]
  rfl

/-- Whatever blanks a value is written with, it is read back. -/
theorem readBack {value : Json} {content : String} (spells : Spells value.tokens content.toList) :
    read? content = some value := by
  rw [read?, Token.lexSpells spells]
  exact ofTokensRead value

end Reading

section Writing

variable {more : List Token} {rest : List Char}

theorem scalarSpells {value : Scalar} (plain : (scalar value).Plain) (spells : Spells more rest) (stops : Stops rest) :
    Spells (.scalar value :: more) (Token.ofScalar value ++ rest) := by
  cases value with
  | natural => exact .next stops spells
  | decimal => exact plain.elim
  | null | bool | text => exact .next trivial spells

theorem keySpells (key : Option String) (spells : Spells more rest) :
    Spells (.scalar (.text key) :: .colon :: more) (Token.quote key ++ ':' :: rest) :=
  .next trivial (.next trivial spells)

theorem stopsAt {c : Char} (other : Token.goesOn c = false) (rest : List Char) : Stops (c :: rest) := by
  rintro _ ⟨⟩
  exact other

mutual

theorem tokensSpell {more : List Token} {rest : List Char} (spells : Spells more rest) (stops : Stops rest) :
    (value : Json) → value.Plain → Spells (value.tokens ++ more) (value.tokens.flatMap Token.chars ++ rest)
  | .scalar value, plain => by
    rw [tokens, List.flatMap_singleton]
    exact scalarSpells plain spells stops
  | .array items, plain => by
    have close : Spells (.closeArray :: more) (']' :: rest) := .next trivial spells
    have inside := itemsSpell close (stopsAt rfl rest) items plain
    rw [tokens, List.flatMap_append, List.append_assoc, List.append_assoc]
    exact .next trivial inside
  | .object members, plain => by
    have close : Spells (.closeObject :: more) ('\x7d' :: rest) := .next trivial spells
    have inside := membersSpell close (stopsAt rfl rest) members plain
    rw [tokens, List.flatMap_append, List.append_assoc, List.append_assoc]
    exact .next trivial inside

theorem itemsSpell {more : List Token} {rest : List Char} (spells : Spells more rest) (stops : Stops rest) :
    (items : List Json) → PlainItems items →
      Spells (itemTokens items ++ more) ((itemTokens items).flatMap Token.chars ++ rest)
  | [], _ => spells
  | [item], ⟨plain, _⟩ => tokensSpell spells stops item plain
  | item :: next :: items, ⟨plain, others⟩ => by
    have later := itemsSpell spells stops (next :: items) others
    have comma : Spells (.comma :: (itemTokens (next :: items) ++ more)) (',' :: _) := .next trivial later
    rw [itemTokensNext, List.flatMap_append, List.flatMap_cons, List.append_assoc, List.append_assoc]
    exact tokensSpell comma (stopsAt rfl _) item plain

theorem membersSpell {more : List Token} {rest : List Char} (spells : Spells more rest) (stops : Stops rest) :
    (members : List (Option String × Json)) → PlainMembers members →
      Spells (memberTokens members ++ more) ((memberTokens members).flatMap Token.chars ++ rest)
  | [], _ => spells
  | [(key, value)], ⟨plain, _⟩ => by
    have inside := tokensSpell spells stops value plain
    rw [memberTokens, List.flatMap_cons, List.flatMap_cons, List.append_assoc, List.append_assoc]
    exact keySpells key inside
  | (key, value) :: next :: members, ⟨plain, others⟩ => by
    have later := membersSpell spells stops (next :: members) others
    have comma : Spells (.comma :: (memberTokens (next :: members) ++ more)) (',' :: _) := .next trivial later
    have inside := tokensSpell comma (stopsAt rfl _) value plain
    rw [memberTokensNext, List.flatMap_cons, List.flatMap_cons, List.flatMap_append, List.flatMap_cons,
      List.append_assoc, List.append_assoc, List.append_assoc, List.cons_append, List.cons_append, List.append_assoc]
    exact keySpells key inside

end

theorem laidOutItemsNext (depth : Nat) (item next : Json) (items : List Json) :
    laidOutItems depth (item :: next :: items) =
      lineBreak depth ++ laidOut depth item ++ ',' :: laidOutItems depth (next :: items) := rfl

theorem laidOutMembersNext (depth : Nat) (key : Option String) (value : Json) (next : Option String × Json)
    (members : List (Option String × Json)) :
    laidOutMembers depth ((key, value) :: next :: members) =
      lineBreak depth ++ Token.quote key ++ ':' :: ' ' :: laidOut depth value ++
        ',' :: laidOutMembers depth (next :: members) := rfl

theorem spaceBlank : ∀ c ∈ [' '], Token.isSpace c = true := by simp [Token.isSpace]

theorem breakBlank (depth : Nat) : ∀ c ∈ lineBreak depth, Token.isSpace c = true := by
  rintro c (_ | ⟨_, deeper⟩)
  · rfl
  · rw [List.eq_of_mem_replicate deeper]
    rfl

mutual

theorem laidOutSpells {more : List Token} {rest : List Char} (spells : Spells more rest) (stops : Stops rest)
    (depth : Nat) : (value : Json) → value.Plain → Spells (value.tokens ++ more) (laidOut depth value ++ rest)
  | .scalar _, plain => scalarSpells plain spells stops
  | .array [], _ => .next trivial (.next trivial spells)
  | .object [], _ => .next trivial (.next trivial spells)
  | .array (item :: items), plain => by
    have close : Spells (.closeArray :: more) (']' :: rest) := .next trivial spells
    have inside := laidOutItemsSpell (.blank (breakBlank depth) close) (stopsAt rfl _) (depth + 1) (item :: items) plain
    rw [tokens, laidOut, List.append_assoc, List.append_assoc, List.append_assoc]
    exact .next trivial inside
  | .object (member :: members), plain => by
    have close : Spells (.closeObject :: more) ('\x7d' :: rest) := .next trivial spells
    have inside := laidOutMembersSpell (.blank (breakBlank depth) close) (stopsAt rfl _) (depth + 1)
      (member :: members) plain
    rw [tokens, laidOut, List.append_assoc, List.append_assoc, List.append_assoc]
    exact .next trivial inside

theorem laidOutItemsSpell {more : List Token} {rest : List Char} (spells : Spells more rest) (stops : Stops rest)
    (depth : Nat) : (items : List Json) → PlainItems items →
      Spells (itemTokens items ++ more) (laidOutItems depth items ++ rest)
  | [], _ => spells
  | [item], ⟨plain, _⟩ => by
    rw [laidOutItems, List.append_assoc]
    exact .blank (breakBlank depth) (laidOutSpells spells stops depth item plain)
  | item :: next :: items, ⟨plain, others⟩ => by
    have later := laidOutItemsSpell spells stops depth (next :: items) others
    have comma : Spells (.comma :: (itemTokens (next :: items) ++ more)) (',' :: _) := .next trivial later
    rw [itemTokensNext, laidOutItemsNext, List.append_assoc, List.append_assoc, List.append_assoc]
    exact .blank (breakBlank depth) (laidOutSpells comma (stopsAt rfl _) depth item plain)

theorem laidOutMembersSpell {more : List Token} {rest : List Char} (spells : Spells more rest) (stops : Stops rest)
    (depth : Nat) : (members : List (Option String × Json)) → PlainMembers members →
      Spells (memberTokens members ++ more) (laidOutMembers depth members ++ rest)
  | [], _ => spells
  | [(key, value)], ⟨plain, _⟩ => by
    have inside := Spells.blank spaceBlank (laidOutSpells spells stops depth value plain)
    rw [memberTokens, laidOutMembers, List.append_assoc, List.append_assoc]
    exact .blank (breakBlank depth) (keySpells key inside)
  | (key, value) :: next :: members, ⟨plain, others⟩ => by
    have later := laidOutMembersSpell spells stops depth (next :: members) others
    have comma : Spells (.comma :: (memberTokens (next :: members) ++ more)) (',' :: _) := .next trivial later
    have inside := Spells.blank spaceBlank (laidOutSpells comma (stopsAt rfl _) depth value plain)
    rw [memberTokensNext, laidOutMembersNext, List.append_assoc, List.append_assoc, List.append_assoc,
      List.cons_append, List.cons_append, List.append_assoc]
    exact .blank (breakBlank depth) (keySpells key inside)

end

theorem renderReadBack {value : Json} (plain : value.Plain) : read? value.render = some value := by
  have spells := tokensSpell (.done (List.forall_mem_nil _)) (by simp [Stops]) value plain
  rw [List.append_nil, List.append_nil] at spells
  exact readBack (by rwa [render, String.toList_ofList])

theorem layOutReadBack {value : Json} (plain : value.Plain) : read? value.layOut = some value := by
  have spells := laidOutSpells (.done (List.forall_mem_nil _)) (by simp [Stops]) 0 value plain
  rw [List.append_nil, List.append_nil] at spells
  exact readBack (by rwa [layOut, String.toList_ofList])

end Writing

end Json
end Pseudonym
