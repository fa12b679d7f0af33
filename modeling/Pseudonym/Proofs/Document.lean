import Pseudonym.Options.Document
import Pseudonym.Proofs.Json.Decode
import Pseudonym.Scope.Document

/-! Documents that read back. Name options do, whatever they say; programs do, if their scopes do not nest deeper
than the levels of a document allow, and are refused if they do. -/
namespace Pseudonym
open Decoder (Inverts)

namespace NameOptions

theorem seedInverts (levels : Nat) : Inverts Seed.decode Seed.toJson levels := by
  intro seed
  cases seed with
  | number value =>
    have read := Decoder.uint64Inverts levels value
    simp only [Seed.toJson, Json.ofNat, Seed.decode] at read ⊢
    rw [read]
    rfl
  | text content => rfl

theorem orderKnown (order : DrawOrder) : DrawOrder.ofToken? order.token = some order := by
  cases order <;> decide

theorem optionsInverts (levels : Nat) : Inverts decode toJson (levels + 2) := by
  intro options
  have once : keys.Nodup := by decide
  have text (content : String) := Decoder.textInverts (levels + 1) content
  have texts (names : List String) := Decoder.textsInverts levels names
  have order := Decoder.choiceInverts orderKnown (levels + 1) options.order
  have seed := Decoder.optionInverts (seedInverts (levels + 1)) (by rintro (_ | _) ⟨⟩) options.seed
  have globals := Decoder.boolInverts (levels + 1) options.renameGlobals
  have attempts := Decoder.uint32Inverts (levels + 1) options.maxAttempts
  have length := Decoder.optionInverts (Decoder.uint64Inverts (levels + 1)) (by rintro _ ⟨⟩) options.nameLength
  refine (Decoder.recordMembers once rfl).trans ?_
  simp [Decoder.field, List.lookup_cons, text, texts, order, seed, globals, attempts, length]

theorem optionsPlain (options : NameOptions) : options.toJson.Plain := by
  have seedPlain (seed : Seed) : seed.toJson.Plain := by cases seed <;> trivial
  have dictionary := Json.textsPlain options.dictionary
  have reserved := Json.textsPlain options.reserved
  have seed := Json.optionPlain seedPlain options.seed
  have length := Json.optionPlain (fun length : UInt64 => show (Json.ofNat length.toNat).Plain from trivial)
    options.nameLength
  exact ⟨trivial, trivial, dictionary, trivial, seed, reserved, trivial, trivial, length, trivial⟩

end NameOptions

namespace ScopeOutline

mutual

/-- How many levels of scopes lie inside the scope. -/
def depth : ScopeOutline → Nat
  | ⟨_, _, _, _, _, children⟩ => depthIn children

def depthIn : List ScopeOutline → Nat
  | [] => 0
  | child :: rest => max (child.depth + 1) (depthIn rest)

end

theorem keysOnce : keys.Nodup := by decide

theorem decodeHere (levels : Nat) (outline : ScopeOutline) (child : Decoder ScopeOutline) :
    decodeWith child (levels + 2) outline.toJson =
      ((childrenJson outline.children).mapM (child levels)).map fun children => {outline with children} := by
  obtain ⟨kind, bindings, vars, labels, hasEval, children⟩ := outline
  have kindRead := Decoder.choiceInverts ScopeKind.ofTokenToken (levels + 1) kind
  have texts (names : List String) := Decoder.textsInverts levels names
  have eval := Decoder.boolInverts (levels + 1) hasEval
  refine (Decoder.recordMembers keysOnce rfl).trans ?_
  simp only [Decoder.field, List.lookup_cons, kindRead, texts, eval, Decoder.list, String.reduceBEq, Option.bind_some,
    Option.bind_eq_bind]
  cases (childrenJson children).mapM (child levels) <;> rfl

theorem decodeShallow (outline : ScopeOutline) (child : Decoder ScopeOutline) :
    decodeWith child 0 outline.toJson = none ∧ decodeWith child 1 outline.toJson = none := by
  obtain ⟨kind, bindings, vars, labels, hasEval, children⟩ := outline
  have kindRead := Decoder.choiceInverts ScopeKind.ofTokenToken 0 kind
  have texts (names : List String) : Decoder.texts 0 (.ofTexts names) = none := rfl
  refine ⟨rfl, (Decoder.recordMembers keysOnce rfl).trans ?_⟩
  simp [Decoder.field, List.lookup_cons, kindRead, texts]

mutual

/-- A scope takes two levels, and so does every level of scopes inside it. -/
theorem decodeDepth : (outline : ScopeOutline) → (levels : Nat) →
    decode levels outline.toJson = if 2 * outline.depth + 2 ≤ levels then some outline else none
  | outline, 0 => (decodeShallow outline _).1.trans (if_neg (by omega)).symm
  | outline, 1 => (decodeShallow outline _).2.trans (if_neg (by omega)).symm
  | ⟨kind, bindings, vars, labels, hasEval, children⟩, levels + 2 => by
    rw [decode, decodeHere, childrenDepth children levels, depth]
    by_cases fits : 2 * depthIn children ≤ levels
    · rw [if_pos fits, if_pos (by omega)]
      rfl
    · rw [if_neg fits, if_neg (by omega)]
      rfl

theorem childrenDepth : (children : List ScopeOutline) → (levels : Nat) →
    (childrenJson children).mapM (decode levels) = if 2 * depthIn children ≤ levels then some children else none
  | [], levels => by
    rw [depthIn, if_pos (Nat.zero_le _)]
    rfl
  | child :: rest, levels => by
    rw [childrenJson, List.mapM_cons, decodeDepth child levels, childrenDepth rest levels, depthIn]
    by_cases here : 2 * child.depth + 2 ≤ levels
    · by_cases others : 2 * depthIn rest ≤ levels
      · rw [if_pos here, if_pos others, if_pos (by omega)]
        rfl
      · rw [if_pos here, if_neg others, if_neg (by omega)]
        rfl
    · have deeper : ¬2 * max (child.depth + 1) (depthIn rest) ≤ levels := by omega
      rw [if_neg here, if_neg deeper]
      rfl

end

mutual

theorem outlinePlain : (outline : ScopeOutline) → outline.toJson.Plain
  | ⟨_, bindings, vars, labels, _, children⟩ =>
    ⟨trivial, Json.textsPlain bindings, Json.textsPlain vars, Json.textsPlain labels, trivial,
      childrenPlain children, trivial⟩

theorem childrenPlain : (children : List ScopeOutline) → Json.PlainItems (childrenJson children)
  | [] => trivial
  | child :: rest => ⟨outlinePlain child, childrenPlain rest⟩

end

end ScopeOutline

namespace ProgramOutline

theorem decodeDepth (program : ProgramOutline) (levels : Nat) :
    decode (levels + 2) program.toJson = if 2 * program.scope.depth + 1 ≤ levels then some program else none := by
  obtain ⟨globals, internalNames, scope⟩ := program
  have once : keys.Nodup := by decide
  have texts (names : List String) := Decoder.textsInverts levels names
  have inside := ScopeOutline.decodeDepth scope (levels + 1)
  refine (Decoder.recordMembers once rfl).trans ?_
  simp only [Decoder.field, List.lookup_cons, texts, inside, String.reduceBEq, Option.bind_some, Option.bind_eq_bind]
  by_cases fits : 2 * scope.depth + 1 ≤ levels
  · rw [if_pos fits, if_pos (by omega)]
    rfl
  · rw [if_neg fits, if_neg (by omega)]
    rfl

theorem programPlain (program : ProgramOutline) : program.toJson.Plain :=
  ⟨Json.textsPlain program.globals, Json.textsPlain program.internalNames,
    ScopeOutline.outlinePlain program.scope, trivial⟩

end ProgramOutline

/-- A document that is read as `answer` however it was written and stored. -/
structure ReadsAs {α : Type} (read? : String → Option α) (document : Json) (answer : Option α) : Prop where
  compact : read? document.render = answer
  laidOut : read? document.layOut = answer
  stored : load read? (some document.render.toUTF8) = (answer.map .ok).getD (.error .malformed)

theorem loadText {α : Type} (read? : String → Option α) (content : String) :
    load read? (some content.toUTF8) = ((read? content).map .ok).getD (.error .malformed) := by
  have text : String.fromUTF8? content.toUTF8 = some content := dif_pos content.isValidUTF8
  rw [load, text]
  dsimp only
  cases read? content <;> rfl

theorem readsAs {α : Type} {ofJson? : Json → Option α} {document : Json} (plain : document.Plain) :
    ReadsAs (fun content => (Json.read? content).bind ofJson?) document (ofJson? document) := by
  have compact : (Json.read? document.render).bind ofJson? = ofJson? document := by
    rw [Json.renderReadBack plain, Option.bind_some]
  have laidOut : (Json.read? document.layOut).bind ofJson? = ofJson? document := by
    rw [Json.layOutReadBack plain, Option.bind_some]
  exact ⟨compact, laidOut, (loadText _ _).trans (by rw [compact])⟩

theorem documentsReadBack :
    (∀ options : NameOptions, ReadsAs NameOptions.read? options.toJson (some options)) ∧
      ∀ program : ProgramOutline, ReadsAs ProgramOutline.read? program.toJson
        (if program.scope.depth ≤ 62 then some program else none) := by
  refine ⟨fun options => ?_, fun program => ?_⟩
  · have same : NameOptions.ofJson? options.toJson = some options := NameOptions.optionsInverts 125 options
    exact same ▸ readsAs options.optionsPlain
  · have within : 2 * program.scope.depth + 1 ≤ 125 ↔ program.scope.depth ≤ 62 := by omega
    have same := program.decodeDepth 125
    rw [if_congr within rfl rfl] at same
    exact same ▸ readsAs program.programPlain

end Pseudonym
