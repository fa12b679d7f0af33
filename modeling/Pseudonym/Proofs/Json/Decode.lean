import Pseudonym.Json.Decode
import Pseudonym.Proofs.Json.Reader

/-! Decoders that invert writers. A decoder for the parts of a value gives one for the whole, as long as levels
of nesting are left; a record of all its names is decoded from just the members it was written with. -/
namespace Pseudonym

namespace Json

theorem plainItems {items : List Json} : PlainItems items ↔ ∀ item ∈ items, item.Plain := by
  induction items with
  | nil => simp [PlainItems]
  | cons item items ih => simp [PlainItems, ih]

theorem listPlain {α : Type} {write : α → Json} (plain : ∀ value, (write value).Plain) (items : List α) :
    (ofList write items).Plain := by
  refine plainItems.mpr fun item member => ?_
  obtain ⟨value, _, rfl⟩ := List.mem_map.mp member
  exact plain value

theorem textPlain (content : String) : (ofText content).Plain := trivial

theorem textsPlain (texts : List String) : (ofTexts texts).Plain := listPlain textPlain texts

theorem optionPlain {α : Type} {write : α → Json} (plain : ∀ value, (write value).Plain) (value : Option α) :
    (ofOption write value).Plain := by
  cases value with
  | none => trivial
  | some value => exact plain value

end Json

namespace Decoder

def Inverts {α : Type} (decode : Decoder α) (write : α → Json) (levels : Nat) : Prop :=
  ∀ value, decode levels (write value) = some value

variable {α : Type} {decode : Decoder α} {write : α → Json} {levels : Nat}

theorem textInverts (levels : Nat) : Inverts text Json.ofText levels := fun _ => rfl

theorem boolInverts (levels : Nat) : Inverts bool Json.ofBool levels := fun _ => rfl

theorem uint32Inverts (levels : Nat) : Inverts uint32 (fun value => .ofNat value.toNat) levels := by
  intro value
  simp [uint32, natural, Json.ofNat, value.toNat_lt]

theorem uint64Inverts (levels : Nat) : Inverts uint64 (fun value => .ofNat value.toNat) levels := by
  intro value
  simp [uint64, natural, Json.ofNat, value.toNat_lt]

theorem choiceInverts {ofToken? : String → Option α} {token : α → String}
    (known : ∀ value, ofToken? (token value) = some value) (levels : Nat) :
    Inverts (choice ofToken?) (fun value => .ofText (token value)) levels := known

theorem optionInverts (inverts : Inverts decode write levels) (filled : ∀ value, write value ≠ .null) :
    Inverts (option decode) (Json.ofOption write) levels := by
  intro value
  cases value with
  | none => rfl
  | some value =>
    rw [Json.ofOption, option]
    · rw [inverts value]
      rfl
    · exact filled value

theorem listInverts (inverts : Inverts decode write levels) :
    Inverts (list decode) (Json.ofList write) (levels + 1) := by
  intro items
  rw [Json.ofList, list]
  induction items with
  | nil => rfl
  | cons item items ih => simp [inverts item, ih]

theorem textsInverts (levels : Nat) : Inverts texts Json.ofTexts (levels + 1) := listInverts (textInverts levels)

theorem namedAll {names : List String} {members : Record} (known : ∀ member ∈ members, member.1 ∈ names)
    (distinct : (members.map Prod.fst).Nodup) :
    named names (members.map fun (key, value) => (some key, value)) = some members := by
  induction members with
  | nil => rfl
  | cons member members ih =>
    obtain ⟨here, known⟩ := List.forall_mem_cons.mp known
    obtain ⟨new, distinct⟩ := List.nodup_cons.mp distinct
    have once : members.any (·.1 == member.1) = false := by
      rw [List.any_eq_false]
      intro other inside same
      exact new (List.mem_map.mpr ⟨other, inside, beq_iff_eq.mp same⟩)
    simp [named, ih known distinct, here, once]

theorem recordMembers {names : List String} {inside : Nat → Record → Option α} {members : Record}
    (distinct : names.Nodup) (keys : members.map Prod.fst = names) :
    record names inside (levels + 1) (.record members) = inside levels members := by
  have all := namedAll (fun member among => keys ▸ List.mem_map_of_mem among) (keys ▸ distinct)
  rw [Json.record, record, all]
  rfl

theorem namedMembers {names : List String} {members : List (Option String × Json)} {record : Record}
    (read : named names members = some record) : ∀ member ∈ record, (some member.1, member.2) ∈ members := by
  fun_induction named names members generalizing record with
  | case1 =>
    cases read
    simp
  | case2 => nomatch read
  | case3 key value rest hyp =>
    simp only [Option.bind_eq_bind, Option.bind_eq_some_iff] at read
    obtain ⟨others, readOthers, read⟩ := read
    have inside := hyp readOthers
    split at read
    next unknown =>
      cases read
      exact fun member among => List.mem_cons_of_mem _ (inside member among)
    next =>
      split at read
      next => nomatch read
      next =>
        cases read
        refine List.forall_mem_cons.mpr ⟨List.mem_cons_self, ?_⟩
        exact fun member among => List.mem_cons_of_mem _ (inside member among)

/-- A member whose key is new comes to stand somewhere in the record, among members that are as without it. -/
theorem namedInserted {names : List String} {key : String} (known : key ∈ names) (value : Json)
    {before after : List (Option String × Json)} (new : ∀ member ∈ before ++ after, member.1 ≠ some key) :
    (named names (before ++ after) = none ∧ named names (before ++ (some key, value) :: after) = none) ∨
      ∃ front back, named names (before ++ after) = some (front ++ back) ∧
        named names (before ++ (some key, value) :: after) = some (front ++ (key, value) :: back) := by
  induction before with
  | nil =>
    rw [List.nil_append, List.nil_append, named]
    cases read : named names after with
    | none => exact .inl ⟨rfl, rfl⟩
    | some others =>
      have fresh : others.any (·.1 == key) = false := by
        simp only [List.any_eq_false, beq_iff_eq]
        exact fun member among same => new _ (namedMembers read member among) (same ▸ rfl)
      refine .inr ⟨[], others, rfl, ?_⟩
      simp [known, fresh]
  | cons member before ih =>
    obtain ⟨written, given⟩ := member
    obtain ⟨other, later⟩ := List.forall_mem_cons.mp new
    cases written with
    | none => exact .inl ⟨rfl, rfl⟩
    | some written =>
      rw [List.cons_append, List.cons_append, named, named]
      rcases ih later with ⟨bare, full⟩ | ⟨front, back, bare, full⟩
      · rw [bare, full]
        exact .inl ⟨rfl, rfl⟩
      · have other : (key == written) = false := by
          simpa using fun same : key = written => other (congrArg some same.symm)
        have same : (front ++ (key, value) :: back).any (·.1 == written) = (front ++ back).any (·.1 == written) := by
          simp [other]
        simp only [bare, full, same, Option.bind_eq_bind, Option.bind_some]
        split
        next => exact .inr ⟨front, back, rfl, rfl⟩
        next =>
          split
          next => exact .inl ⟨rfl, rfl⟩
          next => exact .inr ⟨(written, given) :: front, back, rfl, rfl⟩

theorem fieldOther {front back : Record} {key name : String} (value : Json) (other : name ≠ key) (decode : Decoder α)
    (default : α) (levels : Nat) :
    field levels (front ++ (key, value) :: back) name decode default =
      field levels (front ++ back) name decode default := by
  have miss : (name == key) = false := by simpa using other
  simp [field, List.lookup_append, List.lookup_cons, miss]

theorem fieldInserted {front back : Record} {key : String} (value : Json) (new : front.lookup key = none)
    (decode : Decoder α) (default : α) (levels : Nat) :
    field levels (front ++ (key, value) :: back) key decode default = decode levels value := by
  simp [field, List.lookup_append, new]

theorem fieldMissing {members : Record} {key : String} (missing : members.lookup key = none) (decode : Decoder α)
    (default : α) (levels : Nat) : field levels members key decode default = some default := by
  rw [field, missing]

end Decoder
end Pseudonym
