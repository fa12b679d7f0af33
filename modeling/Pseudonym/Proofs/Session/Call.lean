import Pseudonym.Proofs.Generator

/-! Sessions as calls to one generator. Every call leaves an event behind: the ledger it found, what it
answered and the ledger it left. The events of a session make a chain, and what is known of a chain is
known of every session, however its calls are mixed and however many of them fail. -/
namespace Pseudonym
namespace Session

inductive Call where
  | next (length : Option Nat)
  | global (length : Option Nat)
  | lexical (scope : ScopeId) (length : Option Nat)
  | label (label : String) (length : Option Nat)
  | preserve (name : String)
  deriving DecidableEq, Repr

/-- Whether a call asks for a name nobody has yet. Labels stay as they are where all names are kept. -/
def Call.Makes (kind : Kind) : Call → Prop
  | .next _ | .global _ | .lexical _ _ => True
  | .label _ _ => kind ≠ .keepOriginal
  | .preserve _ => False

instance (kind : Kind) : (call : Call) → Decidable (call.Makes kind)
  | .next _ | .global _ | .lexical _ _ => .isTrue trivial
  | .label _ _ => inferInstanceAs (Decidable (kind ≠ .keepOriginal))
  | .preserve _ => .isFalse id

structure Event where
  call : Call
  before : Ledger
  answer : Except NameError String
  after : Ledger

/- A name that a caller brings, preserved or put aside, is its own answer. -/
def Call.perform {σ : Type} [RandomSource σ] (call : Call) (generator : Generator σ) :
    Except NameError String × Generator σ :=
  match call with
  | .next length => generator.next length
  | .global length => generator.forGlobal length
  | .lexical scope length => generator.forScope scope length
  | .label name length => generator.forLabel name length
  | .preserve name => (.ok name, generator.preserve name)

def Event.issued (kind : Kind) (event : Event) : Option String :=
  if event.call.Makes kind then event.answer.toOption else none

structure Event.Sound (kind : Kind) (event : Event) : Prop where
  grows : event.before.Grows event.after
  claimed : ∀ name, event.answer = .ok name → name ∈ event.after.claimed
  fresh : ∀ name, event.issued kind = some name → event.before.accepts name = true

theorem issuedIff {kind : Kind} {event : Event} {name : String} :
    event.issued kind = some name ↔ event.call.Makes kind ∧ event.answer = .ok name := by
  rw [Event.issued, Option.ite_none_right_eq_some, toOptionIff]

theorem notIssued {kind : Kind} {event : Event} (verbatim : ¬event.call.Makes kind) : event.issued kind = none :=
  if_neg verbatim

inductive Chain (kind : Kind) : Ledger → List Event → Ledger → Prop where
  | nil (ledger : Ledger) : Chain kind ledger [] ledger
  | cons {event : Event} {events : List Event} {last : Ledger} (sound : event.Sound kind)
      (rest : Chain kind event.after events last) : Chain kind event.before (event :: events) last

namespace Chain

variable {kind : Kind} {first middle last : Ledger} {events others : List Event}

theorem append (early : Chain kind first events middle) (late : Chain kind middle others last) :
    Chain kind first (events ++ others) last := by
  induction early with
  | nil => exact late
  | cons sound rest ih => exact .cons sound (ih late)

theorem grows (chain : Chain kind first events last) : first.Grows last := by
  induction chain with
  | nil => exact .refl _
  | cons sound rest ih => exact sound.grows.trans ih

theorem ofMember {event : Event} (chain : Chain kind first events last) (member : event ∈ events) :
    first.Grows event.before ∧ event.Sound kind ∧ event.after.Grows last := by
  induction chain with
  | nil => simp at member
  | @cons head tail last sound rest ih =>
    rcases List.mem_cons.mp member with rfl | later
    · exact ⟨.refl _, sound, rest.grows⟩
    · obtain ⟨before, here, after⟩ := ih later
      exact ⟨sound.grows.trans before, here, after⟩

theorem ordered (chain : Chain kind first events last) :
    events.Pairwise fun earlier later =>
      earlier.Sound kind ∧ later.Sound kind ∧ earlier.after.Grows later.before := by
  induction chain with
  | nil => exact .nil
  | cons sound rest ih =>
    refine .cons (fun later member => ?_) ih
    obtain ⟨before, here, _⟩ := rest.ofMember member
    exact ⟨sound, here, before⟩

/-- No name is issued that was answered before, and none that the first ledger had. -/
theorem issuedNodup (chain : Chain kind first events last) :
    (events.filterMap (·.issued kind)).Nodup ∧
      ∀ name ∈ events.filterMap (·.issued kind), first.accepts name = true := by
  -- A name issued later was free all the time before, and so at this event and at its answer.
  induction chain with
  | nil => simp
  | @cons event events last sound rest ih =>
    obtain ⟨distinct, fresh⟩ := ih
    have later (name : String) (member : name ∈ events.filterMap (·.issued kind)) :
        event.before.accepts name = true := sound.grows.accepts (fresh name member)
    cases issued : event.issued kind with
    | none => simpa [issued] using ⟨distinct, by simpa using later⟩
    | some name =>
      have here := sound.fresh name issued
      rw [List.filterMap_cons_some issued]
      refine ⟨List.nodup_cons.mpr ⟨fun again => ?_, distinct⟩, ?_⟩
      · have claimed := sound.claimed name (issuedIff.mp issued).2
        exact (Ledger.acceptsIff.mp (fresh name again)).2.2 claimed
      · intro other member
        rcases List.mem_cons.mp member with rfl | inside
        · exact here
        · exact later other inside

end Chain

section

variable {σ : Type} [RandomSource σ]

def record (generator : Generator σ) (call : Call) : Event × Generator σ :=
  (⟨call, generator.ledger, (call.perform generator).1, (call.perform generator).2.ledger⟩,
    (call.perform generator).2)

theorem answersSound {generator : Generator σ} {call : Call}
    (answers : generator.Answers (call.perform generator)) : (record generator call).1.Sound generator.kind := by
  refine ⟨answers.grows, fun name same => ?_, fun name same => ?_⟩
  · simp only [record] at same ⊢
    generalize call.perform generator = outcome at answers same ⊢
    cases answers with
    | issued free ledger kind =>
      cases same
      exact ledger ▸ Ledger.memClaim.mpr (.inl rfl)
    | failed ledger kind => cases same
  · have ok := (issuedIff.mp same).2
    simp only [record] at ok ⊢
    generalize call.perform generator = outcome at answers ok
    cases answers with
    | issued free ledger kind => cases ok; exact free
    | failed ledger kind => cases ok

theorem preserveSound (generator : Generator σ) (call : Call) (name : String)
    (verbatim : ¬call.Makes generator.kind) (answer : call.perform generator = (.ok name, generator.preserve name)) :
    (record generator call).1.Sound generator.kind := by
  refine ⟨?_, fun other same => ?_, fun other same => ?_⟩
  · simpa only [record, answer, Generator.preserve] using Ledger.Grows.claim generator.ledger name
  · simp only [record, answer, Except.ok.injEq] at same ⊢
    exact same ▸ Ledger.memClaim.mpr (.inl rfl)
  · exact absurd (issuedIff.mp same).1 verbatim

theorem recordSound (generator : Generator σ) (call : Call) :
    (record generator call).1.Sound generator.kind ∧ (record generator call).2.kind = generator.kind := by
  cases call with
  | next length => exact ⟨answersSound (generator.nextAnswers length), (generator.nextAnswers length).sameKind⟩
  | lexical scope length =>
    exact ⟨answersSound (generator.nextAnswers length), (generator.nextAnswers length).sameKind⟩
  | global length =>
    obtain ⟨grows, names⟩ := generator.globalGrows length
    refine ⟨⟨grows, fun name same => (names name same).2, fun name same => ?_⟩, generator.globalKind length⟩
    exact (names name (issuedIff.mp same).2).1
  | label label length =>
    by_cases keep : generator.kind = .keepOriginal
    · have answer : (Call.label label length).perform generator = (.ok label, generator.preserve label) := by
        simp [Call.perform, Generator.forLabel, keep]
      have same : (record generator (.label label length)).2.kind = generator.kind := by
        simp [record, answer, Generator.preserve, Generator.kind]
      exact ⟨preserveSound generator _ label (fun makes => makes keep) answer, same⟩
    · have answer : (Call.label label length).perform generator = generator.next length :=
        Generator.labelMade keep label length
      have answers := generator.nextAnswers length
      exact ⟨answersSound (answer ▸ answers), by simpa [record, answer] using answers.sameKind⟩
  | preserve name => exact ⟨preserveSound generator _ name id rfl, rfl⟩

theorem recordKeeps {Holds : Generator σ → Prop}
    (nexts : ∀ generator length, Holds generator → Holds (generator.next length).2)
    (preserves : ∀ generator name, Holds generator → Holds (generator.preserve name))
    (generator : Generator σ) (call : Call) (holds : Holds generator) : Holds (record generator call).2 := by
  cases call with
  | next length => exact nexts generator length holds
  | lexical scope length => exact nexts generator length holds
  | global length => exact Generator.globalKeeps nexts preserves generator length holds
  | label label length =>
    simp only [record, Call.perform, Generator.forLabel]
    split
    · exact preserves generator label holds
    · exact nexts generator length holds
  | preserve name => exact preserves generator name holds

structure Progress (σ : Type) where
  events : List Event
  fault : Option NameError
  generator : Generator σ

def follow (generator : Generator σ) : List Call → Progress σ
  | [] => ⟨[], none, generator⟩
  | call :: rest =>
      let (event, after) := record generator call
      match event.answer with
      | .error cause => ⟨[event], some cause, after⟩
      | .ok _ =>
          let later := follow after rest
          ⟨event :: later.events, later.fault, later.generator⟩

theorem followChain (generator : Generator σ) (calls : List Call) :
    Chain generator.kind generator.ledger (follow generator calls).events
        (follow generator calls).generator.ledger ∧
      (follow generator calls).generator.kind = generator.kind := by
  induction calls generalizing generator with
  | nil => exact ⟨.nil _, rfl⟩
  | cons call rest ih =>
    obtain ⟨sound, kind⟩ := recordSound generator call
    obtain ⟨chain, same⟩ := ih (record generator call).2
    simp only [follow]
    split
    · exact ⟨.cons sound (.nil _), kind⟩
    · exact ⟨.cons sound (kind ▸ chain), same.trans kind⟩

theorem followKeeps {Holds : Generator σ → Prop}
    (nexts : ∀ generator length, Holds generator → Holds (generator.next length).2)
    (preserves : ∀ generator name, Holds generator → Holds (generator.preserve name))
    (generator : Generator σ) (calls : List Call) (holds : Holds generator) :
    Holds (follow generator calls).generator := by
  induction calls generalizing generator with
  | nil => exact holds
  | cons call rest ih =>
    have after := recordKeeps nexts preserves generator call holds
    simp only [follow]
    split
    · exact after
    · exact ih _ after

theorem followAnswers {Holds : Generator σ → Prop}
    (nexts : ∀ generator length, Holds generator → Holds (generator.next length).2)
    (preserves : ∀ generator name, Holds generator → Holds (generator.preserve name))
    (answers : ∀ generator (call : Call), Holds generator → ∃ name, (call.perform generator).1 = .ok name)
    (generator : Generator σ) (calls : List Call) (holds : Holds generator) :
    (follow generator calls).fault = none := by
  induction calls generalizing generator with
  | nil => rfl
  | cons call rest ih =>
    obtain ⟨name, answer⟩ := answers generator call holds
    have answered : (record generator call).1.answer = .ok name := answer
    simp only [follow, answered]
    exact ih _ (recordKeeps nexts preserves generator call holds)

theorem followAppend (generator : Generator σ) (calls others : List Call) :
    follow generator (calls ++ others) =
      match (follow generator calls).fault with
      | some _ => follow generator calls
      | none =>
          let later := follow (follow generator calls).generator others
          ⟨(follow generator calls).events ++ later.events, later.fault, later.generator⟩ := by
  induction calls generalizing generator with
  | nil => rfl
  | cons call rest ih =>
    simp only [List.cons_append, follow]
    split
    · rfl
    · rw [ih]
      cases fault : (follow (record generator call).2 rest).fault <;> simp [fault]

end
end Session
end Pseudonym
