import Pseudonym.Proofs.Mangling.Endless
import Pseudonym.Proofs.Plan.Kept
import Pseudonym.Proofs.Plan.Site

/-! What a fresh mangler plans. It goes once through the names in their order and leaves out those that somebody
has; the rest it deals to the places that need a new name, in the order in which the plan walks. -/
namespace Pseudonym
namespace Mangling
open Session

variable {σ : Type} {generator : Generator σ} {alphabets : Alphabets} {first : Ledger} {position : Nat}
  {names : List String}

/-- A generator without a prefix that has come to `position` from a ledger, and what it issued on the way. -/
structure Swept (alphabets : Alphabets) (first : Ledger) (generator : Generator σ) (position : Nat)
    (names : List String) : Prop where
  state : generator.counter? = some (alphabets, position)
  bare : generator.ledger.globalPrefix = ""
  ahead : ∀ i ≥ position, generator.ledger.accepts (alphabets.name i) = first.accepts (alphabets.name i)
  issued : names = ((List.range position).map alphabets.name).filter first.accepts

variable [RandomSource σ]

theorem bareGlobal (bare : generator.ledger.globalPrefix = "") (length : Option Nat) :
    generator.forGlobal length = generator.next length := by
  have settled : Generator.attemptGlobal length generator =
      (.settled (generator.next length).1, (generator.next length).2) := by
    have grows := (generator.nextAnswers length).grows
    unfold Generator.attemptGlobal
    generalize generator.next length = outcome at grows ⊢
    obtain ⟨answer, after⟩ := outcome
    cases answer with
    | error cause => rfl
    | ok base =>
      have same : after.ledger.prefixed base = base := by
        rw [Ledger.prefixed, grows.globalPrefix, bare]
        rfl
      simp only [Generator.joinBase, same, if_true]
  rw [Generator.forGlobal, retry, settled]

theorem Swept.next (swept : Swept alphabets first generator position names) (proper : alphabets.Proper)
    {length : Option Nat} {name : String} (answer : (generator.next length).1 = .ok name) :
    ∃ later, Swept alphabets first (generator.next length).2 later (names ++ [name]) := by
  have yields := nextYields swept.state length
  generalize generator.next length = outcome at answer yields ⊢
  cases yields with
  | gaveUp => cases answer
  | @found n after refused free ledger state =>
    cases answer
    have here (i : Nat) : generator.ledger.accepts (alphabets.name (position + i)) =
        first.accepts (alphabets.name (position + i)) := swept.ahead _ (Nat.le_add_right ..)
    refine ⟨position + n + 1, state, ?_, fun i later => ?_, ?_⟩
    · rw [ledger]
      exact swept.bare
    · have other : alphabets.name (position + n) ≠ alphabets.name i := fun same =>
        absurd (Alphabets.nameInjective proper same) (by omega)
      rw [ledger, Ledger.acceptsApart other]
      exact swept.ahead i (by omega)
    · have skipped : ((List.range n).map (position + ·)).filter (first.accepts ∘ alphabets.name) = [] := by
        refine List.filter_eq_nil_iff.mpr fun i member => ?_
        obtain ⟨offset, small, rfl⟩ := List.mem_map.mp member
        rw [Function.comp_apply, ← here, refused offset (List.mem_range.mp small)]
        exact Bool.false_ne_true
      have issued := swept.issued
      rw [List.filter_map] at issued ⊢
      rw [List.range_succ, List.filter_append, List.range_add, List.filter_append, skipped, List.append_nil,
        List.map_append, ← issued, List.filter_singleton, Function.comp_apply, ← here, free]
      rfl

theorem Swept.performed (swept : Swept alphabets first generator position names) {call : Call}
    (makes : call.Makes generator.kind) : ∃ length, call.perform generator = generator.next length := by
  cases call with
  | next length | lexical scope length => exact ⟨length, rfl⟩
  | global length => exact ⟨length, bareGlobal swept.bare length⟩
  | label label length => exact ⟨length, Generator.labelMade makes label length⟩
  | preserve name => exact makes.elim

theorem Swept.follow (swept : Swept alphabets first generator position names) (proper : alphabets.Proper)
    {calls : List Call} (makes : ∀ call ∈ calls, call.Makes generator.kind)
    (answered : (follow generator calls).fault = none) :
    ∃ later, Swept alphabets first (follow generator calls).generator later
      (names ++ (follow generator calls).events.filterMap (·.issued generator.kind)) := by
  induction calls generalizing generator position names with
  | nil => exact ⟨position, by simpa [Session.follow] using swept⟩
  | cons call rest ih =>
    obtain ⟨here, after⟩ := List.forall_mem_cons.mp makes
    obtain ⟨length, performed⟩ := swept.performed here
    have kind := (recordSound generator call).2
    simp only [Session.follow] at answered ⊢
    split at answered
    · cases answered
    · next name answer =>
      have given : (generator.next length).1 = .ok name := performed ▸ answer
      obtain ⟨between, stepped⟩ := swept.next proper given
      rw [← performed] at stepped
      change Swept alphabets first (record generator call).2 between _ at stepped
      obtain ⟨later, last⟩ := ih stepped (kind.symm ▸ after) answered
      refine ⟨later, ?_⟩
      dsimp only
      rw [List.filterMap_cons_some (issuedIff.mpr ⟨here, answer⟩), List.append_cons, ← kind]
      exact last

theorem requestsMake {kind : Kind} (made : kind ≠ .keepOriginal) (options : PlanOptions) (tree : ScopeTree) :
    ∀ call ∈ Plan.requests kind options tree, call.Makes kind := by
  intro call member
  rcases List.mem_append.mp member with placed | helper
  · obtain ⟨site, _, inside⟩ := List.mem_flatMap.mp placed
    rcases List.mem_append.mp inside with bound | labelled
    · obtain ⟨name, _, asked⟩ := List.mem_filterMap.mp bound
      unfold Plan.bindingCall at asked
      split at asked
      · cases asked
      · split at asked <;> cases asked <;> trivial
    · obtain ⟨label, _, rfl⟩ := List.mem_map.mp labelled
      exact made
  · obtain ⟨name, _, rfl⟩ := List.mem_map.mp helper
    trivial

theorem planSweeps (proper : alphabets.Proper) (ready : Ready alphabets generator)
    (fresh : generator.counter? = some (alphabets, 0)) (bare : generator.ledger.globalPrefix = "")
    (made : generator.kind ≠ .keepOriginal) (tree : ScopeTree) (options : PlanOptions) :
    ∃ result bound, (plan tree generator options).1 = .ok result ∧
      Plan.Complete generator.kind options tree result ∧
      (Plan.made generator.kind options tree result).map Prod.snd = ((List.range bound).map alphabets.name).filter
        (generator.ledger.claimAll (Plan.preserved generator.kind options tree)).accepts := by
  obtain ⟨result, planned⟩ := ready.plans proper tree options
  obtain ⟨ledger, strategy⟩ := generator.preserveAllKeeps (Plan.preserved generator.kind options tree)
  have kind := generator.preserveAllKind (Plan.preserved generator.kind options tree)
  have follows := Plan.planRequests tree generator options
  generalize generator.preserveAll (Plan.preserved generator.kind options tree) = start at ledger strategy kind follows
  have state : start.counter? = some (alphabets, 0) := by
    rw [Generator.counter?, strategy]
    exact fresh
  have begun : Swept alphabets start.ledger start 0 [] := by
    refine ⟨state, ?_, fun _ _ => rfl, rfl⟩
    rw [ledger, (Ledger.Grows.claimAll generator.ledger _).globalPrefix, bare]
  have makes : ∀ call ∈ Plan.requests generator.kind options tree, call.Makes start.kind := by
    rw [kind]
    exact requestsMake made options tree
  have swept := begun.follow proper makes
  generalize follow start (Plan.requests generator.kind options tree) = progress at follows swept
  generalize plan tree generator options = outcome at planned follows ⊢
  cases follows with
  | failed => cases planned
  | done good =>
    cases planned
    obtain ⟨bound, last⟩ := swept rfl
    have issued := last.issued
    rw [List.nil_append, kind, good.2, ledger] at issued
    exact ⟨result, bound, rfl, good.1, issued⟩

/-- The names that a plan over `ledger` gives to nothing new. -/
def avoided (ledger : Ledger) (options : PlanOptions) (tree : ScopeTree) : List String :=
  Identifier.reservedWords ++ tree.globals.toList ++ options.reserved ++
    ((Plan.numbered tree).flatMap fun (id, scope) => scope.bindings.filter (Plan.keeps .mangled options id scope)) ++
    ledger.reserved.toList

theorem avoidedIff {ledger : Ledger} {options : PlanOptions} {tree : ScopeTree} {name : String} :
    name ∈ avoided ledger options tree ↔
      name ∈ Identifier.reservedWords ∨ name ∈ Plan.preserved .mangled options tree ∨ name ∈ ledger.reserved := by
  simp only [avoided, Plan.preserved, List.mem_append, Std.TreeSet.mem_toList, or_assoc]

theorem acceptsUnavoided {ledger : Ledger} (unclaimed : ∀ name, name ∉ ledger.claimed) (options : PlanOptions)
    (tree : ScopeTree) (i : Nat) :
    (ledger.claimAll (Plan.preserved .mangled options tree)).accepts (Alphabets.standard.name i) =
      decide (Alphabets.standard.name i ∉ avoided ledger options tree) := by
  have grammatical := Alphabets.nameGrammatical Alphabets.standardProper i
  rw [Bool.eq_iff_iff, Ledger.acceptsIff, Identifier.wellFormedIff, Ledger.memClaimAll,
    (Ledger.Grows.claimAll ledger _).reserved, decide_eq_true_iff, avoidedIff]
  simp only [grammatical, unclaimed, true_and, or_false, not_or]
  exact and_congr_right fun _ => and_comm

/-- A tree built by calls, whatever they are, names nothing twice in one scope; that is all it has to be. -/
theorem planSweepsNames (calls : List ScopeTree.Call) (options : PlanOptions) {ledger : Ledger}
    (unclaimed : ∀ name, name ∉ ledger.claimed) (bare : ledger.globalPrefix = "")
    (patient : Identifier.reservedWords.length < ledger.maxAttempts) {source : σ} {entries : List String}
    {order : DrawOrder} {fresh : Generator σ}
    (built : Generator.create .mangled ledger source entries order = .ok fresh) :
    ∃ result bound, (plan (ScopeTree.empty.extendAll calls) fresh options).1 = .ok result ∧
      (Plan.sites .mangled options (ScopeTree.empty.extendAll calls)).map result.nameAt =
        (((List.range bound).map Alphabets.standard.name).filter
          (· ∉ avoided ledger options (ScopeTree.empty.extendAll calls))).map some := by
  have kind : fresh.kind = .mangled := Generator.createKind built
  obtain ⟨alphabets, _, standard, same, counts⟩ := createdCounts (.inl rfl) built
  cases standard rfl
  have ready : Ready .standard fresh := ⟨⟨0, counts.state⟩, same ▸ patient, same ▸ .inl bare⟩
  have makes : fresh.kind ≠ .keepOriginal := by simp [kind]
  obtain ⟨result, bound, planned, complete, swept⟩ := planSweeps Alphabets.standardProper ready counts.state
    (same ▸ bare) makes (ScopeTree.empty.extendAll calls) options
  rw [kind] at complete swept
  refine ⟨result, bound, planned, ?_⟩
  have given := Plan.madeNamed complete (ScopeTree.listedOnce calls)
  have unavoided : ((List.range bound).map Alphabets.standard.name).filter
        (fresh.ledger.claimAll (Plan.preserved .mangled options (ScopeTree.empty.extendAll calls))).accepts =
      ((List.range bound).map Alphabets.standard.name).filter
        (· ∉ avoided ledger options (ScopeTree.empty.extendAll calls)) := by
    refine List.filter_congr fun name member => ?_
    obtain ⟨i, _, rfl⟩ := List.mem_map.mp member
    rw [same]
    exact acceptsUnavoided unclaimed options _ i
  have mangles : Kind.mangled ≠ .keepOriginal := nofun
  rw [← unavoided, ← swept, ← Plan.madeSites mangles complete, List.map_map, List.map_map]
  exact List.map_congr_left given

/-- Names that a mangler makes are taken in each way there is: by the program, its user and the session. -/
def takenLog : List ScopeTree.Call :=
  [.reference "a", .binding "f" 0, .scope .function 0, .scope .block 1, .label "loop" 2, .variable "late" 2,
    .binding "early" 1, .binding "b" 1, .binding "late" 2]

def takenOptions : PlanOptions := {reserved := ["b", "c"], internalNames := ["helper", "other", "helper"]}

def takenMangler : Generator Script :=
  ⟨(Ledger.empty.withReserved ["d", "e"]).withMaxAttempts 52, .lowest, .mangled 0⟩

theorem takenNamesSwept :
    ((∀ name, name ∉ takenMangler.ledger.claimed) ∧ takenMangler.ledger.globalPrefix = "" ∧
        Identifier.reservedWords.length < takenMangler.ledger.maxAttempts ∧
        Generator.create .mangled takenMangler.ledger Script.lowest [] .sequential = .ok takenMangler) ∧
      ∃ result bound, (plan (ScopeTree.empty.extendAll takenLog) takenMangler takenOptions).1 = .ok result ∧
        (Plan.sites .mangled takenOptions (ScopeTree.empty.extendAll takenLog)).map result.nameAt =
          (((List.range bound).map Alphabets.standard.name).filter
            (· ∉ avoided takenMangler.ledger takenOptions (ScopeTree.empty.extendAll takenLog))).map some := by
  have unclaimed : ∀ name, name ∉ takenMangler.ledger.claimed := fun _ => Std.TreeSet.not_mem_emptyc
  have patient : Identifier.reservedWords.length < takenMangler.ledger.maxAttempts := by decide
  have built : Generator.create .mangled takenMangler.ledger Script.lowest [] .sequential = .ok takenMangler := rfl
  exact ⟨⟨unclaimed, rfl, patient, built⟩, planSweepsNames takenLog takenOptions unclaimed rfl patient built⟩

end Mangling
end Pseudonym
