import Pseudonym.Proofs.Generator

/-! What a request for a global name draws and what it takes. Bases are drawn one after the other, and every one of
them stays taken; the first that can be answered with the prefix before it is, and of the names that the others
would have become none is taken on that account. -/
namespace Pseudonym
namespace Generator

variable {σ : Type} [RandomSource σ] {length : Option Nat} {generator after last : Generator σ}

theorem nextIssued {name : String} (drawn : generator.next length = (.ok name, after)) :
    generator.ledger.accepts name = true ∧ after.ledger = generator.ledger.claim name := by
  have answers := drawn ▸ generator.nextAnswers length
  cases answers with
  | issued free ledger kind => exact ⟨free, ledger⟩

theorem nextFailed {cause : NameError} (drawn : generator.next length = (.error cause, after)) :
    after.ledger = generator.ledger := by
  have answers := drawn ▸ generator.nextAnswers length
  cases answers with
  | failed ledger kind => exact ledger

/-- Bases drawn in a row without an answer: with `lead` before it, each became another name, and one that the ledger
refused when it held the base. -/
inductive Tried (lead : String) (length : Option Nat) : Generator σ → List String → Generator σ → Prop where
  | nil (generator : Generator σ) : Tried lead length generator [] generator
  | cons {generator after last : Generator σ} {base : String} {bases : List String}
      (drawn : generator.next length = (.ok base, after)) (changed : Ledger.join lead base ≠ base)
      (refused : after.ledger.accepts (Ledger.join lead base) = false)
      (rest : Tried lead length after bases last) : Tried lead length generator (base :: bases) last

namespace Tried

variable {lead : String} {current : Generator σ} {bases : List String}

theorem ledger (tried : Tried lead length generator bases current) :
    current.ledger = generator.ledger.claimAll bases := by
  induction tried with
  | nil => rfl
  | cons drawn changed refused rest ih => rw [ih, (nextIssued drawn).2]; rfl

theorem grows (tried : Tried lead length generator bases current) : generator.ledger.Grows current.ledger :=
  tried.ledger ▸ Ledger.Grows.claimAll _ _

theorem free (tried : Tried lead length generator bases current) :
    ∀ base ∈ bases, generator.ledger.accepts base = true := by
  induction tried with
  | nil => simp
  | cons drawn changed refused rest ih =>
    obtain ⟨here, ledger⟩ := nextIssued drawn
    have later := ledger ▸ ih
    exact List.forall_mem_cons.mpr ⟨here, fun other member => (Ledger.Grows.claim _ _).accepts (later other member)⟩

theorem oneMore {base : String} (tried : Tried lead length generator bases current)
    (drawn : current.next length = (.ok base, after)) (changed : Ledger.join lead base ≠ base)
    (refused : after.ledger.accepts (Ledger.join lead base) = false) :
    Tried lead length generator (bases ++ [base]) after := by
  induction tried with
  | nil => exact .cons drawn changed refused (.nil after)
  | cons first other before rest ih => exact .cons first other before (ih drawn)

theorem claimed (tried : Tried lead length generator bases current) (name : String) :
    name ∈ current.ledger.claimed ↔ name ∈ generator.ledger.claimed ∨ name ∈ bases := by
  rw [tried.ledger, Ledger.memClaimAll, or_comm]

theorem unjoined (tried : Tried lead length generator bases current) {earlier later : List String} {base : String}
    (drawn : bases = earlier ++ base :: later) (taken : Ledger.join lead base ∈ current.ledger.claimed) :
    Ledger.join lead base ∈ generator.ledger.claimed ∨ Ledger.join lead base ∈ earlier ++ [base] := by
  induction tried generalizing earlier with
  | nil => simp at drawn
  | @cons generator after last first bases issued changed refused rest ih =>
    obtain ⟨_, ledger⟩ := nextIssued issued
    cases earlier with
    | nil =>
      obtain ⟨rfl, rfl⟩ := List.cons.inj drawn
      rcases (rest.claimed _).mp taken with before | again
      · rw [ledger, Ledger.memClaim] at before
        exact before.symm.imp_right fun same => List.mem_singleton.mpr same.symm
      -- A base that comes later was free then, and this name was refused already.
      · exact absurd (rest.free _ again) (by simp [refused])
    | cons other earlier =>
      obtain ⟨rfl, more⟩ := List.cons.inj drawn
      rcases ih more taken with before | inside
      · rw [ledger, Ledger.memClaim] at before
        exact before.symm.imp_right fun same => by rw [← same]; exact List.mem_cons_self
      · exact .inr (List.mem_cons_of_mem _ inside)

end Tried

structure GlobalAnswer (generator : Generator σ) (bases : List String) (base name : String) (last : Generator σ) :
    Prop where
  joined : name = Ledger.join generator.ledger.globalPrefix base
  leads : generator.ledger.globalPrefix.toList <+: name.toList
  formed : Identifier.isWellFormed name = true
  untaken : generator.ledger.isTaken name = false
  claimed : ∀ other, other ∈ last.ledger.claimed ↔
    other ∈ generator.ledger.claimed ∨ other ∈ bases ++ [base] ∨ other = name

/-- What a failed request for a global name has done. A base may be the name that a later one becomes, and is then
taken as a base; beyond such names, whatever a base became is taken only if it was before. -/
structure GlobalFailure (generator : Generator σ) (bases : List String) (last : Generator σ) : Prop where
  claimed : ∀ other, other ∈ last.ledger.claimed ↔ other ∈ generator.ledger.claimed ∨ other ∈ bases
  unjoined : ∀ earlier base later, bases = earlier ++ base :: later →
    Ledger.join generator.ledger.globalPrefix base ∈ last.ledger.claimed →
    Ledger.join generator.ledger.globalPrefix base ∈ generator.ledger.claimed ∨
      Ledger.join generator.ledger.globalPrefix base ∈ earlier ++ [base]

/-- How a request for a global name ends. It is given up after a base that cannot be answered with, or fails where
no base is drawn any more. -/
inductive GlobalEnds (length : Option Nat) (generator : Generator σ) :
    Except NameError String × Generator σ → Prop where
  | answered {bases : List String} {base name : String} {current after last : Generator σ}
      (tried : Tried generator.ledger.globalPrefix length generator bases current)
      (drawn : current.next length = (.ok base, after)) (answer : GlobalAnswer generator bases base name last) :
      GlobalEnds length generator (.ok name, last)
  | failed {bases : List String} {cause : NameError} {current last : Generator σ}
      (tried : Tried generator.ledger.globalPrefix length generator bases current)
      (ended : last = current ∨ current.next length = (.error cause, last))
      (failure : GlobalFailure generator bases last) : GlobalEnds length generator (.error cause, last)

section

variable {bases : List String} {current : Generator σ}

theorem Tried.fails (tried : Tried generator.ledger.globalPrefix length generator bases current)
    (ledger : last.ledger = current.ledger) : GlobalFailure generator bases last :=
  ⟨fun other => ledger ▸ tried.claimed other, fun _ _ _ drawn taken => tried.unjoined drawn (ledger ▸ taken)⟩

theorem Tried.answers {base name : String}
    (tried : Tried generator.ledger.globalPrefix length generator bases current)
    (drawn : current.next length = (.ok base, after)) (joined : name = Ledger.join generator.ledger.globalPrefix base)
    (free : generator.ledger.accepts name = true)
    (claimed : ∀ other, other ∈ last.ledger.claimed ↔ other ∈ after.ledger.claimed ∨ other = name) :
    GlobalAnswer generator bases base name last := by
  obtain ⟨formed, untaken⟩ := Bool.and_eq_true_iff.mp free
  refine ⟨joined, joined ▸ Ledger.joinLeads .., formed, by simpa using untaken, fun other => ?_⟩
  have drawn : other ∈ after.ledger.claimed ↔ other ∈ generator.ledger.claimed ∨ other ∈ bases ++ [base] := by
    rw [(nextIssued drawn).2, Ledger.memClaim, tried.claimed, List.mem_append, List.mem_singleton, eq_comm,
      or_left_comm, or_comm (a := other = base)]
  rw [claimed, drawn, or_assoc]

theorem Tried.joins (tried : Tried generator.ledger.globalPrefix length generator bases current) {base : String}
    (drawn : current.next length = (.ok base, after)) :
    after.ledger.prefixed base = Ledger.join generator.ledger.globalPrefix base := by
  rw [Ledger.prefixed, (nextIssued drawn).2, ← tried.grows.globalPrefix]
  rfl

theorem Tried.missed (tried : Tried generator.ledger.globalPrefix length generator bases current)
    (missed : (attemptGlobal length current).1.Missed) :
    ∃ more, Tried generator.ledger.globalPrefix length generator more (attemptGlobal length current).2 := by
  rcases drawn : current.next length with ⟨⟨cause⟩ | base, after⟩
  · simp [attemptGlobal, joinBase, drawn, Attempt.Missed] at missed
  · simp only [attemptGlobal, joinBase, drawn, tried.joins drawn] at missed ⊢
    split at missed
    · exact missed.elim
    · next changed =>
      rw [if_neg changed]
      split at missed
      · exact missed.elim
      · next refused =>
        rw [if_neg refused]
        have more := tried.oneMore drawn changed (Bool.not_eq_true _ ▸ refused)
        split <;> exact ⟨_, more⟩

theorem Tried.settled (tried : Tried generator.ledger.globalPrefix length generator bases current)
    {answer : Except NameError String} (settled : (attemptGlobal length current).1 = .settled answer) :
    GlobalEnds length generator (answer, (attemptGlobal length current).2) := by
  rcases drawn : current.next length with ⟨⟨cause⟩ | base, after⟩
  · simp only [attemptGlobal, joinBase, drawn, Attempt.settled.injEq] at settled ⊢
    subst settled
    exact .failed tried (.inr drawn) (tried.fails (nextFailed drawn))
  · obtain ⟨issued, ledger⟩ := nextIssued drawn
    simp only [attemptGlobal, joinBase, drawn, tried.joins drawn] at settled ⊢
    split at settled
    · next same =>
      cases settled
      rw [if_pos same]
      refine .answered tried drawn (tried.answers drawn same.symm (tried.grows.accepts issued) fun other => ?_)
      rw [ledger, Ledger.memClaim]
      exact (or_iff_left_of_imp fun same => .inl same.symm).symm
    · next changed =>
      rw [if_neg changed]
      split at settled
      · next free =>
        cases settled
        rw [if_pos free]
        have grows : generator.ledger.Grows after.ledger :=
          tried.grows.trans (ledger ▸ Ledger.Grows.claim _ _)
        refine .answered tried drawn (tried.answers drawn rfl (grows.accepts free) fun other => ?_)
        rw [preserve, Ledger.memClaim, or_comm, eq_comm]
      · split at settled <;> cases settled

end

theorem globalNamesJoined (generator : Generator σ) (length : Option Nat) :
    GlobalEnds length generator (generator.forGlobal length) := by
  let Before (current : Generator σ) : Prop :=
    ∃ bases, Tried generator.ledger.globalPrefix length generator bases current
  let After (answer : Except NameError String) (last : Generator σ) : Prop :=
    GlobalEnds length generator (answer, last)
  have misses (current : Generator σ) (before : Before current) (missed : (attemptGlobal length current).1.Missed) :
      Before (attemptGlobal length current).2 := by
    obtain ⟨bases, tried⟩ := before
    exact tried.missed missed
  have settles (current : Generator σ) (answer : Except NameError String) (before : Before current)
      (settled : (attemptGlobal length current).1 = .settled answer) :
      After answer (attemptGlobal length current).2 := by
    obtain ⟨bases, tried⟩ := before
    exact tried.settled settled
  have givesUp (tally : Tally) (current : Generator σ) (before : Before current) :
      After (.error (Ledger.exhausted generator.kind.token tally)) current := by
    obtain ⟨bases, tried⟩ := before
    exact .failed tried (.inl rfl) (tried.fails rfl)
  exact Retry.retryKeeps misses settles givesUp .zero generator ⟨[], .nil generator⟩

end Generator
end Pseudonym
