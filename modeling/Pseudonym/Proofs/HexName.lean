import Pseudonym.HexName
import Pseudonym.Proofs.Ledger.Issue

/-! What a request for a hexadecimal name comes to. It goes from width to width until the retries at one of them find
a free name; the width of that name is the one in use from then on, and the widths for other lengths stay. -/
namespace Pseudonym
namespace HexName

def alphabet : List Char := "0123456789abcdef".toList

/-- A lead with `width` hexadecimal digits after it, the first of which is not zero. -/
def Spells (lead : String) (width : Nat) (name : String) : Prop :=
  ∃ first rest, name = lead ++ String.ofList (first :: rest) ∧ (first :: rest).length = width ∧
    (∀ c ∈ first :: rest, c ∈ alphabet) ∧ first ≠ '0'

theorem digitKnown : ∀ n < 16, n.digitChar ∈ alphabet ∧ (0 < n → n.digitChar ≠ '0') := by decide

theorem writtenKnown (n : Nat) : ∀ c ∈ Nat.toDigits 16 n, c ∈ alphabet := by
  induction n using Nat.strongRecOn with
  | ind n ih =>
    rw [Nat.toDigits_eq_if (by decide)]
    split
    · next small => simpa using (digitKnown n small).1
    · intro c member
      rcases List.mem_append.mp member with before | last
      · exact ih (n / 16) (by omega) c before
      · rw [List.mem_singleton.mp last]
        exact (digitKnown (n % 16) (Nat.mod_lt n (by decide))).1

theorem writtenLead {n : Nat} (pos : 0 < n) : (Nat.toDigits 16 n).head? ≠ some '0' := by
  induction n using Nat.strongRecOn with
  | ind n ih =>
    rw [Nat.toDigits_eq_if (by decide)]
    split
    · next small => simpa using (digitKnown n small).2 pos
    · rw [List.head?_append, Option.or_of_isSome (by simp [List.isSome_head?, Nat.toDigits_ne_nil])]
      exact ih (n / 16) (by omega) (by omega)

variable {σ : Type} [RandomSource σ]

theorem digitsDrawn (wanted : Nat) (source : σ) :
    (digits wanted source).1.length = wanted ∧ (∀ c ∈ (digits wanted source).1, c ∈ alphabet) ∧
      (digits wanted source).1.head? ≠ some '0' := by
  fun_induction digits wanted source with
  | case1 source => simp
  | case2 wanted source more drawn after drew written rest last filled ih =>
    simp only [filled] at ih ⊢
    obtain ⟨length, known, _⟩ := ih
    refine ⟨by simp [length]; omega, fun c member => ?_, ?_⟩
    · rcases List.mem_append.mp member with before | later
      · exact writtenKnown _ c (List.mem_of_mem_take before)
      · exact known c later
    -- The digits begin with those of the first integer, which is never zero.
    · have some : 0 < drawn.val := Nat.lt_of_lt_of_le (by decide) drawn.property.1
      have nonempty : (written.take wanted).head? = written.head? := by rw [List.head?_take, if_neg more]
      rw [List.head?_append, nonempty, Option.or_of_isSome (by simp [written, Nat.toDigits_ne_nil])]
      exact writtenLead some

theorem drawSpells (lead : String) {width : Nat} (some : 0 < width) (source : σ) :
    Spells lead width (draw lead width source).1 := by
  obtain ⟨length, known, leading⟩ := digitsDrawn width source
  simp only [draw]
  generalize (digits width source).1 = written at length known leading
  cases written with
  | nil => simp at length; omega
  | cons first rest => exact ⟨first, rest, rfl, length, known, by simpa using leading⟩

/-- Retries at one width after the other, none of which finds a free name. -/
inductive Fruitless (lead label : String) (ledger : Ledger) : Nat → σ → Nat → σ → Prop where
  | none (width : Nat) (source : σ) : Fruitless lead label ledger width source width source
  | wider {width last : Nat} {source middle final : σ} {cause : NameError}
      (failed : ledger.issue label (draw lead width) source = (.error cause, ledger, middle))
      (rest : Fruitless lead label ledger (width + 1) middle last final) :
      Fruitless lead label ledger width source last final

theorem Fruitless.upward {lead label : String} {ledger : Ledger} {width last : Nat} {source final : σ}
    (fruitless : Fruitless lead label ledger width source last final) : width ≤ last := by
  induction fruitless with
  | none => exact Nat.le_refl _
  | wider failed rest ih => omega

theorem widenedSame (widths : Widths) (asked width : Nat) : (widths.widen asked width).width asked = width := by
  simp [Widths.widen, Widths.width]

theorem widenedOther (widths : Widths) {asked other : Nat} (width : Nat) (apart : other ≠ asked) :
    (widths.widen asked width).width other = widths.width other := by
  have different : (other == asked) = false := by simp [apart]
  simp [Widths.widen, Widths.width, List.lookup_cons, different]

/-- What a request does that starts at `width`: it answers at the first width where there is a name to find, and gives
up beyond the greatest. -/
inductive Widens (lead label : String) (asked : Nat) (ledger : Ledger) (width : Nat) (widths : Widths) (source : σ) :
    Except NameError String × Ledger × Widths × σ → Prop where
  | found {last : Nat} {name : String} {widened : Widths} {middle after : σ} (bounded : last ≤ maxWidth)
      (fruitless : Fruitless lead label ledger width source last middle)
      (issued : ledger.issue label (draw lead last) middle = (.ok name, ledger.claim name, after))
      (recorded : widened.width asked = last)
      (others : ∀ other, other ≠ asked → widened.width other = widths.width other) :
      Widens lead label asked ledger width widths source (.ok name, ledger.claim name, widened, after)
  | failed {cause : NameError} {widened : Widths} {after : σ}
      (fruitless : Fruitless lead label ledger width source (maxWidth + 1) after)
      (recorded : widened.width asked = maxWidth)
      (others : ∀ other, other ≠ asked → widened.width other = widths.width other) :
      Widens lead label asked ledger width widths source (.error cause, ledger, widened, after)

variable {lead label : String} {asked width : Nat} {ledger : Ledger} {widths : Widths} {source : σ}

theorem Widens.wider {middle : σ} {cause : NameError} {outcome : Except NameError String × Ledger × Widths × σ}
    (failed : ledger.issue label (draw lead width) source = (.error cause, ledger, middle))
    (rest : Widens lead label asked ledger (width + 1) (widths.widen asked (width + 1)) middle outcome) :
    Widens lead label asked ledger width widths source outcome := by
  have same (other : Nat) (apart : other ≠ asked) := widenedOther widths (width + 1) apart
  cases rest with
  | found bounded fruitless issued recorded others =>
    exact .found bounded (.wider failed fruitless) issued recorded
      fun other apart => (others other apart).trans (same other apart)
  | failed fruitless recorded others =>
    exact .failed (.wider failed fruitless) recorded fun other apart => (others other apart).trans (same other apart)

theorem issueFromWidens (lead label : String) (asked width : Nat) (ledger : Ledger) (widths : Widths) (source : σ)
    (bounded : width ≤ maxWidth) (recorded : widths.width asked = width) :
    Widens lead label asked ledger width widths source
      (issueFrom Ledger.issue lead label asked width ledger widths source) := by
  rw [issueFrom]
  rcases ledger.issueCases (draw lead width) label source with ⟨name, after, issued, _⟩ | ⟨cause, after, failed⟩
  · rw [issued]
    exact .found bounded (.none width source) issued recorded fun _ _ => rfl
  · rw [failed]
    dsimp only
    split
    · next small =>
      refine .wider failed (issueFromWidens lead label asked (width + 1) ledger _ after small ?_)
      exact widenedSame widths asked (width + 1)
    · obtain rfl : width = maxWidth := by omega
      exact .failed (.wider failed (.none _ _)) recorded fun _ _ => rfl
termination_by maxWidth - width

theorem issueWidens (lead label : String) (length : Option Nat) (ledger : Ledger) (widths : Widths) (source : σ)
    (bounded : widths.width (requested length) ≤ maxWidth) :
    Widens lead label (requested length) ledger (widths.width (requested length)) widths source
      (issue Ledger.issue lead label length ledger widths source) :=
  issueFromWidens _ _ _ _ _ _ _ bounded rfl

theorem Widens.elsewhere {outcome : Except NameError String × Ledger × Widths × σ}
    (widens : Widens lead label asked ledger width widths source outcome) {other : Nat} (apart : other ≠ asked) :
    outcome.2.2.1.width other = widths.width other := by
  cases widens with
  | found _ _ _ _ others => exact others other apart
  | failed _ _ others => exact others other apart

theorem Widens.grows {outcome : Except NameError String × Ledger × Widths × σ}
    (widens : Widens lead label asked ledger (widths.width asked) widths source outcome)
    (bounded : widths.width asked ≤ maxWidth) (other : Nat) :
    widths.width other ≤ outcome.2.2.1.width other := by
  by_cases same : other = asked
  · subst same
    cases widens with
    | found _ fruitless _ recorded _ => exact recorded ▸ fruitless.upward
    | failed _ recorded _ => exact recorded ▸ bounded
  · exact Nat.le_of_eq (widens.elsewhere same).symm

theorem Widens.bounded {outcome : Except NameError String × Ledger × Widths × σ}
    (widens : Widens lead label asked ledger width widths source outcome) :
    outcome.2.2.1.width asked ≤ maxWidth := by
  cases widens with
  | found bounded _ _ recorded _ => exact recorded ▸ bounded
  | failed _ recorded _ => exact Nat.le_of_eq recorded

theorem issuedSpells {name : String} {later : Ledger} {after : σ} (some : 0 < width)
    (issued : ledger.issue label (draw lead width) source = (.ok name, later, after)) :
    Spells lead width name ∧ ledger.accepts name = true := by
  rcases Ledger.issueEnds (draw lead width) ledger label source with ⟨k, free, _, found⟩ | ⟨drawn, _, _, _, gaveUp⟩
  · rw [found] at issued
    cases issued
    exact ⟨drawSpells lead some _, free.1⟩
  · rw [gaveUp] at issued
    cases issued

end HexName
end Pseudonym
