import Mathlib.Data.List.Permutation
import Mathlib.Data.Set.Card
import Pseudonym.Proofs.Random.Shuffle
import Pseudonym.Random.Scripted

/-! What a shuffle draws and what its draws decide. Where a shuffle is left to the integers of a source, it asks for one
integer per place, from the last place down to the second, and between zero and that place. Distinct items come into
each of their arrangements by exactly one sequence of such draws. -/
namespace Pseudonym

/-- A source of which the integers alone are used. It notes the bounds it is asked for and what it draws. -/
structure Noted (σ : Type) where
  source : σ
  bounds : List (Nat × Nat)
  drawn : List Nat

instance {σ : Type} [RandomSource σ] : RandomSource (Noted σ) where
  between noted low high ordered :=
    let (drawn, source) := RandomSource.between noted.source low high ordered
    (drawn, ⟨source, noted.bounds ++ [(low, high)], noted.drawn ++ [drawn.val]⟩)

/-- Integers fixed beforehand, each moved to the nearer bound where it lies outside. -/
structure Foretold where
  integers : List Nat

instance : RandomSource Foretold where
  between foretold low high ordered :=
    (⟨max low (min high (foretold.integers.headD low)), by omega⟩, ⟨foretold.integers.tail⟩)

/-- The draws of a shuffle down from place `last`: one for every place but the first, none of them beyond its place. -/
inductive Draws : Nat → List Nat → Prop where
  | nil : Draws 0 []
  | cons {place drawn : Nat} {later : List Nat} (within : drawn ≤ place + 1) (rest : Draws place later) :
      Draws (place + 1) (drawn :: later)

theorem Draws.inside {size : Nat} {draws : List Nat} (fits : Draws (size - 1) draws) :
    ∀ drawn ∈ draws, drawn < size := by
  generalize downFrom : size - 1 = last at fits
  induction fits generalizing size with
  | nil => simp
  | @cons place drawn later within rest ih =>
    rw [List.forall_mem_cons]
    refine ⟨by omega, fun drawn member => ?_⟩
    have smaller := @ih (size - 1) (by omega) drawn member
    omega

/-- The bounds of the draws, in the order in which they are asked for. -/
def boundsDown (last : Nat) : List (Nat × Nat) := (List.range' 1 last).reverse.map fun place => (0, place)

theorem boundsDownNext (place : Nat) : boundsDown (place + 1) = (0, place + 1) :: boundsDown place := by
  simp [boundsDown, List.range'_concat, Nat.add_comm]

section Source

variable {σ α : Type} [RandomSource σ]

/-- The integers that a source gives for the places from `last` down, and the source after them. -/
def drawsDown (source : σ) : Nat → List Nat × σ
  | 0 => ([], source)
  | place + 1 =>
      let (drawn, source) := RandomSource.between source 0 (place + 1) (Nat.zero_le _)
      let (later, source) := drawsDown source place
      (drawn.val :: later, source)

theorem drawsDownDraws (source : σ) (last : Nat) : Draws last (drawsDown source last).1 := by
  induction last generalizing source with
  | zero => exact .nil
  | succ place ih => exact .cons (RandomSource.between source 0 (place + 1) _).1.property.2 (ih _)

theorem foretoldDraws {last : Nat} {draws : List Nat} (fits : Draws last draws) :
    drawsDown (⟨draws⟩ : Foretold) last = (draws, ⟨[]⟩) := by
  induction fits with
  | nil => rfl
  | @cons place drawn later within rest ih =>
    have kept : max 0 (min (place + 1) drawn) = drawn := by omega
    simp only [drawsDown, RandomSource.between, List.headD_cons, List.tail_cons, ih, kept]

theorem foretoldDown (items : Array α) {place drawn : Nat} (later : List Nat) (within : drawn ≤ place + 1)
    (inside : place + 1 < items.size) :
    shuffleDown items (⟨drawn :: later⟩ : Foretold) (place + 1) inside =
      shuffleDown (items.swap (place + 1) drawn inside (Nat.lt_of_le_of_lt within inside)) ⟨later⟩ place
        (by rw [Array.size_swap]; omega) := by
  have kept : max 0 (min (place + 1) drawn) = drawn := by omega
  simp only [shuffleDown, RandomSource.partner, RandomSource.atMost, List.headD_cons, List.tail_cons, kept]

theorem notedDown (items : Array α) (source : σ) (bounds : List (Nat × Nat)) (drawn : List Nat) (last : Nat)
    (inside : last < items.size) :
    shuffleDown items (⟨source, bounds, drawn⟩ : Noted σ) last inside =
      ((shuffleDown items (⟨(drawsDown source last).1⟩ : Foretold) last inside).1,
        ⟨(drawsDown source last).2, bounds ++ boundsDown last, drawn ++ (drawsDown source last).1⟩) := by
  induction last generalizing items source bounds drawn with
  | zero => simp [shuffleDown, drawsDown, boundsDown]
  | succ place ih =>
    have within := (RandomSource.between source 0 (place + 1) (Nat.zero_le _)).1.property.2
    rw [drawsDown, foretoldDown _ _ within, shuffleDown, boundsDownNext]
    simp only [RandomSource.partner, RandomSource.atMost, ih, List.append_assoc, List.singleton_append]

theorem aboveKept (items : Array α) (source : σ) {last place : Nat} (inside : last < items.size)
    (above : last < place) : (shuffleDown items source last inside).1[place]? = items[place]? := by
  induction last generalizing items source with
  | zero => rfl
  | succ last ih =>
    have small := (RandomSource.partner source (last + 1)).1.property
    rw [shuffleDown, ih _ _ _ (by omega), Array.getElem?_swap, if_neg (by omega), if_neg (by omega)]

theorem shuffleNoted (items : Array α) (source : σ) :
    shuffle items (⟨source, [], []⟩ : Noted σ) =
      ((shuffle items (⟨(drawsDown source (items.size - 1)).1⟩ : Foretold)).1,
        ⟨(drawsDown source (items.size - 1)).2, boundsDown (items.size - 1),
          (drawsDown source (items.size - 1)).1⟩) := by
  unfold shuffle
  split
  · exact notedDown ..
  · next none =>
    obtain none : items.size = 0 := by omega
    simp [none, drawsDown, boundsDown]

/-- Whether a source leaves the partner of a place to its integers. -/
def RandomSource.Plain (σ : Type) [RandomSource σ] : Prop :=
  ∀ (source : σ) (last : Nat), RandomSource.partner source last =
    (RandomSource.atMost (RandomSource.between source 0 last (Nat.zero_le last)).1,
      (RandomSource.between source 0 last (Nat.zero_le last)).2)

theorem plainDown (plain : RandomSource.Plain σ) (items : Array α) (noted : Noted σ) (last : Nat)
    (inside : last < items.size) :
    shuffleDown items noted.source last inside =
      ((shuffleDown items noted last inside).1, (shuffleDown items noted last inside).2.source) := by
  induction last generalizing items noted with
  | zero => rfl
  | succ last ih =>
    rw [shuffleDown, plain]
    exact ih _ (RandomSource.partner noted (last + 1)).2 _

theorem shufflePlain (plain : RandomSource.Plain σ) (items : Array α) (source : σ) :
    shuffle items source =
      let (arranged, noted) := shuffle items (⟨source, [], []⟩ : Noted σ)
      (arranged, noted.source) := by
  unfold shuffle
  split
  · exact plainDown plain items ⟨source, [], []⟩ _ _
  · rfl

end Source

section Distinct

variable {α : Type} {items target : Array α}

theorem placeUnique (distinct : items.toList.Nodup) {place other : Nat} {item : α} (here : items[place]? = some item)
    (there : items[other]? = some item) : place = other := by
  obtain ⟨inside, _⟩ := Array.getElem?_eq_some_iff.mp here
  refine (List.getElem?_inj (by simpa using inside) distinct).mp ?_
  rw [Array.getElem?_toList, Array.getElem?_toList, here, there]

theorem placedBelow (distinct : items.toList.Nodup) (same : target.Perm items) {last : Nat} {item : α}
    (fixed : ∀ place, last < place → target[place]? = items[place]?) (ends : target[last]? = some item) :
    ∃ place ≤ last, items[place]? = some item := by
  -- The item comes from no place above the last, since it would have to end there too.
  obtain ⟨place, here⟩ := Array.mem_iff_getElem?.mp (same.mem_iff.mp (Array.mem_iff_getElem?.mpr ⟨last, ends⟩))
  refine ⟨place, Nat.le_of_not_lt fun above => ?_, here⟩
  have twice := placeUnique (same.toList.nodup_iff.mpr distinct) ends ((fixed place above).trans here)
  omega

theorem swappedLast {last place : Nat} (inside : last < items.size) (small : place < items.size) :
    (items.swap last place inside small)[last]? = items[place]? := by
  rw [Array.getElem?_eq_getElem (by rwa [Array.size_swap]), Array.getElem_swap_left, Array.getElem?_eq_getElem small]

theorem firstFixed (distinct : items.toList.Nodup) (same : target.Perm items) (some : 0 < items.size)
    (fixed : ∀ place, 0 < place → target[place]? = items[place]?) : target = items := by
  refine Array.ext_getElem? fun place => ?_
  rcases Nat.eq_zero_or_pos place with rfl | above
  · have some : 0 < target.size := same.size_eq ▸ some
    have ends : target[0]? = .some target[0] := Array.getElem?_eq_getElem some
    obtain ⟨place, low, here⟩ := placedBelow distinct same fixed ends
    obtain rfl : place = 0 := by omega
    rw [ends, here]
  · exact fixed place above

theorem arrangedOnce (distinct : items.toList.Nodup) (same : target.Perm items) (last : Nat)
    (inside : last < items.size) (fixed : ∀ place, last < place → target[place]? = items[place]?) :
    ∃! draws, Draws last draws ∧ (shuffleDown items (⟨draws⟩ : Foretold) last inside).1 = target := by
  induction last generalizing items with
  | zero =>
    refine ⟨[], ⟨.nil, (firstFixed distinct same inside fixed).symm⟩, ?_⟩
    rintro _ ⟨⟨⟩, _⟩
    rfl
  | succ last ih =>
    -- What the target has at the last place says what the first draw is, and the rest is a shuffle of the others.
    have held : last + 1 < target.size := same.size_eq ▸ inside
    have ends : target[last + 1]? = some target[last + 1] := Array.getElem?_eq_getElem held
    obtain ⟨place, within, here⟩ := placedBelow distinct same fixed ends
    obtain ⟨small, _⟩ := Array.getElem?_eq_some_iff.mp here
    have swapped := Array.swap_perm inside small
    have settled : ∀ above, last < above →
        target[above]? = (items.swap (last + 1) place inside small)[above]? := by
      intro above later
      rcases Nat.eq_or_lt_of_le later with rfl | higher
      · rw [swappedLast, ends, here]
      · rw [Array.getElem?_swap, if_neg (by omega), if_neg (by omega), fixed above higher]
    obtain ⟨later, ⟨draws, arranged⟩, once⟩ := ih (swapped.toList.nodup_iff.mpr distinct) (same.trans swapped.symm)
      (by rw [Array.size_swap]; omega) settled
    refine ⟨place :: later, ⟨.cons within draws, ?_⟩, ?_⟩
    · rw [foretoldDown items later within inside, arranged]
    · rintro _ ⟨fits, reached⟩
      cases fits with
      | @cons _ other others low rest =>
        rw [foretoldDown items others low inside] at reached
        have drawn : target[last + 1]? = items[other]? := by
          rw [← reached, aboveKept _ _ _ (Nat.lt_succ_self last), swappedLast]
        obtain rfl : other = place := placeUnique distinct (drawn.symm.trans ends) here
        rw [once others ⟨rest, reached⟩]

theorem reachedOnce (distinct : items.toList.Nodup) (same : target.Perm items) :
    ∃! draws, Draws (items.size - 1) draws ∧ (shuffle items (⟨draws⟩ : Foretold)).1 = target := by
  unfold shuffle
  split
  · next some =>
    refine arrangedOnce distinct same _ (by omega) fun place above => ?_
    have size := same.size_eq
    rw [Array.getElem?_eq_none (by omega), Array.getElem?_eq_none (by omega)]
  · next none =>
    have empty : items = #[] := Array.eq_empty_of_size_eq_zero (by omega)
    subst empty
    obtain rfl : target = #[] := Array.eq_empty_of_size_eq_zero same.size_eq
    refine ⟨[], ⟨.nil, rfl⟩, ?_⟩
    rintro _ ⟨⟨⟩, _⟩
    rfl

theorem arrangementsCount (distinct : items.toList.Nodup) :
    {arranged : Array α | arranged.Perm items}.ncard = items.size.factorial := by
  classical
  have listed : Array.toList '' {arranged : Array α | arranged.Perm items} = ↑items.toList.permutations.toFinset := by
    ext arranged
    simp only [Set.mem_image, Set.mem_ofPred_eq, List.coe_toFinset, List.mem_permutations, Array.perm_iff_toList_perm]
    exact ⟨fun ⟨_, same, list⟩ => list ▸ same, fun same => ⟨arranged.toArray, same, rfl⟩⟩
  rw [← Set.ncard_image_of_injective _ fun _ _ same => Array.toList_inj.mp same, listed, Set.ncard_coe_finset,
    List.toFinset_card_of_nodup (List.nodup_permutations _ distinct), List.length_permutations, Array.length_toList]

end Distinct

variable {σ : Type} [RandomSource σ]

theorem shuffleUnbiased {α : Type} (items : Array α) :
    (∀ source : σ, ∃ draws after, Draws (items.size - 1) draws ∧ (∀ drawn ∈ draws, drawn < items.size) ∧
      shuffle items (⟨source, [], []⟩ : Noted σ) =
        ((shuffle items (⟨draws⟩ : Foretold)).1,
          ⟨after, (List.range' 1 (items.size - 1)).reverse.map fun place => (0, place), draws⟩)) ∧
    (RandomSource.Plain σ → ∀ source : σ, shuffle items source =
      let (arranged, noted) := shuffle items (⟨source, [], []⟩ : Noted σ)
      (arranged, noted.source)) ∧
    (∀ source : σ, (shuffle items source).1.Perm items) ∧
    (∀ draws, Draws (items.size - 1) draws →
      (shuffle items (⟨⟨draws⟩, [], []⟩ : Noted Foretold)).2.drawn = draws) ∧
    (items.toList.Nodup →
      Set.BijOn (fun draws => (shuffle items (⟨draws⟩ : Foretold)).1)
        {draws | Draws (items.size - 1) draws} {arranged | arranged.Perm items} ∧
      {arranged : Array α | arranged.Perm items}.ncard = items.size.factorial) := by
  refine ⟨fun source => ?noted, fun plain => shufflePlain plain items, shufflePerm items, fun draws fits => ?foretold,
    fun distinct => ⟨⟨?within, ?once, ?reached⟩, arrangementsCount distinct⟩⟩
  case noted =>
    have fits := drawsDownDraws source (items.size - 1)
    exact ⟨_, _, fits, fits.inside, shuffleNoted items source⟩
  case foretold => rw [shuffleNoted, foretoldDraws fits]
  case within => exact fun draws _ => shufflePerm items _
  case once =>
    intro draws fits others fit same
    exact (reachedOnce distinct (shufflePerm items _)).unique ⟨fits, same⟩ ⟨fit, rfl⟩
  case reached =>
    intro arranged same
    obtain ⟨draws, reached, _⟩ := reachedOnce distinct same
    exact ⟨draws, reached⟩

theorem lettersUnbiased :
    RandomSource.Plain Script ∧ Draws 2 [0, 0] ∧ #['a', 'b', 'c'].toList.Nodup ∧
      (shuffle #['a', 'b', 'c'] (⟨#[0], by decide, 0⟩ : Script)).1 = #['b', 'c', 'a'] ∧
      (shuffle #['a', 'b', 'c'] (⟨⟨#[0], by decide, 0⟩, [], []⟩ : Noted Script)).2.bounds = [(0, 2), (0, 1)] ∧
      (shuffle #['a', 'b', 'c'] (⟨⟨[0, 0]⟩, [], []⟩ : Noted Foretold)).2.drawn = [0, 0] ∧
      Set.BijOn (fun draws => (shuffle #['a', 'b', 'c'] (⟨draws⟩ : Foretold)).1)
        {draws | Draws 2 draws} {arranged | arranged.Perm #['a', 'b', 'c']} ∧
      {arranged | Array.Perm arranged #['a', 'b', 'c']}.ncard = 6 := by
  obtain ⟨noted, plain, _, foretold, bijective⟩ := @shuffleUnbiased Script _ Char #['a', 'b', 'c']
  have same : RandomSource.Plain Script := fun _ _ => rfl
  have lowest : Draws 2 [0, 0] := .cons (by decide) (.cons (by decide) .nil)
  have distinct : #['a', 'b', 'c'].toList.Nodup := by decide
  obtain ⟨draws, after, _, _, asked⟩ := noted ⟨#[0], by decide, 0⟩
  refine ⟨same, lowest, distinct, ?_, by rw [asked]; rfl, foretold _ lowest, bijective distinct⟩
  rw [plain same]
  decide +kernel

end Pseudonym
