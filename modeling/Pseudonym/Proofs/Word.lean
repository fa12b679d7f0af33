import Mathlib.Data.List.Nodup
import Pseudonym.Proofs.Text.Blank
import Pseudonym.Word

/-! What words are. Every word of a list is grammatical and stands in it once; a list of such words is left as
it is. -/
namespace Pseudonym
namespace Word
open Identifier

theorem lowerIff {c : Char} : c.isLower = true ↔ 97 ≤ c.val ∧ c.val ≤ 122 := by
  refine Bool.and_eq_true_iff.trans ?_
  simp

theorem upperLetter {c : Char} (lower : c.isLower = true) : c.toUpper.isUpper = true := by
  have within := lowerIff.mp lower
  have first : 97 ≤ c.val.toNat := UInt32.le_iff_toNat_le.mp within.1
  have last : c.val.toNat ≤ 122 := UInt32.le_iff_toNat_le.mp within.2
  have moved : (c.val.toNat + 4294967264) % 4294967296 = c.val.toNat - 32 := by omega
  have upper : c.toUpper = ⟨c.val + 4294967264, _⟩ := dif_pos within
  have shifted : (c.val + 4294967264).toNat = c.val.toNat - 32 := (UInt32.toNat_add ..).trans moved
  rw [upper]
  refine decide_eq_true ⟨UInt32.le_iff_toNat_le.mpr ?_, UInt32.le_iff_toNat_le.mpr ?_⟩
  · rw [shifted]
    exact Nat.le_sub_of_add_le (show 65 + 32 ≤ c.val.toNat from first)
  · rw [shifted]
    exact Nat.sub_le_of_le_add (show c.val.toNat ≤ 90 + 32 from last)

theorem upperPart {c : Char} (part : isPart c = true) : isPart c.toUpper = true := by
  by_cases lower : c.isLower = true
  · have alpha : c.toUpper.isAlpha = true := Bool.or_eq_true_iff.mpr (.inl (upperLetter lower))
    simp [isPart, isStart, alpha]
  · have same : c.toUpper = c := dif_neg fun small => lower (lowerIff.mpr small)
    rwa [same]

theorem scanParts (written gap : Bool) (chars : List Char) : ∀ c ∈ scan written gap chars, isPart c = true := by
  induction chars generalizing written gap with
  | nil => simp [scan]
  | cons first rest ih =>
    rw [scan]
    split
    · exact ih _ _
    · next part =>
      have part : isPart first = true := by simpa using part
      split
      · exact List.forall_mem_cons.mpr ⟨upperPart part, ih _ _⟩
      · split
        · exact List.forall_mem_cons.mpr ⟨rfl, List.forall_mem_cons.mpr ⟨part, ih _ _⟩⟩
        · exact List.forall_mem_cons.mpr ⟨part, ih _ _⟩

theorem scanGrammatical {chars : List Char} (some : scan false false chars ≠ []) :
    Grammatical (scan false false chars) := by
  induction chars with
  | nil => exact absurd rfl some
  | cons first rest ih =>
    have parts := scanParts true false rest
    rw [scan] at some ⊢
    split
    · next gap =>
      rw [if_pos gap] at some
      exact ih some
    · next part =>
      have part : isPart first = true := by simpa using part
      simp only [Bool.false_eq_true, if_false, Bool.not_false, Bool.true_and]
      split
      · exact .intro rfl (List.forall_mem_cons.mpr ⟨part, parts⟩)
      · next start => exact .intro (by simpa using start) parts

theorem normalizeGrammatical {entry word : String} (usable : normalize? entry = some word) :
    Grammatical word.toList := by
  unfold normalize? at usable
  split at usable
  · cases usable
  · next some =>
    cases usable
    rw [String.toList_ofList]
    exact scanGrammatical some

theorem scanPadded {before after : List Char} (leads : ∀ c ∈ before, isPart c = false)
    (trails : ∀ c ∈ after, isPart c = false) (chars : List Char) :
    scan false false (before ++ chars ++ after) = scan false false chars := by
  have nothing (written gap : Bool) : scan written gap after = [] := by
    induction after generalizing gap with
    | nil => rfl
    | cons c rest ih =>
      obtain ⟨outside, trails⟩ := List.forall_mem_cons.mp trails
      simpa [scan, outside] using ih trails written
  have behind (written gap : Bool) : scan written gap (chars ++ after) = scan written gap chars := by
    induction chars generalizing written gap with
    | nil => exact nothing written gap
    | cons c rest ih => simp only [List.cons_append, scan, ih]
  induction before with
  | nil => exact behind false false
  | cons c rest ih =>
    obtain ⟨outside, leads⟩ := List.forall_mem_cons.mp leads
    simpa [scan, outside] using ih leads

theorem partInked {c : Char} (part : isPart c = true) : Blank.isBlank c = false := by
  have letter (alpha : c.isAlpha = true) : 65 ≤ c.val.toNat ∧ c.val.toNat ≤ 122 := by
    rcases Bool.or_eq_true_iff.mp alpha with upper | lower
    · have within : 65 ≤ c.val ∧ c.val ≤ 90 := of_decide_eq_true upper
      exact ⟨UInt32.le_iff_toNat_le.mp within.1, Nat.le_trans (UInt32.le_iff_toNat_le.mp within.2) (by decide)⟩
    · have within := lowerIff.mp lower
      exact ⟨Nat.le_trans (by decide) (UInt32.le_iff_toNat_le.mp within.1), UInt32.le_iff_toNat_le.mp within.2⟩
  cases digit : c.isDigit with
  | true => exact Blank.digitInked digit
  | false =>
    simp only [isPart, isStart, digit, Bool.or_false, Bool.or_eq_true, beq_iff_eq] at part
    rcases part with (alpha | rfl) | rfl
    · obtain ⟨low, high⟩ := letter alpha
      exact Blank.visibleInked (Nat.lt_of_lt_of_le (by decide) low) (Nat.lt_of_le_of_lt high (by decide))
    · decide
    · decide

/-- Trimming takes nothing away that could stand in a name. -/
theorem normalizeUntrimmed (entry : String) :
    normalize? entry =
      match scan false false entry.toList with
      | [] => none
      | word => some (String.ofList word) := by
  obtain ⟨before, after, split, leads, trails⟩ := Blank.trimSplits entry.toList
  have outside {c : Char} (blank : Blank.isBlank c = true) : isPart c = false :=
    Bool.eq_false_iff.mpr fun part => by simp [partInked part] at blank
  have same : scan false false (Blank.trim entry.toList) = scan false false entry.toList := by
    rw [← scanPadded (fun c inside => outside (leads c inside)) (fun c inside => outside (trails c inside)), ← split]
  rw [← same]
  rfl

theorem scanRun {run : List Char} (parts : ∀ c ∈ run, isPart c = true) (rest : List Char) :
    scan true false (run ++ rest) = run ++ scan true false rest := by
  induction run with
  | nil => rfl
  | cons first run ih =>
    obtain ⟨part, parts⟩ := List.forall_mem_cons.mp parts
    simp [scan, part, ih parts]

theorem scanSame {chars : List Char} (parts : ∀ c ∈ chars, isPart c = true) : scan true false chars = chars := by
  simpa [scan] using scanRun parts []

theorem normalizeSame {entry : String} (grammatical : Grammatical entry.toList) : normalize? entry = some entry := by
  generalize chars : entry.toList = letters at grammatical
  cases grammatical with
  | @intro first rest start parts =>
    have part : isPart first = true := by simp [isPart, start]
    have same : scan false false (first :: rest) = first :: rest := by
      simp [scan, part, start, scanSame parts]
    rw [normalizeUntrimmed, chars, same]
    exact congrArg some (String.toList_injective (by rw [String.toList_ofList, chars]))

theorem eraseDupsNodup (names : List String) : names.eraseDups.Nodup := by
  induction size : names.length using Nat.strongRecOn generalizing names with
  | ind length ih =>
    cases names with
    | nil => simp
    | cons name rest =>
      have shorter : (rest.filter fun other => !other == name).length < length := by
        rw [← size]
        exact Nat.lt_succ_of_le (List.length_filter_le ..)
      rw [List.eraseDups_cons, List.nodup_cons]
      exact ⟨by simp, ih _ shorter _ rfl⟩

theorem eraseDupsSame {names : List String} (distinct : names.Nodup) : names.eraseDups = names := by
  induction names with
  | nil => rfl
  | cons name rest ih =>
    obtain ⟨fresh, distinct⟩ := List.nodup_cons.mp distinct
    have untouched : (rest.filter fun other => !other == name) = rest := by
      refine List.filter_eq_self.mpr fun other inside => ?_
      have other : other ≠ name := fun same => fresh (same ▸ inside)
      simpa using other
    rw [List.eraseDups_cons, untouched, ih distinct]

theorem listNodup (entries : List String) : (list entries).Nodup := eraseDupsNodup _

theorem listGrammatical {entries : List String} {word : String} (member : word ∈ list entries) :
    Grammatical word.toList := by
  obtain ⟨entry, _, usable⟩ := List.mem_filterMap.mp (List.mem_eraseDups.mp member)
  exact normalizeGrammatical usable

theorem listSame {entries : List String} (grammatical : ∀ entry ∈ entries, Grammatical entry.toList)
    (distinct : entries.Nodup) : list entries = entries := by
  have usable : entries.filterMap normalize? = entries := by
    rw [List.filterMap_congr fun entry member => normalizeSame (grammatical entry member), List.filterMap_some]
  rw [list, usable, eraseDupsSame distinct]

end Word
end Pseudonym
