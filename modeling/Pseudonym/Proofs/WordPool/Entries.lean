import Mathlib.Data.List.Induction
import Pseudonym.Proofs.WordPool.Recycling

/-! How entries become the words of a dictionary. The runs of name characters in an entry make its word, whatever
stands between them and around them; a dictionary has every word that its entries make, once and in the order in which
they come first. -/
namespace Pseudonym
namespace Word
open Identifier

/-- The runs of name characters in a text. Each of them ends where another character or nothing follows. -/
inductive Runs : List Char → List (List Char) → Prop where
  | nil : Runs [] []
  | gap {c : Char} {rest : List Char} {runs : List (List Char)} (outside : isPart c = false) (later : Runs rest runs) :
      Runs (c :: rest) runs
  | run {first : Char} {run rest : List Char} {runs : List (List Char)} (part : isPart first = true)
      (parts : ∀ c ∈ run, isPart c = true) (ends : ∀ c ∈ rest.head?, isPart c = false) (later : Runs rest runs) :
      Runs (first :: (run ++ rest)) ((first :: run) :: runs)

def guarded (run : List Char) : List Char := if run.head?.any Char.isDigit then '_' :: run else run

def camel : List (List Char) → List Char
  | [] => []
  | first :: rest => guarded first ++ (rest.map (List.modifyHead Char.toUpper)).flatten

theorem runsExist (chars : List Char) : ∃ runs, Runs chars runs := by
  induction chars with
  | nil => exact ⟨[], .nil⟩
  | cons c rest ih =>
    obtain ⟨runs, later⟩ := ih
    cases part : isPart c with
    | false => exact ⟨runs, .gap part later⟩
    | true =>
      cases later with
      | nil => exact ⟨[[c]], @Runs.run c [] [] [] part (by simp) (by simp) .nil⟩
      | @gap other rest runs outside later =>
        exact ⟨[c] :: runs,
          @Runs.run c [] (other :: rest) runs part (by simp) (by simpa using outside) (.gap outside later)⟩
      | @run first run rest runs next parts ends later =>
        exact ⟨(c :: first :: run) :: runs,
          @Runs.run c (first :: run) rest runs part (List.forall_mem_cons.mpr ⟨next, parts⟩) ends later⟩

theorem runsNone {chars : List Char} {runs : List (List Char)} (cut : Runs chars runs) :
    runs = [] ↔ ∀ c ∈ chars, isPart c = false := by
  induction cut with
  | nil => simp
  | gap outside later ih => rw [ih, List.forall_mem_cons, and_iff_right outside]
  | run part => simp [part]

theorem scanGap {rest : List Char} (ends : ∀ c ∈ rest.head?, isPart c = false) :
    scan true false rest = scan true true rest := by
  cases rest with
  | nil => rfl
  | cons c rest => simp [scan, ends c rfl]

theorem scanLater {chars : List Char} {runs : List (List Char)} (cut : Runs chars runs) :
    scan true true chars = (runs.map (List.modifyHead Char.toUpper)).flatten := by
  induction cut with
  | nil => rfl
  | gap outside later ih => simpa [scan, outside] using ih
  | run part parts ends later ih => simp [scan, part, scanRun parts, scanGap ends, ih]

theorem digitNotStart {c : Char} (digit : c.isDigit = true) : isStart c = false := by
  have last : c.val.toNat ≤ 57 := (Char.isDigit_iff_toNat.mp digit).2
  have upper : c.isUpper = false := decide_eq_false fun within =>
    absurd (Nat.le_trans (UInt32.le_iff_toNat_le.mp within.1) last) (by decide)
  have lower : c.isLower = false := Bool.eq_false_iff.mpr fun within =>
    absurd (Nat.le_trans (UInt32.le_iff_toNat_le.mp (lowerIff.mp within).1) last) (by decide)
  have letter : c.isAlpha = false := Bool.or_eq_false_iff.mpr ⟨upper, lower⟩
  have underscore : c ≠ '_' := by rintro rfl; cases digit
  have dollar : c ≠ '$' := by rintro rfl; cases digit
  simp [isStart, letter, underscore, dollar]

theorem partStarts {c : Char} (part : isPart c = true) : isStart c = !c.isDigit := by
  cases digit : c.isDigit with
  | false => simpa [isPart, digit] using part
  | true => exact digitNotStart digit

theorem scanFirst {chars : List Char} {runs : List (List Char)} (cut : Runs chars runs) :
    scan false false chars = camel runs := by
  induction cut with
  | nil => rfl
  | gap outside later ih => simpa [scan, outside] using ih
  | @run first run rest runs part parts ends later ih =>
    have tail : scan true false (run ++ rest) = run ++ (runs.map (List.modifyHead Char.toUpper)).flatten := by
      rw [scanRun parts, scanGap ends, scanLater later]
    cases digit : first.isDigit <;> simp [scan, camel, guarded, part, partStarts part, digit, tail]

theorem camelNone {chars : List Char} {runs : List (List Char)} (cut : Runs chars runs) :
    camel runs = [] ↔ runs = [] := by
  induction cut with
  | nil => simp [camel]
  | gap outside later ih => exact ih
  | @run first => cases digit : first.isDigit <;> simp [camel, guarded, digit]

theorem normalizeRuns {entry : String} {runs : List (List Char)} (cut : Runs entry.toList runs) :
    normalize? entry = if runs = [] then none else some (String.ofList (camel runs)) := by
  rw [normalizeUntrimmed, scanFirst cut]
  split
  · next none => rw [if_pos ((camelNone cut).mp none)]
  · next some => rw [if_neg (mt (camelNone cut).mpr some)]

theorem normalizePadded (entry : String) {before after : String} (leads : ∀ c ∈ before.toList, isPart c = false)
    (trails : ∀ c ∈ after.toList, isPart c = false) : normalize? (before ++ entry ++ after) = normalize? entry := by
  rw [normalizeUntrimmed, normalizeUntrimmed, String.toList_append, String.toList_append, scanPadded leads trails]

/-- What an entry comes to whose runs are `runs`. -/
structure Normalizes (entry : String) (runs : List (List Char)) : Prop where
  unusable : normalize? entry = none ↔ ∀ c ∈ entry.toList, isPart c = false
  spelled : (∃ c ∈ entry.toList, isPart c = true) → normalize? entry = some (String.ofList (camel runs))
  grammatical : ∀ word, normalize? entry = some word → Grammatical word.toList ∧ normalize? word = some word
  unchanged : Grammatical entry.toList → normalize? entry = some entry
  padded : ∀ before after : String, (∀ c ∈ before.toList, isPart c = false) → (∀ c ∈ after.toList, isPart c = false) →
    normalize? (before ++ entry ++ after) = normalize? entry

theorem runsNormalize {entry : String} {runs : List (List Char)} (cut : Runs entry.toList runs) :
    Normalizes entry runs := by
  have word := normalizeRuns cut
  constructor
  case unusable => rw [← runsNone cut, word, ite_eq_left_iff]; simp
  case spelled =>
    rintro ⟨c, member, part⟩
    have some : runs ≠ [] := fun none => by simp [(runsNone cut).mp none c member] at part
    rw [word, if_neg some]
  case grammatical =>
    intro word usable
    have formed := normalizeGrammatical usable
    exact ⟨formed, normalizeSame formed⟩
  case unchanged => exact normalizeSame
  case padded => exact fun before after leads trails => normalizePadded entry leads trails

/-- The names of a list without repeats, in the order in which they come first. -/
structure FirstOccurrences (all distinct : List String) : Prop where
  once : distinct.Nodup
  same : ∀ name, name ∈ distinct ↔ name ∈ all
  ordered : distinct.Pairwise fun earlier later => all.idxOf earlier < all.idxOf later

theorem erasedLast (before : List String) (last : String) :
    (before ++ [last]).eraseDups = before.eraseDups ++ if last ∈ before then [] else [last] := by
  rw [List.eraseDups_append]
  by_cases again : last ∈ before <;> simp [List.removeAll, List.eraseDups_cons, again]

theorem erasedOrdered (all : List String) :
    all.eraseDups.Pairwise fun earlier later => all.idxOf earlier < all.idxOf later := by
  induction all using List.reverseRecOn with
  | nil => exact .nil
  | append_singleton before last ih =>
    have kept (name : String) (member : name ∈ before.eraseDups) :
        (before ++ [last]).idxOf name = before.idxOf name :=
      List.idxOf_append_of_mem (List.mem_eraseDups.mp member)
    have early := ih.imp_of_mem fun {earlier later} one two less => by
      rwa [← kept earlier one, ← kept later two] at less
    rw [erasedLast]
    split
    · rwa [List.append_nil]
    · next new =>
      refine List.pairwise_append.mpr ⟨early, List.pairwise_singleton _ _, fun earlier member later same => ?_⟩
      have inside := List.idxOf_lt_length_iff.mpr (List.mem_eraseDups.mp member)
      rw [List.mem_singleton.mp same, kept earlier member, List.idxOf_append_of_notMem new]
      exact Nat.lt_of_lt_of_le inside (Nat.le_add_right _ _)

theorem listFirst (entries : List String) : FirstOccurrences (entries.filterMap normalize?) (list entries) :=
  ⟨listNodup entries, fun _ => List.mem_eraseDups, erasedOrdered _⟩

end Word

namespace WordPool
open Word Identifier

variable {σ : Type} [RandomSource σ]

theorem entriesNormalized :
    (∀ entry : String, ∃ runs, Runs entry.toList runs) ∧
    (∀ (entry : String) (runs : List (List Char)), Runs entry.toList runs → Normalizes entry runs) ∧
    ∀ (ledger : Ledger) (source : σ) (entries : List String) (order : DrawOrder) (fresh : Generator σ),
      entries ≠ [] → Generator.create .dictionary ledger source entries order = .ok fresh →
        FirstOccurrences (entries.filterMap normalize?) fresh.words := by
  refine ⟨fun entry => runsExist entry.toList, fun _ _ => runsNormalize, ?_⟩
  intro ledger source entries order fresh some built
  obtain ⟨pool, usable, rfl⟩ := createdPool built
  have nonempty : entries.isEmpty = false := by simpa using some
  have words := (ofEntriesMade usable).1
  rw [nonempty, if_neg (by decide)] at words
  change FirstOccurrences _ pool.words.toList
  exact words ▸ listFirst entries

theorem streetRuns : Runs "42nd street!".toList ["42nd".toList, "street".toList] := by
  have letters : "42nd street!".toList = '4' :: ("2nd".toList ++ ' ' :: 's' :: ("treet".toList ++ ['!'])) := by decide
  rw [letters]
  have number : ∀ c ∈ "2nd".toList, isPart c = true := List.all_eq_true.mp (by decide)
  have word : ∀ c ∈ "treet".toList, isPart c = true := List.all_eq_true.mp (by decide)
  have blank : isPart ' ' = false := by decide
  have mark : isPart '!' = false := by decide
  refine .run (by decide) number (fun c first => ?_) (.gap blank (.run (by decide) word (fun c first => ?_) ?_))
  · rwa [← Option.some.inj first]
  · rwa [← Option.some.inj first]
  · exact .gap mark .nil

theorem streetNormalized :
    Runs "42nd street!".toList ["42nd".toList, "street".toList] ∧ normalize? "42nd street!" = some "_42ndStreet" ∧
      Grammatical "_42ndStreet".toList ∧ normalize? ("«" ++ "42nd street!" ++ " ") = some "_42ndStreet" ∧
      ∃ fresh, Generator.create .dictionary .empty Script.lowest ["two words", "--", "two.words", "one"] .sequential =
          .ok fresh ∧
        FirstOccurrences (["two words", "--", "two.words", "one"].filterMap normalize?) fresh.words := by
  obtain ⟨_, normalizes, lists⟩ := @entriesNormalized Script _
  have street := normalizes "42nd street!" ["42nd".toList, "street".toList] streetRuns
  have word : normalize? "42nd street!" = some "_42ndStreet" := street.spelled ⟨'4', by decide, by decide⟩
  have quote : isPart '«' = false := by decide
  have blank : isPart ' ' = false := by decide
  have padded := street.padded "«" " " (by simp [quote]) (by simp [blank])
  refine ⟨streetRuns, word, (street.grammatical _ word).1, padded.trans word, ?_⟩
  obtain ⟨pool, usable, _⟩ := @ofEntriesUsable ["two words", "--", "two.words", "one"] .sequential (by decide +kernel)
  have built : Generator.create .dictionary .empty Script.lowest ["two words", "--", "two.words", "one"] .sequential =
      .ok ⟨.empty, Script.lowest, .dictionary pool⟩ := by rw [Generator.create, usable]
  exact ⟨_, built, lists _ _ _ _ _ (by decide) built⟩

end WordPool
end Pseudonym
