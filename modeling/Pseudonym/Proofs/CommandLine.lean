import Pseudonym.CommandLine.Run

/-! A command line that goes on. What was read before stays, so a setting can be given at the end of any line that
does not give it yet. -/
namespace Pseudonym.CommandLine

def Stop.further (accepted : List Setting) (top : Bool) (more : List String) : Stop → Option Stop
  | .done found => readArguments? accepted top found more
  | .word found name rest => some (.word found name (rest ++ more))
  | .version => some .version

theorem readFurther {accepted : List Setting} {top : Bool} {found : Found} {words : List String} {stop : Stop}
    (read : readArguments? accepted top found words = some stop) (unmarked : "--" ∉ words) (more : List String) :
    readArguments? accepted top found (words ++ more) = stop.further accepted top more := by
  -- One case for each way to read the first argument. Those that fail leave nothing to go on from.
  fun_induction readArguments? accepted top found words with
  | case1 found =>
    cases read
    rfl
  | case2 found argument rest marks =>
    have mark : argument = "--" := String.toList_inj.mp marks
    simp [mark] at unmarked
  | case3 found argument letter letters other setting piece next rest same hyp =>
    have later := hyp read fun inside => unmarked (List.mem_cons_of_mem _ inside)
    simp only [piece] at same
    simp only [List.cons_append, readArguments?, setting, same, later]
  | case4 | case5 | case7 | case9 => nomatch read
  | case6 found argument letter letters other setting piece next pending value rest same plain last added hyp =>
    have later := hyp read fun inside => unmarked (List.mem_cons_of_mem _ (List.mem_cons_of_mem _ inside))
    simp only [piece] at same
    simp only [List.cons_append, readArguments?, setting, same, if_neg plain, added, later]
  | case8 found argument rest letter letters other setting piece same =>
    cases read
    simp only [piece] at same
    simp only [List.cons_append, readArguments?, setting, same, Stop.further]
  | case10 found argument rest atTop mark setting =>
    cases read
    simp only [List.cons_append, readArguments?, if_pos atTop, Stop.further]
  | case11 found argument rest behind mark setting hyp =>
    have later := hyp read fun inside => unmarked (List.mem_cons_of_mem _ inside)
    simp only [List.cons_append, readArguments?, if_neg behind, later]

theorem restInside {accepted : List Setting} {top : Bool} {found next : Found} {words rest : List String}
    {name : String} (read : readArguments? accepted top found words = some (.word next name rest)) : rest ⊆ words := by
  fun_induction readArguments? accepted top found words with
  | case1 | case2 | case4 | case5 | case7 | case8 | case9 => nomatch read
  | case3 _ _ _ _ _ _ _ _ _ _ hyp | case11 _ _ _ _ _ _ hyp => exact List.subset_cons_of_subset _ (hyp read)
  | case6 _ _ _ _ _ _ _ _ _ _ _ _ _ _ _ hyp =>
    exact List.subset_cons_of_subset _ (List.subset_cons_of_subset _ (hyp read))
  | case10 =>
    cases read
    exact List.subset_cons_self _ _

namespace Found

def seeded (found : Found) (content : String) : Found :=
  {found with settings := found.settings ++ [(.seed, content)]}

theorem seededValues (found : Found) (content : String) (setting : Setting) : (found.seeded content).values setting =
    found.values setting ++ if setting = .seed then [content] else [] := by
  by_cases given : setting = .seed
  · simp [seeded, values, given]
  · simp [seeded, values, given, Ne.symm given]

theorem seededHas (found : Found) (content : String) {setting : Setting} (other : setting ≠ .seed) :
    (found.seeded content).has setting = found.has setting := by
  simp [seeded, has, other.symm]

theorem seedlessHas {found : Found} (seedless : found.value? .seed = none) : found.has .seed = false := by
  simpa [has, value?, values] using seedless

end Found

def GeneratorArguments.seeded (arguments : GeneratorArguments) (content : String) : GeneratorArguments :=
  {arguments with seed := some content}

theorem argumentsSeeded {found : Found} (environment : Option String) (content : String)
    (seedless : found.value? .seed = none) :
    GeneratorArguments.ofFound (found.seeded content) environment =
      (GeneratorArguments.ofFound found environment).seeded content := by
  rw [Found.value?, List.head?_eq_none_iff] at seedless
  simp [GeneratorArguments.ofFound, GeneratorArguments.seeded, Found.number?, Found.items, Found.value?,
    Found.seededValues, seedless]

namespace Command

def arguments? : Command → Option GeneratorArguments
  | .names arguments _ _ _ _ | .plan arguments _ _ => some arguments
  | .version | .generators => none

def seeded (content : String) : Command → Command
  | .names arguments count kind label scope => .names (arguments.seeded content) count kind label scope
  | .plan arguments input renameGlobals => .plan (arguments.seeded content) input renameGlobals
  | .version => .version
  | .generators => .generators

/-- The command draws names, and nothing says yet from which seed. -/
def Seedless (command : Command) : Prop := ∃ arguments, command.arguments? = some arguments ∧ arguments.seed = none

end Command

theorem commandSeeded {verb : Verb} {found : Found} {environment : Option String} {command : Command}
    (read : Command.ofFound? verb found environment = some command) (seedless : command.Seedless) (content : String) :
    (verb = .names ∨ verb = .plan) ∧ found.value? .seed = none ∧
      Command.ofFound? verb (found.seeded content) environment = some (command.seeded content) := by
  obtain ⟨arguments, given, unseeded⟩ := seedless
  unfold Command.ofFound? at read
  split at read
  next => cases read; nomatch given
  next => cases read; nomatch given
  next operandless =>
    cases read
    cases given
    have operandless : (found.seeded content).operands = [] := operandless
    refine ⟨.inl rfl, unseeded, ?_⟩
    simp [Command.ofFound?, operandless, Command.seeded, argumentsSeeded environment content unseeded, Found.number?,
      Found.value?, Found.seededValues]
  next input one =>
    have one : (found.seeded content).operands = [input] := one
    by_cases empty : input = ""
    · simp [empty] at read
    rw [if_neg empty] at read
    cases read
    cases given
    refine ⟨.inr rfl, unseeded, ?_⟩
    simp [Command.ofFound?, one, empty, Command.seeded, argumentsSeeded environment content unseeded, Found.seededHas]
  next => nomatch read

/-- The ways to give a seed. One that could itself be a setting must not stand alone. -/
inductive Gives (content : String) : List String → Prop where
  | joined : Gives content ["--seed=" ++ content]
  | apart (plain : isSetting content = false) : Gives content ["--seed", content]

theorem readGiven {content : String} {given : List String} (gives : Gives content given) {verb : Verb}
    (drawing : (verb = .names ∨ verb = .plan)) {found : Found} (seedless : found.value? .seed = none) :
    readArguments? verb.settings false found given = some (.done (found.seeded content)) := by
  have added : found.add? .seed content = some (found.seeded content) := by
    simp [Found.add?, Found.seedlessHas seedless, admits, Found.seeded]
  have known : verb.settings.find? (·.long == "seed") = some .seed := by
    rcases drawing with rfl | rfl <;> rfl
  cases gives with
  | joined =>
    have letters : ("--seed=" ++ content).toList = '-' :: '-' :: 's' :: 'e' :: 'e' :: 'd' :: '=' :: content.toList :=
      String.toList_append
    have name : readName? verb.settings false found ('s' :: 'e' :: 'e' :: 'd' :: '=' :: content.toList) =
        some (.settings (found.seeded content)) := by
      simp [readName?, known, added, Setting.takesValue, Setting.style]
    simp [readArguments?, letters, name]
  | apart plain =>
    have letters : "--seed".toList = ['-', '-', 's', 'e', 'e', 'd'] := rfl
    have name : readName? verb.settings false found ['s', 'e', 'e', 'd'] = some (.pending found .seed) := by
      simp [readName?, known, Setting.takesValue, Setting.style]
    simp [readArguments?, letters, name, plain, added]

theorem invocationSeeded (before behind : Found) (content : String) (command : Command) :
    Invocation.ofFound before (behind.seeded content) command = Invocation.ofFound before behind command := by
  by_cases verbose : behind.has .verbose <;>
    simp [Invocation.ofFound, Found.seededHas, verbose, Found.count, Found.value?, Found.seededValues]

theorem lineSeeded {environment : Option String} {words given : List String} {content : String}
    {bare : Invocation} (read : read? environment words = some bare) (seedless : bare.command.Seedless)
    (unmarked : "--" ∉ words) (gives : Gives content given) :
    read? environment (words ++ given) = some {bare with command := bare.command.seeded content} := by
  have drawing (settings : Found) : ¬(Invocation.ofFound settings {} .version).command.Seedless := by
    rintro ⟨_, given, -⟩
    nomatch given
  unfold read? at read
  split at read
  next => nomatch read
  next =>
    cases read
    exact absurd seedless (drawing {})
  next before stopped =>
    split at read
    next =>
      cases read
      exact absurd seedless (drawing before)
    next => nomatch read
  next before name rest stopped =>
    have stoppedFurther := readFurther stopped unmarked given
    have unmarkedRest : "--" ∉ rest := fun inside => unmarked (restInside stopped inside)
    split at read
    next => nomatch read
    next verb verbRead =>
      split at read
      next behind done =>
        obtain ⟨command, commandRead, rfl⟩ := Option.map_eq_some_iff.mp read
        obtain ⟨drawing, unseeded, commandSeeded⟩ := commandSeeded commandRead seedless content
        have doneFurther := (readFurther done unmarkedRest given).trans (readGiven gives drawing unseeded)
        simp only [read?, stoppedFurther, Stop.further, verbRead, doneFurther, commandSeeded, Option.map_some,
          invocationSeeded]
        rfl
      next => nomatch read

end Pseudonym.CommandLine
