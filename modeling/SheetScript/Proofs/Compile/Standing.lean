import SheetScript.Compile.Standing
import SheetScript.Proofs.Compile.Prefixing
import SheetScript.Proofs.Prefix.Recall

/-!
What stays in a compiler between its runs makes no difference to them. After any runs, failed ones
included, and whatever happened to the files meanwhile, a compiler runs as one that is made at that
moment, as long as the capability data are the same and the command is there or not as before.
-/

namespace SheetScript.Compile

open SheetScript.Files SheetScript.Prefix

/-! Stages -/

theorem follows_keeping {α : Type} {fits : Kept → Prop} (stage : Stage α) :
    Follows Prod.mk fits stage.keeping stage := by
  intro trace kept isFit
  refine ⟨kept, isFit, ?_⟩
  unfold Stage.keeping
  cases ran : stage trace <;> simp only [ran, exitWith]

namespace Compiler

theorem prefixKeeping_follows (compiler : Compiler) (input output : Path) (css : String) :
    Follows Prod.mk compiler.engine.strategy.Fits (compiler.prefixKeeping input output css)
      (compiler.prefixStyles input output css) := by
  intro trace kept fits
  obtain ⟨later, laterFits, recalled⟩ :=
    Engine.recall_eq fits compiler.runner css input.toString output.toString
  refine ⟨later, laterFits, ?_⟩
  unfold prefixKeeping prefixStyles
  rw [bind_of_get]
  simp only [recalled]
  rfl

theorem runKeeping_follows (compiler : Compiler) (input output : Path) :
    Follows Prod.mk compiler.engine.strategy.Fits (compiler.runKeeping input output)
      (compiler.run input output) := by
  unfold runKeeping run make
  simp only [bind_assoc]
  refine (follows_keeping _).bind fun source => ?_
  refine (follows_keeping _).bind fun css => ?_
  refine (follows_keeping _).bind fun _ => ?_
  refine (compiler.prefixKeeping_follows input output css).bind fun given => ?_
  refine (follows_keeping _).bind fun made => ?_
  exact (follows_keeping _).bind fun _ => follows_pure made

end Compiler

/-! Runs -/

namespace Standing

variable {standing : Standing}

def Fits (standing : Standing) : Prop :=
  standing.engine.strategy.Fits standing.kept

def Same (standing later : Standing) : Prop :=
  later.Fits ∧ later = { standing with kept := later.kept }

/-- A compiler in which something stays runs as one in which nothing does. -/
theorem runOn_eq (fits : standing.Fits) (runner : Runner) (memory : Script.Memory)
    (space : Workspace) (input output : Path) :
    ∃ later, standing.Same later ∧ standing.runOn runner memory space input output =
      ((standing.compiler runner memory).runOn space input output, later) := by
  have follows := (standing.compiler runner memory).runKeeping_follows input output
  obtain ⟨kept, keptFits, ran⟩ := follows ⟨space, []⟩ standing.kept fits
  refine ⟨{ standing with kept := kept }, ⟨keptFits, rfl⟩, ?_⟩
  simp only [runOn, Compiler.runOn, ran]
  cases (standing.compiler runner memory).run input output ⟨space, []⟩ <;> rfl

/-! Histories -/

inductive Event
  | run (runner : Runner) (memory : Script.Memory) (input output : Path)
  | edit (after : Workspace)

structure Moment where
  standing : Standing
  space : Workspace

namespace Moment

def next (moment : Moment) : Event → Moment
  | .run runner memory input output =>
    let ((_, after, _), later) := moment.standing.runOn runner memory moment.space input output
    ⟨later, after⟩
  | .edit after => { moment with space := after }

def afterEvents (moment : Moment) (events : List Event) : Moment :=
  events.foldl next moment

theorem next_same {moment : Moment} (fits : moment.standing.Fits) (event : Event) :
    moment.standing.Same (moment.next event).standing := by
  cases event with
  | edit after => exact ⟨fits, rfl⟩
  | run runner memory input output =>
      obtain ⟨later, same, ran⟩ := runOn_eq fits runner memory moment.space input output
      rw [next, ran]
      exact same

theorem afterEvents_same {moment : Moment} (fits : moment.standing.Fits) (events : List Event) :
    moment.standing.Same (moment.afterEvents events).standing := by
  induction events generalizing moment with
  | nil => exact ⟨fits, rfl⟩
  | cons event events ih =>
      have first := next_same fits event
      have rest := ih first.1
      refine ⟨rest.1, rest.2.trans ?_⟩
      rw [first.2]
      rfl

end Moment

/-! Compilers made afresh -/

/-- The file with the capability data, if there is one, and its text. -/
def dataFile? (space : Workspace) (given environment : Option String) :
    Option (Path × Option String) :=
  ((Dataset.places given environment).find? space.isFile).map fun place =>
    (place, (space.readText place).toOption)

/-- Of all files only the one with the data counts. -/
theorem discover_congr {space after : Workspace} {given environment later : Option String}
    (same : dataFile? after given later = dataFile? space given environment) :
    Dataset.discover after given later = Dataset.discover space given environment := by
  unfold dataFile? at same
  unfold Dataset.discover
  cases before : (Dataset.places given environment).find? space.isFile with
  | none =>
      rw [before, Option.map_none, Option.map_eq_none_iff] at same
      rw [same]
  | some place =>
      rw [before, Option.map_some, Option.map_eq_some_iff] at same
      obtain ⟨found, isFound, both⟩ := same
      obtain ⟨rfl, sameText⟩ := Prod.mk.inj both
      rw [isFound]
      simp only [Dataset.load]
      cases text : space.readText found <;> cases textAfter : after.readText found <;>
        simp_all [Except.toOption]

/-- The data file is the same, and the command is there or not as before, where that counts. -/
structure Unchanged (config : Config) (before now : Surroundings) : Prop where
  data : dataFile? now.space config.dataPath now.dataVariable =
    dataFile? before.space config.dataPath before.dataVariable
  command : config.mode = .lightweight ∨
    now.commandExists config.command = before.commandExists config.command

variable {around now : Surroundings} {config : Config} {extensions : List String} {note : Log}

theorem choose_congr (unchanged : Unchanged config around now) :
    choose config.mode (now.commandExists config.command) =
      choose config.mode (around.commandExists config.command) := by
  rcases unchanged.command with isLightweight | same
  · rw [isLightweight]
    rfl
  · rw [same]

theorem strategyFor_congr (unchanged : Unchanged config around now) (choice : Choice) :
    Engine.strategyFor now ⟨none, none⟩ config choice =
      Engine.strategyFor around ⟨none, none⟩ config choice := by
  cases choice with
  | full => rfl
  | lightweight => simp only [Engine.strategyFor, discover_congr unchanged.data]

/-- A compiler that is made now differs at most in what its engine knows about the command. -/
theorem create_congr (unchanged : Unchanged config around now)
    (made : create around config extensions = (.ok standing, note)) :
    create now config extensions = (.ok { standing with
      engine := { standing.engine with available := now.commandExists config.command } }, note) := by
  unfold create at made ⊢
  rw [Engine.create_eq] at made ⊢
  simp only [Engine.isAvailable, Option.getD_none, choose_congr unchanged,
    strategyFor_congr unchanged] at made ⊢
  cases found : Engine.strategyFor around ⟨none, none⟩ config
      (choose config.mode (around.commandExists config.command)).1 with
  | error fault =>
      rw [found] at made
      cases (Prod.mk.inj made).1
  | ok strategy =>
      rw [found] at made
      obtain ⟨isStanding, rfl⟩ := Prod.mk.inj made
      obtain rfl := Except.ok.inj isStanding
      rfl

theorem kept_of_create (made : create around config extensions = (.ok standing, note)) :
    standing.kept = none := by
  rcases found : Engine.create around ⟨none, none⟩ config with ⟨fault | engine, log⟩
  · simp only [create, found] at made
    cases (Prod.mk.inj made).1
  · simp only [create, found] at made
    obtain rfl := Except.ok.inj (Prod.mk.inj made).1
    rfl

theorem exists_create (found : (create around config extensions).1.toOption = some standing) :
    ∃ note, create around config extensions = (.ok standing, note) := by
  rcases made : create around config extensions with ⟨fault | other, note⟩
  · rw [made] at found
    cases found
  · rw [made] at found
    obtain rfl := Option.some.inj found
    exact ⟨note, rfl⟩

/--
Whatever a compiler has run before, and whatever has happened to the files meanwhile: if the data
file is as it was when the compiler was made, and the command is there or not as it was, then a
compiler can be made for the files as they are, and the next run has the answer, the files and the
log of a run of that one for which other programs do the same and things are in the same places.
-/
theorem runOn_after_events (made : create around config extensions = (.ok standing, note))
    (events : List Event) {moment : Moment}
    (reached : Moment.afterEvents ⟨standing, around.space⟩ events = moment)
    (isNow : now.space = moment.space) (unchanged : Unchanged config around now) :
    ∃ fresh, create now config extensions = (.ok fresh, note) ∧
      ∀ runner memory input output,
        (moment.standing.runOn runner memory moment.space input output).1 =
          (fresh.runOn runner memory now.space input output).1 := by
  have fits : standing.Fits := by
    rw [Fits, kept_of_create made]
    exact Strategy.fits_none _
  have same : standing.Same moment.standing := by
    rw [← reached]
    exact Moment.afterEvents_same fits events
  refine ⟨_, create_congr unchanged made, fun runner memory input output => ?_⟩
  have freshFits : Fits { standing with
      engine := { standing.engine with available := now.commandExists config.command } } := fits
  obtain ⟨_, -, ran⟩ := runOn_eq same.1 runner memory moment.space input output
  obtain ⟨_, -, ranFresh⟩ := runOn_eq freshFits runner memory now.space input output
  rw [ran, ranFresh, same.2, isNow]
  rfl

def aroundTransform : Surroundings :=
  ⟨spaceOf "a\x7btransform:none\x7d" transformsOf20, none, fun _ => false⟩

/-- A run that finds no document, one that prefixes, and then another document in its place. -/
def missedThenPrefixed : List Event :=
  [.run stuckRunner default ⟨0, ["gone.jcss"]⟩ ⟨0, ["out.css"]⟩,
    .run stuckRunner default ⟨0, ["in.jcss"]⟩ ⟨0, ["out.css"]⟩,
    .edit (spaceOf "b\x7btransform:none\x7d" transformsOf20)]

/-- Other surroundings with the same data: another file is named for them, and commands are found. -/
def withCommands (space : Workspace) : Surroundings :=
  ⟨space, some "other.json", fun _ => true⟩

theorem runOn_after_missedThenPrefixed : ∃ standing note moment fresh,
    create aroundTransform forChrome20 [".jcss"] = (.ok standing, note) ∧
      Moment.afterEvents ⟨standing, aroundTransform.space⟩ missedThenPrefixed = moment ∧
      moment.standing.kept = some [⟨"chrome", "20"⟩] ∧
      create (withCommands moment.space) forChrome20 [".jcss"] = (.ok fresh, note) ∧
      ∀ runner memory input output,
        (moment.standing.runOn runner memory moment.space input output).1 =
          (fresh.runOn runner memory moment.space input output).1 := by
  have ends : ((create aroundTransform forChrome20 [".jcss"]).1.toOption.map fun standing =>
      let moment := Moment.afterEvents ⟨standing, aroundTransform.space⟩ missedThenPrefixed
      (moment.standing.kept, dataFile? moment.space (some "data.json") (some "other.json"))) =
        some (some [⟨"chrome", "20"⟩],
          dataFile? aroundTransform.space (some "data.json") none) := by
    decide +kernel
  obtain ⟨standing, isStanding, ends⟩ := Option.map_eq_some_iff.1 ends
  obtain ⟨note, made⟩ := exists_create isStanding
  obtain ⟨kept, sameData⟩ := Prod.mk.inj ends
  have unchanged : Unchanged forChrome20 aroundTransform (withCommands _) :=
    ⟨sameData, .inl rfl⟩
  obtain ⟨fresh, isFresh, answers⟩ :=
    runOn_after_events made missedThenPrefixed rfl rfl unchanged
  exact ⟨standing, note, _, fresh, made, rfl, kept, isFresh, answers⟩

/-! What else makes runs differ -/

def aroundBuilder : Surroundings :=
  ⟨spaceOf "a\x7bb:'<@ chain.cssOutput = chain @>'\x7d" transformsOf20, none, fun _ => false⟩

/-- Prefixing by the command if there is one, and with tables if there is none. -/
def forWhatThereIs : Config :=
  { forChrome20 with mode := .auto }

def otherStuckRunner : Runner :=
  { stuckRunner with directory := ⟨1, ["tmp", "other"]⟩ }

def shown (standing : Standing) (runner : Runner) (memory : Script.Memory) :
    Option (Option String) × Log :=
  let ran := (standing.runOn runner memory aroundBuilder.space ⟨0, ["in.jcss"]⟩ ⟨0, ["out.css"]⟩).1
  (ran.1.toOption.map Output.css, ran.2.2)

/--
A compiler that is made when the command has come to be there runs differently. So does any compiler
when its builder is elsewhere in memory, or when a program that it waits for has another directory.
-/
theorem fresh_run_differs : ∃ standing fresh note later,
    create aroundBuilder forWhatThereIs [".jcss"] = (.ok standing, note) ∧
      create { aroundBuilder with commandExists := fun _ => true } forWhatThereIs [".jcss"] =
        (.ok fresh, later) ∧
      standing.shown stuckRunner default ≠ fresh.shown stuckRunner default ∧
      standing.shown stuckRunner default ≠
        standing.shown stuckRunner { (default : Script.Memory) with builder := 1 } ∧
      fresh.shown stuckRunner default ≠ fresh.shown otherStuckRunner default := by
  have byCommand : ((create aroundBuilder forWhatThereIs [".jcss"]).1.toOption.bind fun standing =>
      (create { aroundBuilder with commandExists := fun _ => true } forWhatThereIs
        [".jcss"]).1.toOption.map fun fresh => decide (
          standing.shown stuckRunner default ≠ fresh.shown stuckRunner default)) = some true := by
    decide +kernel
  have byMemory : ((create aroundBuilder forWhatThereIs [".jcss"]).1.toOption.map fun standing =>
      decide (standing.shown stuckRunner default ≠
        standing.shown stuckRunner { (default : Script.Memory) with builder := 1 })) =
          some true := by
    decide +kernel
  have byDirectory : ((create { aroundBuilder with commandExists := fun _ => true } forWhatThereIs
      [".jcss"]).1.toOption.map fun fresh => decide (
        fresh.shown stuckRunner default ≠ fresh.shown otherStuckRunner default)) = some true := by
    decide +kernel
  obtain ⟨standing, isStanding, byCommand⟩ := Option.bind_eq_some_iff.1 byCommand
  obtain ⟨fresh, isFresh, byCommand⟩ := Option.map_eq_some_iff.1 byCommand
  rw [isStanding, Option.map_some] at byMemory
  rw [isFresh, Option.map_some] at byDirectory
  obtain ⟨note, made⟩ := exists_create isStanding
  obtain ⟨later, madeLater⟩ := exists_create isFresh
  exact ⟨standing, fresh, note, later, made, madeLater, of_decide_eq_true byCommand,
    of_decide_eq_true (Option.some.inj byMemory), of_decide_eq_true (Option.some.inj byDirectory)⟩

end Standing

end SheetScript.Compile
