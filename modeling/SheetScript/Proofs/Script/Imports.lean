import SheetScript.Proofs.Files.Write
import SheetScript.Proofs.Script.Task
import Mathlib.Data.List.Nodup
import Mathlib.Data.List.Perm.Subperm

/-!
Imports inside one another. The files being imported are distinct, so there are never more of them
than files, a run ends without a bound on how deep imports nest, and the bound that evaluation is
given never shows.
-/

namespace SheetScript.Files

namespace Path

theorem collapse_plain (parts : List String) : ".." ∉ collapse parts := by
  have plain : ∀ kept : List String, ".." ∉ kept →
      ".." ∉ parts.foldl (fun kept name => if name = ".." then kept.drop 1 else name :: kept) kept := by
    induction parts with
    | nil => exact fun kept none => none
    | cons name rest ih =>
        intro kept none
        rw [List.foldl_cons]
        refine ih _ ?_
        split
        · exact fun inside => none (List.mem_of_mem_drop inside)
        · rename_i different
          exact fun inside => (List.mem_cons.1 inside).elim (fun same => different same.symm) none
  rw [collapse, List.mem_reverse]
  exact plain [] List.not_mem_nil

end Path

namespace Workspace

def holdsFile (space : Workspace) (location : Location) : Bool :=
  match space.entryAt? location with
  | some (.file _) => true
  | _ => false

def files (space : Workspace) : List Location :=
  (space.entries.map Prod.fst).eraseDups.filter space.holdsFile

theorem mem_entries_of_holdsFile {space : Workspace} {location : Location}
    (holds : space.holdsFile location = true) : location ∈ space.entries.map Prod.fst := by
  unfold holdsFile entryAt? at holds
  by_cases root : location.isEmpty = true
  · simp [root] at holds
  · simp only [root, Bool.false_eq_true, if_false] at holds
    cases found : space.entries.lookup location with
    | none => simp [found] at holds
    | some entry =>
        obtain ⟨front, back, same, -⟩ := List.lookup_eq_some_iff.1 found
        rw [same, List.map_append, List.map_cons]
        exact List.mem_append_right _ List.mem_cons_self

theorem mem_files {space : Workspace} {location : Location} :
    location ∈ space.files ↔ space.holdsFile location = true := by
  rw [files, List.mem_filter, List.mem_eraseDups]
  exact ⟨And.right, fun holds => ⟨mem_entries_of_holdsFile holds, holds⟩⟩

theorem walk_plain {space : Workspace} {names : List String} (plain : ".." ∉ names)
    {start location : Location} (found : space.walk start names = .ok location) :
    location = start ++ names := by
  induction names generalizing start with
  | nil =>
      rw [List.append_nil]
      exact (Except.ok.inj found).symm
  | cons name rest ih =>
      have notUp : name ≠ ".." := fun same => plain (same ▸ List.mem_cons_self)
      rw [walk] at found
      cases entry : space.entryAt? start with
      | none =>
          rw [entry] at found
          cases found
      | some inside =>
          cases inside with
          | file bytes =>
              rw [entry] at found
              cases found
          | directory =>
              rw [entry] at found
              dsimp only at found
              rw [if_neg notUp] at found
              have behind := ih (fun inside => plain (List.mem_cons_of_mem name inside)) found
              rw [behind, List.append_assoc, List.singleton_append]

theorem located_of_isFile {space : Workspace} {path : Path} (absolute : path.slashes = 1)
    (plain : ".." ∉ path.parts) (isFile : space.isFile path = true) :
    space.locate path = .ok path.parts ∧ path.parts ∈ space.files := by
  unfold Workspace.isFile at isFile
  cases found : space.locate path with
  | error fault => simp [found, Except.map] at isFile
  | ok location =>
      obtain ⟨-, walks⟩ := (locate_eq_ok space path location).1 found
      have isAbsolute : path.isAbsolute = true := by simp [Path.isAbsolute, absolute]
      rw [if_pos isAbsolute] at walks
      -- Nothing leads up, so the walk from the root goes down the parts of the path.
      obtain rfl : location = path.parts := walk_plain plain walks
      refine ⟨rfl, mem_files.2 ?_⟩
      rw [found] at isFile
      unfold holdsFile
      cases entry : space.entryAt? path.parts with
      | none => simp [Except.map, entry] at isFile
      | some inside =>
          cases inside with
          | file bytes => rfl
          | directory => simp [Except.map, entry] at isFile

end Workspace

end SheetScript.Files

namespace SheetScript.Script

open SheetScript.Document SheetScript.Files

/-- Distinct files, each named by the way to it. -/
structure SoundStack (space : Workspace) (stack : List Path) : Prop where
  distinct : stack.Nodup
  absolute : ∀ path ∈ stack, path.slashes = 1
  found : ∀ path ∈ stack, space.locate path = .ok path.parts ∧ path.parts ∈ space.files

namespace SoundStack

variable {space : Workspace} {stack : List Path}

theorem nil : SoundStack space [] :=
  ⟨List.nodup_nil, nofun, nofun⟩

theorem distinct_files (sound : SoundStack space stack) : (stack.map Path.parts).Nodup := by
  refine sound.distinct.map_on fun first inFirst second inSecond same => ?_
  have slashes := (sound.absolute first inFirst).trans (sound.absolute second inSecond).symm
  obtain ⟨firstSlashes, firstParts⟩ := first
  obtain ⟨secondSlashes, secondParts⟩ := second
  cases same
  cases slashes
  rfl

theorem length_le (sound : SoundStack space stack) : stack.length ≤ space.files.length := by
  have inFiles : stack.map Path.parts ⊆ space.files := by
    intro location inside
    obtain ⟨path, inStack, rfl⟩ := List.mem_map.1 inside
    exact (sound.found path inStack).2
  have bound := (sound.distinct_files.subperm inFiles).length_le
  rwa [List.length_map] at bound

theorem length_le_entries (sound : SoundStack space stack) :
    stack.length ≤ space.entries.length := by
  have inEntries : stack.map Path.parts ⊆ space.entries.map Prod.fst := by
    intro location inside
    obtain ⟨path, inStack, rfl⟩ := List.mem_map.1 inside
    exact Workspace.mem_entries_of_holdsFile (Workspace.mem_files.1 (sound.found path inStack).2)
  have bound := (sound.distinct_files.subperm inEntries).length_le
  rwa [List.length_map, List.length_map] at bound

end SoundStack

namespace World

def entered (world : World) (path : Path) : World :=
  { world with base := some path.parent, importing := world.importing ++ [path] }

def left (world after : World) : World :=
  { after with
    output := world.output
    base := world.base
    importing := after.importing.dropLast }

theorem left_entered (world : World) (path : Path) : world.left (world.entered path) = world := by
  unfold left entered
  rw [List.dropLast_concat]

end World

namespace Import

section

variable {setting : Setting} {world : World}

theorem locate_eq_ok {base : Option Path} {importing : List Path} {name : String} {path : Path}
    (found : locate setting base importing name = .ok path) :
    path = resolve setting base name ∧ setting.workspace.isFile path = true ∧ path ∉ importing := by
  unfold locate at found
  dsimp only at found
  split at found
  · cases found
  · split at found
    · cases found
    · split at found
      · cases found
      · split at found
        · cases found
        · rename_i isFile absent
          obtain rfl := Except.ok.inj found
          refine ⟨rfl, ?_, fun inside => absent (List.contains_iff_mem.2 inside)⟩
          simpa using isFile

/-- A file that an import finds was not being imported. -/
theorem sound_locate (sound : SoundStack setting.workspace world.importing) {name : String}
    {path : Path} (found : locate setting world.base world.importing name = .ok path) :
    SoundStack setting.workspace (world.importing ++ [path]) := by
  obtain ⟨rfl, isFile, absent⟩ := locate_eq_ok found
  have located := Workspace.located_of_isFile rfl (Path.collapse_plain _) isFile
  refine ⟨List.nodup_append.2 ⟨sound.distinct, List.nodup_singleton _, ?_⟩, ?_, ?_⟩
  · rintro other inside last isLast rfl
    exact absent (List.mem_singleton.1 isLast ▸ inside)
  · intro other inside
    rcases List.mem_append.1 inside with before | last
    · exact sound.absolute other before
    · obtain rfl := List.mem_singleton.1 last
      rfl
  · intro other inside
    rcases List.mem_append.1 inside with before | last
    · exact sound.found other before
    · obtain rfl := List.mem_singleton.1 last
      exact located

/-- With as many files being imported as there can be none is found. -/
theorem locate_full (sound : SoundStack setting.workspace world.importing)
    (full : setting.workspace.entries.length ≤ world.importing.length) (name : String) :
    ∃ fault, locate setting world.base world.importing name = .error fault := by
  cases found : locate setting world.base world.importing name with
  | error fault => exact ⟨fault, rfl⟩
  | ok path =>
      have bound := (sound_locate sound found).length_le_entries
      rw [List.length_append, List.length_singleton] at bound
      omega

end

variable (setting : Setting)

def importWith (handler : Value → Step Value) (value : Value) : Step Value := do
  let world ← get
  match value.display? world.store world.objects with
  | none => throw .integerTooLong
  | some name =>
    let path ← find setting name
    load setting (Evaluate.script handler) path

def opened (value : Value) (world : World) : Except ScriptFault (String × World) :=
  match value.display? world.store world.objects with
  | none => .error .integerTooLong
  | some name =>
    match locate setting world.base world.importing name with
    | .error fault => .error fault
    | .ok path =>
      match setting.workspace.readText path with
      | .ok source => .ok (source, world.entered path)
      | .error _ => .error .importUndecodable

def getFile : Value → Step Value :=
  importFile setting setting.workspace.entries.length

variable {setting} {handler : Value → Step Value} {value : Value} {world : World}

theorem find_ok {name : String} {path : Path}
    (found : locate setting world.base world.importing name = .ok path) :
    find setting name world = .ok path world := by
  refine (bind_of_get world).trans ?_
  rw [found]
  rfl

theorem find_error {name : String} {fault : ScriptFault}
    (fails : locate setting world.base world.importing name = .error fault) :
    find setting name world = .error fault world := by
  refine (bind_of_get world).trans ?_
  rw [fails]
  rfl

theorem importWith_unnamed (unnamed : value.display? world.store world.objects = none) :
    importWith setting handler value world = .error .integerTooLong world := by
  refine (bind_of_get world).trans ?_
  rw [unnamed]
  rfl

theorem importWith_missing {name : String} {fault : ScriptFault}
    (named : value.display? world.store world.objects = some name)
    (fails : locate setting world.base world.importing name = .error fault) :
    importWith setting handler value world = .error fault world := by
  refine (bind_of_get world).trans ?_
  rw [named]
  exact bind_of_error (find_error fails)

theorem importWith_found {name : String} {path : Path}
    (named : value.display? world.store world.objects = some name)
    (found : locate setting world.base world.importing name = .ok path) :
    importWith setting handler value world =
      load setting (Evaluate.script handler) path world := by
  refine (bind_of_get world).trans ?_
  rw [named]
  exact bind_of_ok (find_ok found)

theorem importWith_error {fault : ScriptFault} (fails : opened setting value world = .error fault) :
    importWith setting handler value world = .error fault world := by
  unfold opened at fails
  cases named : value.display? world.store world.objects with
  | none =>
      rw [named] at fails
      cases fails
      exact importWith_unnamed named
  | some name =>
      rw [named] at fails
      dsimp only at fails
      cases found : locate setting world.base world.importing name with
      | error reason =>
          rw [found] at fails
          cases fails
          exact importWith_missing named found
      | ok path =>
          rw [found] at fails
          dsimp only at fails
          rw [importWith_found named found]
          cases reads : setting.workspace.readText path with
          | ok source =>
              rw [reads] at fails
              cases fails
          | error reason =>
              rw [reads] at fails
              cases fails
              unfold load
              rw [reads]
              exact congrArg (EStateM.Result.error _) (world.left_entered path)

theorem opened_eq_ok {source : String} {inside : World}
    (opens : opened setting value world = .ok (source, inside)) :
    ∃ name path, value.display? world.store world.objects = some name ∧
      locate setting world.base world.importing name = .ok path ∧
      setting.workspace.readText path = .ok source ∧ inside = world.entered path := by
  unfold opened at opens
  cases named : value.display? world.store world.objects with
  | none =>
      rw [named] at opens
      cases opens
  | some name =>
      rw [named] at opens
      dsimp only at opens
      cases found : locate setting world.base world.importing name with
      | error reason =>
          rw [found] at opens
          cases opens
      | ok path =>
          rw [found] at opens
          dsimp only at opens
          cases reads : setting.workspace.readText path with
          | error reason =>
              rw [reads] at opens
              cases opens
          | ok text =>
              rw [reads] at opens
              cases opens
              exact ⟨name, path, rfl, found, reads, rfl⟩

theorem during_ok {path : Path} {step : Step Value} {after : World}
    (ran : step (world.entered path) = .ok value after) :
    during path step world = .ok value (world.left after) := by
  have inside : step { world with
      base := some path.parent
      importing := world.importing ++ [path] } = .ok value after := ran
  unfold during
  rw [inside]
  rfl

theorem during_error {path : Path} {step : Step Value} {fault : ScriptFault} {after : World}
    (ran : step (world.entered path) = .error fault after) :
    during path step world = .error fault (world.left after) := by
  have inside : step { world with
      base := some path.parent
      importing := world.importing ++ [path] } = .error fault after := ran
  unfold during
  rw [inside]
  rfl

theorem importWith_ok {source : String} {inside after : World} {names : Scope}
    (opens : opened setting value world = .ok (source, inside))
    (ran : (Task.namespaceOf [] (split source)).run handler inside = .ok names after) :
    importWith setting handler value world = .ok (.object after.objects.length)
      (world.left { after with objects := after.objects ++ [names] }) := by
  obtain ⟨name, path, named, found, reads, rfl⟩ := opened_eq_ok opens
  rw [importWith_found named found, load, reads]
  exact during_ok (bind_of_ok ran)

theorem importWith_fault {source : String} {inside after : World} {fault : ScriptFault}
    (opens : opened setting value world = .ok (source, inside))
    (ran : (Task.namespaceOf [] (split source)).run handler inside = .error fault after) :
    importWith setting handler value world = .error fault (world.left after) := by
  obtain ⟨name, path, named, found, reads, rfl⟩ := opened_eq_ok opens
  rw [importWith_found named found, load, reads]
  exact during_error (bind_of_error ran)

/-! How deep imports may nest does not matter -/

theorem importFile_succ (depth : Nat) :
    importFile setting (depth + 1) value = importWith setting (importFile setting depth) value := by
  unfold importFile importWith
  rfl

theorem importFile_zero_error {name : String} {fault : ScriptFault}
    (named : value.display? world.store world.objects = some name)
    (fails : locate setting world.base world.importing name = .error fault) :
    importFile setting 0 value world = .error fault world := by
  unfold importFile
  refine (bind_of_get world).trans ?_
  rw [named]
  exact bind_of_error (find_error fails)

theorem importFile_zero_unnamed (unnamed : value.display? world.store world.objects = none) :
    importFile setting 0 value world = .error .integerTooLong world := by
  unfold importFile
  refine (bind_of_get world).trans ?_
  rw [unnamed]
  rfl

/-- Where no import can find its file it makes no difference how deep imports may nest. -/
theorem importFile_full (sound : SoundStack setting.workspace world.importing)
    (full : setting.workspace.entries.length ≤ world.importing.length) (depth : Nat) :
    importFile setting depth value world = importFile setting 0 value world := by
  cases depth with
  | zero => rfl
  | succ depth =>
      rw [importFile_succ]
      cases named : value.display? world.store world.objects with
      | none => rw [importWith_unnamed named, importFile_zero_unnamed named]
      | some name =>
          obtain ⟨fault, fails⟩ := locate_full sound full name
          rw [importWith_missing named fails, importFile_zero_error named fails]

theorem importWith_agree {first second : Value → Step Value}
    (keeps : ∀ value, KeepsPlace (first value))
    (agree : ∀ source inside, opened setting value world = .ok (source, inside) →
      ∀ value now, now.importing = inside.importing → first value now = second value now) :
    importWith setting first value world = importWith setting second value world := by
  cases opens : opened setting value world with
  | error fault => rw [importWith_error opens, importWith_error opens]
  | ok start =>
      obtain ⟨source, inside⟩ := start
      -- The handler is used only by the scripts of the document, while it is being imported.
      have same := Task.run_agree keeps (agree source inside opens)
        (.namespaceOf [] (split source)) inside rfl
      cases ran : (Task.namespaceOf [] (split source)).run first inside with
      | ok names after => rw [importWith_ok opens ran, importWith_ok opens (same.symm.trans ran)]
      | error fault after =>
          rw [importWith_fault opens ran, importWith_fault opens (same.symm.trans ran)]

theorem sound_opened (sound : SoundStack setting.workspace world.importing) {source : String}
    {inside : World} (opens : opened setting value world = .ok (source, inside)) :
    SoundStack setting.workspace inside.importing ∧
      inside.importing.length = world.importing.length + 1 := by
  obtain ⟨name, path, -, found, -, rfl⟩ := opened_eq_ok opens
  exact ⟨sound_locate sound found, List.length_append⟩

/-- Every depth that leaves room for the files that are not being imported does the same. -/
theorem importFile_agree {first second : Nat}
    (sound : SoundStack setting.workspace world.importing)
    (firstEnough : setting.workspace.entries.length ≤ first + world.importing.length)
    (secondEnough : setting.workspace.entries.length ≤ second + world.importing.length) :
    importFile setting first value world = importFile setting second value world := by
  induction first generalizing second value world with
  | zero => exact (importFile_full sound (by omega) second).symm
  | succ first ih =>
      cases second with
      | zero => exact importFile_full sound (by omega) (first + 1)
      | succ second =>
          rw [importFile_succ, importFile_succ]
          -- Inside, one more file is being imported, which makes up for the depth that is used.
          refine importWith_agree (importFile_keepsPlace setting first) ?_
          intro source inside opens argument now same
          obtain ⟨soundInside, deeper⟩ := sound_opened sound opens
          rw [← same] at soundInside deeper
          exact ih soundInside (by omega) (by omega)

/-- An import nests as deep as it likes: `getFile` is what it is with itself for its handler. -/
theorem getFile_eq (sound : SoundStack setting.workspace world.importing) :
    getFile setting value world = importWith setting (getFile setting) value world := by
  have deeper : getFile setting value world =
      importFile setting (setting.workspace.entries.length + 1) value world :=
    importFile_agree sound (by omega) (by omega)
  rw [deeper, importFile_succ]
  rfl

theorem getFile_keepsPlace (setting : Setting) (value : Value) : KeepsPlace (getFile setting value) :=
  importFile_keepsPlace setting _ value

end Import

/-! Moments of a run -/

/-- A task that begins, and the world it finds. -/
abbrev Moment := Task × World

def importMoments (setting : Setting) (value : Value) (world : World) : List Moment :=
  match Import.opened setting value world with
  | .ok (source, inside) => [(.namespaceOf [] (split source), inside)]
  | .error _ => []

theorem mem_importMoments {setting : Setting} {value : Value} {world : World} {moment : Moment} :
    moment ∈ importMoments setting value world ↔ ∃ source inside,
      Import.opened setting value world = .ok (source, inside) ∧
        moment = (.namespaceOf [] (split source), inside) := by
  unfold importMoments
  cases Import.opened setting value world with
  | ok start =>
      constructor
      · exact fun inside => ⟨_, _, rfl, List.mem_singleton.1 inside⟩
      · rintro ⟨_, _, same, rfl⟩
        cases same
        exact List.mem_singleton_self _
  | error fault =>
      constructor
      · exact nofun
      · rintro ⟨_, _, same, _⟩
        cases same

/-- What comes behind a result; behind a fault comes nothing. -/
def behindResult {α β : Type} (next : α → World → List β) :
    EStateM.Result ScriptFault World α → List β
  | .ok answer after => next answer after
  | .error _ _ => []

theorem mem_behindResult {α β : Type} {next : α → World → List β} {item : β}
    {result : EStateM.Result ScriptFault World α} :
    item ∈ behindResult next result ↔
      ∃ answer after, result = .ok answer after ∧ item ∈ next answer after := by
  cases result with
  | ok answer after =>
      constructor
      · exact fun inside => ⟨answer, after, rfl, inside⟩
      · rintro ⟨_, _, same, inside⟩
        cases same
        exact inside
  | error fault after =>
      constructor
      · exact nofun
      · rintro ⟨_, _, same, _⟩
        cases same

/-- The moments at which the tasks of a plan begin, one after another up to the first fault. -/
def Plan.moments (setting : Setting) {α : Type} : Plan α → World → List Moment
  | .finish _, _ => []
  | .call task next, world =>
    (task, world) :: behindResult (fun answer after => (next answer).moments setting after)
      (task.run (Import.getFile setting) world)
  | .load value next, world =>
    importMoments setting value world ++
      behindResult (fun answer after => (next answer).moments setting after)
        (Import.getFile setting value world)

def Moment.parts (setting : Setting) (moment : Moment) : List Moment :=
  moment.1.plan.moments setting moment.2

inductive Happens (setting : Setting) (start : Moment) : Moment → Prop
  | start : Happens setting start start
  | part {whole part : Moment} (happens : Happens setting start whole)
      (inside : part ∈ whole.parts setting) : Happens setting start part

section

variable {setting : Setting}

theorem Happens.inside {whole part moment : Moment} (within : part ∈ whole.parts setting)
    (happens : Happens setting part moment) : Happens setting whole moment := by
  induction happens with
  | start => exact .part .start within
  | part _ inside ih => exact .part ih inside

theorem run_place (setting : Setting) (task : Task) (world : World) :
    (stateAfter (task.run (Import.getFile setting) world)).place = world.place :=
  task.run_keepsPlace (Import.getFile_keepsPlace setting) world

theorem place_of_ok {task : Task} {world after : World} {answer : task.Answer}
    (ran : task.run (Import.getFile setting) world = .ok answer after) :
    after.place = world.place := by
  have kept := run_place setting task world
  rwa [ran] at kept

theorem importing_of_ok {task : Task} {world after : World} {answer : task.Answer}
    (ran : task.run (Import.getFile setting) world = .ok answer after) :
    after.importing = world.importing :=
  congrArg Place.importing (place_of_ok ran)

/-- The moments in a plan are tasks it calls, at the same place, and those at which imports begin. -/
theorem Plan.forall_moments {α : Type} {property : Moment → Prop} {place : Place}
    (imports : ∀ value now source inside, now.place = place →
      Import.opened setting value now = .ok (source, inside) →
        property (.namespaceOf [] (split source), inside))
    {plan : Plan α} (tasks : plan.All fun task => ∀ now, now.place = place → property (task, now)) :
    ∀ world, world.place = place → ∀ part ∈ plan.moments setting world, property part := by
  induction plan with
  | finish step => exact fun _ _ _ => nofun
  | call task next ih =>
      intro world same part inside
      rw [moments] at inside
      rcases List.mem_cons.1 inside with rfl | later
      · exact tasks.1 world same
      · obtain ⟨answer, after, ran, further⟩ := mem_behindResult.1 later
        exact ih answer (tasks.2 answer) after ((place_of_ok ran).trans same) part further
  | load value next ih =>
      intro world same part inside
      rw [moments] at inside
      rcases List.mem_append.1 inside with opening | later
      · obtain ⟨source, start, opens, rfl⟩ := mem_importMoments.1 opening
        exact imports value world source start same opens
      · obtain ⟨answer, after, ran, further⟩ := mem_behindResult.1 later
        have kept := @place_of_ok setting (.get value) _ _ _ ran
        exact ih answer (tasks answer) after (kept.trans same) part further

theorem sound_part {whole part : Moment}
    (sound : SoundStack setting.workspace whole.2.importing) (inside : part ∈ whole.parts setting) :
    SoundStack setting.workspace part.2.importing := by
  let property (moment : Moment) : Prop := SoundStack setting.workspace moment.2.importing
  have soundAt (now : World) (same : now.place = whole.2.place) :
      SoundStack setting.workspace now.importing := by
    have sameStack : now.importing = whole.2.importing := congrArg Place.importing same
    rw [sameStack]
    exact sound
  have tasks (task : Task) (now : World) (same : now.place = whole.2.place) :
      property (task, now) := soundAt now same
  have imports (value : Value) (now : World) (source : String) (within : World)
      (same : now.place = whole.2.place)
      (opens : Import.opened setting value now = .ok (source, within)) :
      property (.namespaceOf [] (split source), within) :=
    (Import.sound_opened (soundAt now same) opens).1
  exact @Plan.forall_moments _ _ property _ imports _ (Plan.all_of tasks _) whole.2 rfl part inside

/-- What every script can use is the same at all moments of a run. -/
theorem globals_of_part {whole part : Moment} (inside : part ∈ whole.parts setting) :
    globals part.2.memory = globals whole.2.memory := by
  let property (moment : Moment) : Prop := globals moment.2.memory = globals whole.2.memory
  have sameAt (now : World) (same : now.place = whole.2.place) :
      globals now.memory = globals whole.2.memory := by
    have builder : now.memory.builder = whole.2.memory.builder := congrArg Place.builder same
    have context : now.memory.context = whole.2.memory.context := congrArg Place.context same
    rw [globals, builder, context]
    rfl
  have tasks (task : Task) (now : World) (same : now.place = whole.2.place) :
      property (task, now) := sameAt now same
  have imports (value : Value) (now : World) (source : String) (within : World)
      (same : now.place = whole.2.place)
      (opens : Import.opened setting value now = .ok (source, within)) :
      property (.namespaceOf [] (split source), within) := by
    obtain ⟨_, _, _, _, _, rfl⟩ := Import.opened_eq_ok opens
    exact sameAt now same
  exact @Plan.forall_moments _ _ property _ imports _ (Plan.all_of tasks _) whole.2 rfl part inside

theorem globals_of_happens {start moment : Moment} (happens : Happens setting start moment) :
    globals moment.2.memory = globals start.2.memory := by
  induction happens with
  | start => rfl
  | part _ inside ih => exact (globals_of_part inside).trans ih

theorem sound_happens {start moment : Moment}
    (sound : SoundStack setting.workspace start.2.importing)
    (happens : Happens setting start moment) :
    SoundStack setting.workspace moment.2.importing := by
  induction happens with
  | start => exact sound
  | part _ inside ih => exact sound_part ih inside

/--
Going from a moment to its parts comes to an end: at first by the files that are not being imported
yet, and between two imports along the script.
-/
theorem acc_parts {moment : Moment} (sound : SoundStack setting.workspace moment.2.importing) :
    Acc (fun part whole => part ∈ Moment.parts setting whole) moment := by
  generalize free : setting.workspace.entries.length - moment.2.importing.length = count
  induction count using Nat.strongRecOn generalizing moment with
  | ind count deeper =>
      obtain ⟨task, world⟩ := moment
      -- With the same files being imported the parts are parts of the script, where `of_plan` goes.
      have here : ∀ (task : Task) (now : World), now.place = world.place →
          Acc (fun part whole => part ∈ Moment.parts setting whole) (task, now) := by
        refine Task.of_plan fun task tasks now same => Acc.intro _ fun part inside => ?_
        refine Plan.forall_moments (fun value before source within stays opens => ?_) tasks now same
          part inside
        have sameStack : before.importing = world.importing := congrArg Place.importing stays
        obtain ⟨soundWithin, longer⟩ := Import.sound_opened (sameStack ▸ sound) opens
        have room := soundWithin.length_le_entries
        have fewer : setting.workspace.entries.length - within.importing.length < count := by
          rw [sameStack] at longer
          dsimp only at free longer
          omega
        exact deeper _ fewer soundWithin rfl
      exact here task world rfl

/-- Evaluation by rules that know no bound: the result that a plan ends in. -/
inductive Ends (setting : Setting) :
    {α : Type} → Plan α → World → EStateM.Result ScriptFault World α → Prop
  | finish {α : Type} (step : Step α) (world : World) :
      Ends setting (.finish step) world (step world)
  | call {α : Type} {task : Task} {next : task.Answer → Plan α} {world after : World}
      {answer : task.Answer} {result : EStateM.Result ScriptFault World α}
      (first : Ends setting task.plan world (.ok answer after))
      (rest : Ends setting (next answer) after result) : Ends setting (.call task next) world result
  | callFault {α : Type} {task : Task} {next : task.Answer → Plan α} {world after : World}
      {fault : ScriptFault} (first : Ends setting task.plan world (.error fault after)) :
      Ends setting (.call task next) world (.error fault after)
  | load {α : Type} {value : Value} {next : Value → Plan α} {world inside after : World}
      {source : String} {names : Scope} {result : EStateM.Result ScriptFault World α}
      (opens : Import.opened setting value world = .ok (source, inside))
      (scripts : Ends setting (Task.namespaceOf [] (split source)).plan inside (.ok names after))
      (rest : Ends setting (next (.object after.objects.length))
        (world.left { after with objects := after.objects ++ [names] }) result) :
      Ends setting (.load value next) world result
  | loadFault {α : Type} {value : Value} {next : Value → Plan α} {world inside after : World}
      {source : String} {fault : ScriptFault}
      (opens : Import.opened setting value world = .ok (source, inside))
      (scripts : Ends setting (Task.namespaceOf [] (split source)).plan inside
        (.error fault after)) :
      Ends setting (.load value next) world (.error fault (world.left after))
  | notOpened {α : Type} {value : Value} {next : Value → Plan α} {world : World}
      {fault : ScriptFault} (opens : Import.opened setting value world = .error fault) :
      Ends setting (.load value next) world (.error fault world)

/-- The rules lead to nothing but what evaluation gives. -/
theorem Ends.result_eq {α : Type} {plan : Plan α} {world : World}
    {result : EStateM.Result ScriptFault World α} (ends : Ends setting plan world result)
    (sound : SoundStack setting.workspace world.importing) :
    result = plan.run (Import.getFile setting) world := by
  -- On how the run ends, with the stack sound wherever a file is opened.
  induction ends with
  | finish step world => rfl
  | @call _ task next world after answer result _ _ first rest =>
      have ran := (first sound).symm
      rw [Task.run_plan] at ran
      rw [Plan.run, bind_of_ok ran]
      exact rest (importing_of_ok ran ▸ sound)
  | @callFault _ task next world after fault _ first =>
      have ran := (first sound).symm
      rw [Task.run_plan] at ran
      rw [Plan.run, bind_of_error ran]
  | @load _ value next world inside after source names result opens _ _ scripts rest =>
      have ran := (scripts (Import.sound_opened sound opens).1).symm
      rw [Task.run_plan] at ran
      have loads := (Import.getFile_eq sound).trans (Import.importWith_ok opens ran)
      have kept := @importing_of_ok setting (.get value) _ _ _ loads
      rw [Plan.run, bind_of_ok loads]
      exact rest (kept ▸ sound)
  | @loadFault _ value next world inside after source fault opens _ scripts =>
      have ran := (scripts (Import.sound_opened sound opens).1).symm
      rw [Task.run_plan] at ran
      have loads := (Import.getFile_eq sound).trans (Import.importWith_fault opens ran)
      rw [Plan.run, bind_of_error loads]
  | @notOpened _ value next world fault opens =>
      have loads := (@Import.getFile_eq _ value _ sound).trans (Import.importWith_error opens)
      rw [Plan.run, bind_of_error loads]

/-- A plan whose moments end does so itself. -/
theorem Plan.ends {α : Type} {plan : Plan α} {world : World}
    (sound : SoundStack setting.workspace world.importing)
    (parts : ∀ part ∈ plan.moments setting world,
      Ends setting part.1.plan part.2 (part.1.run (Import.getFile setting) part.2)) :
    Ends setting plan world (plan.run (Import.getFile setting) world) := by
  -- Along the plan: its first call ends by `parts`, and what comes behind it by induction.
  induction plan generalizing world with
  | finish step => exact .finish step world
  | call task next ih =>
      rw [moments] at parts
      have first := parts (task, world) List.mem_cons_self
      dsimp only at first
      rw [Plan.run]
      cases ran : task.run (Import.getFile setting) world with
      | error fault after =>
          rw [ran] at first
          rw [bind_of_error ran]
          exact .callFault first
      | ok answer after =>
          rw [ran] at first
          rw [bind_of_ok ran]
          exact .call first (ih answer (importing_of_ok ran ▸ sound) fun part inside =>
            parts part (List.mem_cons_of_mem _ (mem_behindResult.2 ⟨answer, after, ran, inside⟩)))
  | load value next ih =>
      rw [moments] at parts
      rw [Plan.run]
      have loads := @Import.getFile_eq _ value _ sound
      cases opens : Import.opened setting value world with
      | error fault =>
          rw [Import.importWith_error opens] at loads
          rw [bind_of_error loads]
          exact .notOpened opens
      | ok start =>
          obtain ⟨source, inside⟩ := start
          have scripts := parts (.namespaceOf [] (split source), inside)
            (List.mem_append_left _ (mem_importMoments.2 ⟨source, inside, opens, rfl⟩))
          dsimp only at scripts
          cases ran : (Task.namespaceOf [] (split source)).run (Import.getFile setting) inside with
          | error fault after =>
              rw [ran] at scripts
              rw [Import.importWith_fault opens ran] at loads
              rw [bind_of_error loads]
              exact .loadFault opens scripts
          | ok names after =>
              rw [ran] at scripts
              rw [Import.importWith_ok opens ran] at loads
              have kept := @importing_of_ok setting (.get value) _ _ _ loads
              rw [bind_of_ok loads]
              exact .load opens scripts (ih _ (kept ▸ sound) fun part inside =>
                parts part (List.mem_append_right _ (mem_behindResult.2 ⟨_, _, loads, inside⟩)))

theorem ends_run {moment : Moment} (sound : SoundStack setting.workspace moment.2.importing) :
    Ends setting moment.1.plan moment.2 (moment.1.run (Import.getFile setting) moment.2) := by
  -- By induction on the moments inside one another.
  induction acc_parts sound with
  | intro moment _ parts =>
      rw [← Task.run_plan]
      exact Plan.ends sound fun part inside => parts part inside (sound_part sound inside)

/--
However the files import one another: at every moment of a run the files being imported exist and are
distinct, so they are no more than there are files, and a task has the same ones at its end. The run
ends: rules without a bound on how deep imports nest lead to a result, and to no other than that of
`runScript`.
-/
theorem imports_of_run (setting : Setting) (source : String) {world : World}
    (idle : world.importing = []) :
    (∀ task now, Happens setting (.script source, world) (task, now) →
      (now.importing.map Path.parts).Nodup ∧
      (∀ path ∈ now.importing, setting.workspace.locate path = .ok path.parts ∧
        path.parts ∈ setting.workspace.files) ∧
      now.importing.length ≤ setting.workspace.files.length ∧
      (stateAfter (task.run (Import.getFile setting) now)).importing = now.importing) ∧
    ∀ result, Ends setting (Task.script source).plan world result ↔
      result = runScript setting source world := by
  have start : SoundStack setting.workspace world.importing := idle ▸ SoundStack.nil
  refine ⟨fun task now happens => ?_, fun result => ⟨fun ends => ?_, ?_⟩⟩
  · have sound : SoundStack setting.workspace now.importing := sound_happens start happens
    exact ⟨sound.distinct_files, sound.found, sound.length_le,
      congrArg Place.importing (run_place setting task now)⟩
  · rw [ends.result_eq start, Task.run_plan]
    rfl
  · rintro rfl
    exact @ends_run setting (.script source, world) start

end

/-- Two documents that import each other, one of them by another name of `get` and a longer way. -/
def circle : Setting where
  workspace := ⟨[(["a.jcss"], .file "<@ const b = get('b.jcss') @>".toUTF8),
    (["b.jcss"], .file "<@ const f = get; f('../a.jcss') @>".toUTF8)], []⟩
  extensions := [".jcss"]

theorem imports_of_run_circle :
    ∃ after, Ends circle (Task.script "get('a.jcss')").plan (World.start none default)
      (.error (.importCircle ["/a.jcss", "/b.jcss", "/a.jcss"]) after) := by
  have stops : faultAfter? (runScript circle "get('a.jcss')" (World.start none default)) =
      some (.importCircle ["/a.jcss", "/b.jcss", "/a.jcss"]) := by
    decide +kernel
  cases ran : runScript circle "get('a.jcss')" (World.start none default) with
  | ok names after =>
      rw [ran] at stops
      cases stops
  | error fault after =>
      rw [ran] at stops
      cases stops
      exact ⟨after, ((imports_of_run circle _ rfl).2 _).2 ran.symm⟩

end SheetScript.Script
