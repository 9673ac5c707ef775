import SheetScript.Compile.Compiler
import SheetScript.Proofs.Files.Write
import SheetScript.Proofs.Preserves

/-!
What a failed run leaves behind. No stage but the last touches a file, and the last one leaves
something behind in one case only: the style sheet is written, and a directory stands where its source
map has to go.
-/

namespace SheetScript.Compile

open SheetScript.Files

/-! Stages before the last -/

theorem note_keeps (records : Log) : Preserves Trace.space (Stage.note records) :=
  preserves_modify fun _ => rfl

theorem ofExcept_keeps {ε α : Type} (fault : ε → CompileFault) (result : Except ε α) :
    Preserves Trace.space (Stage.ofExcept fault result) := by
  cases result with
  | ok value => exact preserves_pure value
  | error found => exact preserves_throw (fault found)

theorem readDocument_keeps (compiler : Compiler) (input : Path) :
    Preserves Trace.space (compiler.readDocument input) := by
  have reading : ∀ fault : FileFault → CompileFault, Preserves Trace.space (do
      Stage.ofExcept fault ((← get).space.readText input)) :=
    fun fault => preserves_bind preserves_get fun _ => ofExcept_keeps fault _
  unfold Compiler.readDocument
  dsimp only
  split
  · exact preserves_bind (preserves_throw _) fun _ => reading _
  · exact reading _

theorem expandDocument_keeps (compiler : Compiler) (input : Path) (source : String) :
    Preserves Trace.space (compiler.expandDocument input source) :=
  preserves_bind preserves_get fun _ =>
    preserves_bind (note_keeps _) fun _ => ofExcept_keeps _ _

theorem checkStyles_keeps (input : Path) (css : String) :
    Preserves Trace.space (Compiler.checkStyles input css) :=
  preserves_bind (ofExcept_keeps _ _) fun _ => note_keeps _

theorem prefixStyles_keeps (compiler : Compiler) (input output : Path) (css : String) :
    Preserves Trace.space (compiler.prefixStyles input output css) :=
  preserves_bind (note_keeps _) fun _ => preserves_pure _

theorem assembleStyles_keeps (compiler : Compiler) (output : Path) (given : Output) :
    Preserves Trace.space (compiler.assembleStyles output given) :=
  preserves_bind (note_keeps _) fun _ => ofExcept_keeps _ _

theorem make_keeps (compiler : Compiler) (input output : Path) :
    Preserves Trace.space (compiler.make input output) :=
  preserves_bind (readDocument_keeps compiler input) fun source =>
    preserves_bind (expandDocument_keeps compiler input source) fun css =>
      preserves_bind (checkStyles_keeps input css) fun _ =>
        preserves_bind (prefixStyles_keeps compiler input output css) fun given =>
          assembleStyles_keeps compiler output given

/-! The last stage -/

/-- A style sheet whose source map goes into a file was made for a path with a name. -/
theorem assemble_named {given made : Output} {path : Path} {inlineMap : Bool}
    {minifier : Minifier} {log : Log}
    (assembled : assemble given path inlineMap minifier = (.ok made, log))
    (hasFile : hasMapFile made.map inlineMap = true) : ∃ mapPath, mapPath? path = some mapPath := by
  have notInline : inlineMap = false := by
    simp only [hasMapFile, Bool.and_eq_true, Bool.not_eq_true'] at hasFile
    exact hasFile.2
  subst notInline
  simp only [assemble, Bool.false_eq_true, ↓reduceIte] at assembled
  split at assembled
  · cases assembled
  · split at assembled
    · cases named : mapPath? path with
      | some mapPath => exact ⟨mapPath, rfl⟩
      | none =>
          rw [named] at assembled
          cases assembled
    · rename_i noFile
      cases assembled
      exact absurd hasFile noFile

theorem assembleStyles_eq_ok {compiler : Compiler} {output : Path} {given made : Output}
    {before after : Trace} (ran : compiler.assembleStyles output given before = .ok made after) :
    ∃ log, assemble given output compiler.inlineMap compiler.minifier = (.ok made, log) := by
  unfold Compiler.assembleStyles at ran
  rcases assembled : assemble given output compiler.inlineMap compiler.minifier with ⟨result, log⟩
  rw [assembled] at ran
  cases result with
  | error fault => cases ran
  | ok sheet =>
      cases ran
      exact ⟨log, rfl⟩

theorem make_named {compiler : Compiler} {input output : Path} {made : Output}
    {before after : Trace} (ran : compiler.make input output before = .ok made after)
    (hasFile : hasMapFile made.map compiler.inlineMap = true) :
    ∃ mapPath, mapPath? output = some mapPath := by
  obtain ⟨_, _, _, ran⟩ := bind_eq_ok ran
  obtain ⟨_, _, _, ran⟩ := bind_eq_ok ran
  obtain ⟨_, _, _, ran⟩ := bind_eq_ok ran
  obtain ⟨_, _, _, ran⟩ := bind_eq_ok ran
  obtain ⟨_, assembled⟩ := assembleStyles_eq_ok ran
  exact assemble_named assembled hasFile

/-- A style sheet can be written, and a directory has the place of its source map. -/
structure MapBlocked (space : Workspace) (made : Output) (path : Path) (inlineMap : Bool)
    (css : String) (location : Location) : Prop where
  sheet : made.css = some css
  written : space.writable path = .ok location
  hasFile : hasMapFile made.map inlineMap = true
  blocked : ∃ mapPath, mapPath? path = some mapPath ∧ space.isDirectory mapPath = true

theorem isDirectory_iff {space : Workspace} {path : Path} {place : Location}
    (located : space.locate path = .ok place) :
    space.isDirectory path = true ↔ space.entryAt? place = some .directory := by
  simp only [Workspace.isDirectory, located, Except.map]
  rcases space.entryAt? place with _ | entry
  · simp
  · cases entry <;> simp

/-- After the style sheet is written its source map has the same place as before. -/
theorem mapPlace_after_sheet {space : Workspace} {path mapPath : Path} {location : Location}
    (css : String) (written : space.writable path = .ok location)
    (named : mapPath? path = some mapPath) :
    ∃ place, space.locate mapPath = .ok place ∧
      (space.setEntry location (.file css.toUTF8)).locate mapPath = .ok place ∧
      (space.setEntry location (.file css.toUTF8)).entryAt? place = space.entryAt? place ∧
      (space.setEntry location (.file css.toUTF8)).entryAt? place.dropLast = some .directory := by
  have located := ((Workspace.writable_eq_ok space path location).mp written).1
  obtain ⟨place, found, different, parent⟩ :=
    Workspace.locate_withEnding named (by decide) (by decide) located
  have kept := Workspace.entryAt?_setEntry_directory written css.toUTF8
  refine ⟨place, found, ?_, ?_, kept _ parent⟩
  · obtain ⟨noNul, walked⟩ := (Workspace.locate_eq_ok space mapPath place).mp found
    exact (Workspace.locate_eq_ok _ mapPath place).mpr
      ⟨noNul, Workspace.walk_of_directories kept _ _ _ walked⟩
  · rw [Workspace.entryAt?_setEntry _ _ _ _ (Workspace.ne_nil_of_writable written),
      if_neg different]

theorem writeText_of_writable {space : Workspace} {path : Path} {location : Location}
    (text : String) (found : space.writable path = .ok location) :
    writeText space path text = (.ok (), space.setEntry location (.file text.toUTF8)) := by
  simp [writeText, Workspace.writeText, found, bind, Except.bind, pure, Except.pure]

theorem writeText_of_not_writable {space : Workspace} {path : Path} {fault : FileFault}
    (text : String) (found : space.writable path = .error fault) :
    writeText space path text = (.error (.file fault path), space) := by
  simp [writeText, Workspace.writeText, found, bind, Except.bind]

theorem writeOutput_of_blocked {space : Workspace} {made : Output} {path : Path}
    {inlineMap : Bool} {css : String} {location : Location}
    (blocked : MapBlocked space made path inlineMap css location) :
    ∃ mapPath, mapPath? path = some mapPath ∧
      writeOutput space made path inlineMap =
        (.error (.file .isDirectory mapPath), space.setEntry location (.file css.toUTF8)) := by
  obtain ⟨mapPath, named, isDirectory⟩ := blocked.blocked
  obtain ⟨place, found, foundAfter, sameEntry, _⟩ :=
    mapPlace_after_sheet css blocked.written named
  have stillDirectory := (isDirectory_iff found).mp isDirectory
  rw [← sameEntry] at stillDirectory
  refine ⟨mapPath, named, ?_⟩
  simp only [writeOutput, blocked.sheet, writeText_of_writable css blocked.written,
    blocked.hasFile, ↓reduceIte, named]
  exact writeText_of_not_writable _
    (Workspace.writable_of_directory _ mapPath place foundAfter stillDirectory)

theorem writeOutput_of_not_blocked {space after : Workspace} {made : Output} {path : Path}
    {inlineMap : Bool} {fault : WriteFault}
    (failed : writeOutput space made path inlineMap = (.error fault, after))
    (named : hasMapFile made.map inlineMap = true → ∃ mapPath, mapPath? path = some mapPath)
    (free : ¬ ∃ css location, MapBlocked space made path inlineMap css location) :
    after = space := by
  unfold writeOutput at failed
  cases sheet : made.css with
  | none =>
      rw [sheet] at failed
      cases failed
      rfl
  | some css =>
      simp only [sheet] at failed
      cases written : space.writable path with
      | error found =>
          rw [writeText_of_not_writable css written] at failed
          cases failed
          rfl
      | ok location =>
          simp only [writeText_of_writable css written] at failed
          cases hasFile : hasMapFile made.map inlineMap with
          | false =>
              rw [hasFile] at failed
              cases failed
          | true =>
              obtain ⟨mapPath, isNamed⟩ := named hasFile
              obtain ⟨place, found, foundAfter, sameEntry, parent⟩ :=
                mapPlace_after_sheet css written isNamed
              -- With the sheet written, only a directory in its place can stop the source map.
              have notDirectory : space.entryAt? place ≠ some .directory := fun isDirectory =>
                free ⟨css, location, sheet, written, hasFile, mapPath, isNamed,
                  (isDirectory_iff found).mpr isDirectory⟩
              rw [← sameEntry] at notDirectory
              simp only [hasFile, ↓reduceIte, isNamed] at failed
              rw [writeText_of_writable _ ((Workspace.writable_eq_ok _ mapPath place).mpr
                ⟨foundAfter, notDirectory, parent⟩)] at failed
              cases failed

/-! A whole run -/

def LeavesSheet (compiler : Compiler) (space : Workspace) (input output : Path) (css : String)
    (location : Location) : Prop :=
  ∃ made trace, compiler.make input output ⟨space, []⟩ = .ok made trace ∧
    MapBlocked space made output compiler.inlineMap css location

theorem runOn_of_make_error {compiler : Compiler} {space after : Workspace} {input output : Path}
    {fault found : CompileFault} {log : Log} {trace : Trace}
    (made : compiler.make input output ⟨space, []⟩ = .error found trace)
    (failed : compiler.runOn space input output = (.error fault, after, log)) : after = space := by
  have kept := make_keeps compiler input output ⟨space, []⟩
  rw [made] at kept
  have ran : compiler.run input output ⟨space, []⟩ = .error found trace := bind_of_error made
  simp only [Compiler.runOn, ran, Prod.mk.injEq] at failed
  exact failed.2.1.symm.trans kept

theorem writeStyles_of_error {compiler : Compiler} {output : Path} {made : Output} {trace : Trace}
    {found : WriteFault} {later : Workspace}
    (wrote : writeOutput trace.space made output compiler.inlineMap = (.error found, later)) :
    compiler.writeStyles output made trace =
      .error (.ofWriteFault output found) { trace with space := later } := by
  have start : (get : Stage Trace) trace = .ok trace trace := rfl
  rw [Compiler.writeStyles, bind_of_ok start, wrote]
  rfl

theorem writeStyles_of_ok {compiler : Compiler} {output : Path} {made : Output} {trace : Trace}
    {later : Workspace}
    (wrote : writeOutput trace.space made output compiler.inlineMap = (.ok (), later)) :
    ∃ after, compiler.writeStyles output made trace = .ok () after := by
  have start : (get : Stage Trace) trace = .ok trace trace := rfl
  rw [Compiler.writeStyles, bind_of_ok start, wrote]
  exact ⟨_, rfl⟩

/-- A run that fails once its style sheet is made fails in writing it. -/
theorem runOn_of_make_ok {compiler : Compiler} {space after : Workspace} {input output : Path}
    {fault : CompileFault} {log : Log} {made : Output} {trace : Trace}
    (ran : compiler.make input output ⟨space, []⟩ = .ok made trace)
    (failed : compiler.runOn space input output = (.error fault, after, log)) :
    ∃ found, writeOutput space made output compiler.inlineMap = (.error found, after) ∧
      fault = .ofWriteFault output found := by
  have kept := make_keeps compiler input output ⟨space, []⟩
  rw [ran] at kept
  have same : trace.space = space := kept
  have whole : compiler.run input output ⟨space, []⟩ =
      (do compiler.writeStyles output made; return made) trace := bind_of_ok ran
  rw [← same]
  rcases wrote : writeOutput trace.space made output compiler.inlineMap with ⟨written, later⟩
  cases written with
  | ok value =>
      obtain ⟨_, finished⟩ := writeStyles_of_ok wrote
      rw [bind_of_ok finished] at whole
      simp only [Compiler.runOn, whole] at failed
      cases failed
  | error found =>
      rw [bind_of_error (writeStyles_of_error wrote)] at whole
      simp only [Compiler.runOn, whole, Prod.mk.injEq, Except.error.injEq] at failed
      obtain ⟨isFault, isAfter, _⟩ := failed
      subst isFault
      subst isAfter
      exact ⟨found, rfl, rfl⟩

/--
After a failed run every file is as it was, unless the run wrote the style sheet and could not write
its source map. Then only the style sheet is new, and the fault names the place of the source map.
-/
theorem entries_after_failed_run (compiler : Compiler) (space after : Workspace) (input output : Path)
    (fault : CompileFault) (log : Log)
    (failed : compiler.runOn space input output = (.error fault, after, log)) :
    ((∀ place, after.entryAt? place = space.entryAt? place) ↔
      ∀ css location, LeavesSheet compiler space input output css location →
        space.entryAt? location = some (.file css.toUTF8)) ∧
    ∀ css location, LeavesSheet compiler space input output css location →
      after = space.setEntry location (.file css.toUTF8) ∧
      ∃ mapPath, mapPath? output = some mapPath ∧
        fault = .unwritable output .isDirectory mapPath := by
  have left : ∀ css location, LeavesSheet compiler space input output css location →
      after = space.setEntry location (.file css.toUTF8) ∧
      ∃ mapPath, mapPath? output = some mapPath ∧
        fault = .unwritable output .isDirectory mapPath := by
    rintro css location ⟨made, trace, ran, blocked⟩
    obtain ⟨mapPath, named, wrote⟩ := writeOutput_of_blocked blocked
    obtain ⟨found, wroteAlso, faultOf⟩ := runOn_of_make_ok ran failed
    rw [wrote] at wroteAlso
    cases wroteAlso
    exact ⟨rfl, mapPath, named, faultOf⟩
  -- The first part follows from the second, for the sheet left behind may be what was there before.
  refine ⟨⟨?_, ?_⟩, left⟩
  · intro same css location leaves
    obtain ⟨_, _, _, blocked⟩ := id leaves
    have atLocation := same location
    rw [(left css location leaves).1, Workspace.entryAt?_setEntry _ _ _ _
      (Workspace.ne_nil_of_writable blocked.written), if_pos rfl] at atLocation
    exact atLocation.symm
  · intro unchanged place
    cases ran : compiler.make input output ⟨space, []⟩ with
    | error found trace => rw [runOn_of_make_error ran failed]
    | ok made trace =>
        obtain ⟨found, wrote, _⟩ := runOn_of_make_ok ran failed
        by_cases isBlocked : ∃ css location,
            MapBlocked space made output compiler.inlineMap css location
        · obtain ⟨css, location, blocked⟩ := isBlocked
          have leaves : LeavesSheet compiler space input output css location :=
            ⟨made, trace, ran, blocked⟩
          rw [(left css location leaves).1, Workspace.entryAt?_setEntry _ _ _ _
            (Workspace.ne_nil_of_writable blocked.written)]
          split
          · rename_i here
            rw [here, unchanged css location leaves]
          · rfl
        · rw [writeOutput_of_not_blocked wrote (make_named ran) isBlocked]

/-! Compilers -/

def stuckRunner : Prefix.Runner :=
  ⟨⟨1, ["tmp"]⟩, fun _ => .timedOut⟩

def bareCompiler : Compiler where
  extensions := [".jcss"]
  engine := ⟨⟨none, none⟩, { Prefix.Config.standard with enabled := false }, false, .lightweight,
    .tables (.ofQueries none [])⟩
  minifier := Css.minify
  runner := stuckRunner
  memory := default

def mappingCompiler : Compiler where
  extensions := [".jcss"]
  engine :=
    ⟨⟨none, none⟩, .standard, false, .lightweight, .other "map" fun css => .ok ⟨some css, some "m"⟩⟩
  minifier := Css.minify
  runner := stuckRunner
  memory := default

/-! A directory in the place of a source map -/

def blockedSpace : Workspace where
  entries := [(["in.jcss"], .file "a\x7b\x7d".toUTF8), (["out.css.map"], .directory)]
  current := []

def blockedRun : Except CompileFault Output × Workspace × Log :=
  mappingCompiler.runOn blockedSpace ⟨0, ["in.jcss"]⟩ ⟨0, ["out.css"]⟩

theorem blockedRun_failed : ∃ fault after log, blockedRun = (.error fault, after, log) ∧
    after.entryAt? ["out.css"] ≠ none := by
  have isError : blockedRun.1.toOption.isNone = true := by decide +kernel
  have isPresent : (blockedRun.2.1.entryAt? ["out.css"]).isSome = true := by decide +kernel
  rcases ran : blockedRun with ⟨result, after, log⟩
  rw [ran] at isError isPresent
  cases result with
  | ok made => cases isError
  | error fault =>
      refine ⟨fault, after, log, rfl, ?_⟩
      intro missing
      rw [missing] at isPresent
      cases isPresent

theorem entries_after_blocked_run : ∃ fault after log, blockedRun = (.error fault, after, log) ∧
    ((∀ place, after.entryAt? place = blockedSpace.entryAt? place) ↔
      ∀ css location, LeavesSheet mappingCompiler blockedSpace ⟨0, ["in.jcss"]⟩ ⟨0, ["out.css"]⟩
        css location → blockedSpace.entryAt? location = some (.file css.toUTF8)) := by
  obtain ⟨fault, after, log, ran, _⟩ := blockedRun_failed
  exact ⟨fault, after, log, ran, (entries_after_failed_run mappingCompiler blockedSpace after
    ⟨0, ["in.jcss"]⟩ ⟨0, ["out.css"]⟩ fault log ran).1⟩

/-- A failed run can leave its style sheet behind. -/
theorem failed_run_changes_entries : ¬ ∀ (compiler : Compiler) (space after : Workspace)
    (input output : Path) (fault : CompileFault) (log : Log),
    compiler.runOn space input output = (.error fault, after, log) →
      ∀ place, after.entryAt? place = space.entryAt? place := by
  intro unchanged
  obtain ⟨fault, after, log, ran, present⟩ := blockedRun_failed
  have same := unchanged mappingCompiler blockedSpace after _ _ fault log ran ["out.css"]
  exact present (same.trans (by decide +kernel))

end SheetScript.Compile
