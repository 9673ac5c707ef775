import SheetScript.Proofs.Compile.Failure
import SheetScript.Proofs.Prefix.Reconfigure
import SheetScript.Proofs.Prefix.Soundness

/-!
What prefixing with tables can do to a run that succeeds without it. An engine is made exactly if the
capability data can be read; from then on, a run fails only where a prefixed value reads as something
else than it was, and a strategy that fails changes nothing but the log.
-/

namespace SheetScript.Compile

open SheetScript.Css SheetScript.Files SheetScript.Prefix

/-! Runs without source maps -/

section

variable {compiler : Compiler} {space after : Workspace} {input output : Path} {css text : String}
  {log note : Log}

def Compiler.Succeeds (compiler : Compiler) (space : Workspace) (input output : Path) : Prop :=
  ∃ made after log, compiler.runOn space input output = (.ok made, after, log)

def Compiler.styles (compiler : Compiler) (input : Path) : Stage String := do
  let source ← compiler.readDocument input
  let css ← compiler.expandDocument input source
  Compiler.checkStyles input css
  return css

theorem make_eq (compiler : Compiler) (input output : Path) : compiler.make input output = (do
    let css ← compiler.styles input
    let given ← compiler.prefixStyles input output css
    compiler.assembleStyles output given) := by
  simp only [Compiler.make, Compiler.styles, bind_assoc, pure_bind]

theorem styles_keeps (compiler : Compiler) (input : Path) :
    Preserves Trace.space (compiler.styles input) :=
  preserves_bind (readDocument_keeps compiler input) fun source =>
    preserves_bind (expandDocument_keeps compiler input source) fun css =>
      preserves_bind (checkStyles_keeps input css) fun _ => preserves_pure _

def squeezed (inlineMap : Bool) (text : String) : String :=
  match if inlineMap then inlineNote? text.toList else none with
  | some note => squeeze text ++ "\n" ++ String.ofList note
  | none => squeeze text

theorem minify_of_sound (sound : checkStructure text = []) : minify text = ⟨squeeze text, []⟩ := by
  rw [minify, sound]

theorem minify_of_unsound (unsound : checkStructure text ≠ []) :
    minify text = ⟨"", checkStructure text⟩ := by
  unfold minify
  cases found : checkStructure text with
  | nil => exact absurd found unsound
  | cons first more => rfl

theorem assemble_of_sound (path : Path) (inlineMap : Bool) (sound : checkStructure text = []) :
    assemble ⟨some text, none⟩ path inlineMap minify =
      (.ok ⟨some (squeezed inlineMap text), none⟩, []) := by
  have noMap : hasMapFile none inlineMap = false := rfl
  simp only [assemble, squeezed, Option.getD_some, minify_of_sound sound, List.isEmpty_nil,
    Bool.not_true, Bool.false_eq_true, if_false, noMap]
  cases (if inlineMap then inlineNote? text.toList else none) <;> rfl

theorem assemble_of_unsound (path : Path) (inlineMap : Bool) (unsound : checkStructure text ≠ []) :
    assemble ⟨some text, none⟩ path inlineMap minify =
      (.error (.minification (checkStructure text)), minificationLog (checkStructure text)) := by
  simp [assemble, minify_of_unsound unsound, unsound]

theorem writeStyles_of_writable {location : Location} (writable : space.writable output = .ok location)
    (sheet : String) : compiler.writeStyles output ⟨some sheet, none⟩ ⟨space, log⟩ =
      .ok () ⟨space.setEntry location (.file sheet.toUTF8),
        log ++ [⟨.info, s!"Wrote {output.toString} ({sheet.length} bytes)"⟩]⟩ := by
  have wrote : writeOutput space ⟨some sheet, none⟩ output compiler.inlineMap =
      (.ok (), space.setEntry location (.file sheet.toUTF8)) := by
    simp only [writeOutput, writeText_of_writable sheet writable]
    rfl
  rw [Compiler.writeStyles, bind_of_get, wrote]
  rfl

theorem writeStyles_of_not_writable {fault : FileFault} (locked : space.writable output = .error fault)
    (sheet : String) : compiler.writeStyles output ⟨some sheet, none⟩ ⟨space, log⟩ =
      .error (.ofWriteFault output (.file fault output)) ⟨space, log⟩ :=
  writeStyles_of_error (by simp only [writeOutput, writeText_of_not_writable sheet locked])

/-! A document whose style sheet is made, and what prefixing gives for that. -/

variable (minifies : compiler.minifier = minify)
  (styled : compiler.styles input ⟨space, []⟩ = .ok css ⟨space, log⟩)
  (given : compiler.engine.apply compiler.runner css input.toString output.toString =
    (⟨some text, none⟩, note))

include styled given

theorem make_of_styles : compiler.make input output ⟨space, []⟩ =
    compiler.assembleStyles output ⟨some text, none⟩ ⟨space, log ++ note⟩ := by
  have prefixes : compiler.prefixStyles input output css ⟨space, log⟩ =
      .ok ⟨some text, none⟩ ⟨space, log ++ note⟩ := by
    unfold Compiler.prefixStyles
    rw [given]
    rfl
  rw [make_eq, bind_of_ok styled, bind_of_ok prefixes]

include minifies

theorem run_of_sound (sound : checkStructure text = []) : compiler.run input output ⟨space, []⟩ = (do
    compiler.writeStyles output ⟨some (squeezed compiler.inlineMap text), none⟩
    return ⟨some (squeezed compiler.inlineMap text), none⟩ : Stage Output) ⟨space, log ++ note⟩ := by
  have made := make_of_styles styled given
  unfold Compiler.assembleStyles at made
  rw [minifies, assemble_of_sound output compiler.inlineMap sound] at made
  have made : compiler.make input output ⟨space, []⟩ =
      .ok ⟨some (squeezed compiler.inlineMap text), none⟩ ⟨space, log ++ note ++ []⟩ := made
  rw [List.append_nil] at made
  exact bind_of_ok made

theorem runOn_of_writable {location : Location} (sound : checkStructure text = [])
    (writable : space.writable output = .ok location) : compiler.runOn space input output =
      (.ok ⟨some (squeezed compiler.inlineMap text), none⟩,
        space.setEntry location (.file (squeezed compiler.inlineMap text).toUTF8),
        log ++ note ++ [⟨.info,
          s!"Wrote {output.toString} ({(squeezed compiler.inlineMap text).length} bytes)"⟩]) := by
  have ran := run_of_sound minifies styled given sound
  rw [bind_of_ok (writeStyles_of_writable writable _)] at ran
  rw [Compiler.runOn, ran]
  rfl

theorem runOn_of_unsound (unsound : checkStructure text ≠ []) : compiler.runOn space input output =
    (.error (.minification (checkStructure text)), space,
      log ++ note ++ minificationLog (checkStructure text)) := by
  have made := make_of_styles styled given
  unfold Compiler.assembleStyles at made
  rw [minifies, assemble_of_unsound output compiler.inlineMap unsound] at made
  have ran : compiler.run input output ⟨space, []⟩ = .error (.minification (checkStructure text))
      ⟨space, log ++ note ++ minificationLog (checkStructure text)⟩ := bind_of_error made
  rw [Compiler.runOn, ran]

/-- A run succeeds exactly if its style sheet is sound and its place can be written to. -/
theorem succeeds_iff : compiler.Succeeds space input output ↔
    checkStructure text = [] ∧ ∃ location, space.writable output = .ok location := by
  constructor
  · rintro ⟨made, after, written, ran⟩
    have sound : checkStructure text = [] := by
      by_contra unsound
      rw [runOn_of_unsound minifies styled given unsound] at ran
      cases ran
    refine ⟨sound, ?_⟩
    cases writable : space.writable output with
    | ok location => exact ⟨location, rfl⟩
    | error fault =>
        have fails := run_of_sound minifies styled given sound
        rw [bind_of_error (writeStyles_of_not_writable writable _)] at fails
        rw [Compiler.runOn, fails] at ran
        cases ran
  · rintro ⟨sound, location, writable⟩
    exact ⟨_, _, _, runOn_of_writable minifies styled given sound writable⟩

end

/-! Prefixing with tables -/

section

variable {engine : Engine} {tables : Tables} {css : String}

theorem apply_of_disabled (off : engine.config.enabled = false) (runner : Runner)
    (css source target : String) : engine.apply runner css source target = (⟨some css, none⟩, []) := by
  simp [Engine.apply, off]

theorem apply_of_fault (on : engine.config.enabled = true)
    (byTables : engine.strategy = .tables tables) {fault : TargetFault} (fails : tables.apply css = .error fault) (runner : Runner)
    (source target : String) : engine.apply runner css source target =
      (⟨some css, none⟩, [⟨.error, s!"Prefixer error: {fault.message}"⟩]) := by
  simp [Engine.apply, on, byTables, Strategy.apply, fails, Except.map, Except.mapError,
    StrategyFault.message]

theorem apply_of_tables (on : engine.config.enabled = true)
    (byTables : engine.strategy = .tables tables) {text : String} (applied : tables.apply css = .ok text) (runner : Runner)
    (source target : String) : engine.apply runner css source target = (⟨some text, none⟩, []) := by
  simp [Engine.apply, on, byTables, Strategy.apply, applied, Except.map, Except.mapError]

end

/-! Capability data -/

/-- The data file, if there is one, is the text of an object without overlong integers. -/
def DataReadable (space : Workspace) (given environment : Option String) : Prop :=
  ∀ place, (Dataset.places given environment).find? space.isFile = some place →
    ∃ text fields, space.readText place = .ok text ∧
      Json.read? text.toList = some (.object fields) ∧ Json.hasLongInteger text.toList = false

theorem exists_ofJson_iff (data : Json) :
    (∃ dataset, Dataset.ofJson data = .ok dataset) ↔ ∃ fields, data = .object fields := by
  cases data with
  | object fields => exact ⟨fun _ => ⟨fields, rfl⟩, fun _ => ⟨_, rfl⟩⟩
  | _ =>
      constructor
      · rintro ⟨dataset, found⟩
        cases found
      · rintro ⟨fields, same⟩
        cases same

theorem exists_load_iff (space : Workspace) (place : Path) :
    (∃ dataset, Dataset.load space place = .ok dataset) ↔
      ∃ text fields, space.readText place = .ok text ∧
        Json.read? text.toList = some (.object fields) ∧ Json.hasLongInteger text.toList = false := by
  unfold Dataset.load
  cases space.readText place with
  | error fault => simp
  | ok text =>
      cases found : Json.read? text.toList with
      | none => simp [found]
      | some data =>
          cases long : Json.hasLongInteger text.toList <;> simp [found, long, exists_ofJson_iff]

theorem exists_discover_iff (space : Workspace) (given environment : Option String) :
    (∃ found, Dataset.discover space given environment = .ok found) ↔
      DataReadable space given environment := by
  unfold Dataset.discover DataReadable
  cases (Dataset.places given environment).find? space.isFile with
  | none => simp
  | some place =>
      have loads := exists_load_iff space place
      cases loaded : Dataset.load space place with
      | ok dataset => simpa [loaded, Except.map] using loads
      | error fault => simpa [loaded, Except.map] using loads

section

variable {around : Surroundings} {available : Option Bool} {config : Config} {engine : Engine}
  (byTables : (choose config.mode (Engine.isAvailable around ⟨available, none⟩ config)).1 =
    .lightweight)

include byTables

theorem create_of_lightweight : (Engine.create around ⟨available, none⟩ config).1 =
    (Dataset.discover around.space config.dataPath around.dataVariable).map fun dataset =>
      ⟨⟨available, none⟩, config, Engine.isAvailable around ⟨available, none⟩ config, .lightweight,
        .tables (.ofQueries dataset config.browsers)⟩ := by
  rw [Engine.create_eq]
  simp only [byTables, Engine.strategyFor]
  cases Dataset.discover around.space config.dataPath around.dataVariable <;> rfl

/-- An engine for tables can be made exactly if there are no data that cannot be read. -/
theorem exists_create_iff : (∃ engine, (Engine.create around ⟨available, none⟩ config).1 = .ok engine) ↔
    DataReadable around.space config.dataPath around.dataVariable := by
  rw [← exists_discover_iff, create_of_lightweight byTables]
  cases Dataset.discover around.space config.dataPath around.dataVariable <;> simp [Except.map]

theorem tables_of_create (made : (Engine.create around ⟨available, none⟩ config).1 = .ok engine) :
    engine.config = config ∧ ∃ tables, engine.strategy = .tables tables := by
  rw [create_of_lightweight byTables] at made
  cases found : Dataset.discover around.space config.dataPath around.dataVariable with
  | error fault =>
      rw [found] at made
      cases made
  | ok dataset =>
      rw [found] at made
      obtain rfl := Except.ok.inj made
      exact ⟨rfl, _, rfl⟩

end

/-! Runs with and without prefixes -/

theorem exists_styles_of_make {compiler : Compiler} {input output : Path} {space : Workspace}
    {made : Output} {trace : Trace} (ran : compiler.make input output ⟨space, []⟩ = .ok made trace) :
    ∃ css log, compiler.styles input ⟨space, []⟩ = .ok css ⟨space, log⟩ := by
  rw [make_eq] at ran
  obtain ⟨css, ⟨other, log⟩, styled, -⟩ := bind_eq_ok ran
  have kept := styles_keeps compiler input ⟨space, []⟩
  rw [styled] at kept
  obtain rfl : other = space := kept
  exact ⟨css, log, styled⟩

theorem exists_make_of_runOn {compiler : Compiler} {input output : Path} {space : Workspace}
    (succeeds : compiler.Succeeds space input output) :
    ∃ made trace, compiler.make input output ⟨space, []⟩ = .ok made trace := by
  obtain ⟨made, after, log, ran⟩ := succeeds
  cases found : compiler.make input output ⟨space, []⟩ with
  | ok sheet trace => exact ⟨sheet, trace, rfl⟩
  | error fault trace =>
      have fails : compiler.run input output ⟨space, []⟩ = .error fault trace := bind_of_error found
      rw [Compiler.runOn, fails] at ran
      cases ran

section

-- A document whose style sheet is sound and can be written, and an engine with tables.
variable {compiler : Compiler} {input output : Path} {space : Workspace} {css : String} {before : Log}
  {location : Location} {engine : Engine} {tables : Tables} (minifies : compiler.minifier = minify)
  (styled : compiler.styles input ⟨space, []⟩ = .ok css ⟨space, before⟩)
  (sound : checkStructure css = []) (writable : space.writable output = .ok location)
  (on : engine.config.enabled = true) (byTables : engine.strategy = .tables tables)

include minifies styled sound writable on byTables

theorem succeeds_with_tables_iff : ({ compiler with engine := engine }).Succeeds space input output ↔
    ∀ text, tables.apply css = .ok text → checkStructure text = [] := by
  cases applied : tables.apply css with
  | ok text =>
      have given := apply_of_tables on byTables applied compiler.runner input.toString output.toString
      have whole : ({ compiler with engine := engine }).Succeeds space input output ↔ _ :=
        succeeds_iff minifies styled given
      refine whole.trans ⟨fun both other same => ?_, fun each => ⟨each text rfl, location, writable⟩⟩
      rw [← Except.ok.inj same]
      exact both.1
  | error fault =>
      have given := apply_of_fault on byTables applied compiler.runner input.toString output.toString
      have whole : ({ compiler with engine := engine }).Succeeds space input output ↔ _ :=
        succeeds_iff minifies styled given
      exact iff_of_true (whole.2 ⟨sound, location, writable⟩) fun text same => nomatch same

theorem runOn_of_fault {fault : TargetFault} (fails : tables.apply css = .error fault) :
    ({ compiler with engine := engine }).runOn space input output =
      (.ok ⟨some (squeezed engine.config.inlineMap css), none⟩,
        space.setEntry location (.file (squeezed engine.config.inlineMap css).toUTF8),
        before ++ [⟨.error, s!"Prefixer error: {fault.message}"⟩] ++ [⟨.info,
          s!"Wrote {output.toString} ({(squeezed engine.config.inlineMap css).length} bytes)"⟩]) := by
  have minifiesToo : ({ compiler with engine := engine }).minifier = minify := minifies
  have styledToo : ({ compiler with engine := engine }).styles input ⟨space, []⟩ =
      .ok css ⟨space, before⟩ := styled
  have given := apply_of_fault on byTables fails compiler.runner input.toString output.toString
  exact runOn_of_writable minifiesToo styledToo given sound writable

end

/--
A document compiles without prefixing. With prefixing by tables, an engine can be made exactly if
the data file can be read. A run with that engine succeeds exactly if the prefixed style sheet is
sound, as it is wherever the values that need prefixes are clear. If the style sheet cannot be
prefixed, the run gives what it gave without, with one more record in the log.
-/
theorem runs_with_tables {compiler : Compiler} {space after : Workspace} {input output : Path}
    {made : Output} {log : Log} (minifies : compiler.minifier = minify)
    (off : compiler.engine.config.enabled = false)
    (ran : compiler.runOn space input output = (.ok made, after, log))
    (around : Surroundings) (available : Option Bool) {config : Config} (on : config.enabled = true)
    (byTables : (choose config.mode (Engine.isAvailable around ⟨available, none⟩ config)).1 =
      .lightweight)
    (sameNotes : config.inlineMap = compiler.engine.config.inlineMap) :
    ((∃ engine, (Engine.create around ⟨available, none⟩ config).1 = .ok engine) ↔
        DataReadable around.space config.dataPath around.dataVariable) ∧
      ∀ engine, (Engine.create around ⟨available, none⟩ config).1 = .ok engine →
        ∃ css before tables, compiler.styles input ⟨space, []⟩ = .ok css ⟨space, before⟩ ∧
          engine.strategy = .tables tables ∧
          (({ compiler with engine := engine }).Succeeds space input output ↔
            ∀ text, tables.apply css = .ok text → checkStructure text = []) ∧
          ((∀ declaration ∈ sheetDeclarations (components (normalise css.toList)),
              needs tables declaration ≠ [] → IsClear declaration) →
            ({ compiler with engine := engine }).Succeeds space input output) ∧
          ∀ fault, tables.apply css = .error fault → ∃ front back, log = front ++ back ∧
            ({ compiler with engine := engine }).runOn space input output =
              (.ok made, after, front ++ ⟨.error, s!"Prefixer error: {fault.message}"⟩ :: back) := by
  refine ⟨exists_create_iff byTables, fun engine isMade => ?_⟩
  -- Without prefixing the style sheet is written as it was made.
  obtain ⟨sheet, trace, madeSheet⟩ := exists_make_of_runOn ⟨made, after, log, ran⟩
  obtain ⟨css, before, styled⟩ := exists_styles_of_make madeSheet
  have plain := apply_of_disabled off compiler.runner css input.toString output.toString
  obtain ⟨sound, location, writable⟩ :=
    (succeeds_iff minifies styled plain).1 ⟨made, after, log, ran⟩
  rw [runOn_of_writable minifies styled plain sound writable] at ran
  obtain ⟨isMadeSheet, rfl, rfl⟩ := Prod.mk.inj ran |>.imp_right Prod.mk.inj
  obtain rfl := Except.ok.inj isMadeSheet
  obtain ⟨rfl, tables, isTables⟩ := tables_of_create byTables isMade
  have succeeds := succeeds_with_tables_iff minifies styled sound writable on isTables
  refine ⟨css, before, tables, styled, isTables, succeeds, fun clear => ?_, fun fault fails => ?_⟩
  · refine succeeds.2 fun text applied => ?_
    exact (checkStructure_of_apply applied ⟨clean_normalise _, clear⟩).2 sound
  · have same : compiler.inlineMap = engine.config.inlineMap := sameNotes.symm
    refine ⟨before, [⟨.info, _⟩], by rw [List.append_nil], ?_⟩
    rw [runOn_of_fault minifies styled sound writable on isTables fails, same, List.append_assoc]
    rfl

/-! Data that cannot be read, and a value that is not clear -/

def spaceOf (document data : String) : Workspace where
  entries := [(["in.jcss"], .file document.toUTF8), (["data.json"], .file data.toUTF8)]
  current := []

def transformsOf20 : String :=
  "\x7b\"agents\":\x7b\"chrome\":\x7b\"versions\":[\"20\"]\x7d\x7d," ++
    "\"data\":\x7b\"transforms2d\":\x7b\"stats\":\x7b\"chrome\":\x7b\"20\":\"y x\"\x7d\x7d\x7d\x7d\x7d"

def forChrome20 : Config :=
  { Config.standard with mode := .lightweight, browsers := ["chrome 20"], dataPath := some "data.json" }

def engineOf (document data : String) : Except DataFault Engine :=
  (Engine.create ⟨spaceOf document data, none, fun _ => false⟩ ⟨none, none⟩ forChrome20).1

def runOf (compiler : Compiler) (document data : String) :
    Except CompileFault Output × Workspace × Log :=
  compiler.runOn (spaceOf document data) ⟨0, ["in.jcss"]⟩ ⟨0, ["out.css"]⟩

theorem succeeds_of_toBool {compiler : Compiler} {document data : String}
    (succeeds : (runOf compiler document data).1.toBool = true) :
    ∃ made after log, runOf compiler document data = (.ok made, after, log) := by
  rcases ran : runOf compiler document data with ⟨fault | made, after, log⟩
  · rw [ran] at succeeds
    cases succeeds
  · exact ⟨made, after, log, rfl⟩

/-- A document with a clear value, and data that ask for a prefix. -/
theorem runs_with_tables_clear :
    (∃ made after log, runOf bareCompiler "a\x7btransform:none\x7d" transformsOf20 =
        (.ok made, after, log)) ∧
      ∃ engine, engineOf "a\x7btransform:none\x7d" transformsOf20 = .ok engine ∧
        ∃ made after log, runOf { bareCompiler with engine := engine } "a\x7btransform:none\x7d"
          transformsOf20 = (.ok made, after, log) := by
  have succeeds : (runOf bareCompiler "a\x7btransform:none\x7d" transformsOf20).1.toBool = true := by
    decide +kernel
  obtain ⟨made, after, log, ran⟩ := succeeds_of_toBool succeeds
  have isMade : (engineOf "a\x7btransform:none\x7d" transformsOf20).toBool = true := by
    decide +kernel
  cases answer : engineOf "a\x7btransform:none\x7d" transformsOf20 with
  | error fault =>
      rw [answer] at isMade
      cases isMade
  | ok engine =>
      obtain ⟨css, before, tables, styled, -, -, clear, -⟩ :=
        (@runs_with_tables bareCompiler _ _ _ _ _ _ rfl rfl ran
          ⟨spaceOf "a\x7btransform:none\x7d" transformsOf20, none, fun _ => false⟩ none
          forChrome20 rfl rfl rfl).2 engine answer
      have isSheet : (match bareCompiler.styles ⟨0, ["in.jcss"]⟩
          ⟨spaceOf "a\x7btransform:none\x7d" transformsOf20, []⟩ with
          | .ok css _ => some css
          | .error _ _ => none) = some "a\x7btransform:none\x7d" := by
        decide +kernel
      rw [styled] at isSheet
      obtain rfl := Option.some.inj isSheet
      have values : ∀ declaration ∈ sheetDeclarations (components (normalise
          "a\x7btransform:none\x7d".toList)), rowIsClear (tidy declaration.value) = true ∧
            Text.trimChars (write (tidy declaration.value)) = write (tidy declaration.value) := by
        decide +kernel
      exact ⟨⟨made, after, log, ran⟩, engine, rfl, clear fun declaration inSheet _ =>
        ⟨(values declaration inSheet).1, (values declaration inSheet).2⟩⟩

/-- A data file that is cut off keeps a document from being compiled. -/
theorem unreadable_data_stops_run :
    (∃ made after log, runOf bareCompiler "a\x7bb:c\x7d" "\x7b" = (.ok made, after, log)) ∧
      ∃ fault, engineOf "a\x7bb:c\x7d" "\x7b" = .error fault := by
  refine ⟨succeeds_of_toBool (by decide +kernel), ?_⟩
  have fails : (engineOf "a\x7bb:c\x7d" "\x7b").toBool = false := by decide +kernel
  cases answer : engineOf "a\x7bb:c\x7d" "\x7b" with
  | error fault => exact ⟨fault, rfl⟩
  | ok engine =>
      rw [answer] at fails
      cases fails

/-- An escape in an address is written out in the prefixed declaration, which breaks the address. -/
theorem prefixed_address_stops_run :
    (∃ made after log, runOf bareCompiler "a\x7btransform:url(\\1 )\x7d" transformsOf20 =
        (.ok made, after, log)) ∧
      ∃ engine, engineOf "a\x7btransform:url(\\1 )\x7d" transformsOf20 = .ok engine ∧
        (runOf { bareCompiler with engine := engine } "a\x7btransform:url(\\1 )\x7d"
          transformsOf20).1.toBool = false := by
  refine ⟨succeeds_of_toBool (by decide +kernel), ?_⟩
  have fails : ((engineOf "a\x7btransform:url(\\1 )\x7d" transformsOf20).map fun engine =>
      (runOf { bareCompiler with engine := engine } "a\x7btransform:url(\\1 )\x7d"
        transformsOf20).1.toBool).toOption = some false := by
    decide +kernel
  cases answer : engineOf "a\x7btransform:url(\\1 )\x7d" transformsOf20 with
  | error fault =>
      rw [answer] at fails
      cases fails
  | ok engine =>
      rw [answer] at fails
      exact ⟨engine, rfl, Option.some.inj fails⟩

end SheetScript.Compile
