import SheetScript.Proofs.Compile.Prefixing

/-!
What a run that ends well leaves behind. It writes the style sheet, and beside it the source map if
that has a file of its own; no other entry changes. What is put behind the squeezed styles goes with
the files: a map in a file is named, and a map that came inside the style sheet is carried over.
-/

namespace SheetScript.Compile

open SheetScript.Files SheetScript.Prefix

/-! Notes that hold a source map -/

def dataNoteStart : List Char := "/*# sourceMappingURL=data:".toList

def IsDataNote (note : List Char) : Prop :=
  ∃ data, '*' ∉ data ∧ note = dataNoteStart ++ data ++ ['*', '/']

def IsFirstDataNote (text note : List Char) : Prop :=
  IsDataNote note ∧ ∃ before behind, text = before ++ note ++ behind ∧
    ∀ front other rest, text = front ++ other ++ rest → IsDataNote other →
      before.length ≤ front.length

/-- What is left of a text without the data at its start. -/
theorem drop_takeWhile (condition : Char → Bool) (text : List Char) :
    text.drop (text.takeWhile condition).length = text.dropWhile condition := by
  calc text.drop (text.takeWhile condition).length
      = (text.takeWhile condition ++ text.dropWhile condition).drop
          (text.takeWhile condition).length := by rw [List.takeWhile_append_dropWhile]
    _ = text.dropWhile condition := List.drop_left

theorem inlineNoteAt?_eq (text : List Char) : inlineNoteAt? text =
    let tail := text.drop dataNoteStart.length
    if dataNoteStart.isPrefixOf text && ['*', '/'].isPrefixOf (tail.dropWhile (· != '*')) then
      some (dataNoteStart ++ tail.takeWhile (· != '*') ++ ['*', '/'])
    else none := by
  have start : "/*# sourceMappingURL=data:".toList = dataNoteStart := rfl
  simp only [inlineNoteAt?, start]
  rw [← List.drop_drop, drop_takeWhile]

/-- A note is read where it starts, and nothing else is read as one. -/
theorem inlineNoteAt?_eq_some {text note : List Char} :
    inlineNoteAt? text = some note ↔ IsDataNote note ∧ ∃ rest, text = note ++ rest := by
  rw [inlineNoteAt?_eq]
  constructor
  · intro found
    dsimp only at found
    split at found
    · rename_i both
      rw [Bool.and_eq_true, List.isPrefixOf_iff_prefix, List.isPrefixOf_iff_prefix] at both
      obtain ⟨⟨tail, rfl⟩, rest, closed⟩ := both
      obtain rfl := Option.some.inj found
      rw [List.drop_left] at closed ⊢
      refine ⟨⟨tail.takeWhile (· != '*'), ?_, rfl⟩, rest, ?_⟩
      · intro inside
        simpa using List.mem_takeWhile_imp inside
      · rw [List.append_assoc, List.append_assoc, closed, List.takeWhile_append_dropWhile]
    · cases found
  · rintro ⟨⟨data, plain, rfl⟩, rest, rfl⟩
    -- The search stops at the first star, and the data have none.
    have notStar : ∀ c ∈ data, (c != '*') = true := by
      intro c inside
      have different : c ≠ '*' := fun same => plain (same ▸ inside)
      simpa using different
    have tail : (dataNoteStart ++ data ++ ['*', '/'] ++ rest).drop dataNoteStart.length =
        data ++ '*' :: '/' :: rest := by
      simp only [List.append_assoc, List.drop_left, List.cons_append, List.nil_append]
    have isData : (data ++ '*' :: '/' :: rest).takeWhile (· != '*') = data := by
      rw [List.takeWhile_append_of_pos notStar]
      simp
    have isRest : (data ++ '*' :: '/' :: rest).dropWhile (· != '*') = '*' :: '/' :: rest := by
      rw [List.dropWhile_append_of_pos notStar]
      simp
    have starts : dataNoteStart.isPrefixOf (dataNoteStart ++ data ++ ['*', '/'] ++ rest) = true := by
      rw [List.isPrefixOf_iff_prefix, List.append_assoc, List.append_assoc]
      exact List.prefix_append _ _
    dsimp only
    rw [tail, isData, isRest, starts]
    rfl

theorem not_isDataNote_nil : ¬IsDataNote [] := by
  rintro ⟨data, _, same⟩
  simp at same

/-- The note that is found is the first one, and if none is found there is none. -/
theorem inlineNote?_eq (text : List Char) :
    (∀ note, inlineNote? text = some note → IsFirstDataNote text note) ∧
      (inlineNote? text = none → ∀ front note rest, text = front ++ note ++ rest →
        ¬IsDataNote note) := by
  induction text with
  | nil =>
      refine ⟨fun note found => (nomatch found), ?_⟩
      rintro _ front note rest empty isNote
      have noNote : note = [] := by
        have both := List.append_eq_nil_iff.1 empty.symm
        exact (List.append_eq_nil_iff.1 both.1).2
      exact not_isDataNote_nil (noNote ▸ isNote)
  | cons c text ih =>
      obtain ⟨later, nowhere⟩ := ih
      -- A note inside a longer text starts at once, or it is a note of the rest.
      have starts {front note rest : List Char} (whole : c :: text = front ++ note ++ rest)
          (isNote : IsDataNote note) (notHere : inlineNoteAt? (c :: text) = none) :
          ∃ front', front = c :: front' ∧ text = front' ++ note ++ rest := by
        cases front with
        | nil =>
            have here := inlineNoteAt?_eq_some.2 ⟨isNote, rest, whole⟩
            rw [notHere] at here
            cases here
        | cons first front =>
            rw [List.cons_append, List.cons_append] at whole
            obtain ⟨rfl, tail⟩ := List.cons.inj whole
            exact ⟨front, rfl, tail⟩
      cases here : inlineNoteAt? (c :: text) with
      | some found =>
          have isFound : inlineNote? (c :: text) = some found := by simp [inlineNote?, here]
          rw [isFound]
          refine ⟨?_, fun none => (nomatch none)⟩
          rintro note ⟨⟩
          obtain ⟨isNote, rest, whole⟩ := inlineNoteAt?_eq_some.1 here
          exact ⟨isNote, [], rest, whole, fun _ _ _ _ _ => Nat.zero_le _⟩
      | none =>
          have isLater : inlineNote? (c :: text) = inlineNote? text := by simp [inlineNote?, here]
          rw [isLater]
          constructor
          · intro note found
            obtain ⟨isNote, before, behind, whole, first⟩ := later note found
            refine ⟨isNote, c :: before, behind, by rw [whole]; rfl, ?_⟩
            intro front other rest split isOther
            obtain ⟨front, rfl, tail⟩ := starts split isOther here
            have atMost := first front other rest tail isOther
            simp only [List.length_cons]
            omega
          · intro nothing front note rest split isNote
            obtain ⟨front, rfl, tail⟩ := starts split isNote here
            exact nowhere nothing front note rest tail isNote

/-! What is put behind the styles -/

def FiledMap (map : Option String) (inlineMap : Bool) (text : String) : Prop :=
  inlineMap = false ∧ map = some text ∧ text ≠ ""

def mapFileNote (output : Path) : String :=
  "\n/*# sourceMappingURL=" ++ (output.name ++ ".map") ++ " */"

/-- What stands behind the squeezed styles of a style sheet with a source map. -/
inductive Ending (given : Output) (output : Path) (inlineMap : Bool) : String → Prop
  | names {map : String} (filed : FiledMap given.map inlineMap map) :
      Ending given output inlineMap (mapFileNote output)
  | carries {note : List Char} (isInline : inlineMap = true)
      (first : IsFirstDataNote (given.css.getD "").toList note) :
      Ending given output inlineMap ("\n" ++ String.ofList note)
  | nothing (notFiled : ∀ map, ¬FiledMap given.map inlineMap map)
      (noNote : inlineMap = true → ∀ front note rest,
        (given.css.getD "").toList = front ++ note ++ rest → ¬IsDataNote note) :
      Ending given output inlineMap ""

theorem hasMapFile_iff {map : Option String} {inlineMap : Bool} :
    hasMapFile map inlineMap = true ↔ ∃ text, FiledMap map inlineMap text := by
  cases map with
  | none => simp [hasMapFile, FiledMap]
  | some text => simp [hasMapFile, FiledMap, and_comm]

theorem name_mapPath? {output beside : Path} (named : mapPath? output = some beside) :
    beside.name = output.name ++ ".map" ∧ beside.parent = output.parent := by
  simp only [mapPath?, Path.withEnding?] at named
  split at named
  · cases named
  · obtain rfl := Option.some.inj named
    exact ⟨by simp [Path.name], by simp [Path.parent]⟩

theorem assemble_eq_ok {given made : Output} {output : Path} {inlineMap : Bool} {minifier : Minifier}
    {log : Log} (assembled : assemble given output inlineMap minifier = (.ok made, log)) :
    made.map = given.map ∧ ∃ ending, Ending given output inlineMap ending ∧
      made.css = some ((minifier (given.css.getD "")).styles ++ ending) := by
  simp only [assemble] at assembled
  split at assembled
  · cases assembled
  · split at assembled
    · rename_i note isNote
      cases assembled
      by_cases isInline : inlineMap = true
      · rw [if_pos isInline] at isNote
        have first := (inlineNote?_eq (given.css.getD "").toList).1 note isNote
        refine ⟨rfl, _, .carries isInline first, ?_⟩
        rw [String.append_assoc]
      · rw [if_neg isInline] at isNote
        cases isNote
    · rename_i noNote
      have nowhere : inlineMap = true → ∀ front note rest,
          (given.css.getD "").toList = front ++ note ++ rest → ¬IsDataNote note := by
        intro isInline
        rw [if_pos isInline] at noNote
        exact (inlineNote?_eq (given.css.getD "").toList).2 noNote
      split at assembled
      · rename_i hasFile
        obtain ⟨map, filed⟩ := hasMapFile_iff.1 hasFile
        cases named : mapPath? output with
        | none =>
            rw [named] at assembled
            cases assembled
        | some beside =>
            simp only [named, (name_mapPath? named).1] at assembled
            obtain rfl := Except.ok.inj (Prod.mk.inj assembled).1
            exact ⟨rfl, _, .names filed, rfl⟩
      · rename_i noFile
        cases assembled
        refine ⟨rfl, "", .nothing ?_ nowhere, by rw [String.append_empty]⟩
        intro map filed
        exact noFile (hasMapFile_iff.2 ⟨map, filed⟩)

/-! What is written -/

def SameBut (places : List Location) (before after : Workspace) : Prop :=
  ∀ place ∉ places, after.entryAt? place = before.entryAt? place

structure Written (before after : Workspace) (made : Output) (output : Path) (inlineMap : Bool)
    (css : String) (location : Location) : Prop where
  located : before.locate output = .ok location
  sheet : after.entryAt? location = some (.file css.toUTF8)
  alone : (∀ map, ¬FiledMap made.map inlineMap map) → SameBut [location] before after
  beside : ∀ map, FiledMap made.map inlineMap map → ∃ path place,
    path.parent = output.parent ∧ path.name = output.name ++ ".map" ∧
      before.locate path = .ok place ∧ place ≠ location ∧
      after.entryAt? place = some (.file map.toUTF8) ∧ SameBut [location, place] before after

theorem sameBut_setEntry {space : Workspace} {location : Location} (notRoot : location ≠ [])
    (entry : Entry) : SameBut [location] space (space.setEntry location entry) := by
  intro place elsewhere
  rw [Workspace.entryAt?_setEntry _ _ _ _ notRoot, if_neg (by simpa using elsewhere)]

/-- A style sheet that is written changes its own entry. -/
theorem entryAt?_sheet {space : Workspace} {output : Path} {location : Location}
    (writable : space.writable output = .ok location) (css : String) :
    (space.setEntry location (.file css.toUTF8)).entryAt? location = some (.file css.toUTF8) := by
  rw [Workspace.entryAt?_setEntry _ _ _ _ (Workspace.ne_nil_of_writable writable), if_pos rfl]

/-- A source map that is written after its style sheet leaves that as it is. -/
theorem written_with_map {space : Workspace} {made : Output} {output path : Path}
    {inlineMap : Bool} {location target : Location} {css : String}
    (writable : space.writable output = .ok location)
    (hasFile : hasMapFile made.map inlineMap = true) (named : mapPath? output = some path)
    (second : (space.setEntry location (.file css.toUTF8)).writable path = .ok target) :
    Written space ((space.setEntry location (.file css.toUTF8)).setEntry target
      (.file (made.map.getD "").toUTF8)) made output inlineMap css location := by
  have notRoot := Workspace.ne_nil_of_writable writable
  have located := ((Workspace.writable_eq_ok space output location).1 writable).1
  obtain ⟨isName, isParent⟩ := name_mapPath? named
  obtain ⟨place, found, different, -⟩ :=
    Workspace.locate_withEnding named (by decide) (by decide) located
  obtain ⟨same, foundToo, foundAfter, -, -⟩ := mapPlace_after_sheet css writable named
  obtain rfl := Except.ok.inj (found.symm.trans foundToo)
  have atTarget := ((Workspace.writable_eq_ok _ path target).1 second).1
  obtain rfl := Except.ok.inj (foundAfter.symm.trans atTarget)
  have placeNotRoot := Workspace.ne_nil_of_writable second
  -- The two places differ, so writing the second file changes nothing at the first.
  refine ⟨located, ?_, ?_, ?_⟩
  · rw [Workspace.entryAt?_setEntry _ _ _ _ placeNotRoot, if_neg different.symm,
      entryAt?_sheet writable]
  · intro notFiled
    obtain ⟨map, filed⟩ := hasMapFile_iff.1 hasFile
    exact absurd filed (notFiled map)
  · intro map filed
    refine ⟨path, place, isParent, isName, found, different, ?_, ?_⟩
    · rw [Workspace.entryAt?_setEntry _ _ _ _ placeNotRoot, if_pos rfl, filed.2.1, Option.getD_some]
    · intro other elsewhere
      simp only [List.mem_cons, List.not_mem_nil, or_false, not_or] at elsewhere
      rw [Workspace.entryAt?_setEntry _ _ _ _ placeNotRoot, if_neg elsewhere.2]
      exact sameBut_setEntry notRoot _ other (by simpa using elsewhere.1)

theorem writeOutput_eq_ok {space after : Workspace} {made : Output} {output : Path}
    {inlineMap : Bool} (wrote : writeOutput space made output inlineMap = (.ok (), after)) :
    ∃ css location, made.css = some css ∧
      Written space after made output inlineMap css location := by
  unfold writeOutput at wrote
  cases sheet : made.css with
  | none =>
      rw [sheet] at wrote
      cases wrote
  | some css =>
      simp only [sheet] at wrote
      cases writable : space.writable output with
      | error fault =>
          rw [writeText_of_not_writable css writable] at wrote
          cases wrote
      | ok location =>
          refine ⟨css, location, rfl, ?_⟩
          simp only [writeText_of_writable css writable] at wrote
          cases hasFile : hasMapFile made.map inlineMap with
          | false =>
              rw [hasFile] at wrote
              cases wrote
              have located := ((Workspace.writable_eq_ok space output location).1 writable).1
              have notFiled : ∀ map, ¬FiledMap made.map inlineMap map := by
                intro map filed
                rw [hasMapFile_iff.2 ⟨map, filed⟩] at hasFile
                cases hasFile
              exact ⟨located, entryAt?_sheet writable css,
                fun _ => sameBut_setEntry (Workspace.ne_nil_of_writable writable) _,
                fun map filed => absurd filed (notFiled map)⟩
          | true =>
              simp only [hasFile, ↓reduceIte] at wrote
              cases named : mapPath? output with
              | none =>
                  rw [named] at wrote
                  cases wrote
              | some path =>
                  simp only [named] at wrote
                  cases second : (space.setEntry location (.file css.toUTF8)).writable path with
                  | error fault =>
                      rw [writeText_of_not_writable _ second] at wrote
                      cases wrote
                  | ok target =>
                      rw [writeText_of_writable _ second] at wrote
                      obtain rfl := (Prod.mk.inj wrote).2
                      exact written_with_map writable hasFile named second

/-! Runs -/

section

variable {compiler : Compiler} {space after : Workspace} {input output : Path} {made : Output}
  {log : Log}

theorem writeStyles_eq_ok {trace later : Trace}
    (ran : compiler.writeStyles output made trace = .ok () later) :
    writeOutput trace.space made output compiler.inlineMap = (.ok (), later.space) := by
  rw [Compiler.writeStyles, bind_of_get] at ran
  rcases wrote : writeOutput trace.space made output compiler.inlineMap with ⟨fault | done, space⟩
  · rw [wrote] at ran
    cases ran
  · rw [wrote] at ran
    cases ran
    rfl

/-- A run that ends well has made its style sheet, and then written it. -/
theorem make_of_runOn (ran : compiler.runOn space input output = (.ok made, after, log)) :
    (∃ trace, compiler.make input output ⟨space, []⟩ = .ok made trace) ∧
      writeOutput space made output compiler.inlineMap = (.ok (), after) := by
  cases whole : compiler.run input output ⟨space, []⟩ with
  | error fault trace =>
      rw [Compiler.runOn, whole] at ran
      cases ran
  | ok result trace =>
      rw [Compiler.runOn, whole] at ran
      obtain ⟨isMade, isAfter⟩ := Prod.mk.inj ran
      obtain rfl := Except.ok.inj isMade
      obtain ⟨isSpace, -⟩ := Prod.mk.inj isAfter
      obtain ⟨sheet, ⟨reached, notes⟩, isSheet, rest⟩ := bind_eq_ok whole
      obtain ⟨done, later, wrote, finished⟩ := bind_eq_ok rest
      cases finished
      have kept := make_keeps compiler input output ⟨space, []⟩
      rw [isSheet] at kept
      obtain rfl : reached = space := kept
      rw [← isSpace]
      exact ⟨⟨_, isSheet⟩, writeStyles_eq_ok wrote⟩

theorem mapFileNote_ne_empty (output : Path) : mapFileNote output ≠ "" := by
  intro empty
  have noEnd := (String.append_eq_empty_iff.1 empty).2
  exact absurd noEnd (by decide)

/--
A run that ends well leaves every entry as it was but that of the style sheet, which holds what the
run returns, and, exactly if there is a source map that goes into a file, that of the source map
beside it. The styles are the squeezed ones with an ending: the note that names that file exactly if
it is written, else at most the note that a prefixed style sheet holds its map in.
-/
theorem entries_after_run (ran : compiler.runOn space input output = (.ok made, after, log)) :
    ∃ text trace given note css location ending,
      compiler.styles input ⟨space, []⟩ = .ok text trace ∧
      compiler.engine.apply compiler.runner text input.toString output.toString = (given, note) ∧
      made = ⟨some css, given.map⟩ ∧
      css = (compiler.minifier (given.css.getD "")).styles ++ ending ∧
      Written space after made output compiler.inlineMap css location ∧
      Ending given output compiler.inlineMap ending ∧
      (compiler.inlineMap = false →
        (ending = mapFileNote output ↔ ∃ map, FiledMap made.map compiler.inlineMap map)) := by
  obtain ⟨⟨trace, isMade⟩, wrote⟩ := make_of_runOn ran
  rw [make_eq] at isMade
  obtain ⟨text, styled, isText, isMade⟩ := bind_eq_ok isMade
  obtain ⟨given, later, isGiven, isMade⟩ := bind_eq_ok isMade
  obtain ⟨notes, assembled⟩ := assembleStyles_eq_ok isMade
  have sameMap := (assemble_eq_ok assembled).1
  rcases applied : compiler.engine.apply compiler.runner text input.toString output.toString with
    ⟨found, note⟩
  have isFound : found = given := by
    unfold Compiler.prefixStyles at isGiven
    rw [applied] at isGiven
    cases isGiven
    rfl
  subst isFound
  obtain ⟨ending, isEnding, isCss⟩ := (assemble_eq_ok assembled).2
  obtain ⟨css, location, isSheet, written⟩ := writeOutput_eq_ok wrote
  obtain rfl := Option.some.inj (isSheet.symm.trans isCss)
  refine ⟨text, styled, found, note, _, location, ending, isText, applied, ?_, rfl, written,
    isEnding, ?_⟩
  · obtain ⟨css, map⟩ := made
    obtain rfl : css = _ := isSheet
    obtain rfl : map = _ := sameMap
    rfl
  · intro external
    rw [sameMap]
    cases isEnding with
    | names filed => exact ⟨fun _ => ⟨_, filed⟩, fun _ => rfl⟩
    | carries isInline =>
        rw [external] at isInline
        cases isInline
    | nothing notFiled =>
        refine ⟨fun empty => absurd empty.symm (mapFileNote_ne_empty output), ?_⟩
        rintro ⟨map, filed⟩
        exact absurd filed (notFiled map)

end

/-! A run with a source map -/

def openSpace : Workspace where
  entries := [(["in.jcss"], .file "a\x7b\x7d".toUTF8)]
  current := []

def openRun : Except CompileFault Output × Workspace × Log :=
  mappingCompiler.runOn openSpace ⟨0, ["in.jcss"]⟩ ⟨0, ["out.css"]⟩

theorem entries_after_open_run : ∃ made after log, openRun = (.ok made, after, log) ∧
    FiledMap made.map mappingCompiler.inlineMap "m" ∧ ∃ css location place,
      css = Css.squeeze "a\x7b\x7d" ++ mapFileNote ⟨0, ["out.css"]⟩ ∧
      after.entryAt? location = some (.file css.toUTF8) ∧
      after.entryAt? place = some (.file "m".toUTF8) ∧
      SameBut [location, place] openSpace after := by
  have succeeds : openRun.1.toBool = true := by decide +kernel
  rcases ran : openRun with ⟨fault | made, after, log⟩
  · rw [ran] at succeeds
    cases succeeds
  · obtain ⟨text, trace, given, note, css, location, ending, styled, applied, isMade, isCss, written,
      -, noted⟩ := entries_after_run ran
    have isText : (match mappingCompiler.styles ⟨0, ["in.jcss"]⟩ ⟨openSpace, []⟩ with
        | .ok css _ => some css
        | .error _ _ => none) = some "a\x7b\x7d" := by
      decide +kernel
    rw [styled] at isText
    obtain rfl := Option.some.inj isText
    obtain rfl : (⟨some "a\x7b\x7d", some "m"⟩ : Output) = given := (Prod.mk.inj applied).1
    have filed : FiledMap made.map mappingCompiler.inlineMap "m" := by
      rw [isMade]
      exact ⟨rfl, rfl, by decide⟩
    have sound : Css.checkStructure "a\x7b\x7d" = [] := by decide +kernel
    have styles : (mappingCompiler.minifier "a\x7b\x7d").styles = Css.squeeze "a\x7b\x7d" :=
      congrArg Css.Minified.styles (minify_of_sound sound)
    obtain ⟨path, place, -, -, -, -, atPlace, sameBut⟩ := written.beside "m" filed
    refine ⟨made, after, log, rfl, filed, css, location, place, ?_, written.sheet, atPlace, sameBut⟩
    rw [isCss, (noted rfl).2 ⟨"m", filed⟩, Option.getD_some, styles]

end SheetScript.Compile
