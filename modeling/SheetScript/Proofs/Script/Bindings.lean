import SheetScript.Proofs.Distinct
import SheetScript.Proofs.Script.Nodes

/-!
The names of scripts. At every moment of a run a script has the names of the declarations that it
has finished, in the order in which they were declared first, each with the value that was written to
it last. The names that every script can use are never among them.
-/

namespace SheetScript

namespace Assoc

variable {α : Type}

theorem isSome_get?_iff (entries : Assoc α) (key : String) :
    (entries.get? key).isSome = true ↔ key ∈ entries.keys := by
  induction entries with
  | nil => simp [keys]
  | cons entry rest ih =>
      rw [get?_cons]
      split
      · rename_i same
        simp [keys, same]
      · rename_i different
        rw [ih]
        simp [keys, different]

theorem get?_eq_none {entries : Assoc α} {key : String} (absent : key ∉ entries.keys) :
    entries.get? key = none := by
  rw [← Option.not_isSome_iff_eq_none, isSome_get?_iff]
  exact absent

/-- The keys that are added go behind those there are. -/
theorem keys_setAll {entries : Assoc α} {earlier : List String}
    (known : entries.keys = earlier.eraseDups) (added : Assoc α) :
    (entries.setAll added).keys = (earlier ++ added.keys).eraseDups := by
  induction added generalizing entries earlier with
  | nil => simpa [setAll, keys] using known
  | cons entry rest ih =>
      have first : (set entry.1 entry.2 entries).keys = (earlier ++ [entry.1]).eraseDups := by
        rw [keys_set, eraseDups_concat, known]
      have behind := ih first
      rw [List.append_assoc] at behind
      exact behind

/-- What is added counts for more than what there is. -/
theorem get?_setAll (entries : Assoc α) {added : Assoc α} (distinct : added.keys.Nodup)
    (key : String) : (entries.setAll added).get? key = (added.get? key).or (entries.get? key) := by
  induction added generalizing entries with
  | nil => rfl
  | cons entry rest ih =>
      obtain ⟨absent, distinctRest⟩ := List.nodup_cons.1 distinct
      have behind := ih (set entry.1 entry.2 entries) distinctRest
      rw [get?_set] at behind
      rw [get?_cons]
      refine behind.trans ?_
      split
      · rename_i same
        rw [same, get?_eq_none absent]
        rfl
      · rfl

end Assoc

end SheetScript

namespace SheetScript.Script

open SheetScript.Document

/-! What statements write -/

structure Write where
  declares : Bool
  name : String
  value : Value

namespace Statement

def value : Statement → Expr
  | declare _ value => value
  | assign _ value => value
  | expression value => value

/-- What a statement writes once its expression has a value. A field is no name. -/
def write? : Statement → Value → Option Write
  | declare name _, value => some ⟨true, name, value⟩
  | assign (.name id _) _, value => some ⟨false, id, value⟩
  | _, _ => none

end Statement

/-- The names that are declared, each where it was declared first. -/
def declaredNames (writes : List Write) : List String :=
  ((writes.filter Write.declares).map Write.name).eraseDups

def lastValue? (writes : List Write) (name : String) : Option Value :=
  ((writes.filter (·.name = name)).getLast?).map Write.value

theorem lastValue?_concat (writes : List Write) (last : Write) (name : String) :
    lastValue? (writes ++ [last]) name =
      if name = last.name then some last.value else lastValue? writes name := by
  unfold lastValue?
  rw [List.filter_append]
  by_cases same : name = last.name
  · simp [same]
  · have other : last.name ≠ name := fun isName => same isName.symm
    simp [same, other]

theorem declaredNames_declare (writes : List Write) (name : String) (value : Value) :
    declaredNames (writes ++ [⟨true, name, value⟩]) =
      if name ∈ declaredNames writes then declaredNames writes
      else declaredNames writes ++ [name] := by
  unfold declaredNames
  rw [List.filter_append, List.map_append]
  exact eraseDups_concat _ name

theorem declaredNames_assign (writes : List Write) (name : String) (value : Value) :
    declaredNames (writes ++ [⟨false, name, value⟩]) = declaredNames writes := by
  unfold declaredNames
  rw [List.filter_append]
  simp

theorem isGlobal_of_get? {memory : Memory} {name : String} {value : Value}
    (found : (globals memory).get? name = some value) : isGlobal name = true := by
  have inside := (Assoc.isSome_get?_iff _ _).1 (Option.isSome_of_eq_some found)
  exact List.contains_iff_mem.2 inside

/-- The names are those declared, in order, with the values written last; none is everybody's. -/
structure Records (scope : Scope) (writes : List Write) : Prop where
  names : scope.keys = declaredNames writes
  values : ∀ name, scope.get? name = lastValue? writes name
  apart : ∀ name ∈ scope.keys, isGlobal name = false

namespace Records

variable {scope : Scope} {writes : List Write}

theorem none : Records [] [] :=
  ⟨rfl, fun _ => rfl, nofun⟩

theorem declare (records : Records scope writes) {name : String}
    (isFree : isGlobal name = false) (value : Value) :
    Records (scope.set name value) (writes ++ [⟨true, name, value⟩]) := by
  constructor
  · rw [Assoc.keys_set, declaredNames_declare, records.names]
  · intro other
    rw [Assoc.get?_set, lastValue?_concat, records.values]
  · intro other inside
    rw [Assoc.keys_set] at inside
    split at inside
    · exact records.apart other inside
    · rcases List.mem_append.1 inside with earlier | isName
      · exact records.apart other earlier
      · exact List.mem_singleton.1 isName ▸ isFree

theorem assign (records : Records scope writes) {name : String}
    (declared : (scope.get? name).isSome = true) (value : Value) :
    Records (scope.set name value) (writes ++ [⟨false, name, value⟩]) := by
  have present := (Assoc.isSome_get?_iff scope name).1 declared
  have sameKeys : (scope.set name value).keys = scope.keys := by
    rw [Assoc.keys_set, if_pos present]
  constructor
  · rw [sameKeys, declaredNames_assign, records.names]
  · intro other
    rw [Assoc.get?_set, lastValue?_concat, records.values]
  · rw [sameKeys]
    exact records.apart

theorem nodup (records : Records scope writes) : scope.keys.Nodup := by
  rw [records.names]
  exact nodup_eraseDups _

/-- What is everybody's is found under its name. -/
theorem lookup_global (records : Records scope writes) {name : String} {value : Value}
    {world : World} (found : (globals world.memory).get? name = some value) :
    name ∉ scope.keys ∧ ∀ line, Evaluate.lookup scope name line world = .ok value world := by
  have absent : name ∉ scope.keys := by
    intro inside
    have isNamed := isGlobal_of_get? found
    rw [records.apart name inside] at isNamed
    cases isNamed
  refine ⟨absent, fun line => ?_⟩
  rw [Evaluate.lookup, bind_of_get, Assoc.get?_eq_none absent, found]
  rfl

end Records

/-! Statements that finish -/

section

-- What `get` does with the value that names a file.
variable {handler : Value → Step Value}

/-- Before a statement finishes its expression has got a value. -/
theorem value_of_statement {scope next : Scope} {single : Statement} {world after : World}
    (ran : Evaluate.statement handler scope single world = .ok next after) :
    ∃ value middle, Evaluate.expr handler scope single.value world = .ok value middle := by
  cases single with
  | declare name value =>
      rw [Evaluate.statement] at ran
      split at ran
      · cases ran
      · obtain ⟨found, middle, first, -⟩ := bind_eq_ok ran
        exact ⟨found, middle, first⟩
  | assign target value =>
      obtain ⟨found, middle, first, -⟩ := bind_eq_ok ran
      exact ⟨found, middle, first⟩
  | expression value =>
      obtain ⟨found, middle, first, -⟩ := bind_eq_ok ran
      exact ⟨found, middle, first⟩

/-- A statement that finishes records what it writes, and changes no other name. -/
theorem Records.statement {scope next : Scope} {writes : List Write}
    (records : Records scope writes) {single : Statement} {value : Value}
    {world middle after : World}
    (first : Evaluate.expr handler scope single.value world = .ok value middle)
    (ran : Evaluate.statement handler scope single world = .ok next after) :
    Records next (writes ++ (single.write? value).toList) := by
  -- Only a declaration and an assignment to a name write one; the others leave the scope alone.
  cases single with
  | declare name e =>
      rw [Evaluate.statement] at ran
      split at ran
      · cases ran
      · rename_i isFree
        rw [Statement.value] at first
        rw [bind_of_ok first] at ran
        cases ran
        exact records.declare (by simpa using isFree) value
  | assign target e =>
      rw [Statement.value] at first
      rw [Evaluate.statement, bind_of_ok first] at ran
      cases target with
      | name id line =>
          dsimp only at ran
          split at ran
          · rename_i declared
            cases ran
            exact records.assign declared value
          · cases ran
      | member object field line =>
          obtain ⟨owner, inner, -, writesField⟩ := bind_eq_ok ran
          obtain ⟨-, last, -, returns⟩ := bind_eq_ok writesField
          cases returns
          simpa [Statement.write?] using records
  | expression e =>
      rw [Statement.value] at first
      rw [Evaluate.statement, bind_of_ok first] at ran
      cases ran
      simpa [Statement.write?] using records

/--
Statements finish one after another, from no names on: what they have written, the names there are
after them, and the world.
-/
inductive Completes (handler : Value → Step Value) (begun : World) :
    List Statement → List Write → Scope → World → Prop
  | none : Completes handler begun [] [] [] begun
  | next {finished : List Statement} {writes : List Write} {scope next : Scope}
      {world middle after : World} {single : Statement} {value : Value}
      (before : Completes handler begun finished writes scope world)
      (first : Evaluate.expr handler scope single.value world = .ok value middle)
      (ran : Evaluate.statement handler scope single world = .ok next after) :
      Completes handler begun (finished ++ [single]) (writes ++ (single.write? value).toList)
        next after

theorem Completes.records {begun world : World} {finished : List Statement} {writes : List Write}
    {scope : Scope} (completes : Completes handler begun finished writes scope world) :
    Records scope writes := by
  induction completes with
  | none => exact .none
  | next _ first ran ih => exact ih.statement first ran

/-- One more statement that finishes. -/
theorem Completes.step {begun world after : World} {finished : List Statement}
    {writes : List Write} {scope next : Scope} {single : Statement}
    (completes : Completes handler begun finished writes scope world)
    (ran : Evaluate.statement handler scope single world = .ok next after) :
    ∃ more, Completes handler begun (finished ++ [single]) (writes ++ more) next after := by
  obtain ⟨value, middle, first⟩ := value_of_statement ran
  exact ⟨_, completes.next first ran⟩

/-- How a script ends: with all its statements finished, or at one that fails after the others. -/
theorem exists_completes {begun world : World} {finished : List Statement} {writes : List Write}
    {scope : Scope} (completes : Completes handler begun finished writes scope world)
    (rest : List Statement) :
    (∃ writes last after, Completes handler begun (finished ++ rest) writes last after ∧
        Evaluate.statements handler scope rest world = .ok last after) ∨
      ∃ before failing later writes reached now fault after,
        rest = before ++ failing :: later ∧
        Completes handler begun (finished ++ before) writes reached now ∧
        Evaluate.statement handler reached failing now = .error fault after ∧
        Evaluate.statements handler scope rest world = .error fault after := by
  -- Statement by statement: what has finished grows by each that does not fail.
  induction rest generalizing finished writes scope world with
  | nil =>
      rw [List.append_nil]
      exact .inl ⟨writes, scope, world, completes, rfl⟩
  | cons single rest ih =>
      cases ran : Evaluate.statement handler scope single world with
      | ok next middle =>
          obtain ⟨more, goesOn⟩ := completes.step ran
          have goes : Evaluate.statements handler scope (single :: rest) world =
              Evaluate.statements handler next rest middle := bind_of_ok ran
          rw [goes]
          rcases ih goesOn with ⟨all, last, after, ends, isResult⟩ |
            ⟨before, failing, later, all, reached, now, fault, after, rfl, ends, fails, isResult⟩
          · rw [List.append_assoc] at ends
            exact .inl ⟨all, last, after, ends, isResult⟩
          · rw [List.append_assoc] at ends
            exact .inr ⟨single :: before, failing, later, all, reached, now, fault, after, rfl,
              ends, fails, isResult⟩
      | error fault after =>
          have stops : Evaluate.statements handler scope (single :: rest) world =
              .error fault after := bind_of_error ran
          refine .inr ⟨[], single, rest, writes, scope, world, fault, after, rfl, ?_, ran, stops⟩
          rwa [List.append_nil]

/-- The names that a script has declared at its end. -/
theorem records_of_script {text : String} {scope : Scope} {world after : World}
    (ran : Evaluate.script handler text world = .ok scope after) :
    ∃ writes, Records scope writes := by
  rw [Evaluate.script] at ran
  cases parsed : parseScript (Text.trimChars text.toList) with
  | error fault =>
      rw [parsed] at ran
      cases ran
  | ok program =>
      rw [parsed] at ran
      rcases exists_completes (@Completes.none handler world) program with
        ⟨writes, last, later, completes, isResult⟩ |
        ⟨_, _, _, _, _, _, fault, later, -, -, -, isResult⟩
      · cases isResult.symm.trans ran
        exact ⟨writes, completes.records⟩
      · cases isResult.symm.trans ran

/-! Names of documents -/

inductive Scripts (handler : Value → Step Value) :
    List Segment → World → List Scope → World → Prop
  | none (world : World) : Scripts handler [] world [] world
  | style {segment : Segment} {rest : List Segment} {world after : World} {scopes : List Scope}
      (isStyle : segment.isScript = false) (later : Scripts handler rest world scopes after) :
      Scripts handler (segment :: rest) world scopes after
  | script {segment : Segment} {rest : List Segment} {world middle after : World} {scope : Scope}
      {scopes : List Scope} (isScript : segment.isScript = true)
      (ran : Evaluate.script handler segment.text world = .ok scope middle)
      (later : Scripts handler rest middle scopes after) :
      Scripts handler (segment :: rest) world (scope :: scopes) after

/-- The names of scopes, each where it came first, with its value in the last scope that has it. -/
structure Collects (names : Scope) (scopes : List Scope) : Prop where
  keys : names.keys = (scopes.flatMap Assoc.keys).eraseDups
  values : ∀ name, names.get? name = scopes.reverse.findSome? (Assoc.get? · name)

theorem Collects.setAll {names declared : Scope} {scopes : List Scope}
    (collects : Collects names scopes) (distinct : declared.keys.Nodup) :
    Collects (names.setAll declared) (scopes ++ [declared]) := by
  constructor
  · rw [Assoc.keys_setAll collects.keys, List.flatMap_append, List.flatMap_singleton]
  · intro name
    rw [Assoc.get?_setAll names distinct, collects.values, List.reverse_concat,
      List.findSome?_cons]
    cases declared.get? name <;> rfl

theorem collects_of_namespaceOf {segments : List Segment} {names result : Scope}
    {scopes : List Scope} {world after : World} (collects : Collects names scopes)
    (ran : Import.namespaceOf (Evaluate.script handler) names segments world = .ok result after) :
    ∃ more, Scripts handler segments world more after ∧ Collects result (scopes ++ more) := by
  induction segments generalizing names scopes world with
  | nil =>
      cases ran
      exact ⟨[], .none _, by rwa [List.append_nil]⟩
  | cons segment rest ih =>
      rw [Import.namespaceOf] at ran
      split at ran
      · rename_i isScript
        obtain ⟨declared, middle, first, later⟩ := bind_eq_ok ran
        obtain ⟨writes, records⟩ := records_of_script first
        obtain ⟨more, run, all⟩ := ih (collects.setAll records.nodup) later
        rw [List.append_assoc] at all
        exact ⟨declared :: more, .script isScript first run, all⟩
      · rename_i isStyle
        obtain ⟨more, run, all⟩ := ih collects ran
        exact ⟨more, .style (Bool.eq_false_iff.2 isStyle) run, all⟩

end

/-! The moments of a run -/

section

variable {setting : Setting}

/-- The moment is at the statements that are left, or within the first of them. -/
def StandsAt (setting : Setting) (scope : Scope) (rest : List Statement) (reached : World) :
    Moment → Prop
  | (.statements names left, now) => names = scope ∧ left = rest ∧ now = reached
  | moment => ∃ single later, rest = single :: later ∧
      Happens setting (.statement scope single, reached) moment ∧
      moment.2.importing = reached.importing

/--
A moment with names is one of a script that has come to it: some of its statements have finished,
and the names are those there are then.
-/
def Arrived (setting : Setting) (start moment : Moment) : Prop :=
  ∀ scope, moment.1.scope? = some scope →
    ∃ text begun finished rest writes reached, Happens setting start (.script text, begun) ∧
      parseScript (Text.trimChars text.toList) = .ok (finished ++ rest) ∧
      Completes (Import.getFile setting) begun finished writes scope reached ∧
      StandsAt setting scope rest reached moment

theorem standsAt_iff_within {scope : Scope} {rest : List Statement} {reached : World}
    {moment : Moment} (ordinary : moment.1.runsStatements = false) :
    StandsAt setting scope rest reached moment ↔ ∃ single later, rest = single :: later ∧
      Happens setting (.statement scope single, reached) moment ∧
      moment.2.importing = reached.importing := by
  obtain ⟨task, now⟩ := moment
  cases task with
  | statements names left => cases ordinary
  | _ => exact Iff.rfl

/-- The parts of a task that runs no statements have its names, or none. -/
theorem scope_of_part {whole part : Moment} (ordinary : whole.1.runsStatements = false)
    (inside : part ∈ whole.parts setting) {scope : Scope}
    (isScope : part.1.scope? = some scope) : whole.1.scope? = some scope ∧
      part.1.runsStatements = false ∧ part.2.importing = whole.2.importing := by
  rcases inside_of_mem_parts ordinary inside with ⟨within, same⟩ | ⟨names, segments, isDocument⟩
  · exact ⟨within.scope scope isScope, within.ordinary, same⟩
  · rw [isDocument] at isScope
    cases isScope

theorem arrived_part {start whole part : Moment} (happens : Happens setting start whole)
    (arrived : Arrived setting start whole) (inside : part ∈ whole.parts setting) :
    Arrived setting start part := by
  intro scope isScope
  obtain ⟨task, world⟩ := whole
  -- Only rows of statements move on in their script; any other task stands where its parts stand.
  by_cases ordinary : task.runsStatements = false
  · obtain ⟨wholeScope, partOrdinary, same⟩ := scope_of_part ordinary inside isScope
    obtain ⟨text, begun, finished, rest, writes, now, starts, parsed, completes, stands⟩ :=
      arrived scope wholeScope
    refine ⟨text, begun, finished, rest, writes, now, starts, parsed, completes, ?_⟩
    obtain ⟨single, later, isRest, within, sameStack⟩ := (standsAt_iff_within ordinary).1 stands
    exact (standsAt_iff_within partOrdinary).2
      ⟨single, later, isRest, within.part inside, same.trans sameStack⟩
  · cases task with
    | script text =>
        obtain ⟨program, parsed, rfl⟩ := mem_parts_script inside
        cases isScope
        exact ⟨text, world, [], program, [], world, happens, parsed, .none, rfl, rfl, rfl⟩
    | namespaceOf names segments =>
        rw [(bare_of_namespaceOf inside).1] at isScope
        cases isScope
    | statements names program =>
        obtain ⟨text, begun, finished, rest, writes, now, starts, parsed, completes, stands⟩ :=
          arrived names rfl
        obtain ⟨-, rfl, rfl⟩ := stands
        cases program with
        | nil => cases inside
        | cons single later =>
            rcases mem_parts_statements inside with rfl | ⟨next, after, ran, rfl⟩
            · cases isScope
              exact ⟨text, begun, finished, single :: later, writes, world, starts, parsed,
                completes, single, later, rfl, .start, rfl⟩
            · cases isScope
              obtain ⟨more, goesOn⟩ := completes.step ran
              refine ⟨text, begun, finished ++ [single], later, writes ++ more, after, starts, ?_,
                goesOn, rfl, rfl, rfl⟩
              rwa [List.append_assoc]
    | _ => exact absurd rfl ordinary

theorem arrived_of_happens {text : String} {world : World} {moment : Moment}
    (happens : Happens setting (.script text, world) moment) :
    Arrived setting (.script text, world) moment := by
  induction happens with
  | start =>
      intro scope isScope
      cases isScope
  | part happens inside ih => exact arrived_part happens ih inside

/-- An import that succeeds gives an object with the names of the document's scripts. -/
theorem collects_of_getFile {value answer : Value} {world after : World}
    (sound : SoundStack setting.workspace world.importing)
    (ran : Import.getFile setting value world = .ok answer after) :
    ∃ document inside scopes last reference names,
      Import.opened setting value world = .ok (document, inside) ∧
      Scripts (Import.getFile setting) (split document) inside scopes last ∧
      answer = .object reference ∧ after.objects[reference]? = some names ∧
      Collects names scopes := by
  have loads := @Import.getFile_eq setting value world sound
  cases opens : Import.opened setting value world with
  | error fault =>
      rw [ran, Import.importWith_error opens] at loads
      cases loads
  | ok start =>
      obtain ⟨document, inside⟩ := start
      cases runs : (Task.namespaceOf [] (split document)).run (Import.getFile setting) inside with
      | error fault last =>
          rw [ran, Import.importWith_fault opens runs] at loads
          cases loads
      | ok names last =>
          rw [ran, Import.importWith_ok opens runs] at loads
          cases loads
          have nothing : Collects [] [] := ⟨rfl, fun _ => rfl⟩
          obtain ⟨scopes, scripts, collects⟩ := collects_of_namespaceOf nothing runs
          exact ⟨document, inside, scopes, last, _, names, rfl, scripts, rfl,
            List.getElem?_concat_length, collects⟩

/--
At every moment of a run, inside imported documents too, the names of a script are those of the
declarations it has finished, each with the value written to it last, and what every script can use
is found under its own name. A script that stops has finished the statements before the one that
fails. What `get` answers has the names of the document's scripts, the last of which counts.
-/
theorem names_of_run (setting : Setting) (source : String) {world : World}
    (idle : world.importing = []) :
    (∀ task now scope, Happens setting (.script source, world) (task, now) →
      task.scope? = some scope →
      ∃ text begun finished rest writes reached,
        Happens setting (.script source, world) (.script text, begun) ∧
        parseScript (Text.trimChars text.toList) = .ok (finished ++ rest) ∧
        Completes (Import.getFile setting) begun finished writes scope reached ∧
        StandsAt setting scope rest reached (task, now) ∧
        Records scope writes ∧
        ∀ name value, (globals world.memory).get? name = some value →
          name ∉ scope.keys ∧ ∀ line, Evaluate.lookup scope name line now = .ok value now) ∧
    (∀ text begun program, parseScript (Text.trimChars text.toList) = .ok program →
      (∃ writes scope after,
        Completes (Import.getFile setting) begun program writes scope after ∧
        Records scope writes ∧
        Evaluate.script (Import.getFile setting) text begun = .ok scope after) ∨
      ∃ finished failing rest writes scope reached fault after,
        program = finished ++ failing :: rest ∧
        Completes (Import.getFile setting) begun finished writes scope reached ∧
        Records scope writes ∧
        Evaluate.statement (Import.getFile setting) scope failing reached = .error fault after ∧
        Evaluate.script (Import.getFile setting) text begun = .error fault after) ∧
    ∀ value now answer after, Happens setting (.script source, world) (.get value, now) →
      Import.getFile setting value now = .ok answer after →
      ∃ document inside scopes last reference names,
        Import.opened setting value now = .ok (document, inside) ∧
        Scripts (Import.getFile setting) (split document) inside scopes last ∧
        answer = .object reference ∧ after.objects[reference]? = some names ∧
        Collects names scopes := by
  refine ⟨?_, ?_, ?_⟩
  · intro task now scope happens isScope
    obtain ⟨text, begun, finished, rest, writes, reached, starts, parsed, completes, stands⟩ :=
      arrived_of_happens happens scope isScope
    have records := completes.records
    have same : globals now.memory = globals world.memory := globals_of_happens happens
    exact ⟨text, begun, finished, rest, writes, reached, starts, parsed, completes, stands,
      records, fun name value found => records.lookup_global (same ▸ found)⟩
  · intro text begun program parsed
    have runs : Evaluate.script (Import.getFile setting) text begun =
        Evaluate.statements (Import.getFile setting) [] program begun := by
      rw [Evaluate.script, parsed]
    rw [runs]
    rcases exists_completes .none program with ⟨writes, scope, after, completes, isResult⟩ |
      ⟨finished, failing, rest, writes, scope, reached, fault, after, isProgram, completes, fails,
        isResult⟩
    · exact .inl ⟨writes, scope, after, completes, completes.records, isResult⟩
    · exact .inr ⟨finished, failing, rest, writes, scope, reached, fault, after, isProgram,
        completes, completes.records, fails, isResult⟩
  · intro value now answer after happens ran
    have start : SoundStack setting.workspace world.importing := idle ▸ SoundStack.nil
    have sound : SoundStack setting.workspace now.importing := sound_happens start happens
    exact collects_of_getFile sound ran

end

/-- A script whose last statement declares a name that every script can use. -/
def takingChain : String := "let a = 1; a = 2; const chain = a"

theorem names_of_run_takingChain :
    ∃ program finished failing rest writes scope reached after,
      parseScript (Text.trimChars takingChain.toList) = .ok program ∧
      program = finished ++ failing :: rest ∧
      Completes (Import.getFile circle) (World.start none default) finished writes scope reached ∧
      Records scope writes ∧
      Evaluate.statement (Import.getFile circle) scope failing reached =
        .error (.redeclaredName "chain") after := by
  have stops : faultAfter? (Evaluate.script (Import.getFile circle) takingChain
      (World.start none default)) = some (.redeclaredName "chain") := by
    decide +kernel
  have idle : (World.start none default).importing = [] := rfl
  cases parsed : parseScript (Text.trimChars takingChain.toList) with
  | error fault =>
      rw [Evaluate.script, parsed] at stops
      cases stops
  | ok program =>
      rcases (names_of_run circle takingChain idle).2.1 takingChain (World.start none default) program
          parsed with ⟨writes, scope, after, -, -, ran⟩ |
        ⟨finished, failing, rest, writes, scope, reached, fault, after, isProgram, completes,
          records, fails, ran⟩
      · rw [ran] at stops
        cases stops
      · rw [ran] at stops
        cases stops
        exact ⟨program, finished, failing, rest, writes, scope, reached, after, rfl, isProgram,
          completes, records, fails⟩

end SheetScript.Script
