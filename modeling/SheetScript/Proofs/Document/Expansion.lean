import SheetScript.Document.Expand
import SheetScript.Proofs.Document.Partition
import SheetScript.Proofs.Script.Isolation

/-!
What a document expands to, script by script. All that a script takes over from the ones before it
is the bag they left, and the places in memory that are left for setters.
-/

namespace SheetScript.Document

open SheetScript.Files SheetScript.Script SheetScript.Style

structure Carried where
  bag : Bag
  memory : Memory

def carried (world : World) : Carried :=
  ⟨world.bag, world.memory⟩

/-- The world of a script of which nothing but its base and what it takes over is given. -/
def freshWorld (base : Option Path) (given : Carried) : World :=
  { World.start base given.memory with store := .ofBag given.bag }

structure Outcome where
  emission : Except ScriptFailure (Option String × Log)
  leaves : Carried

def outcome (setting : Setting) (base : Option Path) (number : Option Nat) (source : String)
    (given : Carried) : Outcome :=
  let (emission, after) := execute setting source number (freshWorld base given)
  ⟨emission, carried after⟩

theorem emitted_moved (past : Past) (number : Option Nat) (output : Value) :
    emitted number (output.moved past) = emitted number output := by
  cases output <;> rfl

theorem carried_moved (past : Past) (world : World) : carried (world.moved past) = carried world := by
  unfold carried
  exact congrArg (Carried.mk · world.memory) (Store.bag_moved past world.store)

theorem moved_ofBag (objects : Objects) (stamps : Nat) (store : Store) :
    (Store.ofBag store.bag).moved ⟨objects, stamps, store⟩ = store := by
  refine Store.ext_bags ?_ rfl
  have here := store.inside
  change store.bags.set store.current (store.read store.current) ++ [] = store.bags
  rw [List.append_nil, Store.read, List.getElem?_eq_getElem here, Option.getD_some,
    List.set_getElem_self]

theorem execute_isolated (setting : Setting) (source : String) (number : Option Nat) {world : World}
    (idle : world.importing = []) :
    (execute setting source number world).1 =
        (outcome setting world.base number source (carried world)).emission ∧
      carried (execute setting source number world).2 =
        (outcome setting world.base number source (carried world)).leaves := by
  let past : Past := ⟨world.objects, world.nextStamp, world.store⟩
  have starts : { world with output := Value.null } =
      (freshWorld world.base (carried world)).moved past := by
    have stored : (Store.ofBag world.bag).moved past = world.store :=
      moved_ofBag world.objects world.nextStamp world.store
    obtain ⟨store, output, objects, nextStamp, base, importing, memory⟩ := world
    subst idle
    simp [freshWorld, carried, World.moved, World.start, Value.moved, stored, past]
  have blank : { freshWorld world.base (carried world) with output := Value.null } =
      freshWorld world.base (carried world) := rfl
  have moves := runScript_moves past setting source (freshWorld world.base (carried world))
  unfold outcome execute
  rw [starts, moves, blank]
  cases runScript setting source (freshWorld world.base (carried world)) with
  | ok scope after => exact ⟨emitted_moved _ number after.output, carried_moved past after⟩
  | error fault after => exact ⟨rfl, carried_moved past after⟩

/-! The scripts of a document, by number -/

def scripts (document : String) : List String :=
  ((split document).filter Segment.isScript).map Segment.text

section

variable (setting : Setting) (base : Option Path) (given : Carried) (sources : List String)

def carriedAfter : Nat → Carried
  | 0 => given
  | count + 1 =>
    (outcome setting base (some (count + 1)) (sources.getD count "") (carriedAfter count)).leaves

def scriptOutcome (number : Nat) : Outcome :=
  outcome setting base (some number) (sources.getD (number - 1) "")
    (carriedAfter setting base given sources (number - 1))

def replacement (segment : Segment) : String :=
  if segment.isScript then
    match (scriptOutcome setting base given sources segment.scriptNumber).emission with
    | .ok (some text, _) => text
    | _ => ""
  else segment.text

end

/-- The scripts among the segments are those of the list from a place on, numbered in order. -/
def Numbered (sources : List String) : Nat → List Segment → Prop
  | _, [] => True
  | count, segment :: rest =>
    if segment.isScript then
      segment.scriptNumber = count + 1 ∧ sources[count]? = some segment.text ∧
        Numbered sources (count + 1) rest
    else Numbered sources count rest

theorem numbered_segmentsFrom {sources : List String} (index : Nat) (texts : List (List Char))
    (rest : sources.drop (index / 2) =
      ((segmentsFrom index texts).filter Segment.isScript).map Segment.text) :
    Numbered sources (index / 2) (segmentsFrom index texts) := by
  induction texts generalizing index with
  | nil => trivial
  | cons text later ih =>
      rw [segmentsFrom] at rest ⊢
      unfold Numbered
      -- Scripts stand at the odd places, and only they use up a source.
      by_cases even : index % 2 = 0
      · have literal : (segmentAt text index).isScript = false := by
          simp [segmentAt, Segment.isScript, even]
        have half : (index + 1) / 2 = index / 2 := by omega
        rw [List.filter_cons_of_neg (by simp [literal])] at rest
        have step := ih (index + 1) (by rw [half]; exact rest)
        rw [half] at step
        simpa [literal] using step
      · have script : (segmentAt text index).isScript = true := by
          simp [segmentAt, Segment.isScript, even]
        have half : (index + 1) / 2 = index / 2 + 1 := by omega
        rw [List.filter_cons_of_pos script, List.map_cons] at rest
        have here : sources[index / 2]? = some (segmentAt text index).text := by
          have first := congrArg (·[0]?) rest
          simpa using first
        have remaining : sources.drop (index / 2 + 1) =
            ((segmentsFrom (index + 1) later).filter Segment.isScript).map Segment.text := by
          rw [← List.drop_drop, rest, List.drop_one, List.tail_cons]
        have step := ih (index + 1) (by rw [half]; exact remaining)
        rw [half] at step
        rw [if_pos script]
        exact ⟨half, here, step⟩

theorem numbered_split (document : String) : Numbered (scripts document) 0 (split document) := by
  have texts := split_eq_segmentsFrom document
  have numbered : Numbered (scripts document) 0 (segmentsFrom 0 (pieces document.toList)) :=
    numbered_segmentsFrom 0 _ (by rw [← texts]; rfl)
  rw [← texts] at numbered
  exact numbered

def scriptCount (segments : List Segment) : Nat :=
  (segments.filter Segment.isScript).length

theorem scriptCount_segmentsFrom (index : Nat) (texts : List (List Char)) :
    scriptCount (segmentsFrom index texts) + index / 2 = (index + texts.length) / 2 := by
  induction texts generalizing index with
  | nil => simp [scriptCount, segmentsFrom]
  | cons text rest ih =>
      have step := ih (index + 1)
      unfold scriptCount at step ⊢
      rw [segmentsFrom, List.length_cons]
      by_cases even : index % 2 = 0
      · rw [List.filter_cons_of_neg (by simp [segmentAt, Segment.isScript, even])]
        omega
      · rw [List.filter_cons_of_pos (by simp [segmentAt, Segment.isScript, even]), List.length_cons]
        omega

theorem take_segmentsFrom (count index : Nat) (texts : List (List Char)) :
    (segmentsFrom index texts).take count = segmentsFrom index (texts.take count) := by
  induction texts generalizing count index with
  | nil => simp [segmentsFrom]
  | cons text rest ih =>
      cases count with
      | zero => simp [segmentsFrom]
      | succ count => rw [segmentsFrom, List.take_succ_cons, List.take_succ_cons, segmentsFrom, ih]

theorem scriptCount_take {document : String} {number : Nat}
    (within : number ≤ scriptCount (split document)) :
    number ≤ scriptCount ((split document).take (2 * number)) := by
  rw [split_eq_segmentsFrom] at within ⊢
  have all := scriptCount_segmentsFrom 0 (pieces document.toList)
  have front := scriptCount_segmentsFrom 0 ((pieces document.toList).take (2 * number))
  rw [List.length_take] at front
  rw [take_segmentsFrom]
  omega

theorem numbered_take {sources : List String} {segments : List Segment} (length : Nat) {count : Nat}
    (numbered : Numbered sources count segments) :
    Numbered sources count (segments.take length) := by
  induction segments generalizing length count with
  | nil =>
      rw [List.take_nil]
      trivial
  | cons segment rest ih =>
      cases length with
      | zero => trivial
      | succ length =>
          rw [List.take_succ_cons]
          unfold Numbered at numbered ⊢
          split at numbered
          · rename_i script
            rw [if_pos script]
            exact ⟨numbered.1, numbered.2.1, ih length numbered.2.2⟩
          · rename_i literal
            rw [if_neg literal]
            exact ih length numbered

/-! One script, and then the whole run -/

/-- The world in which the script after the first `count` ones starts. -/
structure Ready (setting : Setting) (base : Option Path) (given : Carried) (sources : List String)
    (count : Nat) (world : World) : Prop where
  atBase : world.base = base
  idle : world.importing = []
  takesOver : carried world = carriedAfter setting base given sources count

section

variable {setting : Setting} {base : Option Path} {given : Carried} {sources : List String}
  {count : Nat} {world : World}

theorem execute_ready (ready : Ready setting base given sources count world) {source : String}
    (here : sources[count]? = some source) :
    (execute setting source (some (count + 1)) world).1 =
        (scriptOutcome setting base given sources (count + 1)).emission ∧
      Ready setting base given sources (count + 1)
        (execute setting source (some (count + 1)) world).2 := by
  obtain ⟨same, left⟩ := execute_isolated setting source (some (count + 1)) ready.idle
  have kept := execute_keepsPlace setting source (some (count + 1)) world
  have isSource : sources.getD count "" = source := by
    rw [List.getD_eq_getElem?_getD, here, Option.getD_some]
  rw [ready.atBase, ready.takesOver] at same left
  refine ⟨?_, ⟨?_, ?_, ?_⟩⟩
  · rw [same]
    unfold scriptOutcome
    rw [Nat.add_sub_cancel, isSource]
  · exact (congrArg Place.base kept).trans ready.atBase
  · exact (congrArg Place.importing kept).trans ready.idle
  · rw [left, carriedAfter, isSource]

theorem expandSegments_texts {segments : List Segment}
    (ready : Ready setting base given sources count world) (numbered : Numbered sources count segments)
    (succeeds : ∀ n, count < n → n ≤ count + scriptCount segments →
      ∃ text log, (scriptOutcome setting base given sources n).emission = .ok (text, log)) :
    ∃ texts, (expandSegments setting segments world).1 = .ok texts ∧
      String.join texts = String.join (segments.map (replacement setting base given sources)) := by
  -- Segment by segment: a script leaves the world ready for the next one.
  induction segments generalizing count world with
  | nil => exact ⟨[], rfl, rfl⟩
  | cons segment rest ih =>
      unfold Numbered at numbered
      unfold expandSegments
      split at numbered
      · rename_i script
        obtain ⟨number, here, numberedRest⟩ := numbered
        have longer : scriptCount (segment :: rest) = scriptCount rest + 1 := by
          rw [scriptCount, List.filter_cons_of_pos script]
          rfl
        obtain ⟨same, readyRest⟩ := execute_ready ready here
        obtain ⟨text, log, emits⟩ := succeeds (count + 1) (by omega) (by omega)
        obtain ⟨texts, expands, joined⟩ := ih readyRest numberedRest
          (fun n after within => succeeds n (by omega) (by omega))
        have replaced : replacement setting base given sources segment = text.getD "" := by
          unfold replacement
          rw [if_pos script, number, emits]
          cases text <;> rfl
        rw [if_pos script, number]
        cases ran : execute setting segment.text (some (count + 1)) world with
        | mk emission after =>
            rw [ran] at same expands
            dsimp only at same
            rw [same, emits]
            refine ⟨text.toList ++ texts, ?_, ?_⟩
            · dsimp only
              rw [expands]
              rfl
            · rw [List.map_cons, String.join_cons, replaced, ← joined]
              cases text <;> simp [String.join_cons]
      · rename_i literal
        have shorter : scriptCount (segment :: rest) = scriptCount rest := by
          rw [scriptCount, List.filter_cons_of_neg literal]
          rfl
        rw [shorter] at succeeds
        obtain ⟨texts, expands, joined⟩ := ih ready numbered succeeds
        refine ⟨segment.text :: texts, ?_, ?_⟩
        · rw [if_neg literal]
          dsimp only
          rw [expands]
          rfl
        · rw [List.map_cons, String.join_cons, String.join_cons, joined]
          unfold replacement
          rw [if_neg literal]

theorem expandSegments_failure {segments : List Segment}
    (ready : Ready setting base given sources count world) (numbered : Numbered sources count segments) {number : Nat} (after : count < number)
    (within : number ≤ count + scriptCount segments)
    (succeeds : ∀ n, count < n → n < number →
      ∃ text log, (scriptOutcome setting base given sources n).emission = .ok (text, log))
    {failure : ScriptFailure}
    (fails : (scriptOutcome setting base given sources number).emission = .error failure) :
    (expandSegments setting segments world).1 = .error failure ∧
      carried (expandSegments setting segments world).2.2 =
        carriedAfter setting base given sources number := by
  induction segments generalizing count world with
  | nil =>
      simp [scriptCount] at within
      omega
  | cons segment rest ih =>
      unfold Numbered at numbered
      unfold expandSegments
      split at numbered
      · rename_i script
        obtain ⟨ownNumber, here, numberedRest⟩ := numbered
        have longer : scriptCount (segment :: rest) = scriptCount rest + 1 := by
          rw [scriptCount, List.filter_cons_of_pos script]
          rfl
        obtain ⟨same, readyRest⟩ := execute_ready ready here
        rw [if_pos script, ownNumber]
        cases ran : execute setting segment.text (some (count + 1)) world with
        | mk emission left =>
            rw [ran] at same readyRest
            dsimp only at same readyRest
            by_cases first : number = count + 1
            · subst first
              rw [same, fails]
              exact ⟨rfl, readyRest.takesOver⟩
            · obtain ⟨text, log, emits⟩ := succeeds (count + 1) (by omega) (by omega)
              obtain ⟨expands, last⟩ := ih readyRest numberedRest (by omega) (by omega)
                (fun n later before => succeeds n (by omega) before)
              rw [same, emits]
              dsimp only
              rw [expands]
              exact ⟨rfl, last⟩
      · rename_i literal
        have shorter : scriptCount (segment :: rest) = scriptCount rest := by
          rw [scriptCount, List.filter_cons_of_neg literal]
          rfl
        rw [shorter] at within
        obtain ⟨expands, last⟩ := ih ready numbered after within succeeds
        rw [if_neg literal]
        dsimp only
        rw [expands]
        exact ⟨rfl, last⟩

/-- Segments after a failing script change nothing. -/
theorem expandSegments_append {done : List Segment} {failure : ScriptFailure} (rest : List Segment)
    (fails : (expandSegments setting done world).1 = .error failure) :
    expandSegments setting (done ++ rest) world = expandSegments setting done world := by
  induction done generalizing world failure with
  | nil => cases fails
  | cons segment later ih =>
      rw [List.cons_append]
      unfold expandSegments at fails ⊢
      split at fails
      · rename_i script
        rw [if_pos script, if_pos script]
        cases ran : execute setting segment.text (some segment.scriptNumber) world with
        | mk emission after =>
            cases emission with
            | error failure => rfl
            | ok emitted =>
                rw [ran] at fails
                dsimp only at fails ⊢
                cases inside : (expandSegments setting later after).1 with
                | ok texts =>
                    rw [inside] at fails
                    cases fails
                | error failure => rw [ih inside, inside]
      · rename_i literal
        rw [if_neg literal, if_neg literal]
        dsimp only at fails ⊢
        cases inside : (expandSegments setting later world).1 with
        | ok texts =>
            rw [inside] at fails
            cases fails
        | error failure => rw [ih inside, inside]

end

/-! What a failure tells -/

/-- A script that runs, but leaves an integer of too many digits as its output. -/
def EmitsLongInteger (setting : Setting) (base : Option Path) (source : String)
    (given : Carried) : Prop :=
  ∃ names after n, runScript setting source (freshWorld base given) = .ok names after ∧
    after.output = .int n ∧ digitLimit < Number.decimalLength n.natAbs

theorem emitted_error {number : Option Nat} {output : Value} {failure : ScriptFailure}
    (fails : emitted number output = .error failure) :
    ∃ n, output = .int n ∧ digitLimit < Number.decimalLength n.natAbs := by
  cases output with
  | int n =>
      refine ⟨n, rfl, ?_⟩
      by_cases long : digitLimit < Number.decimalLength n.natAbs
      · exact long
      · simp [emitted, Value.isObject, Value.text?, intText?, long] at fails
  | _ => simp [emitted, Value.isObject, Value.text?] at fails

theorem message_names (fault : ScriptFault) (number : Option Nat) :
    ∃ before after, (ScriptFailure.stopped fault number).message? =
      some (before ++ blockName number ++ after) := by
  cases fault with
  | badSyntax fault =>
      refine ⟨"Syntax error in ", (fault.place?.map (s!" at {·}")).getD "" ++ ": " ++ fault.message, ?_⟩
      simp [ScriptFailure.message?, String.append_assoc]
      rfl
  | _ => exact ⟨"Error in ", ": " ++ _, by simp [ScriptFailure.message?, String.append_assoc]; rfl⟩

/-- A failure that tells which script of the document it is about, in its record and its message. -/
def ScriptFailure.Names (failure : ScriptFailure) (number : Nat) : Prop :=
  (∃ fault, failure = .stopped fault (some number)) ∧
    ∃ before after, failure.message? = some (before ++ blockName (some number) ++ after)

theorem outcome_error {setting : Setting} {base : Option Path} {number : Nat} {source : String}
    {given : Carried} {failure : ScriptFailure}
    (fails : (outcome setting base (some number) source given).emission = .error failure) :
    failure.Names number ↔ ¬ EmitsLongInteger setting base source given := by
  have blank : { freshWorld base given with output := Value.null } = freshWorld base given := rfl
  unfold outcome execute at fails
  rw [blank] at fails
  cases ran : runScript setting source (freshWorld base given) with
  | ok names after =>
      rw [ran] at fails
      dsimp only at fails
      obtain ⟨n, isInt, long⟩ := emitted_error fails
      have unprintable : failure = .unprintable := by
        rw [isInt] at fails
        simpa [emitted, Value.isObject, Value.text?, intText?, long] using fails.symm
      refine ⟨?_, fun short => absurd ⟨names, after, n, ran, isInt, long⟩ short⟩
      rintro ⟨⟨fault, stopped⟩, _⟩
      rw [unprintable] at stopped
      cases stopped
  | error fault after =>
      rw [ran] at fails
      cases fails
      refine ⟨fun _ => ?_, fun _ => ⟨⟨fault, rfl⟩, message_names fault (some number)⟩⟩
      rintro ⟨names, other, n, same, _⟩
      rw [ran] at same
      cases same

/--
A document expands to its literal text with each script replaced by what the script emits, and the
first script that fails ends the expansion. What becomes of a script depends on the world only
through the base, the bag, and the places in memory that stand in the texts of the builder and of
functions. A failure tells the script's number, unless the script ran and left an integer that has no
text.
-/
theorem expand_of_scripts (setting : Setting) (document : String) (world : World)
    (idle : world.importing = []) :
    let sources := scripts document
    let result (number : Nat) := scriptOutcome setting world.base (carried world) sources number
    let expansion := expand setting document world
    ((∀ n, 1 ≤ n → n ≤ sources.length → ∃ text log, (result n).emission = .ok (text, log)) →
      expansion.1 = .ok (Text.trim (String.join
        ((split document).map (replacement setting world.base (carried world) sources))))) ∧
    ∀ n, 1 ≤ n → n ≤ sources.length →
      (∀ m, 1 ≤ m → m < n → ∃ text log, (result m).emission = .ok (text, log)) →
      ∀ failure, (result n).emission = .error failure →
        expansion.1 = .error failure ∧
        carried expansion.2.2 = (result n).leaves ∧
        (∀ other, (split other).take (2 * n) = (split document).take (2 * n) →
          expand setting other world = expansion) ∧
        (failure.Names n ↔ ¬ EmitsLongInteger setting world.base (sources.getD (n - 1) "")
          (carriedAfter setting world.base (carried world) sources (n - 1))) := by
  intro sources result expansion
  have ready : Ready setting world.base (carried world) sources 0 world := ⟨rfl, idle, rfl⟩
  have numbered := numbered_split document
  have countScripts : sources.length = scriptCount (split document) := List.length_map _
  constructor
  · intro succeeds
    obtain ⟨texts, expands, joined⟩ := expandSegments_texts ready numbered
      (fun n after within => succeeds n (by omega) (by omega))
    change ((expandSegments setting (split document) world).1.map _) = _
    rw [expands, ← joined]
    rfl
  · intro n first within succeeds failure fails
    have inDocument : n ≤ scriptCount (split document) := by omega
    have inFront := scriptCount_take inDocument
    have earlier (m : Nat) (after : 0 < m) (before : m < n) := succeeds m after before
    have whole := expandSegments_failure ready numbered first (by omega) earlier fails
    have front := expandSegments_failure ready (numbered_take (2 * n) numbered) first (by omega)
      earlier fails
    refine ⟨?_, ?_, ?_, outcome_error fails⟩
    · change ((expandSegments setting (split document) world).1.map _) = _
      rw [whole.1]
      rfl
    · obtain ⟨before, rfl⟩ : ∃ before, n = before + 1 := ⟨n - 1, by omega⟩
      exact whole.2
    · intro other sameFront
      -- Two documents alike up to the failure fail alike, for neither is read any further.
      have ofFront (text : String) (same : (split text).take (2 * n) = (split document).take (2 * n)) :
          expandSegments setting (split text) world =
            expandSegments setting ((split document).take (2 * n)) world := by
        rw [← List.take_append_drop (2 * n) (split text), same]
        exact expandSegments_append _ front.1
      change expand setting other world = expand setting document world
      unfold expand
      rw [ofFront other sameFront, ofFront document rfl]

def Outcome.failure? (result : Outcome) : Option ScriptFailure :=
  match result.emission with
  | .ok _ => none
  | .error failure => some failure

theorem Outcome.emission_of_failure? {result : Outcome} {failure : ScriptFailure}
    (found : result.failure? = some failure) : result.emission = .error failure := by
  unfold failure? at found
  split at found
  · cases found
  · rename_i fails
    rw [fails, Option.some.inj found]

theorem Outcome.emission_of_no_failure {result : Outcome} (none : result.failure? = none) :
    ∃ text log, result.emission = .ok (text, log) := by
  unfold failure? at none
  split at none
  · rename_i emitted succeeds
    exact ⟨emitted.1, emitted.2, succeeds⟩
  · cases none

def noFiles : Setting := ⟨⟨[], []⟩, []⟩

/-- The text of the builder tells where it is. -/
example : (expand noFiles "<@chain.cssOutput=chain.color('red')@>"
      (World.start none ⟨0x7f10, 0, id⟩)).1.toOption =
    some "<chaincss.builder.builder.StyleBuilder object at 0x7f10>" := by
  decide +kernel

def stopsAtSecond : String :=
  "a<@chain.color('red')@>b<@nope@>c<@chain.color('blue')@>"

theorem expand_stopsAtSecond :
    (expand noFiles stopsAtSecond (World.start none default)).1 =
        .error (.stopped (.undefinedName "nope" 1) (some 2)) ∧
      (expand noFiles stopsAtSecond (World.start none default)).2.2.bag = [("color", "red")] := by
  let result := scriptOutcome noFiles none (carried (World.start none default)) (scripts stopsAtSecond)
  have first : (result 1).failure? = none := by decide +kernel
  have second : (result 2).failure? = some (.stopped (.undefinedName "nope" 1) (some 2)) := by
    decide +kernel
  have left : (result 2).leaves.bag = [("color", "red")] := by decide +kernel
  have earlier (m : Nat) (atLeast : 1 ≤ m) (below : m < 2) :
      ∃ text log, (result m).emission = .ok (text, log) := by
    obtain rfl : m = 1 := by omega
    exact Outcome.emission_of_no_failure first
  obtain ⟨fails, leaves, _⟩ :=
    (expand_of_scripts noFiles stopsAtSecond (World.start none default) rfl).2 2
      (by decide) (by decide +kernel) earlier _ (Outcome.emission_of_failure? second)
  exact ⟨fails, (congrArg Carried.bag leaves).trans left⟩

end SheetScript.Document
