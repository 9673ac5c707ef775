import SheetScript.Log
import SheetScript.Script.Import

/-! Expansion of documents: each script gives way to the text it emits. -/

namespace SheetScript.Document

open SheetScript.Files SheetScript.Script

inductive ScriptFailure
  | stopped (fault : ScriptFault) (number : Option Nat)
  /-- The script ran, but what it emitted has no text. -/
  | unprintable
  deriving DecidableEq, Repr

def blockName (number : Option Nat) : String :=
  match number with
  | some n => s!"script block #{n}"
  | none => "script block"

namespace ScriptFailure

def line? : ScriptFailure → Option Nat
  | stopped fault _ => fault.line?
  | unprintable => none

def className : ScriptFailure → String
  | stopped _ _ => "ScriptExecutionError"
  | unprintable => ScriptFault.integerTooLong.className

def causeName? : ScriptFailure → Option String
  | stopped fault _ => some fault.className
  | unprintable => none

def message? : ScriptFailure → Option String
  | stopped (.badSyntax fault) number =>
    let place := (fault.place?.map (s!" at {·}")).getD ""
    some s!"Syntax error in {blockName number}{place}: {fault.message}"
  | stopped fault number => some s!"Error in {blockName number}: {fault.message}"
  | unprintable => none

end ScriptFailure

def emitted (number : Option Nat) (output : Value) : Except ScriptFailure (Option String × Log) :=
  match output with
  | .undefined | .null => .ok (none, [])
  | output =>
    if output.isObject then
      .ok (none, [⟨.warning, s!"Discarding {output.kind} result of {blockName number}; " ++
        "only text is emitted"⟩])
    else
      match output.text? with
      | some text => .ok (some text, [])
      | none => .error .unprintable

/--
Runs one script of a document: the text it emits, if any. It starts with nothing emitted and in a
scope of its own.
-/
def execute (setting : Setting) (source : String) (number : Option Nat) (world : World) :
    Except ScriptFailure (Option String × Log) × World :=
  match runScript setting source { world with output := .null } with
  | .ok _ after => (emitted number after.output, after)
  | .error fault after => (.error (.stopped fault number), after)

/-- The texts of segments, scripts replaced by what they emit, up to the first that fails. -/
def expandSegments (setting : Setting) :
    List Segment → World → Except ScriptFailure (List String) × Log × World
  | [], world => (.ok [], [], world)
  | segment :: rest, world =>
    if segment.isScript then
      match execute setting segment.text (some segment.scriptNumber) world with
      | (.ok (text?, records), after) =>
        let (texts, log, last) := expandSegments setting rest after
        (texts.map (text?.toList ++ ·), records ++ log, last)
      | (.error failure, after) => (.error failure, [], after)
    else
      let (texts, log, last) := expandSegments setting rest world
      (texts.map (segment.text :: ·), log, last)

def expand (setting : Setting) (document : String) (world : World) :
    Except ScriptFailure String × Log × World :=
  let (texts, log, last) := expandSegments setting (split document) world
  (texts.map fun texts => Text.trim (String.join texts), log, last)

end SheetScript.Document
