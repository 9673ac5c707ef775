import SheetScript.Css.Rule
import SheetScript.Text.Position

/-! What is wrong with the structure of a style sheet. -/

namespace SheetScript.Css

open SheetScript.Text (Position)

inductive StructureFault
  | component (fault : Fault)
  /-- A prelude without a block. -/
  | unfinished
  deriving DecidableEq, Repr

def StructureFault.message : StructureFault → String
  | component fault => fault.message
  | unfinished => "EOF reached before \x7b\x7d block for a qualified rule."

structure PlacedFault where
  offset : Nat
  fault : StructureFault
  deriving DecidableEq, Repr

mutual

def componentFaults : Component → List PlacedFault
  | .leaf _ _ => []
  | .fault offset fault => [⟨offset, .component fault⟩]
  | .block _ _ content => listFaults content
  | .function _ _ arguments => listFaults arguments

def listFaults : List Component → List PlacedFault
  | [] => []
  | component :: rest => componentFaults component ++ listFaults rest

end

/-- The faults of a rule. One without a block hides those of its prelude. -/
def ruleFaults : Rule → List PlacedFault
  | .qualified prelude content => listFaults prelude ++ listFaults content
  | .atRule _ prelude content => listFaults prelude ++ listFaults (content.getD [])
  | .unfinished offset => [⟨offset, .unfinished⟩]

def sourceFaults (source : List Char) : List PlacedFault :=
  (sheetRules (components source)).flatMap ruleFaults

def PlacedFault.text (source : List Char) (placed : PlacedFault) : String :=
  let position := Position.start.advance (source.take placed.offset)
  s!"line {position.line}, column {position.column}: {placed.fault.message}"

def checkStructure (css : String) : List String :=
  let source := normalise css.toList
  (sourceFaults source).map (·.text source)

end SheetScript.Css
