import SheetScript.Style.Block
import SheetScript.Style.Property
import SheetScript.Text.Blank

/-! The style sheet text of blocks, in the two layouts a script can ask for. -/

namespace SheetScript.Style

namespace Block

def declarationLine (indent : String) (entry : String × String) : String :=
  s!"{indent}{propertyName entry.1}: {entry.2};\n"

def declarationLines (indent : String) (block : Block) : String :=
  String.join (block.properties.map (declarationLine indent))

def rule (block : Block) : String :=
  block.selectorText ++ " \x7b\n" ++ block.declarationLines "\t" ++ "\x7d\n\n"

def compactRule (block : Block) : String :=
  block.selectorText ++ " \x7b\n" ++ block.declarationLines "  " ++ "\x7d\n"

end Block

/-- The rules of blocks with selectors, a blank line between two of them. -/
def rules (blocks : List Block) : String :=
  Text.trim (String.join (blocks.map Block.rule))

/-- The rules of blocks one after another; a block without selectors has an empty one. -/
def compactRules (blocks : List Block) : String :=
  String.join (blocks.map Block.compactRule)

end SheetScript.Style
