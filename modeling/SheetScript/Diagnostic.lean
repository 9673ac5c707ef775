import SheetScript.Log
import SheetScript.Text.Blank
import SheetScript.Text.Search

/-! Sanity checks of an expanded style sheet. -/

namespace SheetScript

structure Diagnostic where
  rule : String
  level : Level
  message : String
  fix : Option String
  deriving DecidableEq, Repr

namespace Diagnostic

def isError (diagnostic : Diagnostic) : Bool :=
  diagnostic.level = .error

def text (diagnostic : Diagnostic) : String :=
  s!"{diagnostic.level.name} [{diagnostic.rule}]: {diagnostic.message}"

abbrev Rule := String → List Diagnostic

def braceBalance : Rule := fun css =>
  let opening := css.toList.count '\x7b'
  let closing := css.toList.count '\x7d'
  if opening = closing then []
  else
    [⟨"check_brace_balance", .error,
      s!"Unbalanced braces: {opening} '\x7b' vs {closing} '\x7d'.",
      some "Close every rule body opened in literal CSS or emitted by a script block."⟩]

/-- An empty style sheet is legal, but usually a mistake. -/
def notEmpty : Rule := fun css =>
  if (Text.trimChars css.toList).isEmpty then
    [⟨"check_not_empty", .info, "Compiled stylesheet is empty.", none⟩]
  else []

def rules : List Rule :=
  [braceBalance, notEmpty]

def textRule (text : String) (found : Diagnostic) : Rule := fun css =>
  if Text.occursIn text.toList css.toList then [found] else []

def diagnose (css : String) (extra : List Rule) : List Diagnostic :=
  (rules ++ extra).flatMap (· css)

def isValid (css : String) : Bool :=
  !(diagnose css []).any isError

def errorsMessage (errors : List Diagnostic) : String :=
  s!"CSS validation failed with {errors.length} error(s): " ++
    "; ".intercalate (errors.map text)

/-- All diagnostics, or just the errors if there are any. -/
def check (css : String) (extra : List Rule) : Except (List Diagnostic) (List Diagnostic) :=
  let found := diagnose css extra
  let errors := found.filter isError
  if errors.isEmpty then .ok found else .error errors

end Diagnostic

end SheetScript
