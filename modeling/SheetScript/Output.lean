/-! What the stages of a run hand on. -/

namespace SheetScript

/-- A style sheet and its source map; no style sheet after a failure. -/
structure Output where
  css : Option String
  map : Option String
  deriving DecidableEq, Repr

end SheetScript
