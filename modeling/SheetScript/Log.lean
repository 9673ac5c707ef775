/-! Records of what happened during a run. -/

namespace SheetScript

inductive Level
  | info
  | warning
  | error
  deriving DecidableEq, Repr

namespace Level

def name : Level → String
  | info => "INFO"
  | warning => "WARNING"
  | error => "ERROR"

end Level

structure Record where
  level : Level
  message : String
  deriving DecidableEq, Repr

/-- Records, oldest first. -/
abbrev Log := List Record

end SheetScript
