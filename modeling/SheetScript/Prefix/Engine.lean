import SheetScript.Log
import SheetScript.Output
import SheetScript.Prefix.External
import SheetScript.Prefix.Insertion

/-!
The prefixing stage: it picks a strategy for its configuration, and a strategy that fails leaves the
style sheet as it was.
-/

namespace SheetScript.Prefix

open SheetScript.Files SheetScript.Number

inductive Mode
  | auto
  | lightweight
  | full
  deriving DecidableEq, Repr

def Mode.name : Mode → String
  | auto => "auto"
  | lightweight => "lightweight"
  | full => "full"

def Mode.ofName? (name : String) : Option Mode :=
  [Mode.auto, .lightweight, .full].find? (·.name == name)

inductive Choice
  | lightweight
  | full
  deriving DecidableEq, Repr

def Choice.name : Choice → String
  | lightweight => "lightweight"
  | full => "full"

def downgradeWarning : String :=
  "Full prefixer mode requested but postcss/autoprefixer is not installed; falling back to " ++
    "lightweight mode. Install with: npm install -g postcss-cli autoprefixer"

def choose (wanted : Mode) (available : Bool) : Choice × Option String :=
  match wanted, available with
  | .lightweight, _ => (.lightweight, none)
  | .full, false => (.lightweight, some downgradeWarning)
  | .full, true => (.full, none)
  | .auto, true => (.full, none)
  | .auto, false => (.lightweight, none)

structure Config where
  enabled : Bool
  browsers : List String
  mode : Mode
  sourceMap : Bool
  inlineMap : Bool
  /-- Where the capability data is, if that is said. -/
  dataPath : Option String
  command : String

def Config.standard : Config where
  enabled := true
  browsers := ["> 0.5%", "last 2 versions", "not dead"]
  mode := .auto
  sourceMap := true
  inlineMap := false
  dataPath := none
  command := "postcss"

inductive StrategyFault
  | target (fault : TargetFault)
  | external (fault : ExternalFault)
  | other (message : String)

def StrategyFault.message : StrategyFault → String
  | target fault => fault.message
  | external fault => fault.message
  | other message => message

inductive Strategy
  | tables (tables : Tables)
  | external (external : External)
  | other (name : String) (apply : String → Except StrategyFault Output)

namespace Strategy

def name : Strategy → String
  | tables _ => Choice.lightweight.name
  | external _ => Choice.full.name
  | other name _ => name

def apply (strategy : Strategy) (runner : Runner) (css source target : String) :
    Except StrategyFault Output :=
  match strategy with
  | tables own => ((own.apply css).map (⟨some ·, none⟩)).mapError .target
  | external program =>
    ((program.apply runner css source target).map fun (css, map) => ⟨some css, map⟩).mapError
      .external
  | other _ apply => apply css

end Strategy

structure Surroundings where
  space : Workspace
  /-- Where the environment says that the capability data is. -/
  dataVariable : Option String
  commandExists : String → Bool

/-- What is given to an engine instead of being looked for. -/
structure Overrides where
  available : Option Bool
  dataset : Option (Option Dataset)

structure Engine where
  overrides : Overrides
  config : Config
  available : Bool
  choice : Choice
  strategy : Strategy

namespace Engine

def standardTimeout : Binary64 :=
  (⟨false, 60, 0⟩ : Decimal).toBinary64

def strategyFor (around : Surroundings) (overrides : Overrides) (config : Config)
    (choice : Choice) : Except DataFault Strategy :=
  match choice with
  | .full =>
    .ok (.external ⟨config.browsers, config.sourceMap, config.inlineMap, config.command,
      standardTimeout⟩)
  | .lightweight => do
    let dataset ←
      match overrides.dataset with
      | some dataset => pure dataset
      | none => Dataset.discover around.space config.dataPath around.dataVariable
    return .tables (.ofQueries dataset config.browsers)

def isAvailable (around : Surroundings) (overrides : Overrides) (config : Config) : Bool :=
  overrides.available.getD (around.commandExists config.command)

def warningLog (warning : Option String) : Log :=
  warning.toList.map (⟨.warning, ·⟩)

def create (around : Surroundings) (overrides : Overrides) (config : Config) :
    Except DataFault Engine × Log :=
  let available := isAvailable around overrides config
  let (choice, warning) := choose config.mode available
  ((strategyFor around overrides config choice).map (⟨overrides, config, available, choice, ·⟩),
    warningLog warning)

/-- Gives an engine another configuration. One whose data cannot be read keeps the old strategy. -/
def reconfigure (around : Surroundings) (engine : Engine) (config : Config) :
    Except DataFault Unit × Engine × Log :=
  let available := isAvailable around engine.overrides config
  let (choice, warning) := choose config.mode available
  let next := { engine with config := config, available := available, choice := choice }
  match strategyFor around engine.overrides config choice with
  | .ok strategy => (.ok (), { next with strategy := strategy }, warningLog warning)
  | .error fault => (.error fault, next, warningLog warning)

/-- Prefixes a style sheet; one that cannot be prefixed stays as it is. -/
def apply (engine : Engine) (runner : Runner) (css source target : String) : Output × Log :=
  if !engine.config.enabled then (⟨some css, none⟩, [])
  else
    match engine.strategy.apply runner css source target with
    | .error fault => (⟨some css, none⟩, [⟨.error, s!"Prefixer error: {fault.message}"⟩])
    | .ok found => (if engine.config.sourceMap then found else { found with map := none }, [])

end Engine

end SheetScript.Prefix
