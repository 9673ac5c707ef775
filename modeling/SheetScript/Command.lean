import SheetScript.Css.Squeeze
import SheetScript.Watch.Watcher

/-! The command line: its arguments, and what a call of the program does. -/

namespace SheetScript.Command

open SheetScript.Compile SheetScript.Files SheetScript.Prefix SheetScript.Watch

def versionText : String := "chaincss, version 0.1.0\n"

def usageText : String := "Usage: chaincss [OPTIONS] INPUT_FILE OUTPUT_FILE\n"

inductive UsageFault
  | unknownOption (name : String)
  | missingValue (option : String)
  | unexpectedValue (option : String)
  | missingArgument (name : String)
  | extraArguments (words : List String)
  | wrongChoice (option value : String)
  | isDirectory (path : String)
  deriving DecidableEq, Repr

def UsageFault.message : UsageFault → String
  | unknownOption name => s!"No such option: {name}"
  | missingValue option => s!"Option {option} requires an argument."
  | unexpectedValue option => s!"Option {option} does not take a value."
  | missingArgument name => s!"Missing argument {name}."
  | extraArguments words => "Got unexpected extra arguments: " ++ " ".intercalate words
  | wrongChoice option value => s!"Invalid value for {option}: {Text.quoted value}"
  | isDirectory path => s!"File {Text.quoted path} is a directory."

inductive Flag
  | help
  | version
  | watch
  | noPrefix
  | noSourceMap
  | inlineMap
  | verbose
  deriving DecidableEq, Repr

inductive Setting
  | mode
  | browsers
  | data
  deriving DecidableEq, Repr

def longOptions : Assoc (Flag ⊕ Setting) :=
  [("--help", .inl .help), ("--version", .inl .version), ("--watch", .inl .watch),
    ("--no-prefix", .inl .noPrefix), ("--no-source-map", .inl .noSourceMap),
    ("--source-map-inline", .inl .inlineMap), ("--verbose", .inl .verbose),
    ("--prefixer-mode", .inr .mode), ("--browsers", .inr .browsers),
    ("--caniuse-data", .inr .data)]

inductive Argument
  | word (text : String)
  | flags (flags : List Flag)
  | setting (setting : Setting) (name : String) (value : Option String)

def splitOption (argument : String) : String × Option String :=
  let name := argument.toList.takeWhile (· != '=')
  match argument.toList.drop name.length with
  | '=' :: value => (String.ofList name, some (String.ofList value))
  | _ => (argument, none)

def readArgument (argument : String) : Except UsageFault Argument :=
  match argument.toList with
  | '-' :: second :: rest =>
    let (name, value) := splitOption argument
    match longOptions.get? name, value with
    | some (.inl flag), none => .ok (.flags [flag])
    | some (.inl _), some _ => .error (.unexpectedValue name)
    | some (.inr setting), value => .ok (.setting setting name value)
    | none, _ =>
      if second != '-' && (second :: rest).all (· == 'v') then
        .ok (.flags ((second :: rest).map fun _ => .verbose))
      else .error (.unknownOption name)
  | _ => .ok (.word argument)

structure Arguments where
  flags : List Flag
  settings : List (Setting × String)
  words : List String

/-- Reads arguments; an option takes the next one as its value, and after `--` all are words. -/
def readArguments : List String → Except UsageFault Arguments
  | [] => .ok ⟨[], [], []⟩
  | argument :: rest =>
    if argument = "--" then .ok ⟨[], [], rest⟩
    else
      match readArgument argument with
      | .error fault => .error fault
      | .ok (.word word) => do
        let more ← readArguments rest
        return { more with words := word :: more.words }
      | .ok (.flags flags) => do
        let more ← readArguments rest
        return { more with flags := flags ++ more.flags }
      | .ok (.setting setting _ (some value)) => do
        let more ← readArguments rest
        return { more with settings := (setting, value) :: more.settings }
      | .ok (.setting setting name none) =>
        match rest with
        | [] => .error (.missingValue name)
        | value :: rest => do
          let more ← readArguments rest
          return { more with settings := (setting, value) :: more.settings }

namespace Arguments

def has (arguments : Arguments) (flag : Flag) : Bool :=
  arguments.flags.contains flag

def value? (arguments : Arguments) (setting : Setting) : Option String :=
  (arguments.settings.reverse.find? (·.1 = setting)).map Prod.snd

def queries (text : String) : List String :=
  ((Text.splitAt ',' text.toList).map Text.trimChars).filterMap fun part =>
    if part.isEmpty then none else some (String.ofList part)

def config (arguments : Arguments) (mode : Mode) : Config :=
  { Config.standard with
    enabled := !arguments.has .noPrefix
    browsers :=
      match (arguments.value? .browsers).filter (· != "") with
      | some text => queries text
      | none => Config.standard.browsers
    mode := mode
    sourceMap := !arguments.has .noSourceMap
    inlineMap := arguments.has .inlineMap
    dataPath := arguments.value? .data }

def mode (arguments : Arguments) : Except UsageFault Mode :=
  match arguments.value? .mode with
  | none => .ok .auto
  | some name =>
    match Mode.ofName? name with
    | some mode => .ok mode
    | none => .error (.wrongChoice "--prefixer-mode" name)

def files (arguments : Arguments) (space : Workspace) : Except UsageFault (String × String) := do
  let check (text : String) : Except UsageFault Unit :=
    if text != "" && space.isDirectory (Path.ofString text) then .error (.isDirectory text)
    else .ok ()
  match arguments.words with
  | [] => throw (.missingArgument "INPUT_FILE")
  | [_] => throw (.missingArgument "OUTPUT_FILE")
  | [input, output] => do
    check input
    check output
    check ((arguments.value? .data).getD "")
    return (input, output)
  | _ :: _ :: extra => throw (.extraArguments extra)

end Arguments

inductive Request
  | help
  | version
  | compile (config : Config) (input output : String) (watch : Bool)

/-- Reads a call. Asking for help or for the version outweighs what is wrong with the rest. -/
def readRequest (space : Workspace) (words : List String) : Except UsageFault Request := do
  let arguments ← readArguments words
  match arguments.flags.find? fun flag => flag = .help || flag = .version with
  | some .help => return .help
  | some _ => return .version
  | none =>
    let mode ← arguments.mode
    let (input, output) ← arguments.files space
    return .compile (arguments.config mode) input output (arguments.has .watch)

structure WatchPlan where
  compiler : Compiler
  input : Path
  output : Path

structure Outcome where
  exit : Nat
  space : Workspace
  log : Log
  stdout : String
  stderr : String
  /-- What the call goes on watching, if it does. -/
  watching : Option WatchPlan

def compilerFor (engine : Engine) (runner : Runner) (memory : Script.Memory) : Compiler :=
  ⟨[".jcss"], engine, Css.minify, runner, memory⟩

section

variable (around : Surroundings) (runner : Runner) (memory : Script.Memory)

def compile (config : Config) (input output : String) (watch : Bool) : Outcome :=
  match Engine.create around ⟨none, none⟩ config with
  | (.error _, log) => ⟨1, around.space, log, "", "", none⟩
  | (.ok engine, log) =>
    let compiler := compilerFor engine runner memory
    let source := Path.ofString input
    let target := Path.ofString output
    match compiler.runOn around.space source target with
    | (.error fault, after, more) =>
      let text := (fault.message?.map (s!"Error: {·}\n")).getD ""
      ⟨1, after, log ++ more, "", text, none⟩
    | (.ok _, after, more) =>
      let stdout := s!"Compiled {input} -> {output}\n"
      if watch then
        ⟨0, after, log ++ more ++ Watcher.startLog source, stdout, "",
          some ⟨compiler, source, target⟩⟩
      else ⟨0, after, log ++ more, stdout, "", none⟩

def run (words : List String) : Outcome :=
  let space := around.space
  match readRequest space words with
  | .error fault => ⟨2, space, [], "", s!"{usageText}\nError: {fault.message}\n", none⟩
  | .ok .help => ⟨0, space, [], usageText, "", none⟩
  | .ok .version => ⟨0, space, [], versionText, "", none⟩
  | .ok (.compile config input output watch) =>
    compile around runner memory config input output watch

end

def interrupt (outcome : Outcome) : Outcome :=
  match outcome.watching with
  | some _ => { outcome with stdout := outcome.stdout ++ "Stopped watching.\n", watching := none }
  | none => outcome

end SheetScript.Command
