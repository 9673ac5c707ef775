import SheetScript.Compile.Compiler
import SheetScript.Css.Squeeze
import SheetScript.Prefix.Recall

/-!
A compiler for many runs. Each run reads its document and expands the scripts from the start; only
the targets that its prefixing has found stay from one run to the next.
-/

namespace SheetScript.Compile

open SheetScript.Files SheetScript.Prefix

abbrev KeepingStage := EStateM CompileFault (Trace × Kept)

def Stage.keeping {α : Type} (stage : Stage α) : KeepingStage α := fun (trace, kept) =>
  match stage trace with
  | .ok value after => .ok value (after, kept)
  | .error fault after => .error fault (after, kept)

namespace Compiler

def prefixKeeping (compiler : Compiler) (input output : Path) (css : String) :
    KeepingStage Output := do
  let (trace, kept) ← get
  let ((found, log), later) :=
    compiler.engine.recall compiler.runner css input.toString output.toString kept
  set (trace, later)
  (Stage.note log).keeping
  return found

def runKeeping (compiler : Compiler) (input output : Path) : KeepingStage Output := do
  let source ← (compiler.readDocument input).keeping
  let css ← (compiler.expandDocument input source).keeping
  (checkStyles input css).keeping
  let given ← compiler.prefixKeeping input output css
  let made ← (compiler.assembleStyles output given).keeping
  (compiler.writeStyles output made).keeping
  return made

end Compiler

structure Standing where
  extensions : List String
  engine : Engine
  minifier : Minifier
  kept : Kept

namespace Standing

def create (around : Surroundings) (config : Config) (extensions : List String) :
    Except DataFault Standing × Log :=
  let (made, log) := Engine.create around ⟨none, none⟩ config
  (made.map (⟨extensions, ·, Css.minify, none⟩), log)

/-- The compiler with what other programs do, and where things are, in one of its runs. -/
def compiler (standing : Standing) (runner : Runner) (memory : Script.Memory) : Compiler :=
  ⟨standing.extensions, standing.engine, standing.minifier, runner, memory⟩

def runOn (standing : Standing) (runner : Runner) (memory : Script.Memory) (space : Workspace)
    (input output : Path) : (Except CompileFault Output × Workspace × Log) × Standing :=
  let compiler := standing.compiler runner memory
  match compiler.runKeeping input output (⟨space, []⟩, standing.kept) with
  | .ok made (trace, kept) => ((.ok made, trace.space, trace.log), { standing with kept := kept })
  | .error fault (trace, kept) =>
    ((.error fault, trace.space, trace.log), { standing with kept := kept })

end Standing

end SheetScript.Compile
