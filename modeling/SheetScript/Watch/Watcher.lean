import SheetScript.Compile.Compiler
import SheetScript.Watch.RunQueue

/-! Watching a document: each change seen asks for a run of the compiler. -/

namespace SheetScript.Watch

open SheetScript.Compile SheetScript.Files

structure Signature where
  time : Nat
  size : Nat
  deriving DecidableEq, Repr

structure Watcher where
  input : Path
  output : Path
  /-- The state of the input last seen; none if it did not exist. -/
  seen : Option Signature
  queue : RunQueue
  /-- Polls by itself no more. -/
  stopped : Bool

namespace Watcher

def create (input output : Path) (present : Option Signature) : Watcher :=
  ⟨input, output, present, .empty, false⟩

def startLog (input : Path) : Log :=
  [⟨.info, s!"Watching for changes in {input.toString}..."⟩]

/-- Compares the input with the state last seen; a change to a file that exists asks for a run. -/
def check (watcher : Watcher) (present : Option Signature) : Bool × Watcher × Log :=
  if present = watcher.seen then (false, watcher, [])
  else
    let next := { watcher with seen := present }
    match present with
    | none =>
      (false, next, [⟨.warning, s!"Watched file disappeared: {watcher.input.toString}"⟩])
    | some _ => (true, { next with queue := next.queue.request }, [])

/-- The job of a watcher: one run of the compiler. The first part of the answer: it failed. -/
def rebuild (watcher : Watcher) (compiler : Compiler) (space : Workspace) :
    Bool × Workspace × Log :=
  let before : Log := [⟨.info, s!"File changed: {watcher.input.toString}"⟩]
  match compiler.runOn space watcher.input watcher.output with
  | (.ok _, after, log) =>
    (false, after, before ++ log ++ [⟨.info, s!"Rebuilt {watcher.output.toString}"⟩])
  | (.error _, after, log) => (true, after, before ++ log)

def runJobs (compiler : Compiler) : Nat → Watcher → Workspace → Watcher × Workspace × Log
  | 0, watcher, space => (watcher, space, [])
  | count + 1, watcher, space =>
    let (failed, after, log) := watcher.rebuild compiler space
    let event := Event.finish 0 failed
    let next := { watcher with queue := (watcher.queue.after event).settle }
    let (last, final, more) := runJobs compiler count next after
    (last, final, log ++ RunQueue.eventLog event ++ more)

def drain (watcher : Watcher) (compiler : Compiler) (space : Workspace) :
    Watcher × Workspace × Log :=
  runJobs compiler watcher.queue.jobsDue { watcher with queue := watcher.queue.settle } space

def poll (watcher : Watcher) (present : Option Signature) : Watcher × Log :=
  if watcher.stopped then (watcher, [])
  else
    let (_, next, log) := watcher.check present
    (next, log)

end Watcher

end SheetScript.Watch
