import SheetScript.Command

/-!
The program. It takes a picture of the files below the working directory, hands it to the command
line with the arguments, and writes the files that differ afterwards.
-/

namespace SheetScript.Main

open SheetScript.Compile SheetScript.Files SheetScript.Prefix SheetScript.Watch

partial def entriesBelow (location : Location) (found : Array IO.FS.DirEntry) :
    IO (List (Location × Entry)) := do
  let mut entries := []
  for entry in found.toList do
    let place := location ++ [entry.fileName]
    if ← entry.path.isDir then
      let inner ← entriesBelow place (← entry.path.readDir)
      entries := entries ++ (place, Entry.directory) :: inner
    else
      entries := entries ++ [(place, Entry.file (← IO.FS.readBinFile entry.path))]
  return entries

def takePicture : IO Workspace := do
  let directory ← IO.currentDir
  let current := (Path.ofString directory.toString).parts
  let around := (⟨[], current⟩ : Workspace).addDirectory current
  let inner ← entriesBelow current (← directory.readDir)
  return { around with entries := around.entries ++ inner }

def writeChanges (before after : Workspace) : IO Unit := do
  for (location, entry) in after.entries do
    match entry, before.entryAt? location with
    | .directory, _ => pure ()
    | .file bytes, some (.file old) =>
      if bytes.data != old.data then
        IO.FS.writeBinFile ("/" ++ "/".intercalate location) bytes
    | .file bytes, _ => IO.FS.writeBinFile ("/" ++ "/".intercalate location) bytes

def printLog (log : Log) : IO Unit := do
  for record in log do
    IO.eprintln s!"{record.level.name}: {record.message}"

def signatureOf (path : Path) : IO (Option Signature) := do
  try
    let found ← IO.FS.realPath path.toString
    let data ← found.metadata
    let time := data.modified.sec.toNat * 1000000000 + data.modified.nsec.toNat
    return some ⟨time, data.byteSize.toNat⟩
  catch _ => return none

def noRunner : Runner :=
  ⟨⟨1, ["tmp"]⟩, fun _ => .notStarted "FileNotFoundError" "no such command"⟩

partial def watch (compiler : Compiler) (watcher : Watcher) : IO Unit := do
  IO.sleep 500
  let (checked, log) := watcher.poll (← signatureOf watcher.input)
  printLog log
  let before ← takePicture
  let (next, after, jobs) := checked.drain compiler before
  printLog jobs
  writeChanges before after
  watch compiler next

def call (words : List String) : IO UInt32 := do
  let space ← takePicture
  let around : Surroundings := ⟨space, ← IO.getEnv "CHAINCSS_CANIUSE_DATA", fun _ => false⟩
  let outcome := Command.run around noRunner default words
  printLog outcome.log
  writeChanges space outcome.space
  IO.print outcome.stdout
  IO.eprint outcome.stderr
  match outcome.watching with
  | some plan =>
    watch plan.compiler (.create plan.input plan.output (← signatureOf plan.input))
  | none => pure ()
  return outcome.exit.toUInt32

end SheetScript.Main

def main (words : List String) : IO UInt32 :=
  SheetScript.Main.call words
