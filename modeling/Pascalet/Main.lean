import Pascalet.CommandLine.Invocation

namespace Pascalet.CommandLine

/-- Memory is given out as it is written, and nothing is written but what a program is told to. -/
def host : Platform := .unlimited

def absolutePath (place : List String) : String :=
  "/" ++ "/".intercalate place

def probe (place : List String) : IO (Option Entry) := do
  try
    return some (.file (← IO.FS.readBinFile (absolutePath place)))
  catch
    | .inappropriateType .. => return some .directory
    | _ => return none

def explore (disk : Disk) : List (List String) → IO Disk
  | [] => return disk
  | place :: below => do
    match ← probe place with
    | some .directory => explore (disk.put place .directory) below
    | some entry => return disk.put place entry
    | none => return disk

def placeOf (workingDirectory : List String) (path : String) : List String :=
  let base := if Path.isAbsolute path then [] else workingDirectory
  (Path.parts path).foldl (fun here step => if step = ".." then here.dropLast else here ++ [step]) base

def findDisk (arguments : List String) : IO Disk := do
  let workingDirectory := Path.parts (← IO.currentDir).toString
  let named := match Settings.ofArguments host.dropsDashes arguments with
    | .ok settings => [settings.source, settings.load, settings.output].filterMap id
    | .error _ => []
  (named.map (placeOf workingDirectory)).foldlM (fun disk place =>
    explore disk ((List.range place.length).map fun count => place.take (count + 1)))
    { workingDirectory }

partial def readPieces (stream : IO.FS.Stream) : IO (List ByteArray) := do
  let piece ← stream.read 8192
  if piece.isEmpty then return [] else return piece :: (← readPieces stream)

partial def drive (machine : Machine) : IO (Machine × Option MachineError) := do
  match machine.resume 4096 with
  | .unfinished paused =>
    IO.print paused.outputText
    drive { paused with output := #[] }
  | .stopped stopped error => return (stopped, error)

def saveChanges (before after : Disk) : IO Unit :=
  (after.changesSince before).forM fun (place, content) =>
    IO.FS.writeBinFile (absolutePath place) content

def leave (outcome : Outcome) : IO UInt32 := do
  IO.print outcome.console.output
  IO.eprint (outcome.console.errorText host)
  match outcome.exit with
  | .code value => return value.toUInt32
  | .crash (.session error) =>
    IO.eprintln error.report.render
    return 1
  | .crash .noPath =>
    IO.eprintln "no file to open"
    return 1
  | .crash .noMemorySize =>
    IO.eprintln "no memory size"
    return 1
  | .crash .undecodableInput =>
    IO.eprintln "input is not a text in UTF-8"
    return 1
  | .crash .outOfMemory =>
    IO.eprintln "out of memory"
    return 1

def invoke (arguments : List String) : IO UInt32 := do
  let disk ← findDisk arguments
  match start host arguments disk {} with
  | .ended outcome =>
    saveChanges disk outcome.console.disk
    leave outcome
  | .running settings console machine =>
    saveChanges disk console.disk
    IO.print console.output
    let stream := Pascalet.Stream.ofPieces (← readPieces (← IO.getStdin))
    let (stopped, error) ← drive { machine with input := stream.input, status := .running }
    leave (conclude settings stream { console with output := "" } stopped error)

end Pascalet.CommandLine

def main (arguments : List String) : IO UInt32 :=
  Pascalet.CommandLine.invoke arguments
