import Pascalet.Files.Path
import Pascalet.Text.Lines
import Pascalet.Text.Quoted

namespace Pascalet

inductive FileFault where
  | notFound
  | isDirectory
  | notDirectory
  | nameTooLong
  | nullCharacter
  | undecodable
deriving DecidableEq

structure FileError where
  fault : FileFault
  path : String
deriving DecidableEq

namespace FileError

def message (error : FileError) : String :=
  match error.fault with
  | .notFound => "[Errno 2] No such file or directory: " ++ Text.quote error.path
  | .isDirectory => "[Errno 21] Is a directory: " ++ Text.quote error.path
  | .notDirectory => "[Errno 20] Not a directory: " ++ Text.quote error.path
  | .nameTooLong => "[Errno 36] File name too long: " ++ Text.quote error.path
  | .nullCharacter => "embedded null byte"
  | .undecodable => "not a text in UTF-8"

def isSystemError (error : FileError) : Bool :=
  match error.fault with
  | .nullCharacter | .undecodable => false
  | _ => true

end FileError

inductive Entry where
  | directory
  | file (content : ByteArray)

def Entry.holds (entry : Entry) (content : ByteArray) : Bool :=
  match entry with
  | directory => false
  | file found => found.data == content.data

/-- Files and directories by their names from the root, and the directory that relative paths start
from. -/
structure Disk where
  entries : List (List String × Entry) := []
  workingDirectory : List String := []

namespace Disk

def nameLimit : Nat := 255

def pathLimit : Nat := 4096

def entry? (disk : Disk) (place : List String) : Option Entry :=
  if place.isEmpty then some .directory else disk.entries.lookup place

def put (disk : Disk) (place : List String) (entry : Entry) : Disk :=
  { disk with entries := (place, entry) :: disk.entries.filter (·.1 ≠ place) }

def addBelow (disk : Disk) (place : List String) (entry : Entry) : Disk :=
  let parents := (List.range place.length).map place.take
  (parents.foldl (fun disk parent => if (disk.entry? parent).isSome then disk
    else disk.put parent .directory) disk).put place entry

def walk (disk : Disk) (here : List String) : List String → Except FileFault (List String × Option Entry)
  | [] => .ok (here, some .directory)
  | step :: rest =>
    if step = "." then disk.walk here rest
    else if step = ".." then disk.walk here.dropLast rest
    else if nameLimit < step.utf8ByteSize then .error .nameTooLong
    else
      match disk.entry? (here ++ [step]), rest with
      | some .directory, _ => disk.walk (here ++ [step]) rest
      | found, [] => .ok (here ++ [step], found)
      | some (.file _), _ => .error .notDirectory
      | none, _ => .error .notFound

def locate (disk : Disk) (path : String) : Except FileFault (List String × Option Entry) :=
  if path.contains '\x00' then .error .nullCharacter
  else if path.isEmpty then .error .notFound
  else if pathLimit ≤ path.utf8ByteSize then .error .nameTooLong
  else disk.walk (if Path.isAbsolute path then [] else disk.workingDirectory) (Path.steps path)

def readBytes (disk : Disk) (path : String) : Except FileError ByteArray :=
  match disk.locate path with
  | .ok (_, some (.file content)) => .ok content
  | .ok (_, some .directory) => .error ⟨.isDirectory, path⟩
  | .ok (_, none) => .error ⟨.notFound, path⟩
  | .error fault => .error ⟨fault, path⟩

def readText (disk : Disk) (path : String) : Except FileError String := do
  let content ← disk.readBytes path
  match String.fromUTF8? content with
  | some text => .ok (String.ofList (Text.unifyNewlines text.toList))
  | none => .error ⟨.undecodable, path⟩

def writeText (disk : Disk) (path text : String) : Except FileError Disk :=
  match disk.locate path with
  | .ok (_, some .directory) => .error ⟨.isDirectory, path⟩
  | .ok (place, _) => .ok (disk.put place (.file text.toUTF8))
  | .error fault => .error ⟨fault, path⟩

def changesSince (disk earlier : Disk) : List (List String × ByteArray) :=
  disk.entries.filterMap fun (place, entry) =>
    match entry with
    | .file content =>
      if (earlier.entry? place).any (·.holds content) then none else some (place, content)
    | .directory => none

end Disk

end Pascalet
