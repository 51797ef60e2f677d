import Pascalet.Text.Quoted

namespace Pascalet

structure Report where
  message : String
  line : Option Int := none
  file : Option String := none
deriving DecidableEq

namespace Report

/-- The place in front of the message. An empty file name counts as none. -/
def render (report : Report) : String :=
  match report.file.filter (· ≠ ""), report.line with
  | some file, some line => file ++ ":" ++ toString line ++ ": " ++ report.message
  | some file, none => file ++ ": " ++ report.message
  | none, some line => "line " ++ toString line ++ ": " ++ report.message
  | none, none => report.message

def inFile (report : Report) (file : String) : Report :=
  { report with file := some file }

def invalidCharacter (character : String) (line : Option Int) (file : Option String) : Report :=
  { message := "Invalid character " ++ Text.quote character, line, file }

def execution (text : String) (pc : Option Int) : Report :=
  match pc with
  | some index => { message := text ++ " (pc=" ++ toString index ++ ")" }
  | none => { message := text }

end Report

end Pascalet
