/-
  AttributeSheet.CommandLine.Usage — calls that are not right, and how they are told.

  A call is answered with how to use the command, where to find help and what is wrong.
  An option that lacks its value, or has one it does not take, is told by the last line
  alone.
-/
import AttributeSheet.Specificity
import AttributeSheet.Text.Quoted

namespace AttributeSheet.CommandLine

inductive Command where
  | program
  | compile
  | inspect
  deriving DecidableEq, Repr

namespace Command

def path : Command → String
  | program => "cas"
  | compile => "cas compile"
  | inspect => "cas inspect"

def synopsis : Command → String
  | program => "[OPTIONS] COMMAND [ARGS]..."
  | compile => "[OPTIONS] SHEET HTML"
  | inspect => "[OPTIONS] SHEET"

def usageLine (c : Command) : String := "Usage: " ++ c.path ++ " " ++ c.synopsis ++ "\n"

end Command

inductive BadCall where
  | noSuchOption (name : String)
  | valueMissing (option : String)
  | valueUnwanted (option : String)
  | commandMissing
  | noSuchCommand (name : String)
  | argumentMissing (name : String)
  | surplus (arguments : List String)
  | noSuchFile (parameter path : String)
  | isFolder (parameter path : String)
  | noSuchMode (parameter name : String)
  deriving DecidableEq, Repr

namespace BadCall

def invalid (parameter text : String) : String := "Invalid value for " ++ parameter ++ ": " ++ text

def message : BadCall → String
  | noSuchOption name => "No such option " ++ Text.quote name ++ "."
  | valueMissing option => "Option " ++ Text.quote option ++ " requires an argument."
  | valueUnwanted option => "Option " ++ Text.quote option ++ " does not take a value."
  | commandMissing => "Missing command."
  | noSuchCommand name => "No such command " ++ Text.quote name ++ "."
  | argumentMissing name => "Missing argument " ++ Text.quote name ++ "."
  | surplus arguments =>
    (if arguments.length = 1 then "Got unexpected extra argument (" else "Got unexpected extra arguments (")
      ++ " ".intercalate arguments ++ ")"
  | noSuchFile parameter path => invalid parameter ("File " ++ Text.quote path ++ " does not exist.")
  | isFolder parameter path => invalid parameter ("File " ++ Text.quote path ++ " is a directory.")
  | noSuchMode parameter name =>
    invalid parameter
      (Text.quote name ++ " is not one of " ++ ", ".intercalate (Mode.all.map fun m => Text.quote m.name) ++ ".")

def isBare : BadCall → Bool
  | valueMissing _ | valueUnwanted _ => true
  | _ => false

def report (c : Command) (b : BadCall) : String :=
  let last := "Error: " ++ b.message ++ "\n"
  if b.isBare then last else c.usageLine ++ "Try '" ++ c.path ++ " --help' for help.\n\n" ++ last

end BadCall

end AttributeSheet.CommandLine
