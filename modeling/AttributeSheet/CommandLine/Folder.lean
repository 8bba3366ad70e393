/-
  AttributeSheet.CommandLine.Folder — the files that a command works on.

  A folder has files, which hold bytes, and further folders. A path names one of them
  by the steps that lead there; empty steps and steps to where one stands do not count.
  A path that ends in a slash names a folder only.
-/
import AttributeSheet.Text.Letters
import AttributeSheet.Text.Newline

namespace AttributeSheet.CommandLine

inductive Failure where
  | badEncoding
  | noSuchFolder
  | notAFolder
  deriving DecidableEq, Repr

inductive Entry where
  | file (bytes : ByteArray)
  | folder
  | missing

structure Folder where
  files : List (List String × ByteArray)
  folders : List (List String)

namespace Folder

def pieces (path : String) : List String := (Text.splitOn '/' path.toList).map String.ofList

/-- The steps of a path; one that starts with a slash starts at the top. -/
def steps (path : String) : List String :=
  (if path.toList.head? = some '/' then ["/"] else []) ++ (pieces path).filter fun s => s ≠ "" ∧ s ≠ "."

def pathOf : List String → String
  | "/" :: r => "/" ++ "/".intercalate r
  | place => "/".intercalate place

def around (place : List String) : List (List String) := (List.range place.length).map place.take

def ofEntries (files : List (String × ByteArray)) (folders : List String) : Folder :=
  let files := files.map fun (name, bytes) => (steps name, bytes)
  let named := folders.map steps
  ⟨files, named ++ (files.map (·.1) ++ named).flatMap around⟩

def isFolder (f : Folder) (place : List String) : Bool := place.isEmpty || f.folders.contains place

def bytes? (f : Folder) (place : List String) : Option ByteArray := f.files.lookup place

/-- What stands at a path; nothing stands at the empty one. -/
def entry (f : Folder) (path : String) : Entry :=
  if path.isEmpty then .missing
  else if f.isFolder (steps path) then .folder
  else match f.bytes? (steps path) with
    | some bytes => if (pieces path).getLast? = some "" then .missing else .file bytes
    | none => .missing

/-- Bytes as text, in which newlines are line feeds. -/
def decode? (bytes : ByteArray) : Except Failure String :=
  match String.fromUTF8? bytes with
  | some s => .ok (Text.unifyNewlines s)
  | none => .error .badEncoding

def text? (f : Folder) (path : String) : Except Failure String :=
  match f.entry path with
  | .file bytes => decode? bytes
  | .folder | .missing => .ok ""

/-- Writes a text to a file, and gives the files that are not as they were: none if it
    held the text before. -/
def write? (f : Folder) (path text : String) : Except Failure (List (String × String)) :=
  let place := steps path
  if f.isFolder place.dropLast then
    if (f.bytes? place).any (·.toList = text.toUTF8.toList) then .ok [] else .ok [(pathOf place, text)]
  else if (around place).any fun p => (f.bytes? p).isSome then .error .notAFolder
  else .error .noSuchFolder

end Folder

end AttributeSheet.CommandLine
