/-
  AttributeSheet.Main — the program.

  It looks at what stands at the paths its arguments may name, runs the command on
  that, and then writes what the command left: files, output, errors and the exit code.
-/
import AttributeSheet.CommandLine.Run
import AttributeSheet.Host.Tree

namespace AttributeSheet.CommandLine

/-- The paths that an argument may name: itself, and what stands behind an equals sign
    or a letter of an option. -/
def pathsIn (argument : String) : List String :=
  let cs := argument.toList
  let behindSign := ((Text.splitAt? '=' cs).map fun p => String.ofList p.2).toList
  argument :: String.ofList (cs.drop 2) :: behindSign

def withFolders (path : String) : List String := path :: (Folder.around (Folder.steps path)).map Folder.pathOf

def look (found : List (String × ByteArray) × List String) (path : String) :
    IO (List (String × ByteArray) × List String) := do
  try
    let bytes ← IO.FS.readBinFile path
    return ((path, bytes) :: found.1, found.2)
  catch
    | .inappropriateType .. => return (found.1, path :: found.2)
    | _ => return found

end AttributeSheet.CommandLine

open AttributeSheet.CommandLine in
def main (arguments : List String) : IO UInt32 := do
  let paths := ((arguments.flatMap pathsIn).flatMap withFolders).eraseDups
  let (files, folders) ← paths.foldlM look ([], [])
  let report := run reader AttributeSheet.Host.Tree.library (.ofEntries files folders) arguments
  for (path, text) in report.written do
    IO.FS.writeFile path text
  IO.print report.out
  IO.eprint report.err
  return report.exitCode.toUInt32
