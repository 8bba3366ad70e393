/-
  AttributeSheet.CommandLine.Run — the commands and what they write.

  `compile` applies a sheet to a page, `inspect` lists the declarations of a sheet. What
  is wrong with a call is found in a fixed order: how its options are written, then the
  values of its options and arguments in the order they are given, then what is left
  over. A problem of a sheet or a page is written twice: as a line of the log, which is
  cut down to errors unless details are asked for, and as an error.
-/
import AttributeSheet.CommandLine.Folder
import AttributeSheet.CommandLine.Options
import AttributeSheet.Host.Parsed
import AttributeSheet.Log
import AttributeSheet.Session

namespace AttributeSheet.CommandLine

structure Report where
  exitCode : Nat
  failure : Option Failure
  out : String
  err : String
  /-- The files that are new or not as they were. -/
  written : List (String × String)
  deriving DecidableEq, Repr

namespace Report

def done (out : String) : Report := ⟨0, none, out, "", []⟩

def badCall (err : String) : Report := ⟨2, none, "", err, []⟩

def failed (f : Failure) (err : String) : Report := ⟨1, some f, "", err, []⟩

end Report

/-! ## Checking a call -/

/-- An option that asks for something other than the command itself, and its answer. -/
def askedFor (reader : Reader) (c : Command) (call : Call) : Option Report :=
  call.names.findSome? fun
    | .version => some (.done "cas, version 0.1.0\n")
    | .help => some (.done (reader.usage c))
    | _ => none

def checkFile (f : Folder) (parameter path : String) : Except BadCall Unit :=
  match f.entry path with
  | .file _ => .ok ()
  | .folder => .error (.isFolder parameter path)
  | .missing => .error (.noSuchFile parameter path)

def checkOutput (f : Folder) (path : String) : Except BadCall Unit :=
  match f.entry path with
  | .file _ | .missing => .ok ()
  | .folder => .error (.isFolder "'-o' / '--output'" path)

def checkMode (name : String) : Except BadCall Unit :=
  if (Mode.ofName? name).isSome then .ok () else .error (.noSuchMode "'--specificity'" name)

def checkOption (f : Folder) (call : Call) (name : Name) : Except BadCall Unit :=
  match name with
  | .output => ((call.value? .output).map (checkOutput f)).getD (.ok ())
  | .specificity => ((call.value? .specificity).map checkMode).getD (.ok ())
  | .help | .version | .verbose | .reverse => .ok ()

def checkArguments (f : Folder) : List String → List String → Except BadCall Unit
  | [], [] => .ok ()
  | [], surplus => .error (.surplus surplus)
  | name :: _, [] => .error (.argumentMissing name)
  | name :: names, path :: paths => do
    checkFile f (Text.quote name) path
    checkArguments f names paths

def checkCall (f : Folder) (names : List String) (call : Call) : Except BadCall Unit := do
  call.names.forM (checkOption f call)
  checkArguments f names call.arguments

def mode (call : Call) : Mode := ((call.value? .specificity).bind Mode.ofName?).getD .legacy

/-! ## What is written about events -/

/-- The lines of an event: its record, and the problem that the handler is handed. -/
def eventLines {ε : Type} (verbose : Bool) (e : Event ε) : List String :=
  let record := match e.record? with
    | some r => if verbose then [r.line] else if r.level = .error then [r.text] else []
    | none => []
  record ++ (e.handover?.map fun handover => "Error: " ++ handover.2.message).toList

def eventText {ε : Type} (verbose : Bool) (events : List (Event ε)) : String :=
  String.join ((events.flatMap (eventLines verbose)).map (· ++ "\n"))

def session {δ : Type} (page : δ) (call : Call) : Session δ := ⟨mode call, some (.recording "errors"), page, [], []⟩

/-! ## Commands -/

def reportsEmptySheet {ε : Type} (events : List (Event ε)) : Bool :=
  (handovers events).any fun handover => match handover.2 with
    | .emptySheet _ => true
    | _ => false

/-- Where a page goes: to the named file, or after the other output if none is named. -/
def deliver (f : Folder) (output : Option String) (page err : String) : Report :=
  match output.filter (!·.isEmpty) with
  | none => { Report.done (page ++ "\n") with err := err }
  | some path =>
    match f.write? path page with
    | .ok written => { Report.done "" with err := err, written := written }
    | .error failure => .failed failure err

section

variable {τ ν σ : Type} [DecidableEq ν] (reader : Reader) (lib : Markup.Library τ ν σ)

def compileSheet (f : Folder) (verbose : Bool) (call : Call) (sheet page : String) : Report :=
  let o := (session (.empty lib) call).compile (Host.parsed lib) (some sheet) page
  let err := eventText verbose o.events
  match o.result with
  | .error _ => ⟨1, none, "", err, []⟩
  | .ok result =>
    if reportsEmptySheet o.events then ⟨1, none, "", err, []⟩ else deliver f (call.value? .output) result err

/-- Both files are read before anything is done. -/
def compile (f : Folder) (verbose : Bool) (call : Call) : Report :=
  let texts := call.arguments.mapM f.text?
  match texts with
  | .error failure => .failed failure ""
  | .ok (sheet :: page :: _) => compileSheet lib f verbose call sheet page
  | .ok _ => .done ""

def listedLine (d : Declaration) : String := "  [" ++ d.selector.specificity.text ++ "]  " ++ d.render ++ "\n"

def listing (l : List Declaration) : String :=
  "Declarations: " ++ toString l.length ++ "\n" ++ String.join (l.map listedLine)

def inspectSheet (verbose : Bool) (call : Call) (sheet : String) : Report :=
  let o : Outcome _ Unit _ := (session () call).parse (some sheet)
  let err := eventText verbose o.events
  let ordered := do
    let l ← o.result
    match l with
    | none => return none
    | some l =>
      if call.has .reverse then (Declaration.sort? true l).mapError Halt.misuse |>.map some
      else return some l
  match ordered with
  | .ok (some l) => { Report.done (listing l) with err := err }
  | .ok none | .error _ => ⟨1, none, "", err, []⟩

def inspect (f : Folder) (verbose : Bool) (call : Call) : Report :=
  match call.arguments.mapM f.text? with
  | .error failure => .failed failure ""
  | .ok (sheet :: _) => inspectSheet verbose call sheet
  | .ok [] => .done ""

def argumentNames : Command → List String
  | .program => []
  | .compile => ["SHEET", "HTML"]
  | .inspect => ["SHEET"]

def runCommand (f : Folder) (verbose : Bool) (c : Command) (arguments : List String) : Report :=
  match reader.read c arguments with
  | .error b => .badCall (reader.report c b)
  | .ok call =>
    match askedFor reader c call with
    | some r => r
    | none =>
      match checkCall f (argumentNames c) call, c with
      | .error b, _ => .badCall (reader.report c b)
      | .ok _, .compile => compile lib f verbose call
      | .ok _, .inspect => inspect f verbose call
      | .ok _, .program => .done ""

/-- A word that stands where a command should. It may be an option that was kept from
    being read as one, and is then read so. -/
def unknownCommand (word : String) (arguments : List String) : Report :=
  let noSuchCommand := Report.badCall (reader.report .program (.noSuchCommand word))
  let isMarked := word.toList.head?.any fun c => c = '-'
  if isMarked then
    match reader.read .program arguments with
    | .error b => .badCall (reader.report .program b)
    | .ok call => (askedFor reader .program call).getD noSuchCommand
  else noSuchCommand

def run (f : Folder) (arguments : List String) : Report :=
  match reader.read .program arguments with
  | .error b => .badCall (reader.report .program b)
  | .ok call =>
    match askedFor reader .program call, call.arguments with
    | some r, _ => r
    | none, [] => .badCall (reader.report .program .commandMissing)
    | none, word :: rest =>
      match Command.ofName? word with
      | some c => runCommand reader lib f (call.has .verbose) c rest
      | none => unknownCommand reader word call.arguments

end

end AttributeSheet.CommandLine
