/-
  AttributeSheet.Log — the lines that a log has of what happened.

  Some events leave a record: problems at the level of errors, the progress of reading
  and applying a sheet at the level of details. Loading a page, asking for a selector
  and writing an attribute leave none.
-/
import AttributeSheet.Cascade

namespace AttributeSheet

inductive Level where
  | detail
  | error
  deriving DecidableEq, Repr

def Level.name : Level → String
  | detail => "DEBUG"
  | error => "ERROR"

structure Record where
  level : Level
  /-- The part of the program that the record comes from. -/
  source : String
  text : String
  deriving DecidableEq, Repr

def Record.line (r : Record) : String := r.level.name ++ " " ++ r.source ++ ": " ++ r.text

def Problem.line (p : Problem) : String := p.label ++ ": " ++ p.message

def Event.record? {ε : Type} : Event ε → Option Record
  | skipped b =>
    some ⟨.detail, "cas.parser.parser", "Skipping block with empty selector: " ++ b.shownProperties⟩
  | parsed n => some ⟨.detail, "cas.parser.parser", "Parsed " ++ toString n ++ " declaration(s)"⟩
  | vacant => some ⟨.detail, "cas.host.lxml_host", "Document has no elements: Document is empty"⟩
  | matched s n => some ⟨.detail, "cas.applier", s ++ " matched " ++ toString n ++ " element(s)"⟩
  | logged p => some ⟨.error, "cas.compiler", p.line⟩
  | handed .. | loaded _ | queried _ | wrote .. => none

def Event.problem? {ε : Type} : Event ε → Option Problem
  | logged p => some p
  | _ => none

/-- The problems that come to the log, in order. -/
def problems {ε : Type} (events : List (Event ε)) : List Problem := events.filterMap Event.problem?

def Event.handover? {ε : Type} : Event ε → Option (Handler × Problem)
  | handed h p => some (h, p)
  | _ => none

/-- The problems that are handed to a handler, each with the handler, in order. -/
def handovers {ε : Type} (events : List (Event ε)) : List (Handler × Problem) :=
  events.filterMap Event.handover?

@[simp] theorem problems_append {ε : Type} (a b : List (Event ε)) : problems (a ++ b) = problems a ++ problems b :=
  List.filterMap_append

@[simp] theorem handovers_append {ε : Type} (a b : List (Event ε)) :
    handovers (a ++ b) = handovers a ++ handovers b := List.filterMap_append

@[simp] theorem problems_reporting {ε : Type} (handler : Option Handler) (p : Problem) :
    problems (reporting handler p : List (Event ε)) = [p] := by
  cases handler <;> rfl

/-- The lines of the records at the level of errors, in order. -/
def errorLines {ε : Type} (events : List (Event ε)) : List String :=
  ((events.filterMap Event.record?).filter (·.level = .error)).map (·.line)

namespace Run

variable {δ ε : Type}

theorem problems_note (r : Run δ ε) {e : Event ε} (h : e.problem? = none) :
    problems (r.note e).events = problems r.events := by
  simp [note, problems, h]

@[simp] theorem problems_report (handler : Option Handler) (p : Problem) (r : Run δ ε) :
    problems (r.report handler p).events = problems r.events ++ [p] := by
  simp [report]

end Run

end AttributeSheet
