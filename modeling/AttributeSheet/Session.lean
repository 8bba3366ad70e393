/-
  AttributeSheet.Session — sheets, pages and one error handler.

  A session has a mode, at most one handler, the page its host holds and a current
  list of declarations. Whatever goes wrong in it is reported: one log line, and one
  delivery to the handler that is installed at that moment. A sheet without text is
  reported and leaves the page's text unchanged. Only a raising handler or a host that
  breaks down gets out of a step.
-/
import AttributeSheet.Cascade
import AttributeSheet.Sheet

namespace AttributeSheet

/-- What is offered as the error handler: only a handler can be called. -/
inductive Offer where
  | handler (h : Handler)
  | foreign (value : Foreign)

structure Session (δ : Type) where
  mode : Mode
  handler : Option Handler
  page : δ
  current : List Declaration
  /-- All that has been reported so far. -/
  reported : List Problem

structure Outcome (δ ε α : Type) where
  session : Session δ
  events : List (Event ε)
  result : Except Halt α

def Outcome.map {δ ε α β : Type} (f : α → β) (o : Outcome δ ε α) : Outcome δ ε β :=
  ⟨o.session, o.events, o.result.map f⟩

namespace Session

variable {δ ε α : Type}

def answer (s : Session δ) (x : α) : Outcome δ ε α := ⟨s, [], .ok x⟩

/-- Reports a problem, and answers `x` unless the handler raises. -/
def report (s : Session δ) (p : Problem) (x : α) : Outcome δ ε α :=
  let r : Run δ ε := (Run.start s.page s.reported).report s.handler p
  ⟨{ s with reported := r.reported }, r.events, match r.halt with | some halt => .error halt | none => .ok x⟩

/-- Installs a handler. What cannot be called is reported, and the old one stays. -/
def offer (s : Session δ) : Offer → Outcome δ ε Unit
  | .handler h => { s with handler := some h }.answer ()
  | .foreign value => s.report (.badHandler value.kindName) ()

/-- A session as it begins, with the handler it is given, if any; a value that cannot
    be called is reported while there is no handler yet. -/
def start (mode : Mode) (page : δ) (given : Option Offer) : Outcome δ ε Unit :=
  let s : Session δ := ⟨mode, none, page, [], []⟩
  match given with
  | none | some (.foreign .null) => s.answer ()
  | some o => s.offer o

def readingEvents (text : String) : List (Event ε) :=
  let blocks := Block.ofSheet text
  let skipped := Sheet.skipped blocks
  skipped.map .skipped ++ [.parsed (blocks.length - skipped.length)]

/-- The declarations of a sheet, or none after the sheet's problem was reported. -/
def parse (s : Session δ) (source : Option String) : Outcome δ ε (Option (List Declaration)) :=
  match Sheet.parse s.mode source with
  | .ok declarations => ⟨s, readingEvents (source.getD ""), .ok (some declarations)⟩
  | .error (.problem p) => s.report p none
  | .error (.misuse m) => ⟨s, [], .error (.misuse m)⟩

def apply (host : Host δ ε) (s : Session δ) (declarations : List Declaration) (text : String) :
    Outcome δ ε String :=
  let r := Cascade.run host s.handler declarations s.page s.reported text
  ⟨{ s with page := r.page, reported := r.reported }, r.events, Cascade.result host text r⟩

/-- Parses a sheet and applies it; the page's text comes back as it is if the sheet
    cannot be parsed. -/
def compile (host : Host δ ε) (s : Session δ) (source : Option String) (text : String) :
    Outcome δ ε String :=
  let parsed : Outcome δ ε _ := s.parse source
  match parsed.result with
  | .error halt => ⟨parsed.session, parsed.events, .error halt⟩
  | .ok none => ⟨parsed.session, parsed.events, .ok text⟩
  | .ok (some declarations) =>
    let applied := parsed.session.apply host declarations text
    { applied with events := parsed.events ++ applied.events }

/-! ## Steps -/

inductive Step where
  | offer (o : Offer)
  | parse (source : Option String)
  | sort (turned : Bool)
  /-- Applies what the drafts come to, or else the current list. -/
  | apply (drafts : Option (List Draft)) (text : String)
  | compile (source : Option String) (text : String)
  | report (p : Problem)

inductive Answer where
  | nothing
  | declarations (l : List Declaration)
  | selectors (texts : List String)
  | page (text : String)
  deriving DecidableEq, Repr

/-- A parsed list becomes the current one. -/
def takeUp (o : Outcome δ ε (Option (List Declaration))) : Outcome δ ε Answer :=
  match o.result with
  | .ok (some l) => ⟨{ o.session with current := l }, o.events, .ok (.declarations l)⟩
  | .ok none => ⟨o.session, o.events, .ok .nothing⟩
  | .error halt => ⟨o.session, o.events, .error halt⟩

def step (host : Host δ ε) (s : Session δ) : Step → Outcome δ ε Answer
  | .offer o => (s.offer o).map fun _ => .nothing
  | .report p => s.report p .nothing
  | .compile source text => (s.compile host source text).map .page
  | .apply none text => (s.apply host s.current text).map .page
  | .apply (some drafts) text =>
    match drafts.mapM (·.declaration?) with
    | .ok declarations => (s.apply host declarations text).map .page
    | .error m => ⟨s, [], .error (.misuse m)⟩
  | .sort turned =>
    match Declaration.sort? turned s.current with
    | .ok sorted =>
      ⟨{ s with current := sorted }, [], .ok (.selectors (sorted.map (·.selector.text)))⟩
    | .error m => ⟨s, [], .error (.misuse m)⟩
  | .parse source => takeUp (s.parse source)

/-- The outcomes of the steps, each begun where the one before left the session. -/
def run (host : Host δ ε) (s : Session δ) : List Step → List (Outcome δ ε Answer)
  | [] => []
  | a :: rest => let o := s.step host a; o :: o.session.run host rest

end Session

end AttributeSheet
