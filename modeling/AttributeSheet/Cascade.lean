/-
  AttributeSheet.Cascade — applying declarations to a page.

  The declarations are taken in list order: each is queried for, and each of its
  properties is written to each element it matches, element by element. So a later
  write overwrites an earlier one, and in ascending order of specificity the most
  specific declaration wins. What a host rejects is reported and passed over. A run is
  over when all is written, or halts where a handler raises or the host breaks down;
  once halted it does nothing more.

  Everything that happens is kept, in order, as events. A report is two of them: the
  problem comes to the log, and is then handed to the handler, if there is one.
-/
import AttributeSheet.Block
import AttributeSheet.Declaration
import AttributeSheet.Host

namespace AttributeSheet

/-- Takes the problems that are reported. It raises or not by all that has been reported
    so far, the problem it is just handed being the last; raising ends what was going on. -/
structure Handler where
  name : String
  raises : List Problem → Bool

namespace Handler

def recording (name : String) : Handler := ⟨name, fun _ => false⟩

def raising (name : String) : Handler := ⟨name, fun _ => true⟩

end Handler

inductive Halt where
  | handlerRaised (name : String)
  | hostBroke (message : String)
  | misuse (m : Misuse)
  deriving DecidableEq, Repr

inductive Event (ε : Type) where
  | skipped (block : Block)
  | parsed (count : Nat)
  | loaded (page : String)
  | vacant
  | queried (selector : String)
  | matched (selector : String) (count : Nat)
  | wrote (element : ε) (name value : String)
  | logged (problem : Problem)
  | handed (receiver : Handler) (problem : Problem)

def reporting {ε : Type} (handler : Option Handler) (p : Problem) : List (Event ε) :=
  .logged p :: (handler.map (.handed · p)).toList

structure Run (δ ε : Type) where
  page : δ
  events : List (Event ε)
  /-- All that has been reported, before the run and in it. -/
  reported : List Problem
  halt : Option Halt

namespace Run

variable {δ ε : Type}

def start (page : δ) (reported : List Problem) : Run δ ε := ⟨page, [], reported, none⟩

def note (r : Run δ ε) (e : Event ε) : Run δ ε := { r with events := r.events ++ [e] }

/-- Reports a problem; a handler that raises at it has taken it and halts the run. -/
def report (handler : Option Handler) (p : Problem) (r : Run δ ε) : Run δ ε where
  page := r.page
  events := r.events ++ reporting handler p
  reported := r.reported ++ [p]
  halt := (handler.filter (·.raises (r.reported ++ [p]))).map fun h => .handlerRaised h.name

def unlessHalted (r : Run δ ε) (f : Run δ ε → Run δ ε) : Run δ ε := if r.halt.isSome then r else f r

end Run

namespace Cascade

variable {δ ε : Type} (host : Host δ ε) (handler : Option Handler)

def writeOne (element : ε) (r : Run δ ε) (p : String × String) : Run δ ε :=
  r.unlessHalted fun r =>
    match host.write r.page element p.1 p.2 with
    | .ok page => { r with page := page }.note (.wrote element p.1 p.2)
    | .error (.rejected named cause) => r.report handler (.badAttribute named cause)
    | .error (.broken message) => { r with halt := some (.hostBroke message) }

def writeAll (properties : List (String × String)) (r : Run δ ε) (element : ε) : Run δ ε :=
  properties.foldl (writeOne host handler element) r

/-- Asks for the elements that a declaration matches in the page as it is now. There are
    none if the host does not answer, or is not asked because the run has halted. -/
def ask (r : Run δ ε) (d : Declaration) : Run δ ε × List ε :=
  if r.halt.isSome then (r, [])
  else
    let r := r.note (.queried d.selector.text)
    match host.query r.page d.selector.text with
    | .ok elements => (r.note (.matched d.selector.text elements.length), elements)
    | .error (.rejected named cause) => (r.report handler (.badSelector named cause), [])
    | .error (.broken message) => ({ r with halt := some (.hostBroke message) }, [])

def applyOne (r : Run δ ε) (d : Declaration) : Run δ ε :=
  let (r, elements) := ask host handler r d
  elements.foldl (writeAll host handler d.properties.entries) r

def load (page : δ) (reported : List Problem) (text : String) : Run δ ε :=
  let r := (Run.start (host.load page text) reported).note (.loaded text)
  if host.isVacant r.page then r.note .vacant else r

def run (declarations : List Declaration) (page : δ) (reported : List Problem) (text : String) : Run δ ε :=
  declarations.foldl (applyOne host handler) (load host page reported text)

/-- What a run over `text` comes to: the page's doctype and the page as it is now,
    unless the run halted. -/
def result (text : String) (r : Run δ ε) : Except Halt String :=
  match r.halt with
  | some halt => .error halt
  | none => .ok (host.doctype text ++ host.print r.page)

end Cascade

end AttributeSheet
