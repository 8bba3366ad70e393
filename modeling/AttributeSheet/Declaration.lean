/-
  AttributeSheet.Declaration — a selector and the attributes it assigns.

  A property name occurs once: writing it again replaces its value. What is to be written
  is checked before anything is changed. What is to be taken out is come to one by one.
-/
import AttributeSheet.OrderedMap
import AttributeSheet.Selector

namespace AttributeSheet

structure Declaration where
  selector : Selector
  properties : OrderedMap String
  deriving DecidableEq, Repr, Inhabited

namespace Declaration

def ofSelector (x : Selector) : Declaration := ⟨x, .empty⟩

def add (name : String) (value : Option String) : Attempt Declaration Unit :=
  match value with
  | some v => modify fun d => { d with properties := d.properties.insert name v }
  | none => throw (.noValue name)

/-- Writes every property of a map, which comes without a value of its own. -/
def addMap (m : OrderedMap String) (value : Option String) : Attempt Declaration Unit :=
  match value with
  | none => m.entries.forM fun p => add p.1 (some p.2)
  | some _ => throw .mapWithValue

/-- Takes one property out; what is not there is passed over. A value that no map can
    hold is only looked up in a map that is not empty. -/
def pop (name : Foreign) : Attempt Declaration Unit := do
  if !name.isHashable && !(← get).properties.entries.isEmpty then throw (.unhashable name.kindName)
  if let .text s := name then modify fun d => { d with properties := d.properties.erase s }

inductive Names where
  /-- A text is one name; any other value is iterated over. -/
  | value (v : Foreign)
  /-- The names of the declaration's own properties, as they are when each is come to. -/
  | own
  deriving Repr

def checkSize (size : Nat) : Attempt Declaration Unit := do
  if (← get).properties.keys.length ≠ size then throw .sizeChanged

/-- Iterates over the names of the properties, whose number has to stay what it is. -/
def forOwnNames (f : String → Attempt Declaration Unit) : Attempt Declaration Unit := do
  let names := (← get).properties.keys
  names.forM fun name => do checkSize names.length; f name
  checkSize names.length

def remove : Names → Attempt Declaration Unit
  | .own => forOwnNames fun name => pop (.text name)
  | .value (.text name) => pop (.text name)
  | .value v =>
    match v.members? with
    | some members => members.forM pop
    | none => throw (.notIterable v.kindName)

def removeAll : Attempt Declaration Unit := modify fun d => { d with properties := .empty }

def setSelectorText (s : String) : Attempt Declaration Unit := do
  let (answer, x) := ((Selector.setText s).run.run (← get).selector)
  modify fun d => { d with selector := x }
  liftM answer

inductive Change where
  | add (name : String) (value : Option String)
  | addMap (m : OrderedMap String) (value : Option String)
  | remove (names : Names)
  | removeAll
  | selectorText (s : String)
  deriving Repr

def Change.attempt : Change → Attempt Declaration Unit
  | .add name value => Declaration.add name value
  | .addMap m value => Declaration.addMap m value
  | .remove names => Declaration.remove names
  | .removeAll => Declaration.removeAll
  | .selectorText s => setSelectorText s

def change? (d : Declaration) (c : Change) : Except Misuse Declaration := c.attempt.result? d

/-- The declaration after a change, whether that comes off or fails. -/
def changed (d : Declaration) (c : Change) : Declaration := c.attempt.left d

/-- Same selector and same properties, in whatever order they were written. -/
def same (d e : Declaration) : Bool := d.selector.same e.selector && d.properties.sameEntries e.properties

def propertyText (p : String × String) : String := p.1 ++ ": " ++ p.2 ++ ";"

def render (d : Declaration) : String :=
  let body := " ".intercalate (d.properties.entries.map propertyText)
  if body.isEmpty then d.selector.text ++ " \x7b\x7d" else d.selector.text ++ " \x7b " ++ body ++ " \x7d"

def shownProperty (p : String × String) : String := Text.quote p.1 ++ ": " ++ Text.quote p.2

def shown (d : Declaration) : String :=
  "Declaration(selector=" ++ d.selector.shown ++ ", properties=\x7b"
    ++ ", ".intercalate (d.properties.entries.map shownProperty) ++ "\x7d)"

end Declaration

/-! ## Drafts -/

/-- What a declaration is made from: names that nobody has checked yet, and pairs in
    which a property may come more than once. -/
structure Draft where
  selector : String
  /-- The name of the mode; none stands for the legacy one. -/
  mode : Option String
  properties : List (String × String)
  deriving DecidableEq, Repr

def Mode.named? : Option String → Except Misuse Mode
  | none => .ok .legacy
  | some name =>
    match Mode.ofName? name with
    | some mode => .ok mode
    | none => .error (.unknownMode name)

/-- The mode is looked at before the selector. -/
def Draft.declaration? (d : Draft) : Except Misuse Declaration := do
  let mode ← Mode.named? d.mode
  let selector ← Selector.make? mode d.selector
  (Declaration.addMap (.ofList d.properties) none).result? (.ofSelector selector)

end AttributeSheet
