/-
  AttributeSheet.Shelf — a list of declarations that are shared by label.

  The declarations are kept once, each under its label; the list holds labels, any of
  them any number of times. So a change to a declaration shows at every place of the
  list where its label stands, and sorting goes by the selectors as they are then.
-/
import AttributeSheet.CascadeOrder

namespace AttributeSheet

inductive Item where
  | declaration (label : String)
  | foreign (value : Foreign)
  deriving Repr

structure Shelf where
  declarations : OrderedMap Declaration
  /-- The labels in the order of the list. -/
  order : List String
  deriving Repr

namespace Shelf

def find (s : Shelf) (label : String) : Declaration := (s.declarations.get? label).getD default

def listed (s : Shelf) : List Declaration := s.order.map s.find

def specificities (s : Shelf) : List Specificity := s.listed.map (·.selector.specificity)

/-- The labels of a batch, if it holds declarations only; else the first item that is
    none is named. -/
def labels? : List Item → Except Misuse (List String)
  | [] => .ok []
  | .declaration label :: r => (labels? r).map (label :: ·)
  | .foreign value :: _ => .error (.notADeclaration value.kindName)

def members? (value : Foreign) : Option (List Item) := value.members?.map fun members => members.map .foreign

def append (labels : List String) : Attempt Shelf Unit := modify fun s => { s with order := s.order ++ labels }

/-- Appends a batch, all of it or nothing. -/
def addMany (batch : List Item) : Attempt Shelf Unit := do append (← liftM (labels? batch))

/-- Appends a declaration, or the members of a value as a batch. -/
def add : Item → Attempt Shelf Unit
  | .declaration label => append [label]
  | .foreign value =>
    match members? value with
    | some batch => addMany batch
    | none => throw (.notIterable value.kindName)

/-- The labels that a walk through the list meets, whatever is added meanwhile: it goes
    over the list as it was at the start. -/
def walk (s : Shelf) : List String := s.order

def addSelf : Attempt Shelf Unit := do addMany ((← get).walk.map .declaration)

/-- Appends each element while walking through the list. -/
def addEach : Attempt Shelf Unit := do (← get).walk.forM fun label => add (.declaration label)

/-- The same declarations with a new list, which takes the old one's place once it is made. -/
def renew (batch : List Item) : Attempt Shelf Unit := do
  set (← liftM ((addMany batch).result? { ← get with order := [] }))

def sort (turned : Bool) : Attempt Shelf Unit := do
  let s ← get
  let order ← liftM (sortBySpecificity? (fun label => (s.find label).selector.specificity) turned s.order)
  set { s with order := order }

def put (s : Shelf) (label : String) (d : Declaration) : Shelf :=
  { s with declarations := s.declarations.insert label d }

/-- Does something to the declaration under a label, if there is one. It stays there as
    that leaves it. -/
def within (label : String) (a : Attempt Declaration Unit) : Attempt Shelf Unit := do
  match (← get).declarations.get? label with
  | none => pure ()
  | some d =>
    let (answer, d) := a.run.run d
    modify fun s => s.put label d
    liftM answer

inductive Change where
  | renew (batch : List Item)
  | add (item : Item)
  | addMany (batch : List Item)
  | addSelf
  | addEach
  | sort (turned : Bool)
  | selectorText (label text : String)
  | property (label name : String) (value : Option String)
  deriving Repr

def Change.attempt : Change → Attempt Shelf Unit
  | .renew batch => Shelf.renew batch
  | .add item => Shelf.add item
  | .addMany batch => Shelf.addMany batch
  | .addSelf => Shelf.addSelf
  | .addEach => Shelf.addEach
  | .sort turned => Shelf.sort turned
  | .selectorText label text => within label (Declaration.setSelectorText text)
  | .property label name value => within label (Declaration.add name value)

def sort? (s : Shelf) (turned : Bool) : Except Misuse Shelf := (sort turned).result? s

def change? (s : Shelf) (c : Change) : Except Misuse Shelf := c.attempt.result? s

/-- The list after a change, whether that comes off or fails. -/
def changed (s : Shelf) (c : Change) : Shelf := c.attempt.left s

def shown (s : Shelf) : String := "DeclarationList([" ++ ", ".intercalate (s.listed.map (·.shown)) ++ "])"

end Shelf

end AttributeSheet
