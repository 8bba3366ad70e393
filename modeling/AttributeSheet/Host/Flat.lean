/-
  AttributeSheet.Host.Flat — a host that keeps one flat list of elements.

  The elements stay from one page to the next, whatever text is loaded. Selectors are
  of five plain forms: `*`, an id, a class, a tag, and the marks `!` and `?` for a
  selector that is rejected and one that breaks the host. An attribute is rejected if
  its name has a space in it.
-/
import AttributeSheet.Host
import AttributeSheet.Markup.Prologue
import AttributeSheet.OrderedMap
import AttributeSheet.Text.Letters

namespace AttributeSheet.Host.Flat

structure Element where
  tag : String
  attributes : OrderedMap String
  deriving DecidableEq, Repr, Inhabited

/-- The classes of an element: the pieces of its class attribute between single
    spaces, empty ones included. -/
def Element.classes (e : Element) : List String :=
  (Text.splitOn ' ' ((e.attributes.get? "class").getD "").toList).map String.ofList

/-- The start tag with every value as it is, and the end tag. -/
def Element.print (e : Element) : String :=
  "<" ++ e.tag ++ String.join (e.attributes.entries.map fun p => " " ++ p.1 ++ "=\"" ++ p.2 ++ "\"")
    ++ "></" ++ e.tag ++ ">"

def reading (selector : String) : Except Refusal (Element → Bool) :=
  match selector.toList with
  | '!' :: '!' :: r => .error (.rejected selector (some (.stated ("bad " ++ String.ofList r))))
  | '!' :: _ => .error (.rejected selector none)
  | '?' :: _ => .error (.broken "host failure")
  | ['*'] => .ok fun _ => true
  | '#' :: r => .ok fun e => e.attributes.get? "id" == some (String.ofList r)
  | '.' :: r => .ok fun e => e.classes.contains (String.ofList r)
  | _ => .ok fun e => e.tag == selector

def query (page : List Element) (selector : String) : Except Refusal (List Nat) :=
  (reading selector).map fun hit => (List.range page.length).filter fun i => (page[i]?).any hit

def refusesName (name : String) : Bool := name.toList.contains ' '

def write (page : List Element) (i : Nat) (name value : String) : Except Refusal (List Element) :=
  if refusesName name then .error (.rejected name none)
  else .ok (page.modify i fun e => { e with attributes := e.attributes.insert name value })

def print (page : List Element) : String := String.join (page.map Element.print)

end Flat

/-- The host of flat lists; an element goes by its place in the list. -/
def flat : Host (List Flat.Element) Nat where
  doctype := Markup.doctype
  load page _ := page
  isVacant _ := false
  query := Flat.query
  write := Flat.write
  print := Flat.print

end AttributeSheet.Host
