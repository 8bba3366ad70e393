/-
  AttributeSheet.Markup.Forest — the nodes of a page.

  A forest is the row of nodes under one parent: texts, comments and elements, each
  element with the forest of its own children. An element is found again by its path:
  its place among the elements of the root's row, then among those of that element's
  row, and so on. An attribute may be written without a value.
-/
import AttributeSheet.OrderedMap

namespace AttributeSheet.Markup

/-- The attributes of an element; `none` is an attribute without a value. -/
abbrev Attributes := OrderedMap (Option String)

def Attributes.value? (a : Attributes) (name : String) : Option String := (a.get? name).map (·.getD "")

inductive Forest where
  | nil
  | text (s : String) (rest : Forest)
  | comment (s : String) (rest : Forest)
  | element (tag : String) (attributes : Attributes) (children rest : Forest)
  deriving DecidableEq, Repr, Inhabited

namespace Forest

/-- The row turned round and set before another; children stay as they are. -/
def reverseOnto : Forest → Forest → Forest
  | nil, g => g
  | text s r, g => r.reverseOnto (text s g)
  | comment s r, g => r.reverseOnto (comment s g)
  | element t a c r, g => r.reverseOnto (element t a c g)

def reverse (f : Forest) : Forest := f.reverseOnto nil

def nodes : Forest → List Forest
  | nil => []
  | text s r => text s nil :: r.nodes
  | comment s r => comment s nil :: r.nodes
  | element t a c r => element t a c nil :: r.nodes

def hasNoElement : Forest → Bool
  | nil => true
  | text _ r | comment _ r => r.hasNoElement
  | element .. => false

def startsWithText : Forest → Bool
  | text s _ => !s.isEmpty
  | nil | comment .. | element .. => false

/-- Changes the attributes of the element at a path; a path that leads nowhere changes
    nothing. -/
def modifyAt (f : Attributes → Attributes) : Forest → List Nat → Forest
  | nil, _ => nil
  | text s r, path => text s (r.modifyAt f path)
  | comment s r, path => comment s (r.modifyAt f path)
  | element t a c r, [] => element t a c r
  | element t a c r, [0] => element t (f a) c r
  | element t a c r, 0 :: path => element t a (c.modifyAt f path) r
  | element t a c r, (i + 1) :: path => element t a c (r.modifyAt f (i :: path))

end Forest

structure Element where
  tag : String
  attributes : Attributes
  children : Forest
  deriving DecidableEq, Repr, Inhabited

namespace Element

/-- Changes the attributes of the element that a path from this one leads to; the empty
    path leads to this one. -/
def modifyAt (f : Attributes → Attributes) (e : Element) : List Nat → Element
  | [] => { e with attributes := f e.attributes }
  | i :: path => { e with children := e.children.modifyAt f (i :: path) }

end Element

end AttributeSheet.Markup
