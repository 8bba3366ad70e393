/-
  AttributeSheet.Host.Tree — pages as forests of nodes.

  The library of forests: an element goes by its path from the root, a selector is a
  member of a list with its condition, and a condition is asked of the place that a path
  leads to. A name and a value that no attribute can have are not written.
-/
import AttributeSheet.Css.SelectorList
import AttributeSheet.Host.Parsed
import AttributeSheet.Markup.Nesting
import AttributeSheet.Markup.Written

namespace AttributeSheet.Host

open Markup (Element Forest Library Place)

namespace Tree

def isForbidden (c : Char) : Bool :=
  let n := c.toNat
  n ≤ 8 || n == 0xB || n == 0xC || (0xE ≤ n && n ≤ 0x1F) || n == 0xFFFE || n == 0xFFFF

/-- A name is not empty, and does not open a brace at its start that it never closes. -/
def isName (name : List Char) : Bool :=
  !name.isEmpty && !name.any isForbidden && (name.head? != some '{' || name.contains '}')

def admits (name value : String) : Bool := isName name.toList && !value.toList.any isForbidden

def set (root : Element) (path : List Nat) (name value : String) : Except String Element :=
  if admits name value then .ok (root.modifyAt (·.insert name (some value)) path)
  else .error "neither the name nor the value may hold such characters"

def compile (selector : String) : Except String (List Css.Member) :=
  match Css.members? selector with
  | some members => .ok members
  | none => .error "no such selector"

def place? (root : Element) (path : List Nat) : Option Place := (Place.root root).subtree.find? (·.path = path)

def library : Library Element (List Nat) Css.Member where
  document? := Element.ofMarkup?
  element tag := ⟨tag, .empty, .nil⟩
  child? e tag := e.children.find? tag
  tag := Element.tag
  attributes e := e.attributes.entries
  markup := Element.render
  inside e := e.children.nodes.map (Forest.render (Markup.isRaw e.tag))
  root _ := []
  subtree root := (Place.root root).subtree.map (·.path)
  set := set
  compile := compile
  hasPseudoElement := Css.Member.hasPseudoElement
  selects root member path := (place? root path).any member.condition.holds

end Tree

def tree : Host (Markup.Page Element) (List Nat) := parsed Tree.library

end AttributeSheet.Host
