/-
  AttributeSheet.Markup.Place — an element together with what stands around it.

  A place is an element seen in its row of sibling elements, with the rows of its
  parents above it. From a place one can go to its parents, siblings and children,
  which are places again (`related`). `subtree` lists a place and everything below it
  in document order, each once, before its own children.
-/
import AttributeSheet.Markup.Forest

namespace AttributeSheet.Markup

/-- An element in its row: the sibling elements before it, the nearest first, and those
    after it. -/
structure Standing where
  before : List Element
  element : Element
  after : List Element
  deriving DecidableEq, Repr, Inhabited

structure Place where
  here : Standing
  /-- Where the parents stand, the nearest first. -/
  above : List Standing
  deriving DecidableEq, Repr, Inhabited

inductive Relation where
  | parent
  | ancestor
  | previous
  | preceding
  | child
  | descendant
  | next
  | following
  deriving DecidableEq, Repr

def Forest.elements : Forest → List Element
  | nil => []
  | text _ r | comment _ r => r.elements
  | element t a c r => ⟨t, a, c⟩ :: r.elements

/-- The places of a row and of everything below it, where `before` are the elements of
    the row that come first. -/
def Forest.places (above : List Standing) (before : List Element) : Forest → List Place
  | nil => []
  | text _ r | comment _ r => r.places above before
  | element t a c r =>
    let here : Standing := ⟨before, ⟨t, a, c⟩, r.elements⟩
    ⟨here, above⟩ :: c.places (here :: above) [] ++ r.places above (here.element :: before)

namespace Place

def root (e : Element) : Place := ⟨⟨[], e, []⟩, []⟩

def element (p : Place) : Element := p.here.element

/-- The indices that lead from the root to the place; none lead to the root. -/
def path (p : Place) : List Nat := ((p.here :: p.above).dropLast.map (·.before.length)).reverse

def isRoot (p : Place) : Bool := p.above.isEmpty

def ancestorsOf : List Standing → List Place
  | [] => []
  | s :: r => ⟨s, r⟩ :: ancestorsOf r

def ancestors (p : Place) : List Place := ancestorsOf p.above

/-- The places before an element of a row, the nearest first. -/
def backward (above : List Standing) : List Element → List Element → List Place
  | [], _ => []
  | e :: before, after => ⟨⟨before, e, after⟩, above⟩ :: backward above before (e :: after)

/-- The places after an element of a row, the nearest first. -/
def forward (above : List Standing) : List Element → List Element → List Place
  | _, [] => []
  | before, e :: after => ⟨⟨before, e, after⟩, above⟩ :: forward above (e :: before) after

def preceding (p : Place) : List Place := backward p.above p.here.before (p.element :: p.here.after)

def following (p : Place) : List Place := forward p.above (p.element :: p.here.before) p.here.after

def children (p : Place) : List Place := forward (p.here :: p.above) [] p.element.children.elements

def descendants (p : Place) : List Place := p.element.children.places (p.here :: p.above) []

def related (p : Place) : Relation → List Place
  | .parent => p.ancestors.take 1
  | .ancestor => p.ancestors
  | .previous => p.preceding.take 1
  | .preceding => p.preceding
  | .child => p.children
  | .descendant => p.descendants
  | .next => p.following.take 1
  | .following => p.following

def subtree (p : Place) : List Place := p :: p.descendants

end Place

end AttributeSheet.Markup
