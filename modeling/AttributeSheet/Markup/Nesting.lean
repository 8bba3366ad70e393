/-
  AttributeSheet.Markup.Nesting — how the elements of a page stand in one another.

  The elements that are open form a stack. A start tag may end the innermost one first
  (`endedBy`), and opens html, head or body where the page left them out; a second
  html, head or body is passed over, and so is its end tag. An end tag closes
  everything inside its element, unless an element of a higher rank stands between; one
  that fits no open element is passed over. What is still open at the end is closed
  there. Only what stands in the first root element is kept.
-/
import AttributeSheet.Markup.Token

namespace AttributeSheet.Markup

/-- An element that is open, with the children it has so far, the latest first. -/
structure OpenElement where
  tag : String
  attributes : Attributes
  children : Forest
  deriving Repr

structure Nesting where
  /-- The open elements, the innermost first. -/
  stack : List OpenElement
  /-- The root elements that are closed, the latest first. -/
  roots : Forest
  headSeen : Bool
  bodySeen : Bool
  /-- How many end tags of html, head and body are to be passed over. -/
  surplus : Nat
  deriving Repr

namespace Nesting

def start : Nesting := ⟨[], .nil, false, false, 0⟩

def tags (s : Nesting) : List String := s.stack.map (·.tag)

/-- Adds a node to the innermost element; outside of every element it is lost. -/
def add (s : Nesting) (node : Forest → Forest) : Nesting :=
  match s.stack with
  | [] => s
  | e :: rest => { s with stack := { e with children := node e.children } :: rest }

def openElement (s : Nesting) (tag : String) (attributes : Attributes) : Nesting :=
  { s with
    stack := ⟨tag, attributes, .nil⟩ :: s.stack
    headSeen := s.headSeen || tag == "head" || tag == "body"
    bodySeen := s.bodySeen || tag == "body" }

def close (s : Nesting) : Nesting :=
  match s.stack with
  | [] => s
  | e :: rest =>
    let node := Forest.element e.tag e.attributes e.children.reverse
    let s := { s with stack := rest }
    if rest.isEmpty then { s with roots := node s.roots } else s.add node

def closeMany : Nat → Nesting → Nesting
  | 0, s => s
  | n + 1, s => closeMany n s.close

def makeRoom (s : Nesting) (tag : String) : Nesting :=
  closeMany (s.tags.takeWhile fun inner => endedBy inner tag).length s

/-- Opens what the page left out before an element of the given tag. -/
def imply (s : Nesting) (tag : String) : Nesting :=
  if tag = "html" then s
  else
    let s := if s.stack.isEmpty then s.openElement "html" .empty else s
    if tag = "head" ∨ tag = "body" then s
    else if s.stack.length = 1 ∧ isHeadMatter tag then if s.headSeen then s else s.openElement "head" .empty
    else if isFrameMatter tag ∨ s.bodySeen ∨ s.tags.contains "head" then s
    else s.openElement "body" .empty

/-- The start tag of an element that the page has already, or that stands too deep. -/
def isMisplaced (s : Nesting) (tag : String) : Bool :=
  (tag == "html" && !s.stack.isEmpty) || (tag == "head" && s.stack.length != 1) ||
    (tag == "body" && s.tags.contains "body")

def startTag (s : Nesting) (tag : String) (attributes : Attributes) (closed : Bool) : Nesting :=
  let s := (s.makeRoom tag).imply tag
  if s.isMisplaced tag then { s with surplus := s.surplus + 1 }
  else
    let s := s.openElement tag attributes
    if closed || isVoid tag then s.close else s

def endTag (s : Nesting) (tag : String) : Nesting :=
  let inner := s.tags.takeWhile (· != tag)
  if s.surplus > 0 ∧ ["html", "head", "body"].contains tag then { s with surplus := s.surplus - 1 }
  else if !s.tags.contains tag || inner.any fun t => rank t > rank tag then s
  else closeMany (inner.length + 1) s

/-- Outside of the body, the blanks a text starts with stay where they are, and the rest
    opens a body. -/
def text (s : Nesting) (t : String) : Nesting :=
  match s.tags.head? with
  | none | some "html" | some "head" =>
    let blanks := t.toList.takeWhile Token.isSpace
    let rest := t.toList.dropWhile Token.isSpace
    let s := if blanks.isEmpty then s else s.add (.text (String.ofList blanks))
    if rest.isEmpty then s
    else
      let s := if s.tags.head? = some "head" then s.makeRoom "p" else s
      (s.imply "p").add (.text (String.ofList rest))
  | some _ => s.add (.text t)

def step (s : Nesting) : Token → Nesting
  | .startTag tag attributes closed => s.startTag tag attributes closed
  | .endTag tag => s.endTag tag
  | .text t => s.text t
  | .comment t => s.add (.comment t)

def finish (s : Nesting) : Nesting := closeMany s.stack.length s

def ofTokens (tokens : List Token) : Nesting := (tokens.foldl step start).finish

end Nesting

namespace Forest

def firstElement? : Forest → Option Element
  | nil => none
  | text _ r | comment _ r => r.firstElement?
  | element t a c _ => some ⟨t, a, c⟩

def find? (tag : String) : Forest → Option Element
  | nil => none
  | text _ r | comment _ r => r.find? tag
  | element t a c r => if t = tag then some ⟨t, a, c⟩ else r.find? tag

end Forest

def Element.ofMarkup? (s : String) : Option Element :=
  (Nesting.ofTokens (Token.ofPage s)).roots.reverse.firstElement?

end AttributeSheet.Markup
