/-
  AttributeSheet.Css.Condition — what a selector asks of an element.

  A condition is built from tests of one place (`Test`), from tests of a value of an
  attribute (`Comparison`) and from counts of siblings. `holds` says of which places it
  is true. Whether a condition can be told to be true of no place at all from its form
  alone is `neverHolds`; what stands to the right of such a condition is not even
  looked at when it is asked whether all parts of it are known (`isKnown`).
-/
import AttributeSheet.Markup.Place
import AttributeSheet.Text.Blank
import AttributeSheet.Text.Letters

namespace AttributeSheet.Css

open Markup (Element Place Relation)

inductive Comparison where
  | equal
  /-- One of the words of the value. -/
  | oneOf
  /-- The value up to its end or a hyphen. -/
  | upToHyphen
  | startsWith
  | endsWith
  | contains
  deriving DecidableEq, Repr

inductive Test where
  | tag (name : String)
  /-- The element is of no namespace, as all are. -/
  | unprefixed
  | id (name : String)
  | hasClass (name : String)
  | hasAttribute (name : String)
  | attributeValue (name : String) (comparison : Comparison) (word : String) (caseless : Bool)
  | root
  | empty
  | link
  | localLink
  | enabled
  | disabled
  | checked
  /-- The element's language is one of these, or a variety of it. -/
  | language (tags : List String)
  deriving DecidableEq, Repr

inductive Condition where
  | always
  | never
  /-- A pseudo-class that has no meaning. -/
  | unknown
  | test (t : Test)
  | both (a b : Condition)
  | either (a b : Condition)
  | neither (a : Condition)
  /-- Some place in the relation satisfies the condition. -/
  | near (r : Relation) (a : Condition)
  /-- The place satisfies `b`, and some place in the relation satisfies `a`. -/
  | combined (a : Condition) (r : Relation) (b : Condition)
  /-- The siblings on one side, of the element's own type if `sameType` says so, are
      one less than a number of the series `step * n + offset`. -/
  | nth (side : Relation) (sameType : Bool) (step offset : Int)
  /-- The same of the siblings that satisfy a condition, as does the element itself. -/
  | nthOf (side : Relation) (sameType : Bool) (step offset : Int) (a : Condition)
  deriving DecidableEq, Repr

/-! ## Words and values -/

def isValueBlank (c : Char) : Bool := c = ' ' || c = '\t' || c = '\n' || c = '\r' || c = '\x0c'

def words (value : String) : List String :=
  ((value.toList.splitBy fun c d => isValueBlank c == isValueBlank d).filter fun w => !w.any isValueBlank).map
    String.ofList

def occursIn (needle : List Char) : List Char → Bool
  | [] => needle.isEmpty
  | c :: r => needle.isPrefixOf (c :: r) || occursIn needle r

namespace Comparison

/-- Compares with a word; a word that is empty, or that is not one word, is never
    started with, ended with, contained or one of the words. -/
def holds (word value : String) : Comparison → Bool
  | equal => value == word
  | oneOf => (words value).contains word
  | upToHyphen => value == word || (word ++ "-").toList.isPrefixOf value.toList
  | startsWith => word.toList.isPrefixOf value.toList
  | endsWith => word.toList.isSuffixOf value.toList
  | contains => occursIn word.toList value.toList

def admits (word : String) : Comparison → Bool
  | equal | upToHyphen => true
  | oneOf => !word.isEmpty && !word.toList.any isBlank
  | startsWith | endsWith | contains => !word.isEmpty

end Comparison

/-! ## Tests -/

def has (e : Element) (name : String) : Bool := e.attributes.contains name

def value (e : Element) (name : String) : String := (e.attributes.value? name).getD ""

def isOne (e : Element) (tags : List String) : Bool := tags.contains e.tag

def isLink (e : Element) : Bool := isOne e ["a", "area", "link"] && has e "href"

/-- Elements that can be disabled for themselves, and those that disable a group. -/
def isControl (e : Element) : Bool := isOne e ["button", "input", "select", "textarea", "option"]

def isGroup (e : Element) : Bool := isOne e ["optgroup", "menuitem", "fieldset"]

def isChecked (e : Element) : Bool :=
  (isOne e ["input", "menuitem"] && has e "checked" &&
    ["checkbox", "radio"].contains (Text.lowerLatin (value e "type"))) ||
  (isOne e ["option"] && has e "selected")

/-- No child is an element, and no text stands before the first comment. -/
def isEmpty (e : Element) : Bool := e.children.hasNoElement && !e.children.startsWithText

/-- An address that names its scheme: a letter, then letters, digits and three marks, up
    to a colon. -/
def hasScheme (address : String) : Bool :=
  match Text.splitAt? ':' address.toList with
  | some (c :: r, _) =>
    isLatinLetter c && r.all fun c => isLatinLetter c || isDecimalDigit c || c = '+' || c = '-' || c = '.'
  | some ([], _) | none => false

/-- The language of the nearest element that names one, in small letters. -/
def language (p : Place) : String :=
  ((p :: p.ancestors).findSome? fun q => q.element.attributes.value? "lang").elim "" Text.lowerLatin

def Test.holds (p : Place) : Test → Bool
  | tag name => p.element.tag == name
  | unprefixed => true
  | id name => p.element.attributes.value? "id" == some name
  | hasClass name => (words (value p.element "class")).contains name
  | hasAttribute name => has p.element name
  | attributeValue name comparison word caseless =>
    (p.element.attributes.value? name).any fun v =>
      if caseless then comparison.holds (Text.lowerAll word) (Text.lowerAll v) else comparison.holds word v
  | root => p.isRoot
  | empty => isEmpty p.element
  | link => isLink p.element
  | localLink => isLink p.element && !hasScheme (value p.element "href")
  | enabled => ((isControl p.element || isGroup p.element) && !has p.element "disabled") || isLink p.element
  | disabled => (isControl p.element || isGroup p.element) && has p.element "disabled"
  | checked => isChecked p.element
  | language tags => let l := Css.language p; tags.any fun t => Comparison.upToHyphen.holds t l

/-! ## Conditions -/

/-- `count` is one less than `step * n + offset` for some natural number `n`. -/
def inSeries (step offset : Int) (count : Nat) : Bool :=
  let d := (count : Int) - (offset - 1)
  if step = 0 then d == 0 else d % step == 0 && 0 ≤ d / step

def counted (side : Relation) (sameType : Bool) (p : Place) : List Place :=
  (p.related side).filter fun q => !sameType || q.element.tag == p.element.tag

namespace Condition

def holds : Condition → Place → Bool
  | always, _ => true
  | never, _ => false
  | unknown, _ => false
  | test t, p => t.holds p
  | both a b, p => a.holds p && b.holds p
  | either a b, p => a.holds p || b.holds p
  | neither a, p => !a.holds p
  | near r a, p => (p.related r).any a.holds
  | combined a r b, p => b.holds p && (p.related r).any a.holds
  | nth side sameType step offset, p => inSeries step offset (counted side sameType p).length
  | nthOf side sameType step offset a, p =>
    a.holds p && inSeries step offset ((counted side sameType p).countP a.holds)

def all : List Condition → Condition
  | [] => always
  | [a] => a
  | a :: r => both a (all r)

def any : List Condition → Condition
  | [] => never
  | a :: r => either a (any r)

/-- The form of the condition shows that it holds nowhere. -/
def neverHolds : Condition → Bool
  | never => true
  | both a b => a.neverHolds || b.neverHolds
  | either a b => a.neverHolds && b.neverHolds
  | combined a _ b => a.neverHolds || b.neverHolds
  | _ => false

/-- Every pseudo-class has a meaning, other than to the right of what holds nowhere. -/
def isKnown : Condition → Bool
  | unknown => false
  | both a b | either a b => a.isKnown && b.isKnown
  | combined a _ b => a.isKnown && (a.neverHolds || b.isKnown)
  | neither a | near _ a | nthOf _ _ _ _ a => a.isKnown
  | always | never | test _ | nth .. => true

end Condition

end AttributeSheet.Css
