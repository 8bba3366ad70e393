/-
  AttributeSheet.Problem — what can go wrong, told by its cause.

  A `Problem` is a fault of a sheet, a page or an error handler: it is reported, and
  work goes on. A `Misuse` is a call that makes no sense, such as a selector without
  text: it stops the call. Each has one function that words it.
-/
import AttributeSheet.Text.Quoted

namespace AttributeSheet

/-- A value handed in where a declaration or a handler belongs. -/
inductive Foreign where
  | null
  | boolean
  | integer
  | decimal
  | text (s : String)
  | array (items : List Foreign)
  | object (keys : List String)
  | selector
  deriving Repr, Inhabited

def Foreign.kindName : Foreign → String
  | null => "NoneType"
  | boolean => "bool"
  | integer => "int"
  | decimal => "float"
  | text _ => "str"
  | array _ => "list"
  | object _ => "dict"
  | selector => "Selector"

/-- What iterating over a value gives: the characters of a text, the items of an array,
    the keys of an object. Other values cannot be iterated over. -/
def Foreign.members? : Foreign → Option (List Foreign)
  | text s => some (s.toList.map fun c => text c.toString)
  | array items => some items
  | object keys => some (keys.map text)
  | null | boolean | integer | decimal | selector => none

def Foreign.isHashable : Foreign → Bool
  | array _ | object _ => false
  | null | boolean | integer | decimal | text _ | selector => true

/-- Why a host refused a selector or an attribute, in its own words. -/
inductive Cause where
  | stated (words : String)
  /-- The text is no selector. -/
  | notASelector (words : String)
  deriving DecidableEq, Repr

def Cause.words : Cause → String
  | stated words | notASelector words => words

inductive Problem where
  | general (message : String) (cause : Option Cause)
  | emptySheet (message : String)
  | badHandler (kindName : String)
  | badSelector (selector : String) (cause : Option Cause)
  | badAttribute (name : String) (cause : Option Cause)
  deriving DecidableEq, Repr

namespace Problem

def noInput : Problem := .emptySheet "CAS input is empty"

/-- The name of the kind of problem, as log lines give it. -/
def label : Problem → String
  | general .. => "CasError"
  | emptySheet _ => "EmptyInputError"
  | badHandler _ => "InvalidErrorHandlerError"
  | badSelector .. => "InvalidSelectorError"
  | badAttribute .. => "InvalidAttributeError"

def causeTail : Option Cause → String
  | some cause => ": " ++ cause.words
  | none => ""

def message : Problem → String
  | general text _ => text
  | emptySheet text => text
  | badHandler kind => "Error handler must be callable, got " ++ kind
  | badSelector selector cause => "Invalid selector " ++ Text.quote selector ++ causeTail cause
  | badAttribute name _ => "Cannot set attribute " ++ Text.quote name

def cause? : Problem → Option Cause
  | general _ cause | badSelector _ cause | badAttribute _ cause => cause
  | emptySheet _ | badHandler _ => none

end Problem

inductive Misuse where
  | blankSelector
  | unknownMode (name : String)
  | noValue (property : String)
  | mapWithValue
  | notADeclaration (kindName : String)
  | notIterable (kindName : String)
  | unhashable (kindName : String)
  /-- A map has lost or gained a name while it was iterated over. -/
  | sizeChanged
  /-- Declarations whose specificities are of different kinds have no order. -/
  | mixedModes
  deriving DecidableEq, Repr

/-- The words of a misuse; that two kinds of specificity cannot be compared has none. -/
def Misuse.message : Misuse → Option String
  | blankSelector => some "Selector text must not be empty"
  | unknownMode name => some (Text.quote name ++ " is not a valid SpecificityMode")
  | noValue property => some ("add() missing a value for property " ++ Text.quote property)
  | mapWithValue => some "add() takes either a mapping or a name and value, not both"
  | notADeclaration kind => some ("add() expects Declaration objects, got " ++ kind)
  | notIterable kind => some ("'" ++ kind ++ "' object is not iterable")
  | unhashable kind => some ("unhashable type: '" ++ kind ++ "'")
  | sizeChanged => some "dictionary changed size during iteration"
  | mixedModes => none

end AttributeSheet
