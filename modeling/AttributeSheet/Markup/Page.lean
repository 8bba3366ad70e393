/-
  AttributeSheet.Markup.Page — a page that has been taken in.

  Parsing, matching and printing are a library's (`Library`); a page is one of its
  elements. A whole document is kept as its root element. A fragment is kept as the
  children of a body that is not its own: a container, which stands above them for
  selectors but is never printed. A page without an element, be it blank or a doctype
  alone, is an empty fragment.

  Of the finished markup, tags that declare the content type are left out: what they say
  would be about the bytes the page was read from. They are found by their characters, so
  that raw content and comments lose them too.
-/
import AttributeSheet.Markup.Prologue

namespace AttributeSheet.Markup

/-- A library of parsed markup. `τ` is an element with all that stands below it, `ν` names
    an element among these, and `σ` is a selector that has been read. -/
structure Library (τ ν σ : Type) where
  /-- The root element of a text, if the text has any element. -/
  document? : String → Option τ
  /-- A new element with a tag. -/
  element : String → τ
  /-- The first child with a tag, as the root of what stands below it. -/
  child? : τ → String → Option τ
  tag : τ → String
  attributes : τ → List (String × Option String)
  markup : τ → List Char
  /-- The markup between the tags, node by node. -/
  inside : τ → List (List Char)
  root : τ → ν
  /-- The root and all below it, in document order. -/
  subtree : τ → List ν
  /-- Writes an attribute, or says what is wrong with its name or value. -/
  set : τ → ν → String → String → Except String τ
  /-- The members of a selector list, or what is wrong with the text. -/
  compile : String → Except String (List σ)
  hasPseudoElement : σ → Bool
  selects : τ → σ → ν → Bool

/-! ## Declarations of the content type -/

namespace Written

def contentTypeOpener : List Char := "<meta http-equiv=\"Content-Type\"".toList

def declaresContentType (cs : List Char) : Bool := (Text.after? contentTypeOpener cs).any (·.contains '>')

/-- Leaves such tags out, each up to its closing bracket; `inside` one of them, the rest
    of it is left out first. -/
def dropContentTypes (inside : Bool) : List Char → List Char
  | [] => []
  | c :: r =>
    if inside then dropContentTypes (c != '>') r
    else if declaresContentType (c :: r) then dropContentTypes true r
    else c :: dropContentTypes false r

end Written

/-! ## Pages -/

structure Page (τ : Type) where
  root : τ
  /-- The root is a container and no element of the page. -/
  isFragment : Bool
  /-- The page opens like a whole document and has no element. -/
  isVacant : Bool
  deriving DecidableEq, Repr

namespace Page

variable {τ ν σ : Type} (lib : Library τ ν σ)

def empty : Page τ := ⟨lib.element "body", true, false⟩

def wrap (fragment : String) : String := "<html><body>" ++ fragment ++ "</body></html>"

def ofDocument (text : String) : Page τ :=
  match lib.document? text with
  | some root => ⟨root, false, false⟩
  | none => { empty lib with isVacant := true }

/-- A fragment is never without an element: the tags around it are some. -/
def ofFragment (text : String) : Page τ :=
  match lib.document? (wrap text) with
  | some root =>
    match lib.child? root "body" with
    | some body => ⟨body, true, false⟩
    | none => ⟨root, false, false⟩
  | none => empty lib

def ofText (page : String) : Page τ :=
  let text := dropDeclaration page
  if Text.allBlank text then empty lib
  else if opensDocument text then ofDocument lib text
  else ofFragment lib text

def afterTurnedOpener : List Char → List Char
  | '/' :: '<' :: r => r
  | _ :: r => afterTurnedOpener r
  | [] => []

/-- What stands between the first closing bracket and the last opener of an end tag. -/
def withoutOuterTags (cs : List Char) : List Char :=
  (afterTurnedOpener ((cs.dropWhile (· ≠ '>')).drop 1).reverse).reverse

/-- The page as markup; of a fragment only what its container holds. -/
def print (p : Page τ) : String :=
  let markup := Written.dropContentTypes false (lib.markup p.root)
  String.ofList (if p.isFragment then withoutOuterTags markup else markup)

end Page

end AttributeSheet.Markup
