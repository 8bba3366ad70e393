/-
  AttributeSheet.Markup.Prologue — what a page opens with.

  A page may open with blanks, an XML declaration and a doctype. `doctype` gives the
  page's own doctype, or the current one for a page that has none at its start.
  `dropDeclaration` takes an XML declaration off. `opensDocument` tells a page that is
  a whole document from a fragment: after blanks and comments it opens with one of
  four markers.
-/
import AttributeSheet.Text.Blank
import AttributeSheet.Text.Letters

namespace AttributeSheet.Markup

def currentDoctype : String := "<!doctype html>"

namespace Prologue

open AttributeSheet.Text

/-- What follows an XML declaration that opens the characters: it runs to the first
    closing angle bracket, which a question mark must stand before. -/
def afterDeclaration? (cs : List Char) : Option (List Char) := do
  let body ← afterCaseless? "<?xml".toList cs
  let (inside, rest) ← splitAt? '>' body
  if inside.getLast? = some '?' then some rest else none

/-- The doctype that opens the characters, up to its first closing angle bracket. -/
def leadingDoctype? (cs : List Char) : Option (List Char) := do
  let body ← afterCaseless? "<!doctype".toList cs
  let (inside, _) ← splitAt? '>' body
  some (cs.take ("<!doctype".length + inside.length + 1))

def doctype? (cs : List Char) : Option (List Char) :=
  let opening := skipBlanks cs
  leadingDoctype? (((afterDeclaration? opening).map skipBlanks).getD opening)

/-- The four markers a whole document opens with, in small letters. A tag name that
    only begins with one of them opens a document too. -/
def documentMarkers : List (List Char) := ["<html", "<head", "<body", "<!doctype"].map String.toList

def startsWithMarker (cs : List Char) : Bool := documentMarkers.any fun m => (afterCaseless? m cs).isSome

/-- Somewhere in the characters a comment ends, and past the blanks after it stands a
    marker. -/
def markerAfterCommentEnd : List Char → Bool
  | [] => false
  | c :: r =>
    (match after? "-->".toList (c :: r) with
      | some rest => startsWithMarker (skipBlanks rest)
      | none => false) || markerAfterCommentEnd r

/-- A marker opens the characters, or a comment does whose end or any later one is
    followed by a marker: what stands between is taken for comments. -/
def opensDocumentChars (cs : List Char) : Bool :=
  let opening := skipBlanks cs
  startsWithMarker opening ||
    match after? "<!--".toList opening with
    | some body => markerAfterCommentEnd body
    | none => false

end Prologue

/-- The page's doctype as it is written, or the current one. -/
def doctype (page : String) : String := ((Prologue.doctype? page.toList).map String.ofList).getD currentDoctype

/-- The page without an XML declaration and the blanks before it. -/
def dropDeclaration (page : String) : String :=
  ((Prologue.afterDeclaration? (Text.skipBlanks page.toList)).map String.ofList).getD page

def opensDocument (page : String) : Bool := Prologue.opensDocumentChars page.toList

end AttributeSheet.Markup
