/-
  AttributeSheet.Markup.Token — the tags, texts and comments of a page, in order.

  Nothing is wrong markup: a tag that the page ends in is dropped, an end tag may have
  attributes, which do not count, and a bracket that opens nothing is text. Doctypes
  are passed over. Names are in small letters, and of an attribute that is repeated the
  first counts. After the start tag of a raw or text-only element all is content up to
  the end tag of that name.
-/
import AttributeSheet.Markup.Forest
import AttributeSheet.Markup.Reference
import AttributeSheet.Markup.Vocabulary
import AttributeSheet.Text.Newline

namespace AttributeSheet.Markup

inductive Token where
  /-- A start tag, which `closed` marks as its own end tag. -/
  | startTag (tag : String) (attributes : Attributes) (closed : Bool)
  | endTag (tag : String)
  | text (s : String)
  | comment (s : String)
  deriving DecidableEq, Repr

namespace Token

def isSpace (c : Char) : Bool := c = ' ' || c = '\t' || c = '\n' || c = '\r' || c = '\x0c'

def inTagName (c : Char) : Bool := !isSpace c && c != '/' && c != '>'

def inAttributeName (c : Char) : Bool := inTagName c && c != '='

def inBareValue (c : Char) : Bool := !isSpace c && c != '>'

def lowered (cs : List Char) : String := String.ofList (cs.map lowerLatinChar)

/-! ## Attributes -/

/-- A value and what follows it; a quote that is never closed runs to the end. -/
def readValue (s : List Char) : List Char × List Char :=
  match s.dropWhile isSpace with
  | '"' :: r => (Text.splitAt? '"' r).getD (r, [])
  | '\'' :: r => (Text.splitAt? '\'' r).getD (r, [])
  | r => r.span inBareValue

def readAttribute (c : Char) (r : List Char) : (String × Option String) × List Char :=
  let name := lowered (c :: r.takeWhile inAttributeName)
  let rest := r.dropWhile inAttributeName
  match rest.dropWhile isSpace with
  | '=' :: r =>
    let (value, rest) := readValue r
    ((name, some (String.ofList (Reference.decode true value))), rest)
  | _ => ((name, none), rest)

def addFirst (a : Attributes) (p : String × Option String) : Attributes :=
  if a.contains p.1 then a else a.insert p.1 p.2

/-- Reads a tag from behind its name to its end: the attributes on top of those read so
    far, whether the tag closes itself, and what follows it. A tag the text ends in is
    none. -/
def readTagEnd? (a : Attributes) (s : List Char) : Option (Attributes × Bool × List Char) :=
  match s.dropWhile isSpace with
  | [] => none
  | '>' :: r => some (a, false, r)
  | '/' :: '>' :: r => some (a, true, r)
  | c :: r =>
    let (a, rest) := if c = '/' then (a, r) else let (p, rest) := readAttribute c r; (addFirst a p, rest)
    if _h : rest.length < s.length then readTagEnd? a rest else none
  termination_by s.length

/-! ## Comments and raw content -/

/-- What stands before the end of a comment, and what follows it; a comment without an
    end is ended by the end of the text. -/
def readComment : List Char → List Char × List Char
  | [] => ([], [])
  | '-' :: '-' :: '>' :: r => ([], r)
  | '-' :: '-' :: '!' :: '>' :: r => ([], r)
  | c :: r => let (inside, rest) := readComment r; (c :: inside, rest)

/-- What follows the opener of a comment. One that closes at once is empty. -/
def openedComment (s : List Char) : List Char × List Char :=
  match s with
  | '>' :: r | '-' :: '>' :: r => ([], r)
  | _ => readComment s

/-- A declaration or instruction that is none of markup is a comment, up to the first
    closing bracket. -/
def readBogus (s : List Char) : Token × List Char :=
  let (inside, rest) := (Text.splitAt? '>' s).getD (s, [])
  (comment (String.ofList inside), rest)

def endsContent (tag s : List Char) : Bool :=
  match Text.after? ['<', '/'] s with
  | none => false
  | some r => (Text.afterCaseless? tag r).any fun rest => rest.head?.any (!inTagName ·)

def readContent (tag : List Char) : List Char → List Char × List Char
  | [] => ([], [])
  | c :: r =>
    if endsContent tag (c :: r) then ([], c :: r)
    else let (inside, rest) := readContent tag r; (c :: inside, rest)

/-! ## Tokens -/

def textToken (cs : List Char) : List Token :=
  if cs.isEmpty then [] else [text (String.ofList cs)]

/-- A start tag, with the content of an element that has no markup in it. -/
def readStartTag (s : List Char) : List Token × List Char :=
  let tag := lowered (s.takeWhile inTagName)
  match readTagEnd? .empty (s.dropWhile inTagName) with
  | none => ([], [])
  | some (attributes, closed, rest) =>
    let start := startTag tag attributes closed
    if closed then ([start], rest)
    else if isRaw tag then
      let (inside, rest) := readContent tag.toList rest
      (start :: textToken inside, rest)
    else if isTextOnly tag then
      let (inside, rest) := readContent tag.toList rest
      (start :: textToken (Reference.decode false inside), rest)
    else ([start], rest)

def readEndTag (s : List Char) : List Token × List Char :=
  match readTagEnd? .empty (s.dropWhile inTagName) with
  | none => ([], [])
  | some (_, _, rest) => ([endTag (lowered (s.takeWhile inTagName))], rest)

def readOpened (s : List Char) : List Token × List Char :=
  match s with
  | '!' :: '-' :: '-' :: r => let (inside, rest) := openedComment r; ([comment (String.ofList inside)], rest)
  | '!' :: r =>
    match Text.afterCaseless? "doctype".toList r with
    | some r => ([], ((Text.splitAt? '>' r).map (·.2)).getD [])
    | none => let (token, rest) := readBogus r; ([token], rest)
  | '?' :: _ => let (token, rest) := readBogus s; ([token], rest)
  | '/' :: r =>
    match r with
    | [] => (textToken ['<', '/'], [])
    | '>' :: r => ([], r)
    | c :: _ => if isLatinLetter c then readEndTag r else let (token, rest) := readBogus r; ([token], rest)
  | c :: _ => if isLatinLetter c then readStartTag s else (textToken ['<'], s)
  | [] => (textToken ['<'], [])

def read (s : List Char) : List Token × List Char :=
  match s with
  | '<' :: r => readOpened r
  | _ => (textToken (Reference.decode false (s.takeWhile (· != '<'))), s.dropWhile (· != '<'))

def readAll (s : List Char) : List Token :=
  if s.isEmpty then []
  else
    let (tokens, rest) := read s
    tokens ++ if _h : rest.length < s.length then readAll rest else []
  termination_by s.length

/-- The tokens of a page, in which newlines are line feeds and no character is missing:
    a null one counts as unknown. -/
def ofPage (page : String) : List Token :=
  readAll ((Text.unifyNewlineChars page.toList).map fun c => if c = '\x00' then '\uFFFD' else c)

end Token

end AttributeSheet.Markup
