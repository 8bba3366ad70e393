/-
  AttributeSheet.Css.Lexeme — the words, numbers and marks of a selector, in order.

  Every text has lexemes. A string is ended by the end of the text, which leaves a
  stray piece behind it, and broken off by a newline; a comment is ended by the end of
  the text too. A backslash stands before a character, or before the one to six
  hexadecimal digits of its number and a blank. What opens and closes a part is kept as
  such, for parts to be put together.
-/
import AttributeSheet.Css.Piece
import AttributeSheet.Text.Newline

namespace AttributeSheet.Css

inductive Opening where
  | function (name : String)
  | square
  | round
  | curly
  deriving DecidableEq, Repr

def Opening.closer : Opening → Char
  | function _ | round => ')'
  | square => ']'
  | curly => '}'

inductive Lexeme where
  | piece (p : Piece)
  | opens (o : Opening)
  | closes (c : Char)
  deriving DecidableEq, Repr

namespace Lexeme

def isSpace (c : Char) : Bool := c = ' ' || c = '\n' || c = '\t'

def isNameStart (c : Char) : Bool := isLatinLetter c || c = '_' || c.toNat > 0x7F

def isNameChar (c : Char) : Bool := isNameStart c || isDecimalDigit c || c = '-'

def isHex (c : Char) : Bool := (hexDigit? c).isSome

/-- A backslash opens the characters and may stand where it does. -/
def opensEscape : List Char → Bool
  | '\\' :: r => r.head? != some '\n'
  | _ => false

def opensIdent : List Char → Bool
  | '-' :: r => r.head?.any (fun c => isNameStart c || c = '-') || opensEscape r
  | c :: r => isNameStart c || opensEscape (c :: r)
  | [] => false

/-! ## Names and strings -/

/-- The character an escape stands for, and what follows it; `s` follows the
    backslash. -/
def readEscape (s : List Char) : Char × List Char :=
  let digits := (s.takeWhile isHex).take 6
  if digits.isEmpty then
    match s with
    | c :: r => (c, r)
    | [] => ('\uFFFD', [])
  else
    let n := digits.foldl (fun n c => n * 16 + (hexDigit? c).getD 0) 0
    let rest := s.drop digits.length
    let c := if n = 0 ∨ !n.isValidChar then '\uFFFD' else Char.ofNat n
    (c, if rest.head?.any isSpace then rest.drop 1 else rest)

def readName (s : List Char) : List Char × List Char :=
  match s with
  | [] => ([], [])
  | c :: r =>
    if isNameChar c then let (name, rest) := readName r; (c :: name, rest)
    else if opensEscape (c :: r) then
      let (d, rest) := readEscape r
      if _h : rest.length ≤ r.length then let (name, rest) := readName rest; (d :: name, rest) else ([d], [])
    else ([], c :: r)
  termination_by s.length

inductive StringEnd where
  | closed
  | endOfText
  | newline
  deriving DecidableEq, Repr

/-- The string before the given quote, how it ends and what follows it. An escaped
    newline is no part of it. -/
def readString (mark : Char) (s : List Char) : List Char × StringEnd × List Char :=
  match s with
  | [] => ([], .endOfText, [])
  | c :: r =>
    if c = mark then ([], .closed, r)
    else if c = '\n' then ([], .newline, c :: r)
    else if c = '\\' then
      match r with
      | [] => ([], .endOfText, [])
      | '\n' :: r => readString mark r
      | d :: r =>
        let (e, rest) := readEscape (d :: r)
        if _h : rest.length ≤ r.length then let (text, rest) := readString mark rest; (e :: text, rest)
        else ([e], .endOfText, [])
    else let (text, rest) := readString mark r; (c :: text, rest)
  termination_by s.length

/-! ## Numbers -/

structure Numeral where
  value : Option Int
  signed : Bool
  rest : List Char
  deriving Repr

def naturalValue (ds : List Char) : Nat := ds.foldl (fun n c => n * 10 + (hexDigit? c).getD 0) 0

def afterExponent? (s : List Char) : Option (List Char) :=
  match s with
  | e :: r =>
    let digits := match r with
      | '+' :: r | '-' :: r => r
      | _ => r
    if (e = 'e' ∨ e = 'E') ∧ digits.head?.any isDecimalDigit then
      some (digits.dropWhile isDecimalDigit)
    else none
  | [] => none

def afterFraction? : List Char → Option (List Char)
  | '.' :: r => if r.head?.any isDecimalDigit then some (r.dropWhile isDecimalDigit) else none
  | _ => none

/-- The number the characters open with: a sign, digits, a fraction and an exponent, of
    which digits or a fraction must be there. It is whole without a fraction and an
    exponent. -/
def readNumeral? (s : List Char) : Option Numeral :=
  let (sign, body) := match s with
    | '+' :: r => (some false, r)
    | '-' :: r => (some true, r)
    | _ => (none, s)
  let digits := body.takeWhile isDecimalDigit
  let rest := body.dropWhile isDecimalDigit
  let fraction := afterFraction? rest
  if digits.isEmpty ∧ fraction.isNone then none
  else
    let rest := fraction.getD rest
    let exponent := afterExponent? rest
    let n : Int := naturalValue digits
    some
      { value := if fraction.isSome ∨ exponent.isSome then none else some (if sign = some true then -n else n)
        signed := sign.isSome
        rest := exponent.getD rest }

/-! ## Lexemes -/

def afterAddress : List Char → List Char
  | [] => []
  | ')' :: r => r
  | '\\' :: _ :: r => afterAddress r
  | _ :: r => afterAddress r

/-- What follows a range of code points that opens the characters: `u+`, six digits or
    question marks at most, and the end of the range after a hyphen. -/
def afterCodeRange? (s : List Char) : Option (List Char) :=
  match s with
  | u :: '+' :: r =>
    if (u = 'u' ∨ u = 'U') ∧ r.head?.any (fun c => isHex c || c = '?') then
      let digits := (r.takeWhile isHex).take 6
      let marks := ((r.drop digits.length).takeWhile (· = '?')).take (6 - digits.length)
      let rest := r.drop (digits.length + marks.length)
      match rest with
      | '-' :: t =>
        if marks.isEmpty ∧ t.head?.any isHex then
          some (t.drop ((t.takeWhile isHex).take 6).length)
        else some rest
      | _ => some rest
    else none
  | _ => none

def readIdent (s : List Char) : Lexeme × List Char :=
  let (chars, rest) := readName s
  let name := String.ofList chars
  match rest with
  | '(' :: r =>
    if Text.lowerLatin name == "url" && (r.dropWhile isSpace).head?.all (fun c => c != '"' && c != '\'') then
      (piece .stray, afterAddress r)
    else (opens (.function name), r)
  | _ => (piece (.ident name), rest)

def afterNumeral (n : Numeral) : Lexeme × List Char :=
  if opensIdent n.rest then
    let (unit, rest) := readName n.rest
    (piece (.dimension n.value (String.ofList unit)), rest)
  else match n.rest with
    | '%' :: r => (piece .stray, r)
    | _ => (piece (.number n.value n.signed), n.rest)

def afterComment : List Char → List Char
  | '*' :: '/' :: r => r
  | _ :: r => afterComment r
  | [] => []

def longMarks : List (List Char) :=
  ["<!--", "||", "~=", "|=", "^=", "$=", "*="].map String.toList

def readMark (c : Char) (r : List Char) : Lexeme × List Char :=
  match longMarks.findSome? fun m => (Text.after? m (c :: r)).map fun rest => (m, rest) with
  | some (m, rest) => (piece (.mark (String.ofList m)), rest)
  | none => (piece (.mark (String.ofList [c])), r)

def read (c : Char) (r : List Char) : List Lexeme × List Char :=
  if isSpace c then ([piece .blank], r.dropWhile isSpace)
  else if let some rest := afterCodeRange? (c :: r) then ([piece .stray], rest)
  else if let some rest := Text.after? "-->".toList (c :: r) then ([piece (.mark "-->")], rest)
  else if opensIdent (c :: r) then let (l, rest) := readIdent (c :: r); ([l], rest)
  else if let some n := readNumeral? (c :: r) then let (l, rest) := afterNumeral n; ([l], rest)
  else match c with
    | '@' => if opensIdent r then ([piece .stray], (readName r).2) else ([piece (.mark "@")], r)
    | '#' =>
      if r.head?.any isNameChar || opensEscape r then
        let (name, rest) := readName r
        ([piece (.hash (String.ofList name) (opensIdent r))], rest)
      else ([piece (.mark "#")], r)
    | '[' => ([opens .square], r)
    | '(' => ([opens .round], r)
    | '{' => ([opens .curly], r)
    | ']' | ')' | '}' => ([closes c], r)
    | '"' | '\'' =>
      match readString c r with
      | (text, .closed, rest) => ([piece (.string (String.ofList text))], rest)
      | (text, .endOfText, rest) => ([piece (.string (String.ofList text)), piece .stray], rest)
      | (_, .newline, rest) => ([piece .stray], rest)
    | '/' =>
      match r with
      | '*' :: body => ([piece .comment], afterComment body)
      | _ => ([piece (.mark "/")], r)
    | _ => let (l, rest) := readMark c r; ([l], rest)

def readAll (s : List Char) : List Lexeme :=
  match s with
  | [] => []
  | c :: r =>
    let (lexemes, rest) := read c r
    lexemes ++ if _h : rest.length ≤ r.length then readAll rest else []
  termination_by s.length

/-- A selector's characters with line feeds for newlines, and none missing. -/
def prepare (text : String) : List Char :=
  (Text.unifyNewlineChars text.toList).map fun c =>
    if c = '\x00' then '\uFFFD' else if c = '\x0c' then '\n' else c

def ofText (text : String) : List Lexeme := readAll (prepare text)

end Lexeme

end AttributeSheet.Css
