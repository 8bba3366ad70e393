/-
  AttributeSheet.Css.Piece — the pieces a selector is read from.

  A piece is a word, a mark or a number, or a whole function or bracketed part. What is
  inside of the last two is read before they become pieces, so a piece carries the
  condition it comes to, if it comes to one.
-/
import AttributeSheet.Css.Condition

namespace AttributeSheet.Css

inductive Piece where
  | blank
  | comment
  | ident (name : String)
  /-- A name behind a number sign; not each one is an identifier. -/
  | hash (name : String) (isIdent : Bool)
  | string (value : String)
  /-- A number, with its value if it is whole; `signed` if a sign is written. -/
  | number (value : Option Int) (signed : Bool)
  | dimension (value : Option Int) (unit : String)
  | mark (s : String)
  | function (condition : Option Condition)
  | brackets (condition : Option Condition)
  /-- Whatever never belongs to a selector. -/
  | stray
  deriving DecidableEq, Repr

namespace Piece

def isGap : Piece → Bool
  | blank | comment => true
  | _ => false

def skipBlanks (ps : List Piece) : List Piece := ps.dropWhile (· == blank)

def skipGap (ps : List Piece) : List Piece := ps.dropWhile isGap

def opensWithBlank (ps : List Piece) : Bool := (ps.takeWhile isGap).contains blank

end Piece

end AttributeSheet.Css
