/-
  AttributeSheet.Css.Attribute — the condition between brackets.

  It is the name of an attribute, alone or with a comparison, a word and a flag that
  says whether small and capital letters are told apart. What follows the flag does not
  count. A name may have an empty namespace before it and no other.
-/
import AttributeSheet.Css.Piece

namespace AttributeSheet.Css

namespace Comparison

def ofMark? (s : String) : Option Comparison :=
  [("=", equal), ("~=", oneOf), ("|=", upToHyphen), ("^=", startsWith), ("$=", endsWith),
    ("*=", contains)].lookup s

end Comparison

namespace Condition

/-- Whether a flag says that letters are the same in both cases; none is no. -/
def caseless? (rest : List Piece) : Option Bool :=
  match Piece.skipBlanks rest with
  | [] => some false
  | .ident flag :: _ =>
    if Text.lowerAll flag = "i" then some true else if Text.lowerAll flag = "s" then some false else none
  | _ => none

def word? (rest : List Piece) : Option (String × List Piece) :=
  match Piece.skipBlanks rest with
  | .ident w :: r | .string w :: r => some (w, r)
  | _ => none

def attributeTest? (name : String) (rest : List Piece) : Option Condition :=
  match Piece.skipBlanks rest with
  | [] => some (test (.hasAttribute name))
  | .mark m :: r => do
    let comparison ← Comparison.ofMark? m
    let (word, r) ← word? r
    let caseless ← caseless? r
    some (if comparison.admits word then test (.attributeValue name comparison word caseless) else never)
  | _ => none

def ofBrackets? (pieces : List Piece) : Option Condition :=
  match Piece.skipBlanks pieces with
  | .ident _ :: .mark "|" :: _ => none
  | .ident name :: r => attributeTest? (Text.lowerLatin name) r
  | .mark "|" :: .ident name :: r => attributeTest? (Text.lowerLatin name) r
  | _ => none

end Condition

end AttributeSheet.Css
