/-
  AttributeSheet.Text.Blank — blank characters, and texts without blank ends.

  One class of characters counts as layout everywhere in a sheet and around the
  opening of a page: `isBlank`. `trim` takes the longest blank run off each end of a
  text; what it leaves begins and ends with a character that is not blank, or is
  empty.
-/

namespace AttributeSheet

/-- The blank characters: tab to carriage return, the four information separators,
    the spaces, the next-line character and the line and paragraph separators. The
    zero-width characters are not among them. -/
def isBlank (c : Char) : Bool :=
  let n := c.toNat
  (9 ≤ n && n ≤ 13) || (28 ≤ n && n ≤ 32) || n == 0x85 || n == 0xA0 || n == 0x1680 ||
    (0x2000 ≤ n && n ≤ 0x200A) || n == 0x2028 || n == 0x2029 || n == 0x202F || n == 0x205F ||
    n == 0x3000

namespace Text

def skipBlanks (cs : List Char) : List Char := cs.dropWhile isBlank

def dropBlankEnd (cs : List Char) : List Char := (skipBlanks cs.reverse).reverse

def trimChars (cs : List Char) : List Char := dropBlankEnd (skipBlanks cs)

def trim (s : String) : String := String.ofList (trimChars s.toList)

/-- No character of the text is other than blank; the empty text is blank. -/
def allBlank (s : String) : Bool := s.toList.all isBlank

end Text

end AttributeSheet
