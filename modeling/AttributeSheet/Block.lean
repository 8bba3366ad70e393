/-
  AttributeSheet.Block — the blocks of a sheet as they are written.

  A block is a selector and the properties between its braces, trimmed but not looked
  into: the selector may be empty, and a name may come more than once.
-/
import AttributeSheet.Text.Quoted

namespace AttributeSheet

structure Block where
  selector : String
  properties : List (String × String)
  deriving DecidableEq, Repr, Inhabited

def Block.shownProperties (b : Block) : String :=
  Text.parenthesized (b.properties.map fun p => Text.parenthesized [Text.quote p.1, Text.quote p.2])

end AttributeSheet
