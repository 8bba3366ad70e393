/-
  AttributeSheet.Sheet — from the text of a sheet to its declarations.

  Each block with a selector becomes one declaration, in which the last value of a
  repeated name counts; a block without one is skipped. The declarations come out in
  cascade order. A sheet without any text is refused, and no other is.
-/
import AttributeSheet.Block.Reader
import AttributeSheet.CascadeOrder

namespace AttributeSheet

inductive Fault where
  | problem (p : Problem)
  | misuse (m : Misuse)
  deriving DecidableEq, Repr

/-- A selector with its block's properties written one after the other. -/
def Declaration.ofBlock? (mode : Mode) (b : Block) : Except Misuse Declaration := do
  let selector ← Selector.make? mode b.selector
  (b.properties.forM fun p => Declaration.add p.1 (some p.2)).result? (.ofSelector selector)

namespace Sheet

def skipped (blocks : List Block) : List Block := blocks.filter (·.selector.isEmpty)

/-- One declaration for each block that has a selector, in the order of the blocks. -/
def declarations? (mode : Mode) (blocks : List Block) : Except Misuse (List Declaration) :=
  (blocks.filter (!·.selector.isEmpty)).mapM (Declaration.ofBlock? mode)

/-- The declarations of a sheet in cascade order, or what stops it; a missing sheet is
    one without text. -/
def parse (mode : Mode) (source : Option String) : Except Fault (List Declaration) :=
  let text := source.getD ""
  if text.isEmpty then .error (.problem .noInput)
  else (do Declaration.sort? false (← declarations? mode (Block.ofSheet text))).mapError .misuse

end Sheet

end AttributeSheet
