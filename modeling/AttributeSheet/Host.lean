/-
  AttributeSheet.Host — what a cascade needs of the pages it is applied to.

  A host tells the doctype of a page's text (`doctype`), takes the page in (`load`),
  finds the elements a selector matches (`query`), writes an attribute of one element
  (`write`) and gives the page back as text (`print`). It may reject a selector or an
  attribute, which is reported and passed over, or break down, which ends the run. `δ`
  is what the host holds between calls and `ε` names an element in it.
-/
import AttributeSheet.Problem

namespace AttributeSheet

/-- How a host answers what it cannot do. What it rejects it names itself. -/
inductive Refusal where
  | rejected (named : String) (cause : Option Cause)
  | broken (message : String)
  deriving DecidableEq, Repr

structure Host (δ ε : Type) where
  /-- What the answer for a page begins with; the printed page has no doctype. -/
  doctype : String → String
  load : δ → String → δ
  /-- The page just loaded was meant as a whole document and has no element. -/
  isVacant : δ → Bool
  query : δ → String → Except Refusal (List ε)
  write : δ → ε → String → String → Except Refusal δ
  print : δ → String

end AttributeSheet
