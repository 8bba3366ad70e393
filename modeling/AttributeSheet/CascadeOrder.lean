/-
  AttributeSheet.CascadeOrder — the order in which declarations are applied.

  Sorting groups the items by specificity and lays the groups end to end, the least
  specific first, so items of one specificity stay as they were and the later of two
  equals is applied later. The reverse order is the whole result turned round. Two
  specificities of different kinds cannot be compared, and sorting fails where it has to.
-/
import AttributeSheet.Declaration

namespace AttributeSheet

def insertLevel? (x : Specificity) : List Specificity → Except Misuse (List Specificity)
  | [] => .ok [x]
  | y :: r => do
    if ← y.lt? x then return y :: (← insertLevel? x r)
    else return x :: y :: r

def sortLevels? : List Specificity → Except Misuse (List Specificity)
  | [] => .ok []
  | x :: r => do insertLevel? x (← sortLevels? r)

/-- Sorts by `key`, ascending, or turned round as a whole: the items of each specificity
    that occurs in their own order, the least specific first. -/
def sortBySpecificity? {α : Type} (key : α → Specificity) (turned : Bool) (l : List α) : Except Misuse (List α) := do
  let levels ← sortLevels? (l.map key).eraseDups
  let sorted := levels.flatMap fun level => l.filter fun x => key x = level
  return if turned then sorted.reverse else sorted

def Declaration.sort? (turned : Bool) (l : List Declaration) : Except Misuse (List Declaration) :=
  sortBySpecificity? (·.selector.specificity) turned l

end AttributeSheet
