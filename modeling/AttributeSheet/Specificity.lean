/-
  AttributeSheet.Specificity — how specific a selector is.

  A selector's text is counted in three buckets: ids, then classes, attribute
  conditions and pseudo-classes, then types. The legacy value writes the three counts
  one after the other as one decimal number, so a bucket of ten or more spills over;
  the tuple compares them bucket by bucket.
-/
import AttributeSheet.Problem
import AttributeSheet.Text.Blank
import AttributeSheet.Text.Letters

namespace AttributeSheet

/-- Which of the two values a selector is ordered by. -/
inductive Mode where
  | legacy
  | tuple
  deriving DecidableEq, Repr, Inhabited

namespace Mode

def all : List Mode := [legacy, tuple]

def name : Mode → String
  | legacy => "legacy"
  | tuple => "tuple"

def ofName? (s : String) : Option Mode := all.find? (·.name = s)

end Mode

structure Buckets where
  ids : Nat
  classes : Nat
  types : Nat
  deriving DecidableEq, Repr, Inhabited

/-- The number of type names: a run of letters at the start of the text or right after
    a blank character, where `here` says that a run may begin. A run is read to its end
    before the next one is looked for. -/
def typeRuns (here : Bool) : List Char → Nat
  | [] => 0
  | c :: r =>
    if here && isLatinLetter c then typeRuns false (r.dropWhile isLatinLetter) + 1 else typeRuns (isBlank c) r
  termination_by cs => cs.length
  decreasing_by
    · have := (List.dropWhile_suffix (l := r) isLatinLetter).length_le
      simp only [List.length_cons]; omega
    · simp

def isIdMark (c : Char) : Bool := c = '#'

/-- A dot, an opening bracket and a colon open a class, an attribute condition and a
    pseudo-class. -/
def isClassMark (c : Char) : Bool := c = '.' || c = '[' || c = ':'

namespace Buckets

def ofChars (cs : List Char) : Buckets := ⟨cs.countP isIdMark, cs.countP isClassMark, typeRuns true cs⟩

def ofText (s : String) : Buckets := ofChars s.toList

/-- The order of tuples: the first bucket that differs decides. -/
def le (x y : Buckets) : Bool :=
  x.ids < y.ids || (x.ids == y.ids && (x.classes < y.classes || (x.classes == y.classes && x.types ≤ y.types)))

def lt (x y : Buckets) : Bool := !y.le x

end Buckets

def decimalWidth (n : Nat) : Nat := if n < 10 then 1 else decimalWidth (n / 10) + 1

/-- The number whose decimal digits are those of `m` and then those of `n`. -/
def glue (m n : Nat) : Nat := m * Nat.pow 10 (decimalWidth n) + n

def Buckets.glued (b : Buckets) : Nat := glue (glue b.ids b.classes) b.types

inductive Specificity where
  | number (n : Nat)
  | counts (b : Buckets)
  deriving DecidableEq, Repr, Inhabited

namespace Specificity

def ofText (mode : Mode) (s : String) : Specificity :=
  match mode with
  | .legacy => number (Buckets.ofText s).glued
  | .tuple => counts (Buckets.ofText s)

/-- Whether one comes before the other; a number and counts cannot be compared. -/
def lt? : Specificity → Specificity → Except Misuse Bool
  | number m, number n => .ok (m < n)
  | counts x, counts y => .ok (x.lt y)
  | number _, counts _ | counts _, number _ => .error .mixedModes

/-- Ascending order; between the two kinds, which no sort ever puts in order, numbers come
    first. -/
def le : Specificity → Specificity → Bool
  | number m, number n => m ≤ n
  | counts x, counts y => x.le y
  | number _, counts _ => true
  | counts _, number _ => false

def isNumber : Specificity → Bool
  | number _ => true
  | counts _ => false

def text : Specificity → String
  | number n => toString n
  | counts b => "(" ++ toString b.ids ++ ", " ++ toString b.classes ++ ", " ++ toString b.types ++ ")"

end Specificity

end AttributeSheet
