/-
  AttributeSheet.Css.SelectorList — from the text of a selector to its conditions.

  Functions and bracketed parts are put together from the inside out: when one closes,
  the condition it comes to is read from its pieces, and it becomes one piece of what
  is around it. The end of the text closes all that is open. A text is a selector list
  if its members are valid and all their pseudo-classes are known.
-/
import AttributeSheet.Css.Attribute
import AttributeSheet.Css.Function
import AttributeSheet.Css.Lexeme

namespace AttributeSheet.Css

/-- A part that is open: what opened it, and the pieces before it, the latest first. -/
structure OpenPart where
  opening : Opening
  outside : List Piece
  deriving Repr

structure Grouping where
  /-- The pieces of the innermost part so far, the latest first. -/
  inside : List Piece
  parts : List OpenPart
  deriving Repr

namespace Grouping

def whole (o : Opening) (pieces : List Piece) : Piece :=
  match o with
  | .function name => .function (Condition.ofFunction? name pieces)
  | .square => .brackets (Condition.ofBrackets? pieces)
  | .round | .curly => .stray

def close (g : Grouping) : Grouping :=
  match g.parts with
  | [] => g
  | p :: rest => ⟨whole p.opening g.inside.reverse :: p.outside, rest⟩

/-- A closing character that closes nothing is a stray piece. -/
def step (g : Grouping) : Lexeme → Grouping
  | .piece p => { g with inside := p :: g.inside }
  | .opens o => ⟨[], ⟨o, g.inside⟩ :: g.parts⟩
  | .closes c =>
    if g.parts.head?.any (·.opening.closer = c) then g.close else { g with inside := .stray :: g.inside }

def closeMany : Nat → Grouping → Grouping
  | 0, g => g
  | n + 1, g => closeMany n g.close

def ofLexemes (lexemes : List Lexeme) : List Piece :=
  let g := lexemes.foldl step ⟨[], []⟩
  (closeMany g.parts.length g).inside.reverse

end Grouping

def members? (selector : String) : Option (List Member) := do
  let ms ← Member.readAll false false (Grouping.ofLexemes (Lexeme.ofText selector))
  if ms.all (·.condition.isKnown) then some ms else none

end AttributeSheet.Css
