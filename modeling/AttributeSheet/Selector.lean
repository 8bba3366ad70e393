/-
  AttributeSheet.Selector — a selector's text with its specificity.

  The text is kept trimmed and is never blank. The specificity is counted once, when
  the text is given, because sorting asks for it again and again; `withText?` counts it
  anew, so the two never drift apart.
-/
import AttributeSheet.Attempt
import AttributeSheet.Specificity

namespace AttributeSheet

structure Selector where
  text : String
  mode : Mode
  /-- The specificity of `text` in `mode`, counted when the text was given. -/
  specificity : Specificity
  deriving DecidableEq, Repr, Inhabited

namespace Selector

/-- Gives the selector another text, which may not be blank. -/
def setText (s : String) : Attempt Selector Unit := do
  let text := Text.trim s
  if text.isEmpty then throw .blankSelector
  modify fun x => { x with text := text }
  modify fun x => { x with specificity := .ofText x.mode text }

def make? (mode : Mode) (s : String) : Except Misuse Selector := (setText s).result? ⟨"", mode, .ofText mode ""⟩

def withText? (x : Selector) (s : String) : Except Misuse Selector := (setText s).result? x

/-- Two selectors are the same when their texts and modes are; the specificity follows. -/
def same (x y : Selector) : Bool := x.text == y.text && x.mode == y.mode

def setKey (x : Selector) : String × Mode := (x.text, x.mode)

def shown (x : Selector) : String :=
  "Selector(" ++ Text.quote x.text ++ ", specificity=" ++ x.specificity.text ++ ")"

end Selector

end AttributeSheet
