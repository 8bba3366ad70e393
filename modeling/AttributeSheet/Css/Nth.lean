/-
  AttributeSheet.Css.Nth — the series of numbers in a counting pseudo-class.

  A series is `even`, `odd`, a whole number, or a step with `n` behind it and an offset
  that may be missing. The sign of the offset may be part of the step's unit (`2n-1`),
  of the offset (`2n -1`) or stand between the two (`2n - 1`).
-/
import AttributeSheet.Css.Piece

namespace AttributeSheet.Css

/-- The numbers `step * n + offset` for the natural numbers `n`. -/
structure Series where
  step : Int
  offset : Int
  deriving DecidableEq, Repr

namespace Series

def natural? (ds : List Char) : Option Nat :=
  if ds.isEmpty || !ds.all isDecimalDigit then none
  else some (ds.foldl (fun n c => n * 10 + (hexDigit? c).getD 0) 0)

def unitOffset? (unit : String) : Option Int :=
  match unit.toList with
  | 'n' :: '-' :: ds => (natural? ds).map fun n => -(n : Int)
  | _ => none

def withSign? (step sign : Int) (rest : List Piece) : Option Series :=
  match rest with
  | [.number (some n) false] => some ⟨step, sign * n⟩
  | _ => none

def withOffset? (step : Int) (rest : List Piece) : Option Series :=
  match rest with
  | [] => some ⟨step, 0⟩
  | .mark "+" :: r => withSign? step 1 r
  | .mark "-" :: r => withSign? step (-1) r
  | [.number (some n) true] => some ⟨step, n⟩
  | _ => none

def withUnit? (step : Int) (unit : String) (rest : List Piece) : Option Series :=
  if unit = "n" then withOffset? step rest
  else if unit = "n-" then withSign? step (-1) rest
  else if rest.isEmpty then (unitOffset? unit).map fun b => ⟨step, b⟩
  else none

/-- Reads a series; blanks and comments may stand everywhere but behind a plus sign at
    its start. -/
def ofPieces? (pieces : List Piece) : Option Series :=
  let parts (ps : List Piece) : List Piece := ps.filter (!·.isGap)
  match Piece.skipGap pieces with
  | .number (some n) _ :: r => if (parts r).isEmpty then some ⟨0, n⟩ else none
  | .dimension (some step) unit :: r => withUnit? step (Text.lowerLatin unit) (parts r)
  | .ident name :: r =>
    let name := Text.lowerLatin name
    if name = "even" ∨ name = "odd" then
      if (parts r).isEmpty then some ⟨2, if name = "odd" then 1 else 0⟩ else none
    else match name.toList with
      | '-' :: unit => withUnit? (-1) (String.ofList unit) (parts r)
      | _ => withUnit? 1 name (parts r)
  | .mark "+" :: .ident name :: r => withUnit? 1 (Text.lowerLatin name) (parts r)
  | _ => none

end Series

end AttributeSheet.Css
