/-
  AttributeSheet.Proofs.RunMoves — a run as a chain of moves.

  As long as it has not halted, a run makes one of seven moves: it notes a query or the
  number of matches, writes an attribute, reports a selector or an attribute that the
  host rejects, or halts where the host breaks down (`Move`). Every run is a chain of
  moves from the page as it is loaded (`run_moves`). So whatever each move keeps holds
  at the end of a run (`run_keeps`), wherever that is.
-/
import AttributeSheet.Cascade
import Mathlib.Logic.Relation

namespace AttributeSheet

variable {δ ε : Type} {host : Host δ ε} {handler : Option Handler}

theorem Run.isSome_halt_report (handler : Option Handler) (r : Run δ ε) (p : Problem) :
    (r.report handler p).halt.isSome = handler.any (·.raises (r.reported ++ [p])) := by
  cases handler with
  | none => rfl
  | some h => cases hraises : h.raises (r.reported ++ [p]) <;> simp [Run.report, hraises]

namespace Cascade

/-- One move of a run. A run that has halted makes none. -/
inductive Move (host : Host δ ε) (handler : Option Handler) (r : Run δ ε) : Run δ ε → Prop
  | queried (selector : String) : r.halt = none → Move host handler r (r.note (.queried selector))
  | matched (selector : String) (count : Nat) :
      r.halt = none → Move host handler r (r.note (.matched selector count))
  | wrote {page : δ} {element : ε} {name value : String} :
      r.halt = none → host.write r.page element name value = .ok page →
      Move host handler r ({ r with page := page }.note (.wrote element name value))
  | badSelector {selector named : String} {cause : Option Cause} :
      r.halt = none → host.query r.page selector = .error (.rejected named cause) →
      Move host handler r (r.report handler (.badSelector named cause))
  | badAttribute {element : ε} {name value named : String} {cause : Option Cause} :
      r.halt = none → host.write r.page element name value = .error (.rejected named cause) →
      Move host handler r (r.report handler (.badAttribute named cause))
  | queryBroke {selector message : String} :
      r.halt = none → host.query r.page selector = .error (.broken message) →
      Move host handler r { r with halt := some (.hostBroke message) }
  | writeBroke {element : ε} {name value message : String} :
      r.halt = none → host.write r.page element name value = .error (.broken message) →
      Move host handler r { r with halt := some (.hostBroke message) }

def Moves (host : Host δ ε) (handler : Option Handler) : Run δ ε → Run δ ε → Prop :=
  Relation.ReflTransGen (Move host handler)

theorem moves_unlessHalted {r : Run δ ε} {f : Run δ ε → Run δ ε} (h : r.halt = none → Moves host handler r (f r)) :
    Moves host handler r (r.unlessHalted f) := by
  unfold Run.unlessHalted
  cases hr : r.halt with
  | none => exact h hr
  | some halt => exact .refl

theorem moves_foldl {α : Type} {f : Run δ ε → α → Run δ ε} (h : ∀ r x, Moves host handler r (f r x)) (l : List α)
    (r : Run δ ε) : Moves host handler r (l.foldl f r) := by
  induction l generalizing r with
  | nil => exact .refl
  | cons x l ih => exact (h r x).trans (ih (f r x))

theorem writeOne_moves (element : ε) (r : Run δ ε) (p : String × String) :
    Moves host handler r (writeOne host handler element r p) := by
  refine moves_unlessHalted fun hr => .single ?_
  cases hw : host.write r.page element p.1 p.2 with
  | ok page => exact .wrote hr hw
  | error refusal => cases refusal with
    | rejected named cause => exact .badAttribute hr hw
    | broken message => exact .writeBroke hr hw

theorem writeAll_moves (properties : List (String × String)) (r : Run δ ε) (element : ε) :
    Moves host handler r (writeAll host handler properties r element) :=
  moves_foldl (writeOne_moves element) properties r

theorem ask_moves (r : Run δ ε) (d : Declaration) : Moves host handler r (ask host handler r d).1 := by
  unfold ask
  cases hr : r.halt with
  | some halt => exact .refl
  | none =>
    refine .head (.queried d.selector.text hr) ?_
    have hnoted : (r.note (.queried d.selector.text)).halt = none := hr
    cases hq : host.query (r.note (.queried d.selector.text)).page d.selector.text with
    | ok elements =>
      simp only [hq]
      exact .single (.matched d.selector.text elements.length hnoted)
    | error refusal => cases refusal with
      | rejected named cause =>
        simp only [hq]
        exact .single (.badSelector hnoted hq)
      | broken message =>
        simp only [hq]
        exact .single (.queryBroke hnoted hq)

theorem applyOne_moves (r : Run δ ε) (d : Declaration) : Moves host handler r (applyOne host handler r d) :=
  (ask_moves r d).trans (moves_foldl (writeAll_moves d.properties.entries) _ _)

theorem load_cases (host : Host δ ε) (page : δ) (reported : List Problem) (text : String) :
    load host page reported text = (Run.start (host.load page text) reported).note (.loaded text) ∨
      load host page reported text = ((Run.start (host.load page text) reported).note (.loaded text)).note .vacant := by
  cases hv : host.isVacant (host.load page text) with
  | true => right; simp [load, Run.note, Run.start, hv]
  | false => left; simp [load, Run.note, Run.start, hv]

theorem run_moves (declarations : List Declaration) (page : δ) (reported : List Problem) (text : String) :
    Moves host handler (load host page reported text) (run host handler declarations page reported text) :=
  moves_foldl applyOne_moves declarations _

theorem Moves.keeps {P : Run δ ε → Prop} (hmove : ∀ r r', Move host handler r r' → P r → P r') {r r' : Run δ ε}
    (h : Moves host handler r r') (hr : P r) : P r' := by
  induction h with
  | refl => exact hr
  | tail _ hstep ih => exact hmove _ _ hstep ih

/-- What holds of the page as it is loaded and is kept by every move holds after the run. -/
theorem run_keeps {P : Run δ ε → Prop} (hmove : ∀ r r', Move host handler r r' → P r → P r')
    {declarations : List Declaration} {page : δ} {reported : List Problem} {text : String}
    (hload : P (load host page reported text)) : P (run host handler declarations page reported text) :=
  (run_moves declarations page reported text).keeps hmove hload

end Cascade

end AttributeSheet
