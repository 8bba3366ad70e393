/-
  AttributeSheet.Proofs.RunPairs — two runs side by side.

  Two runs over one host, each with a list, a handler and a page of its own, go declaration
  by declaration. Whatever relation asking for a declaration keeps, and writing one of its
  properties to an element (`Keeps`), holds at their ends if it holds where they begin
  (`run_pairs`). One of the runs may have halted and the other go on: then the one that
  goes on has to keep the relation alone.
-/
import AttributeSheet.Cascade
import Mathlib.Data.List.Forall2

namespace AttributeSheet.Cascade

variable {δ ε : Type} {host : Host δ ε} {handler handler' : Option Handler} {r r' : Run δ ε}

/-! ## Runs that have halted -/

theorem writeOne_halted (h : r.halt.isSome = true) (element : ε) (p : String × String) :
    writeOne host handler element r p = r := by
  rw [writeOne, Run.unlessHalted, if_pos h]

theorem writeAll_halted (h : r.halt.isSome = true) (ps : List (String × String)) (element : ε) :
    writeAll host handler ps r element = r :=
  List.foldl_fixed' (writeOne_halted h element) ps

theorem ask_halted (h : r.halt.isSome = true) (d : Declaration) : ask host handler r d = (r, []) := by
  rw [ask, if_pos h]

theorem applyOne_halted (h : r.halt.isSome = true) (d : Declaration) : applyOne host handler r d = r := by
  rw [applyOne, ask_halted h]
  rfl

/-! ## Pairs of runs -/

/-- Asking for `d` and for `d'` keeps `R`, and so does each write of the properties that
    both have. Both find the same elements, unless the second run has halted by then. -/
structure Keeps (host : Host δ ε) (handler handler' : Option Handler) (R : Run δ ε → Run δ ε → Prop)
    (d d' : Declaration) : Prop where
  properties_eq : d'.properties.entries = d.properties.entries
  ask : ∀ {r r'}, R r r' →
    R (ask host handler r d).1 (ask host handler' r' d').1 ∧
      ((ask host handler' r' d').1.halt.isSome = true ∨
        (ask host handler' r' d').2 = (ask host handler r d).2)
  write : ∀ {r r'}, R r r' → ∀ (element : ε), ∀ p ∈ d.properties.entries,
    R (writeOne host handler element r p) (writeOne host handler' element r' p)

variable {R : Run δ ε → Run δ ε → Prop} {d d' : Declaration} {l l' : List Declaration}

theorem foldl_writeAll_pairs (hd : Keeps host handler handler' R d d') (elements : List ε) (h : R r r') :
    R (elements.foldl (writeAll host handler d.properties.entries) r)
      (elements.foldl (writeAll host handler' d.properties.entries) r') :=
  List.foldl_rel h fun element _ _ _ h => List.foldl_rel h fun p hp _ _ h => hd.write h element p hp

theorem applyOne_pairs (hd : Keeps host handler handler' R d d') (h : R r r') :
    R (applyOne host handler r d) (applyOne host handler' r' d') := by
  obtain ⟨hasked, hfound⟩ := hd.ask h
  have hwritten := foldl_writeAll_pairs hd (ask host handler r d).2 hasked
  simp only [applyOne, hd.properties_eq]
  rcases hfound with hhalted | hsame
  · -- The second run stays where it is, whatever it might have found.
    have hstays : ∀ elements : List ε, elements.foldl (writeAll host handler' d.properties.entries)
        (ask host handler' r' d').1 = (ask host handler' r' d').1 :=
      List.foldl_fixed' fun element => writeAll_halted hhalted _ element
    rw [hstays] at hwritten ⊢
    exact hwritten
  · rw [hsame]
    exact hwritten

/-- What asking and writing keep holds of two runs if it holds of the pages as they are
    loaded. -/
theorem run_pairs (hl : List.Forall₂ (Keeps host handler handler' R) l l') {page page' : δ}
    {reported reported' : List Problem} {text text' : String}
    (h : R (load host page reported text) (load host page' reported' text')) :
    R (run host handler l page reported text) (run host handler' l' page' reported' text') := by
  have hstep : Relator.LiftFun R (Relator.LiftFun (Keeps host handler handler' R) R) (applyOne host handler)
      (applyOne host handler') := fun _ _ hr _ _ hd => applyOne_pairs hd hr
  exact List.rel_foldl hstep h hl

end AttributeSheet.Cascade
