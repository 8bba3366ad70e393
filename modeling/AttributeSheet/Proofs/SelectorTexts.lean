/-
  AttributeSheet.Proofs.SelectorTexts — what a selector keeps of the text that it is given.

  A text is refused exactly if it is blank (`make?_eq_error_iff`); any other is kept
  trimmed, with the specificity that the trimmed text has in the selector's mode
  (`make?_eq_ok_iff`). So a selector that was made never has a blank text or a stale
  specificity (`Coherent`, `coherent_of_make`), and two of them are the same exactly if
  their texts and modes are; then nothing tells them apart (`same_iff_eq`).
-/
import AttributeSheet.Declaration
import AttributeSheet.Proofs.Pieces

namespace AttributeSheet

theorem Text.trimChars_eq_nil {cs : List Char} : trimChars cs = [] ↔ ∀ c ∈ cs, isBlank c = true := by
  constructor
  · intro h
    obtain ⟨a, b, ha, hb, hcs⟩ := exists_blank_ends cs
    rw [h, List.append_nil] at hcs
    intro c hc
    rw [← hcs] at hc
    rcases List.mem_append.mp hc with hc | hc
    · exact ha c hc
    · exact hb c hc
  · intro h
    have := trimChars_surrounded h (b := []) nofun []
    simpa [trimChars, dropBlankEnd, skipBlanks] using this

theorem Text.trim_eq_empty {s : String} : trim s = "" ↔ allBlank s = true := by
  rw [← String.toList_eq_nil_iff, trim_toList, trimChars_eq_nil, allBlank, List.all_eq_true]

namespace Selector

variable {mode : Mode} {s : String} {x y : Selector}

theorem run_setText_blank (h : Text.allBlank s = true) (x : Selector) :
    (setText s).run.run x = (.error .blankSelector, x) := by
  simp only [setText, String.isEmpty_iff, Text.trim_eq_empty.mpr h, if_true]
  rfl

theorem run_setText (h : Text.allBlank s = false) (x : Selector) :
    (setText s).run.run x = (.ok (), ⟨Text.trim s, x.mode, .ofText x.mode (Text.trim s)⟩) := by
  have hne : Text.trim s ≠ "" := by
    intro he
    rw [Text.trim_eq_empty.mp he] at h
    cases h
  simp only [setText, String.isEmpty_iff, hne, if_false]
  rfl

theorem make?_of_blank (mode : Mode) (h : Text.allBlank s = true) : make? mode s = .error .blankSelector :=
  Attempt.result?_of_error (run_setText_blank h _)

theorem make?_of_text (mode : Mode) (h : Text.allBlank s = false) :
    make? mode s = .ok ⟨Text.trim s, mode, .ofText mode (Text.trim s)⟩ :=
  Attempt.result?_of_ok (run_setText h _)

theorem withText?_of_text (h : Text.allBlank s = false) (x : Selector) :
    x.withText? s = .ok ⟨Text.trim s, x.mode, .ofText x.mode (Text.trim s)⟩ :=
  Attempt.result?_of_ok (run_setText h x)

/-- What a selector held before makes no difference to the text that it is given. -/
theorem withText?_eq_make? (x : Selector) (s : String) : x.withText? s = make? x.mode s := by
  cases h : Text.allBlank s with
  | true => exact (Attempt.result?_of_error (run_setText_blank h x)).trans (make?_of_blank x.mode h).symm
  | false => exact (withText?_of_text h x).trans (make?_of_text x.mode h).symm

/-- A text is refused because it is blank, and for no other reason. -/
theorem make?_eq_error_iff {m : Misuse} :
    make? mode s = .error m ↔ Text.allBlank s = true ∧ m = .blankSelector := by
  cases h : Text.allBlank s with
  | true =>
    rw [make?_of_blank mode h]
    simp [eq_comm]
  | false =>
    rw [make?_of_text mode h]
    simp

theorem make?_eq_ok_iff :
    make? mode s = .ok x ↔ Text.allBlank s = false ∧ x = ⟨Text.trim s, mode, .ofText mode (Text.trim s)⟩ := by
  cases h : Text.allBlank s with
  | true =>
    rw [make?_of_blank mode h]
    simp
  | false =>
    rw [make?_of_text mode h]
    simp [eq_comm]

/-- The text is trimmed and not empty, and the specificity is the one that it has now. -/
structure Coherent (x : Selector) : Prop where
  nonempty : x.text ≠ ""
  trimmed : Text.trim x.text = x.text
  counted : x.specificity = .ofText x.mode x.text

theorem coherent_of_make (h : make? mode s = .ok x) : x.Coherent := by
  obtain ⟨hs, rfl⟩ := make?_eq_ok_iff.mp h
  refine ⟨?_, Text.trim_trim s, rfl⟩
  intro he
  rw [Text.trim_eq_empty.mp he] at hs
  cases hs

theorem same_iff : x.same y = true ↔ x.text = y.text ∧ x.mode = y.mode := by
  simp [same]

theorem same_iff_setKey : x.same y = true ↔ x.setKey = y.setKey := by
  simp [same, setKey]

theorem same_iff_eq (hx : x.Coherent) (hy : y.Coherent) : x.same y = true ↔ x = y := by
  rw [same_iff]
  constructor
  · rintro ⟨ht, hm⟩
    obtain ⟨text, mode, specificity⟩ := x
    obtain ⟨text', mode', specificity'⟩ := y
    obtain rfl : text = text' := ht
    obtain rfl : mode = mode' := hm
    have hcounted : specificity = specificity' := hx.counted.trans hy.counted.symm
    rw [hcounted]
  · rintro rfl
    exact ⟨rfl, rfl⟩

end Selector

namespace Declaration

variable {s : String} {d : Declaration} {x : Selector}

theorem run_setSelectorText (d : Declaration) (s : String) :
    (setSelectorText s).run.run d =
      (((Selector.setText s).run.run d.selector).1, { d with selector := ((Selector.setText s).run.run d.selector).2 }) := by
  rw [setSelectorText, Attempt.run_bind_ok (Attempt.run_get d)]
  obtain ⟨answer, x⟩ := (Selector.setText s).run.run d.selector
  rfl

theorem run_setSelectorText_blank (h : Text.allBlank s = true) (d : Declaration) :
    (setSelectorText s).run.run d = (.error .blankSelector, d) := by
  rw [run_setSelectorText, Selector.run_setText_blank h]

theorem run_setSelectorText_ok (h : d.selector.withText? s = .ok x) :
    (setSelectorText s).run.run d = (.ok (), { d with selector := x }) := by
  rw [run_setSelectorText, Attempt.result?_eq_ok_iff.mp h]

theorem allOrNothing_setSelectorText (s : String) : (setSelectorText s).AllOrNothing := by
  refine Attempt.allOrNothing_of_cases fun d => ?_
  cases h : Text.allBlank s with
  | true => exact Or.inr ⟨_, run_setSelectorText_blank h d⟩
  | false => exact Or.inl ⟨_, _, run_setSelectorText_ok (Selector.withText?_of_text h d.selector)⟩

theorem allOrNothing_add (name : String) (value : Option String) : (add name value).AllOrNothing :=
  Attempt.allOrNothing_of_cases fun _ =>
    match value with
    | some _ => Or.inl ⟨_, _, rfl⟩
    | none => Or.inr ⟨_, rfl⟩

end Declaration

end AttributeSheet
