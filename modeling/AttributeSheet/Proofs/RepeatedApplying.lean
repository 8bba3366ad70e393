/-
  AttributeSheet.Proofs.RepeatedApplying — a list applied once more to what it has left.

  What a run does over a flat page is decided by what selectors look at. So two runs of a
  list that writes no id and no class, over pages that agree in that, go level: they ask
  for the same, write the same and report the same (`Run.Level`, kept by asking and
  writing and so by `run_level`).

  The second time, a value that counted is overwritten before it is written again. What
  an element is due is the same as before (`foldl_after_due`), and writing it all once
  more ends where it began (`foldl_after_again`). So a second run leaves every element
  as it is, with its attributes in their order, and is logged as the first was
  (`apply_again`).
-/
import AttributeSheet.Proofs.CascadeLaw
import AttributeSheet.Proofs.RunPairs

namespace AttributeSheet

open Host Host.Flat

namespace Host.Flat

/-! ## One element -/

/-- What the declarations write to an element: the properties of each one that finds it,
    without the names that the host refuses. -/
def Element.due (e : Element) (ds : List Declaration) : List (String × String) :=
  (ds.filter fun d => e.foundBy d.selector.text).flatMap fun d => d.properties.entries.filter fun p => !refusesName p.1

/-- An element is written what any other is due that selectors find alike. -/
theorem foldl_after_due {e e' : Element} (h : e.Alike e') {ds : List Declaration} (hkeep : ∀ d ∈ ds, Spares d) :
    ds.foldl Element.after e' = { e' with attributes := e'.attributes.insertAll (e.due ds) } := by
  -- What finds the element is told of `e` all along; only the one that is written moves on.
  induction ds generalizing e' with
  | nil => rfl
  | cons d ds ih =>
    have hafter := alike_after h (hkeep d List.mem_cons_self)
    rw [List.foldl_cons, ih hafter fun x hx => hkeep x (List.mem_cons_of_mem d hx), Element.after, foundBy_alike h,
      Element.due, Element.due, List.filter_cons]
    cases e.foundBy d.selector.text with
    | true => simp [foldl_written_eq, OrderedMap.insertAll_append]
    | false => rfl

theorem foldl_after_again (e : Element) {ds : List Declaration} (hkeep : ∀ d ∈ ds, Spares d) :
    ds.foldl Element.after (ds.foldl Element.after e) = ds.foldl Element.after e := by
  have hself : e.Alike e := ⟨rfl, rfl, rfl⟩
  have halike : e.Alike (ds.foldl Element.after e) := alike_foldl_after e hkeep
  rw [foldl_after_due halike hkeep, foldl_after_due hself hkeep, OrderedMap.insertAll_again]

/-! ## Pages that selectors find alike -/

theorem query_alike {page page' : List Element} (h : List.Forall₂ Element.Alike page page') (selector : String) :
    query page' selector = query page selector := by
  unfold query
  cases hr : reading selector with
  | error refusal => rfl
  | ok hit =>
    have hplaces : (List.range page'.length).filter (fun i => (page'[i]?).any hit) =
        (List.range page.length).filter fun i => (page[i]?).any hit := by
      rw [← h.length_eq]
      refine List.filter_congr ?_
      intro i hi
      have hlt : i < page.length := List.mem_range.mp hi
      have hlt' : i < page'.length := h.length_eq ▸ hlt
      rw [List.getElem?_eq_getElem hlt, List.getElem?_eq_getElem hlt', Option.any_some, Option.any_some]
      exact reading_alike (h.get hlt hlt') hr
    exact congrArg Except.ok hplaces

theorem alike_modify {page page' : List Element} (h : List.Forall₂ Element.Alike page page') (i : Nat)
    {f : Element → Element} (hf : ∀ e e', e.Alike e' → (f e).Alike (f e')) :
    List.Forall₂ Element.Alike (page.modify i f) (page'.modify i f) := by
  induction h generalizing i with
  | nil => simp
  | @cons e e' page page' he hrest ih =>
    cases i with
    | zero => exact List.Forall₂.cons (hf e e' he) hrest
    | succ i => exact List.Forall₂.cons he (ih i)

theorem alike_insert {e e' : Element} (h : e.Alike e') {name : String} (hid : name ≠ "id") (hclass : name ≠ "class")
    (value : String) :
    Element.Alike { e with attributes := e.attributes.insert name value }
      { e' with attributes := e'.attributes.insert name value } where
  tag_eq := h.tag_eq
  id_eq := by
    rw [OrderedMap.get?_insert, OrderedMap.get?_insert, if_neg (Ne.symm hid), if_neg (Ne.symm hid), h.id_eq]
  class_eq := by
    rw [OrderedMap.get?_insert, OrderedMap.get?_insert, if_neg (Ne.symm hclass), if_neg (Ne.symm hclass), h.class_eq]

end Host.Flat

/-! ## Two runs -/

/-- The runs have done the same so far, over pages that are alike; what had been reported
    before them makes no difference to a handler that does not raise. -/
structure Run.Level (r r' : Run (List Element) Nat) : Prop where
  alike : List.Forall₂ Element.Alike r.page r'.page
  events_eq : r'.events = r.events
  halt_eq : r'.halt = r.halt

namespace Run.Level

variable {r r' : Run (List Element) Nat}

theorem note (h : r.Level r') (e : Event Nat) : (r.note e).Level (r'.note e) :=
  ⟨h.alike, congrArg (· ++ [e]) h.events_eq, h.halt_eq⟩

theorem report {handler : Option Handler} (hq : Quiet handler) (h : r.Level r') (p : Problem) :
    (r.report handler p).Level (r'.report handler p) where
  alike := h.alike
  events_eq := congrArg (· ++ reporting handler p) h.events_eq
  halt_eq := (r'.halt_report hq p).trans (r.halt_report hq p).symm

end Run.Level

namespace Cascade

variable {r r' : Run (List Element) Nat} {handler : Option Handler}

theorem ask_level (hq : Quiet handler) (h : r.Level r') (d : Declaration) :
    (ask flat handler r d).1.Level (ask flat handler r' d).1 ∧
      (ask flat handler r' d).2 = (ask flat handler r d).2 := by
  unfold ask
  rw [h.halt_eq]
  cases r.halt with
  | some halt => exact ⟨h, rfl⟩
  | none =>
    have hqueried := h.note (.queried d.selector.text)
    have hquery : flat.query (r'.note (.queried d.selector.text)).page d.selector.text =
        flat.query (r.note (.queried d.selector.text)).page d.selector.text := query_alike h.alike d.selector.text
    simp only [Option.isSome_none, Bool.false_eq_true, if_false, hquery]
    cases flat.query (r.note (.queried d.selector.text)).page d.selector.text with
    | ok elements => exact ⟨hqueried.note _, rfl⟩
    | error refusal => cases refusal with
      | rejected named cause => exact ⟨hqueried.report hq _, rfl⟩
      | broken message => exact ⟨⟨hqueried.alike, hqueried.events_eq, rfl⟩, rfl⟩

theorem writeOne_level (hq : Quiet handler) (h : r.Level r') (i : Nat) {p : String × String} (hid : p.1 ≠ "id")
    (hclass : p.1 ≠ "class") : (writeOne flat handler i r p).Level (writeOne flat handler i r' p) := by
  unfold writeOne Run.unlessHalted
  rw [h.halt_eq]
  cases r.halt with
  | some halt => exact h
  | none =>
    simp only [Option.isSome_none, Bool.false_eq_true, if_false, flat, Flat.write]
    cases refusesName p.1 with
    | true => exact h.report hq (.badAttribute p.1 none)
    | false =>
      have hpages := alike_modify h.alike i fun e e' he => alike_insert he hid hclass p.2
      have hwritten : Run.Level { r with page := _ } { r' with page := _ } := ⟨hpages, h.events_eq, h.halt_eq⟩
      exact hwritten.note _

theorem level_kept (hq : Quiet handler) {d : Declaration} (hd : Spares d) :
    Keeps flat handler handler Run.Level d d where
  properties_eq := rfl
  ask h := ⟨(ask_level hq h d).1, Or.inr (ask_level hq h d).2⟩
  write h i p hp := by
    have hname : p.1 ∈ d.properties.keys := List.mem_map_of_mem hp
    refine writeOne_level hq h i ?_ ?_
    · intro e
      exact hd.id_kept (e ▸ hname)
    · intro e
      exact hd.class_kept (e ▸ hname)

theorem run_level (hq : Quiet handler) {l : List Declaration} (hkeep : ∀ d ∈ l, Spares d) {page page' : List Element}
    (h : List.Forall₂ Element.Alike page page') (reported reported' : List Problem) (text : String) :
    (run flat handler l page reported text).Level (run flat handler l page' reported' text) :=
  run_pairs (List.forall₂_same.mpr fun d hd => level_kept hq (hkeep d hd)) ⟨h, rfl, rfl⟩

end Cascade

namespace Session

/-- While the handler does not raise, applying a list that writes no id and no class and
    does not break the host, and then applying it once more to what that has left: both
    answer with the same text, the second leaves every element with its attributes as
    they are, and all that happens in it happened in the first, in the same order; so
    the same is reported. -/
theorem apply_again (s : Session (List Element)) (hq : Quiet s.handler) {l : List Declaration}
    (hl : ∀ d ∈ l, d.asBlock.Safe) (html : String) :
    let first := s.apply flat l html
    let second := first.session.apply flat l html
    (∃ text, first.result = .ok text ∧ second.result = .ok text) ∧
    second.session.page = first.session.page ∧
    second.events = first.events ∧ problems second.events = problems first.events := by
  intro first second
  have hkeep : ∀ d ∈ l, Spares d := fun d hd => ⟨(hl d hd).id_kept, (hl d hd).class_kept⟩
  have hunbroken : ∀ d ∈ l, ¬ Breaks d.selector.text := fun d hd => (hl d hd).unbroken
  obtain ⟨hheld, hanswered⟩ : first.Shows html _ := apply_shows hq hunbroken html
  obtain ⟨hheld', hanswered'⟩ : second.Shows html _ := apply_shows (s := first.session) hq hunbroken html
  have hagain : first.session.page.map (fun e => l.foldl Element.after e) = first.session.page := by
    rw [hheld, List.map_map]
    exact List.map_congr_left fun e _ => foldl_after_again e hkeep
  have halike : List.Forall₂ Element.Alike s.page first.session.page := by
    rw [hheld, List.forall₂_map_right_iff, List.forall₂_same]
    exact fun e _ => alike_foldl_after e hkeep
  have hevents : second.events = first.events := (Cascade.run_level hq hkeep halike _ _ html).events_eq
  rw [hagain] at hheld' hanswered'
  rw [← hheld] at hanswered
  exact ⟨⟨_, hanswered, hanswered'⟩, hheld', hevents, by rw [hevents]⟩

/-- A value that an id overwrites, a name that the host refuses on either element and a
    selector that it rejects. -/
theorem apply_again_overwritten :
    let s : Session (List Element) :=
      ⟨.legacy, some (.recording "log"), [⟨"a", ⟨[("id", "i"), ("x", "0")]⟩⟩, ⟨"b", .empty⟩], [], []⟩
    let l : List Declaration :=
      [⟨⟨"*", .legacy, .number 0⟩, ⟨[("y z", "1"), ("k", "1"), ("x", "1")]⟩⟩,
        ⟨⟨"!a", .legacy, .number 0⟩, ⟨[("x", "3")]⟩⟩, ⟨⟨"#i", .legacy, .number 100⟩, ⟨[("x", "2")]⟩⟩]
    let first := s.apply flat l ""
    let second := first.session.apply flat l ""
    Quiet s.handler ∧ (∀ d ∈ l, d.asBlock.Safe) ∧
    first.session.page =
      [⟨"a", ⟨[("id", "i"), ("x", "2"), ("k", "1")]⟩⟩, ⟨"b", ⟨[("k", "1"), ("x", "1")]⟩⟩] ∧
    second.session.page = first.session.page ∧
    problems second.events = [.badAttribute "y z" none, .badAttribute "y z" none, .badSelector "!a" none] := by
  intro s l first second
  have hq : Quiet s.handler := quiet_recording "log"
  have hl : ∀ d ∈ l, d.asBlock.Safe := by decide
  obtain ⟨-, hpage, -, hproblems⟩ := apply_again s hq hl ""
  exact ⟨hq, hl, by decide, hpage, hproblems.trans (by decide)⟩

end Session

end AttributeSheet
