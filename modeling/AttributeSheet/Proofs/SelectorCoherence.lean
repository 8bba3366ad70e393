/-
  AttributeSheet.Proofs.SelectorCoherence — every selector as it was last written, all along a run.

  A run makes selectors, each in a declaration under a label of its own, and changes the
  list and the declarations in it (`Step`, `Reached`). A step names only labels that are
  in use, and a new selector gets one that is not; a label may stand in the list any
  number of times. A selector that several declarations hold is made, and given each of
  its texts, under the label of every one of them.

  What is said of a selector is read off the steps: the mode it was made in (`madeIn?`)
  and the last text it was given, blank ones apart (`lastGiven?`). At every moment of
  every run the selector under a label is what these two make, and the list names
  nothing else (`Kept`, kept by each step and so by `Reached.kept`). So its text is
  trimmed and not empty, its specificity is that of the text as it is then, and the
  list is sorted by those texts (`selectors_coherent`).
-/
import AttributeSheet.Proofs.ShelfChanges
import AttributeSheet.Proofs.SortedBlocks

namespace AttributeSheet.Shelf

/-! ## Runs -/

def Change.labels : Change → List String
  | .renew batch | .addMany batch => batch.filterMap Item.label?
  | .add item => item.label?.toList
  | .addSelf | .addEach | .sort _ => []
  | .selectorText label _ | .property label _ _ => [label]

/-- A selector is made in a mode and put in a declaration under a label, or a change is
    asked for. -/
inductive Step where
  | make (label : String) (mode : Mode) (text : String)
  | change (c : Change)

def made (s : Shelf) (label : String) (mode : Mode) (text : String) : Shelf :=
  match Selector.make? mode text with
  | .ok x => s.put label (.ofSelector x)
  | .error _ => s

/-- The steps, begun with nothing, lead to the shelf. -/
inductive Reached : List Step → Shelf → Prop
  | start : Reached [] ⟨.empty, []⟩
  | make {h : List Step} {s : Shelf} (label : String) (mode : Mode) (text : String) : Reached h s →
      label ∉ s.declarations.keys → Reached (h ++ [.make label mode text]) (s.made label mode text)
  | change {h : List Step} {s : Shelf} (c : Change) : Reached h s →
      (∀ label ∈ c.labels, label ∈ s.declarations.keys) → Reached (h ++ [.change c]) (s.changed c)

/-! ## What the steps tell -/

def Step.mode? (label : String) : Step → Option Mode
  | .make l mode text => if l = label ∧ Text.allBlank text = false then some mode else none
  | .change _ => none

/-- The text that a step gives the selector under the label; a blank one is not taken. -/
def Step.text? (label : String) : Step → Option String
  | .make l _ text | .change (.selectorText l text) =>
    if l = label ∧ Text.allBlank text = false then some text else none
  | .change _ => none

def madeIn? (h : List Step) (label : String) : Option Mode := h.findSome? (Step.mode? label)

def lastGiven? (h : List Step) (label : String) : Option String := h.reverse.findSome? (Step.text? label)

theorem madeIn?_snoc (h : List Step) (step : Step) (label : String) :
    madeIn? (h ++ [step]) label = (madeIn? h label).or (step.mode? label) := by
  simp [madeIn?, List.findSome?_append]

theorem lastGiven?_snoc (h : List Step) (step : Step) (label : String) :
    lastGiven? (h ++ [step]) label = (step.text? label).or (lastGiven? h label) := by
  rw [lastGiven?, List.reverse_append, List.findSome?_append]
  simp [lastGiven?]

/-- The selector is what its mode and the last text that it was given make. -/
def Written (h : List Step) (label : String) (x : Selector) : Prop :=
  ∃ mode text, madeIn? h label = some mode ∧ lastGiven? h label = some text ∧ Selector.make? mode text = .ok x

namespace Written

variable {h : List Step} {label : String} {x y : Selector} {step : Step}

theorem coherent (hx : Written h label x) : x.Coherent := by
  obtain ⟨mode, text, -, -, hmade⟩ := hx
  exact Selector.coherent_of_make hmade

theorem told (hx : Written h label x) :
    madeIn? h label = some x.mode ∧ (lastGiven? h label).map Text.trim = some x.text := by
  obtain ⟨mode, text, hmode, htext, hmade⟩ := hx
  obtain ⟨-, rfl⟩ := Selector.make?_eq_ok_iff.mp hmade
  refine ⟨hmode, ?_⟩
  rw [htext]
  rfl

theorem same_iff {k : String} (hx : Written h label x) (hy : Written h k y) :
    x.same y = true ↔ madeIn? h label = madeIn? h k ∧
      (lastGiven? h label).map Text.trim = (lastGiven? h k).map Text.trim := by
  obtain ⟨hmode, htext⟩ := hx.told
  obtain ⟨hmode', htext'⟩ := hy.told
  rw [Selector.same_iff, hmode, hmode', htext, htext', Option.some_inj, Option.some_inj]
  exact and_comm

theorem kept (hx : Written h label x) (hstep : step.text? label = none) : Written (h ++ [step]) label x := by
  obtain ⟨mode, text, hmode, htext, hmade⟩ := hx
  refine ⟨mode, text, ?_, ?_, hmade⟩
  · rw [madeIn?_snoc, hmode, Option.some_or]
  · rw [lastGiven?_snoc, hstep, Option.none_or, htext]

theorem given {text : String} (hx : Written h label x) (hstep : step.text? label = some text)
    (hy : x.withText? text = .ok y) : Written (h ++ [step]) label y := by
  obtain ⟨mode, before, hmode, -, hmade⟩ := hx
  obtain ⟨-, rfl⟩ := Selector.make?_eq_ok_iff.mp hmade
  rw [Selector.withText?_eq_make?] at hy
  refine ⟨mode, text, ?_, ?_, hy⟩
  · rw [madeIn?_snoc, hmode, Option.some_or]
  · rw [lastGiven?_snoc, hstep, Option.some_or]

end Written

/-! ## What a step keeps -/

variable {h : List Step} {s t : Shelf} {c : Change} {label k : String}

theorem keys_put (hl : label ∈ s.declarations.keys) (d : Declaration) :
    (s.put label d).declarations.keys = s.declarations.keys := by
  rw [put, OrderedMap.keys_insert, if_pos hl]

theorem find_put (s : Shelf) (label k : String) (d : Declaration) :
    (s.put label d).find k = if k = label then d else s.find k := by
  rw [find, put, OrderedMap.get?_insert]
  split <;> rfl

/-- Every selector is as it was last written, an unused label stands for none, and the
    list names declarations that there are. -/
structure Kept (h : List Step) (s : Shelf) : Prop where
  written : ∀ label ∈ s.declarations.keys, Written h label (s.find label).selector
  unused : ∀ label, label ∉ s.declarations.keys → madeIn? h label = none
  listed : ∀ label ∈ s.order, label ∈ s.declarations.keys

namespace Kept

theorem start : Kept [] ⟨.empty, []⟩ := by
  constructor
  · intro _ h; cases h
  · intro _ _; rfl
  · intro _ h; cases h

/-- A step that makes no selector and gives none a text keeps this, whatever it does to
    the list. -/
theorem of_silent (hs : Kept h s) {step : Step} (hmode : ∀ label, step.mode? label = none)
    (htext : ∀ label, step.text? label = none) {order : List String}
    (horder : ∀ label ∈ order, label ∈ s.declarations.keys) : Kept (h ++ [step]) { s with order := order } where
  written label hlabel := (hs.written label hlabel).kept (htext label)
  unused label hlabel := by rw [madeIn?_snoc, hs.unused label hlabel, hmode, Option.none_or]
  listed := horder

theorem made (hs : Kept h s) (hnew : label ∉ s.declarations.keys) (mode : Mode) (text : String) :
    Kept (h ++ [.make label mode text]) (s.made label mode text) := by
  cases hblank : Text.allBlank text with
  | true =>
    rw [Shelf.made, Selector.make?_of_blank mode hblank]
    exact hs.of_silent (fun k => by simp [Step.mode?, hblank]) (fun k => by simp [Step.text?, hblank]) hs.listed
  | false =>
    have hmade := Selector.make?_of_text mode hblank
    have hothers : ∀ k, k ≠ label →
        (Step.make label mode text).mode? k = none ∧ (Step.make label mode text).text? k = none := by
      intro k hk
      simp [Step.mode?, Step.text?, Ne.symm hk]
    have hkeys : ∀ d, (s.put label d).declarations.keys = s.declarations.keys ++ [label] := by
      intro d
      rw [put, OrderedMap.keys_insert, if_neg hnew]
    rw [Shelf.made, hmade]
    constructor
    · intro k hk
      rw [find_put]
      by_cases e : k = label
      · subst e
        rw [if_pos rfl]
        refine ⟨mode, text, ?_, ?_, hmade⟩
        · simp [madeIn?_snoc, hs.unused k hnew, Step.mode?, hblank]
        · simp [lastGiven?_snoc, Step.text?, hblank]
      · rw [if_neg e]
        rw [hkeys, List.mem_append] at hk
        exact (hs.written k (hk.resolve_right (by simpa using e))).kept (hothers k e).2
    · intro k hk
      rw [hkeys, List.mem_append, not_or] at hk
      rw [madeIn?_snoc, hs.unused k hk.1, (hothers k (by simpa using hk.2)).1, Option.none_or]
    · intro k hk
      rw [hkeys]
      exact List.mem_append_left _ (hs.listed k hk)

theorem text?_of_refused (hlabels : ∀ label ∈ c.labels, label ∈ s.declarations.keys) {m : Misuse}
    (hc : s.change? c = .error m) (k : String) : (Step.change c).text? k = none := by
  cases c with
  | selectorText label text =>
    rcases selectorText_cases (hlabels label (List.mem_singleton_self label)) text with ⟨hblank, -⟩ | ⟨-, x, -, hdone⟩
    · simp [Step.text?, hblank]
    · cases hdone.symm.trans hc
  | _ => rfl

theorem put (hs : Kept h s) {step : Step} (hmode : ∀ k, step.mode? k = none) (hl : label ∈ s.declarations.keys)
    {d : Declaration} (hd : Written (h ++ [step]) label d.selector) (hothers : ∀ k, k ≠ label → step.text? k = none) :
    Kept (h ++ [step]) (s.put label d) := by
  constructor
  · intro k hk
    rw [keys_put hl] at hk
    rw [find_put]
    by_cases e : k = label
    · rw [if_pos e, e]; exact hd
    · rw [if_neg e]; exact (hs.written k hk).kept (hothers k e)
  · intro k hk
    rw [keys_put hl] at hk
    rw [madeIn?_snoc, hs.unused k hk, hmode, Option.none_or]
  · intro k hk
    rw [keys_put hl]
    exact hs.listed k hk

theorem listed_append (hs : Kept h s) {new : List String} (hnew : ∀ k ∈ new, k ∈ s.declarations.keys) :
    ∀ k ∈ s.order ++ new, k ∈ s.declarations.keys := by
  intro k hk
  rcases List.mem_append.mp hk with hk | hk
  · exact hs.listed k hk
  · exact hnew k hk

theorem done (hs : Kept h s) (hc : Done s c t) (hlabels : ∀ label ∈ c.labels, label ∈ s.declarations.keys) :
    Kept (h ++ [.change c]) t := by
  have hmode : ∀ k, (Step.change c).mode? k = none := fun _ => rfl
  have hbatch : ∀ labels : List String, (labels.map Item.declaration).filterMap Item.label? = labels := by
    intro labels
    simp [List.filterMap_map, Function.comp_def, Item.label?]
  cases hc with
  | renew labels =>
    rw [Change.labels, hbatch] at hlabels
    exact hs.of_silent hmode (fun _ => rfl) hlabels
  | add label => exact hs.of_silent hmode (fun _ => rfl) (hs.listed_append hlabels)
  | addNothing value hvalue => exact hs.of_silent hmode (fun _ => rfl) hs.listed
  | addMany labels =>
    rw [Change.labels, hbatch] at hlabels
    exact hs.of_silent hmode (fun _ => rfl) (hs.listed_append hlabels)
  | addSelf | addEach => exact hs.of_silent hmode (fun _ => rfl) (hs.listed_append hs.listed)
  | sort turned sorted hone hsorted =>
    refine hs.of_silent hmode (fun _ => rfl) ?_
    intro k hk
    have hmem : k ∈ sorted := by
      cases turned with
      | false => exact hk
      | true => exact List.mem_reverse.mp hk
    exact hs.listed k (hsorted.mem_iff.mp hmem)
  | selectorText label text x hl hx =>
    have hmade := (Selector.withText?_eq_make? _ _).symm.trans hx
    obtain ⟨htext, -⟩ := Selector.make?_eq_ok_iff.mp hmade
    refine hs.put hmode hl ((hs.written label hl).given ?_ hx) fun k hk => ?_
    · simp [Step.text?, htext]
    · simp [Step.text?, Ne.symm hk]
  | property label name value hl => exact hs.put hmode hl ((hs.written label hl).kept rfl) fun _ _ => rfl
  | nowhere label c hl hkind =>
    have hnamed : label ∈ c.labels := by
      rcases hkind with ⟨text, rfl⟩ | ⟨name, value, rfl⟩ <;> exact List.mem_singleton_self label
    exact absurd (hlabels label hnamed) hl

theorem change (hs : Kept h s) (hlabels : ∀ label ∈ c.labels, label ∈ s.declarations.keys) :
    Kept (h ++ [.change c]) (s.changed c) := by
  rcases s.changed_cases c with ⟨m, hrefused, hsame⟩ | ⟨-, hdone⟩
  · rw [hsame]
    exact hs.of_silent (fun _ => rfl) (text?_of_refused hlabels hrefused) hs.listed
  · exact hs.done hdone hlabels

end Kept

theorem Reached.kept (hs : Reached h s) : Kept h s := by
  induction hs with
  | start => exact .start
  | make label mode text _ hnew ih => exact ih.made hnew mode text
  | change c _ hlabels ih => exact ih.change hlabels

/-! ## What holds at every moment -/

def OfBothModes (s : Shelf) : Prop := ∀ mode, ∃ label ∈ s.order, (s.find label).selector.mode = mode

theorem Kept.specificityOf_eq (hs : Kept h s) (hl : label ∈ s.order) :
    s.specificityOf label = .ofText (s.find label).selector.mode (s.find label).selector.text :=
  (hs.written label (hs.listed label hl)).coherent.counted

theorem Kept.isNumber_iff (hs : Kept h s) (hl : label ∈ s.order) :
    (s.specificityOf label).isNumber = ((s.find label).selector.mode == .legacy) := by
  rw [hs.specificityOf_eq hl]
  cases (s.find label).selector.mode <;> rfl

/-- The two kinds of specificity are those of the two modes. -/
theorem Kept.ofBothModes_iff (hs : Kept h s) : s.OfBothModes ↔ s.HoldsBothKinds := by
  have hlegacy : ∀ label ∈ s.order, (s.find label).selector.mode = .legacy ↔ (s.specificityOf label).isNumber = true := by
    intro label hl
    rw [hs.isNumber_iff hl, beq_iff_eq]
  have htuple : ∀ label ∈ s.order, (s.find label).selector.mode = .tuple ↔ (s.specificityOf label).isNumber = false := by
    intro label hl
    rw [hs.isNumber_iff hl]
    cases (s.find label).selector.mode <;> decide
  constructor
  · intro h
    obtain ⟨x, hx, hxmode⟩ := h .legacy
    obtain ⟨y, hy, hymode⟩ := h .tuple
    exact ⟨⟨x, hx, (hlegacy x hx).mp hxmode⟩, y, hy, (htuple y hy).mp hymode⟩
  · rintro ⟨⟨x, hx, hnumber⟩, y, hy, hcounts⟩ mode
    cases mode with
    | legacy => exact ⟨x, hx, (hlegacy x hx).mpr hnumber⟩
    | tuple => exact ⟨y, hy, (htuple y hy).mpr hcounts⟩

/-- At every moment of every run:
    each selector's mode is the one it was made in and its text is the last text that it
    was given, trimmed, and is not empty; its specificity is the one of that text in that
    mode;
    a blank text is refused and changes nothing, and any other is taken;
    two selectors are the same exactly if they were made in one mode and last given
    texts that are equal when trimmed, and then they have one key and one specificity;
    a sort is refused, and changes nothing, if selectors of both modes are listed, and
    else puts the places of the list in order by the texts as they are then. -/
theorem selectors_coherent (hs : Reached h s) :
    (∀ label ∈ s.declarations.keys, madeIn? h label = some (s.find label).selector.mode ∧
      (lastGiven? h label).map Text.trim = some (s.find label).selector.text ∧ (s.find label).selector.Coherent) ∧
    (∀ label ∈ s.declarations.keys, ∀ text,
      (Text.allBlank text = true ∧ s.change? (.selectorText label text) = .error .blankSelector ∧
        s.changed (.selectorText label text) = s) ∨
      (Text.allBlank text = false ∧ ∃ x : Selector, s.changed (.selectorText label text) =
        s.put label { s.find label with selector := x } ∧
        x.text = Text.trim text ∧ x.mode = (s.find label).selector.mode ∧ x.Coherent)) ∧
    (∀ label ∈ s.declarations.keys, ∀ k ∈ s.declarations.keys,
      ((s.find label).selector.same (s.find k).selector = true ↔ madeIn? h label = madeIn? h k ∧
        (lastGiven? h label).map Text.trim = (lastGiven? h k).map Text.trim) ∧
      ((s.find label).selector.same (s.find k).selector = true →
        (s.find label).selector.setKey = (s.find k).selector.setKey ∧ s.specificityOf label = s.specificityOf k)) ∧
    ∀ turned,
      (s.OfBothModes ∧ s.change? (.sort turned) = .error .mixedModes ∧ s.changed (.sort turned) = s) ∨
      (¬ s.OfBothModes ∧ ∃ sorted,
        StablySorted (fun label => .ofText (s.find label).selector.mode (s.find label).selector.text) s.order sorted ∧
        s.changed (.sort turned) = { s with order := if turned then sorted.reverse else sorted }) := by
  have hk : Kept h s := hs.kept
  refine ⟨?_, ?_, ?_, ?_⟩
  · intro label hl
    have hx := hk.written label hl
    exact ⟨hx.told.1, hx.told.2, hx.coherent⟩
  · intro label hl text
    rcases selectorText_cases hl text with ⟨hblank, hrefused⟩ | ⟨htext, x, hx, hdone⟩
    · exact Or.inl ⟨hblank, hrefused, changed_of_refused hrefused⟩
    · rw [Selector.withText?_eq_make?] at hx
      obtain ⟨-, he⟩ := Selector.make?_eq_ok_iff.mp hx
      refine Or.inr ⟨htext, x, changed_of_done hdone, ?_, ?_, Selector.coherent_of_make hx⟩
      · rw [he]
      · rw [he]
  · intro label hl k hl'
    have hx := hk.written label hl
    have hy := hk.written k hl'
    refine ⟨hx.same_iff hy, fun hsame => ⟨Selector.same_iff_setKey.mp hsame, ?_⟩⟩
    exact congrArg Selector.specificity ((Selector.same_iff_eq hx.coherent hy.coherent).mp hsame)
  · intro turned
    rw [hk.ofBothModes_iff]
    rcases s.sort?_cases with ⟨hboth, hrefused⟩ | ⟨hone, sorted, hsorted, hdone⟩
    · exact Or.inl ⟨hboth, hrefused turned, changed_of_refused (hrefused turned)⟩
    · refine Or.inr ⟨hone, sorted, hsorted.rekey fun x hx y hy => ?_, changed_of_done (hdone turned)⟩
      rw [hk.specificityOf_eq hx, hk.specificityOf_eq hy]

/-- Two selectors are made, and one of them stands in the list twice. The other is given a
    blank text, which is refused, and then another one, by which the list is sorted. -/
theorem selectors_coherent_shared :
    let h : List Step := [.make "shared" .legacy " #i ", .make "other" .legacy "p",
      .change (.renew [.declaration "shared", .declaration "other", .declaration "shared"]),
      .change (.selectorText "other" " "), .change (.selectorText "other" " p:hover")]
    ∃ s, Reached h s ∧ s.order = ["shared", "other", "shared"] ∧
      (s.find "other").selector = ⟨"p:hover", .legacy, .number 11⟩ ∧ (s.find "other").selector.Coherent ∧
      s.changed (.selectorText "other" "") = s ∧
      ∃ sorted,
        StablySorted (fun label => .ofText (s.find label).selector.mode (s.find label).selector.text) s.order sorted ∧
        s.changed (.sort false) = { s with order := sorted } := by
  intro h
  obtain ⟨s, hs, hkeys, horder, hother, hshared⟩ : ∃ s, Reached h s ∧ s.declarations.keys = ["shared", "other"] ∧
      s.order = ["shared", "other", "shared"] ∧ (s.find "other").selector = ⟨"p:hover", .legacy, .number 11⟩ ∧
      (s.find "shared").selector = ⟨"#i", .legacy, .number 100⟩ := by
    refine ⟨_, ((((Reached.start.make "shared" .legacy " #i " ?_).make "other" .legacy "p" ?_).change
      (.renew [.declaration "shared", .declaration "other", .declaration "shared"]) ?_).change
      (.selectorText "other" " ") ?_).change (.selectorText "other" " p:hover") ?_, ?_⟩
    all_goals decide +kernel
  obtain ⟨htold, htexts, -, hsorts⟩ := selectors_coherent hs
  have hl : "other" ∈ s.declarations.keys := by simp [hkeys]
  refine ⟨s, hs, horder, hother, (htold "other" hl).2.2, ?_, ?_⟩
  · rcases htexts "other" hl "" with ⟨-, -, hsame⟩ | ⟨htext, -⟩
    · exact hsame
    · cases htext
  · rcases hsorts false with ⟨hboth, -⟩ | ⟨-, hsorted⟩
    · obtain ⟨label, hlabel, hmode⟩ := hboth .tuple
      rw [horder] at hlabel
      simp only [List.mem_cons, List.not_mem_nil, or_false] at hlabel
      rcases hlabel with rfl | rfl | rfl <;> simp [hother, hshared] at hmode
    · exact hsorted

end AttributeSheet.Shelf
