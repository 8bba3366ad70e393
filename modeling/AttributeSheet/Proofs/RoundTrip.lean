/-
  AttributeSheet.Proofs.RoundTrip — writing declarations as a sheet and reading it.

  Declarations are written one to a line (`Declaration.renderAll`). Reading that text
  gives the same declarations in cascade order exactly when each of them can stand in a
  sheet as it is (`Admissible`) and the text holds no comment
  (`parse_renderAll_iff`).

  Whatever is read is admissible, so the first condition is necessary. So is the
  second: the notation itself has no star in it, taking a comment out takes stars out
  (`count_star_dropFirstComment`), and what is read holds no more stars than what is
  left, so it is not what was written.
-/
import AttributeSheet.Proofs.FirstComment
import AttributeSheet.Proofs.TokenShape

namespace AttributeSheet

open Text Block

namespace Declaration

def renderAll (l : List Declaration) : String := "\n".intercalate (l.map render)

/-- A declaration whose selector was accepted in `mode` and whose names differ. -/
structure Made (mode : Mode) (d : Declaration) : Prop where
  selector_accepted : ∃ s, Selector.make? mode s = .ok d.selector
  names_differ : d.properties.keys.Nodup

theorem Made.selector {mode : Mode} {d : Declaration} (h : Made mode d) :
    trim d.selector.text = d.selector.text ∧ d.selector.text ≠ "" ∧
      d.selector = ⟨d.selector.text, mode, .ofText mode d.selector.text⟩ := by
  obtain ⟨⟨s, hs⟩, -⟩ := h
  have hcoherent := Selector.coherent_of_make hs
  obtain ⟨-, he⟩ := Selector.make?_eq_ok_iff.mp hs
  refine ⟨hcoherent.trimmed, hcoherent.nonempty, ?_⟩
  rw [he]

/-! ## The text of a declaration -/

def entryText (p : String × String) : List Char := ' ' :: p.1.toList ++ ':' :: ' ' :: p.2.toList

def innerText (ps : List (String × String)) : List Char :=
  ps.flatMap (fun p => entryText p ++ [';']) ++ if ps = [] then [] else [' ']

def openText (d : Declaration) : List Char := d.selector.text.toList ++ ' ' :: '{' :: innerText d.properties.entries

theorem intercalate_singleton (c : Char) (x : List Char) (xs : List (List Char)) :
    [c].intercalate (x :: xs) = x ++ xs.flatMap (c :: ·) := by
  induction xs generalizing x with
  | nil => simp
  | cons y ys ih => rw [List.intercalate_cons_cons, ih]; simp

theorem propertyText_toList (p : String × String) : ' ' :: (propertyText p).toList = entryText p ++ [';'] := by
  simp [propertyText, entryText]

theorem body_toList (p : String × String) (ps : List (String × String)) :
    ' ' :: (" ".intercalate ((p :: ps).map propertyText)).toList =
      (p :: ps).flatMap fun p => entryText p ++ [';'] := by
  have hspace : " ".toList = [' '] := rfl
  rw [String.toList_intercalate, hspace, List.map_cons, List.map_cons, intercalate_singleton, ← List.cons_append,
    propertyText_toList, List.flatMap_cons, List.map_map, List.flatMap_map]
  simp only [Function.comp_apply, propertyText_toList]

theorem render_toList (d : Declaration) : d.render.toList = d.openText ++ ['}'] := by
  obtain ⟨sel, ⟨ps⟩⟩ := d
  cases ps with
  | nil => simp [render, openText, innerText]
  | cons p ps =>
    have hbody := body_toList p ps
    have hne : (" ".intercalate ((p :: ps).map propertyText)).isEmpty = false := by
      cases he : (" ".intercalate ((p :: ps).map propertyText)).isEmpty with
      | false => rfl
      | true => rw [String.isEmpty_iff.mp he] at hbody; simp [entryText] at hbody
    simp only [render, hne, Bool.false_eq_true, if_false, openText, innerText, ← hbody]
    simp

/-- The lines are the declarations up to their closing braces, each with its brace. -/
theorem renderAll_toList (d : Declaration) (ds : List Declaration) :
    (renderAll (d :: ds)).toList =
      (d.openText :: ds.map fun e => '\n' :: e.openText).flatMap (· ++ ['}']) := by
  have hline : "\n".toList = ['\n'] := rfl
  rw [renderAll, String.toList_intercalate, hline, List.map_cons, List.map_cons, intercalate_singleton,
    List.flatMap_cons, render_toList, List.map_map, List.flatMap_map, List.flatMap_map]
  simp only [Function.comp_apply, render_toList, List.cons_append]

end Declaration

/-! ## Reading it back -/

namespace Block.Chained

/-- Pieces that were closed one by one are found again, before those of what follows. -/
theorem splitOn_closed {d : Char} {ps : List (List Char)} (h : ∀ p ∈ ps, d ∉ p) (rest : List Char) :
    (ps.flatMap (· ++ [d]) ++ rest).splitOn d = ps ++ rest.splitOn d := by
  induction ps with
  | nil => rfl
  | cons p ps ih =>
    rw [List.flatMap_cons, List.append_assoc, List.append_assoc, List.singleton_append,
      List.splitOn_append_cons_self_of_not_mem (h p (by simp)), ih fun q hq => h q (by simp [hq]), List.cons_append]

theorem trimmed_surrounded {s : String} (h : trim s = s) {a b : List Char} (ha : ∀ c ∈ a, isBlank c = true)
    (hb : ∀ c ∈ b, isBlank c = true) : trimmed (a ++ s.toList ++ b) = s := by
  rw [trimmed, trimChars_surrounded ha hb, ← trim_toList, h, String.ofList_toList]

theorem property_entryText {p : String × String} (hn : trim p.1 = p.1) (hc : ':' ∉ p.1.toList) (hv : trim p.2 = p.2) :
    property (Declaration.entryText p) = p := by
  have hspace : ∀ c ∈ [' '], isBlank c = true := by simp; decide
  have hsplit : splitAt? ':' (Declaration.entryText p) = some (' ' :: p.1.toList, ' ' :: p.2.toList) :=
    splitAt?_of_not_mem (a := ' ' :: p.1.toList) (by simpa using hc) _
  have h1 := trimmed_surrounded hn hspace (b := []) (by simp)
  have h2 := trimmed_surrounded hv hspace (b := []) (by simp)
  simp only [List.append_nil, List.singleton_append] at h1 h2
  simp only [property, hsplit, h1, h2]

theorem propertiesOf_innerText {b : Block} (h : b.Admissible) :
    propertiesOf (Declaration.innerText b.properties) = b.properties := by
  obtain ⟨selector, ps⟩ := b
  have hfree : ∀ e ∈ ps.map Declaration.entryText, ';' ∉ e := by
    intro e he
    obtain ⟨p, hp, rfl⟩ := List.mem_map.mp he
    obtain ⟨-, -, -, hn, -⟩ := h.names p hp
    obtain ⟨-, hv, -⟩ := h.values p hp
    simp [Declaration.entryText, hn, hv]
  have hinner : Declaration.innerText ps =
      (ps.map Declaration.entryText).flatMap (· ++ [';']) ++ if ps = [] then [] else [' '] := by
    rw [Declaration.innerText, List.flatMap_map]
  have hlast : named ((if ps = [] then [] else [' ']).splitOn ';') = [] := by
    split <;> rfl
  rw [propertiesOf, hinner, splitOn_closed hfree, Reader.named_append, hlast, List.append_nil, named, List.map_map]
  have hread : ps.map (property ∘ Declaration.entryText) = ps := by
    refine (List.map_congr_left fun p hp => ?_).trans (List.map_id ps)
    obtain ⟨-, hn, hc, -⟩ := h.names p hp
    exact property_entryText hn hc (h.values p hp).1
  rw [hread]
  exact List.filter_eq_self.mpr fun p hp => by simpa using (h.names p hp).1

theorem block_openText {d : Declaration} (h : d.asBlock.Admissible)
    (ht : trim d.selector.text = d.selector.text) {a : List Char} (ha : ∀ c ∈ a, isBlank c = true) :
    block (a ++ d.openText) = d.asBlock := by
  have hbrace : '{' ∉ a ++ d.selector.text.toList ++ [' '] := by
    have : isBlank '{' = false := by decide
    have hna : '{' ∉ a := fun hc => by rw [ha _ hc] at this; cases this
    simpa [hna] using h.selector_free.1
  have hsplit : splitAt? '{' (a ++ d.openText) =
      some (a ++ d.selector.text.toList ++ [' '], Declaration.innerText d.properties.entries) := by
    rw [← splitAt?_of_not_mem hbrace]
    simp [Declaration.openText]
  have hspace : ∀ c ∈ [' '], isBlank c = true := by simp; decide
  have hprops : propertiesOf (Declaration.innerText d.properties.entries) = d.properties.entries :=
    propertiesOf_innerText h
  simp only [block, hsplit, trimmed_surrounded ht ha hspace, hprops, Declaration.asBlock]

theorem brace_not_mem_openText {d : Declaration} (h : d.asBlock.Admissible) : '}' ∉ d.openText := by
  have hentry : ∀ p ∈ d.properties.entries, '}' ∉ Declaration.entryText p := by
    intro p hp
    obtain ⟨-, -, -, -, hn⟩ := h.names p hp
    obtain ⟨-, -, hv⟩ := h.values p hp
    simp [Declaration.entryText, hn, hv]
  have hinner : '}' ∉ Declaration.innerText d.properties.entries := by
    simp only [Declaration.innerText, List.mem_append, List.mem_flatMap, not_or, not_exists, not_and]
    refine ⟨fun p hp => ⟨hentry p hp, by simp⟩, ?_⟩
    split <;> simp
  simpa [Declaration.openText, hinner] using h.selector_free.2

theorem pieces_closed {ps : List (List Char)} (h : ∀ p ∈ ps, '}' ∉ p) : pieces (ps.flatMap (· ++ ['}'])) = ps := by
  have hsplit := splitOn_closed h []
  rw [List.append_nil, List.splitOn_nil] at hsplit
  simp [pieces, hsplit]

end Block.Chained

namespace Declaration

/-- Admissible declarations are the blocks of their text, if that holds no comment. -/
theorem ofSheet_renderAll {l : List Declaration} (hne : l ≠ [])
    (hadm : ∀ d ∈ l, d.asBlock.Admissible)
    (htrim : ∀ d ∈ l, trim d.selector.text = d.selector.text)
    (hc : dropFirstComment (renderAll l) = renderAll l) :
    ofSheet (renderAll l) = l.map asBlock := by
  obtain ⟨d, ds, rfl⟩ := List.exists_cons_of_ne_nil hne
  have hfree : ∀ p ∈ d.openText :: ds.map (fun e => '\n' :: e.openText), '}' ∉ p := by
    intro p hp
    rcases List.mem_cons.mp hp with rfl | hp
    · exact Chained.brace_not_mem_openText (hadm d (by simp))
    · obtain ⟨e, he, rfl⟩ := List.mem_map.mp hp
      simpa using Chained.brace_not_mem_openText (hadm e (by simp [he]))
  have hline : ∀ c ∈ ['\n'], isBlank c = true := by simp; decide
  rw [ofSheet_eq_map, hc, renderAll_toList, Chained.pieces_closed hfree, List.map_cons,
    List.map_cons, List.map_map]
  have hhead := Chained.block_openText (hadm d (by simp)) (htrim d (by simp)) (a := []) (by simp)
  rw [List.nil_append] at hhead
  rw [hhead]
  congr 1
  exact List.map_congr_left fun e he => Chained.block_openText (hadm e (by simp [he])) (htrim e (by simp [he])) hline

theorem declaration_of_made {mode : Mode} {d : Declaration} (h : Made mode d) :
    d.asBlock.declaration mode = d := by
  obtain ⟨-, -, hsel⟩ := h.selector
  have hprops : OrderedMap.ofList d.properties.entries = d.properties := OrderedMap.ofList_of_nodup h.names_differ
  simp only [Block.declaration, asBlock, hprops, ← hsel]

theorem inSourceOrder_renderAll {mode : Mode} {l : List Declaration} (hne : l ≠ []) (hmade : ∀ d ∈ l, Made mode d)
    (hadm : ∀ d ∈ l, d.asBlock.Admissible)
    (hc : dropFirstComment (renderAll l) = renderAll l) : Sheet.inSourceOrder mode (renderAll l) = l := by
  have hkept : selecting (renderAll l) = l.map asBlock := by
    rw [selecting, ofSheet_renderAll hne hadm (fun d hd => (hmade d hd).selector.1) hc]
    refine List.filter_eq_self.mpr fun b hb => ?_
    obtain ⟨d, hd, rfl⟩ := List.mem_map.mp hb
    exact decide_eq_true (hmade d hd).selector.2.1
  rw [Sheet.inSourceOrder, hkept, List.map_map]
  exact (List.map_congr_left fun d hd => declaration_of_made (hmade d hd)).trans (List.map_id l)

/-! ## What is read back holds no star more -/

def inkAll (l : List Declaration) : List Char := l.flatMap (·.asBlock.ink)

theorem ink_declaration_subperm (mode : Mode) (b : Block) : (b.declaration mode).asBlock.ink.Subperm b.ink := by
  obtain ⟨kept, hperm, hsub⟩ := OrderedMap.ofList_subperm b.properties
  exact (List.subperm_append_left _).mpr ⟨_, hperm.flatMap_right propertyInk, hsub.flatMap propertyInk⟩

/-- What is read from a sheet holds characters of the sheet outside its first comment,
    and no others. -/
theorem inkAll_inSourceOrder_subperm (mode : Mode) (text : String) :
    (inkAll (Sheet.inSourceOrder mode text)).Subperm (dropFirstComment text).toList := by
  have hblocks : (inkAll (Sheet.inSourceOrder mode text)).Subperm ((selecting text).flatMap ink) := by
    rw [inkAll, Sheet.inSourceOrder, List.flatMap_map]
    induction selecting text with
    | nil => exact List.Subperm.refl _
    | cons b bs ih => exact (ink_declaration_subperm mode b).append ih
  exact hblocks.trans ((List.filter_sublist.flatMap ink).trans (ink_sublist text)).subperm

theorem count_star_openText (d : Declaration) : d.openText.count '*' = d.asBlock.ink.count '*' := by
  have hentry : ∀ p, (entryText p ++ [';']).count '*' = (propertyInk p).count '*' := by
    intro p; simp [entryText, propertyInk]
  have hlast : ∀ ps : List (String × String), (if ps = [] then [] else [' ']).count '*' = 0 := by
    intro ps; split <;> simp
  simp only [openText, innerText, ink, asBlock, List.count_append, List.count_cons, List.count_flatMap, hlast,
    Function.comp_def, hentry]
  simp

/-- The notation has no star of its own. -/
theorem count_star_renderAll (l : List Declaration) : (renderAll l).toList.count '*' = (inkAll l).count '*' := by
  cases l with
  | nil => rfl
  | cons d ds =>
    rw [renderAll_toList, inkAll, List.count_flatMap, List.count_flatMap]
    simp [Function.comp_def, count_star_openText]

/-- Reading what declarations are written as gives them back, in cascade order, exactly
    when each of them is admissible and the text holds no comment. -/
theorem parse_renderAll_iff {mode : Mode} {l : List Declaration} (hne : l ≠ []) (hmade : ∀ d ∈ l, Made mode d) :
    (∃ sorted, Sheet.parse mode (some (renderAll l)) = .ok sorted ∧
        StablySorted (·.selector.specificity) l sorted) ↔
      (∀ d ∈ l, d.asBlock.Admissible) ∧ dropFirstComment (renderAll l) = renderAll l := by
  have htext : renderAll l ≠ "" := by
    obtain ⟨d, ds, rfl⟩ := List.exists_cons_of_ne_nil hne
    intro h
    have := renderAll_toList d ds
    rw [h] at this
    simp at this
  obtain ⟨parsed, hparse, hsorts⟩ := Sheet.parse_sorts mode htext
  constructor
  · rintro ⟨sorted, hp, hsorted⟩
    rw [hparse, Except.ok.injEq] at hp
    subst hp
    have hperm : l.Perm (Sheet.inSourceOrder mode (renderAll l)) := hsorted.perm.symm.trans hsorts.perm
    refine ⟨fun d hd => admissible_inSourceOrder (hperm.mem_iff.mp hd), ?_⟩
    rcases count_star_dropFirstComment (renderAll l).toList with h | h
    · rw [dropFirstComment, h, String.ofList_toList]
    · have hle := (inkAll_inSourceOrder_subperm mode (renderAll l)).count_le '*'
      have hsame : (inkAll l).count '*' = (inkAll (Sheet.inSourceOrder mode (renderAll l))).count '*' :=
        (hperm.flatMap_right _).count_eq '*'
      rw [dropFirstComment, String.toList_ofList, ← hsame, ← count_star_renderAll] at hle
      omega
  · rintro ⟨hadm, hc⟩
    rw [inSourceOrder_renderAll hne hmade hadm hc] at hsorts
    exact ⟨parsed, hparse, hsorts⟩

/-- Two declarations come back, and two do not that have a comment between them. -/
theorem parse_renderAll_pairs :
    let plain : List Declaration :=
      [⟨⟨"#b", .legacy, .ofText .legacy "#b"⟩, ⟨[("x", "1"), ("y", "2:3")]⟩⟩,
        ⟨⟨"a", .legacy, .ofText .legacy "a"⟩, ⟨[]⟩⟩]
    let commented : List Declaration :=
      [⟨⟨"a", .tuple, .ofText .tuple "a"⟩, ⟨[("x", "text/*")]⟩⟩,
        ⟨⟨"b", .tuple, .ofText .tuple "b"⟩, ⟨[("y", "*/*")]⟩⟩]
    (∀ d ∈ plain, Made .legacy d) ∧ (∀ d ∈ commented, Made .tuple d) ∧
    (∃ sorted, Sheet.parse .legacy (some "#b \x7b x: 1; y: 2:3; \x7d\na \x7b\x7d") = .ok sorted ∧
      StablySorted (·.selector.specificity) plain sorted) ∧
    ¬ ∃ sorted, Sheet.parse .tuple (some "a \x7b x: text/*; \x7d\nb \x7b y: */*; \x7d") = .ok sorted ∧
      StablySorted (·.selector.specificity) commented sorted := by
  intro plain commented
  have hplain : ∀ d ∈ plain, Made .legacy d :=
    List.forall_mem_cons.mpr ⟨⟨⟨"#b", rfl⟩, by decide⟩, List.forall_mem_singleton.mpr ⟨⟨"a", rfl⟩, by decide⟩⟩
  have hcommented : ∀ d ∈ commented, Made .tuple d :=
    List.forall_mem_cons.mpr ⟨⟨⟨"a", rfl⟩, by decide⟩, List.forall_mem_singleton.mpr ⟨⟨"b", rfl⟩, by decide⟩⟩
  have hplainText : renderAll plain = "#b \x7b x: 1; y: 2:3; \x7d\na \x7b\x7d" := by decide
  have hcommentedText : renderAll commented = "a \x7b x: text/*; \x7d\nb \x7b y: */*; \x7d" := by decide
  refine ⟨hplain, hcommented, ?_, fun h => ?_⟩
  · rw [← hplainText]
    exact (parse_renderAll_iff (by decide) hplain).mpr ⟨by decide, by decide⟩
  · rw [← hcommentedText] at h
    have hkept := ((parse_renderAll_iff (by decide) hcommented).mp h).2
    exact absurd hkept (by decide)

end Declaration

end AttributeSheet
