/-
  AttributeSheet.Proofs.LastWrite — a run over a flat page, element by element.

  As long as no selector breaks it, the host of flat pages judges by the text
  (`flat_refusesBy`). So while no handler raises, a run does to each element on its own
  what one declaration after the other does to it (`Element.after`): each declaration
  maps the page (`after_eq_map`), and so the run does (`run_at`).

  As long as no id and no class is written, an element is found by the same selectors
  before and after. So a name ends with the value that the last declaration gives it
  among those that find the element and mention the name (`foldl_after_cascades`).
-/
import AttributeSheet.Host.Flat
import AttributeSheet.Proofs.SheetReading
import AttributeSheet.Proofs.ToldRuns

namespace AttributeSheet

namespace Host.Flat

/-! ## One element -/

/-- The host finds the element by the selector; one that is rejected finds none. -/
def Element.foundBy (e : Element) (selector : String) : Bool :=
  match reading selector with
  | .ok hit => hit e
  | .error _ => false

def Breaks (selector : String) : Prop := ∃ message, reading selector = .error (.broken message)

theorem breaks_iff {selector : String} : Breaks selector ↔ selector.toList.head? = some '?' := by
  unfold Breaks reading
  constructor
  · rintro ⟨message, h⟩
    split at h <;> cases h
    rename_i hl
    rw [hl]; rfl
  · intro h
    obtain ⟨r, hl⟩ : ∃ r, selector.toList = '?' :: r := by
      cases hl : selector.toList with
      | nil => rw [hl] at h; cases h
      | cons c r => rw [hl] at h; cases h; exact ⟨r, rfl⟩
    refine ⟨"host failure", ?_⟩
    rw [hl]; rfl

instance : DecidablePred Breaks := fun _ => decidable_of_iff _ breaks_iff.symm

def Element.written (e : Element) (p : String × String) : Element :=
  if refusesName p.1 then e else { e with attributes := e.attributes.insert p.1 p.2 }

theorem Element.written_refused {p : String × String} (h : refusesName p.1 = true) :
    (fun e : Element => e.written p) = id := by
  funext e; simp [written, h]

theorem Element.written_taken {p : String × String} (h : refusesName p.1 = false) :
    (fun e : Element => e.written p) = fun e => { e with attributes := e.attributes.insert p.1 p.2 } := by
  funext e; simp [written, h]

/-- Of what is written to it, an element takes the names that the host does not refuse. -/
theorem foldl_written_eq (e : Element) (ps : List (String × String)) :
    ps.foldl Element.written e = { e with attributes := e.attributes.insertAll (ps.filter fun p => !refusesName p.1) } := by
  induction ps generalizing e with
  | nil => rfl
  | cons p ps ih =>
    rw [List.foldl_cons, ih, Element.written]
    cases hp : refusesName p.1 with
    | true => simp [hp]
    | false => simp [hp, OrderedMap.insertAll_cons]

def Element.after (e : Element) (d : Declaration) : Element :=
  if e.foundBy d.selector.text then d.properties.entries.foldl Element.written e else e

/-! ## The page -/

/-- What a host of flat lists rejects: selectors behind an exclamation mark, and names
    with a space. -/
def refusals : Refusals where
  selector s := s.toList.head? = some '!'
  property name _ := refusesName name

/-- The host of flat lists judges by the text, as long as no selector breaks it. -/
theorem flat_refusesBy {d : Declaration} (h : ¬ Breaks d.selector.text) : flat.RefusesBy refusals d where
  query_rejected hs page := by
    obtain ⟨r, hl⟩ : ∃ r, d.selector.text.toList = '!' :: r := List.head?_eq_some_iff.mp (of_decide_eq_true hs)
    simp only [flat, Flat.query, reading, hl]
    split
    all_goals simp_all [Except.map]
  query_answered hs page := by
    have hmark : d.selector.text.toList.head? ≠ some '!' := of_decide_eq_false hs
    have hbreak : d.selector.text.toList.head? ≠ some '?' := fun e => h (breaks_iff.mpr e)
    simp only [flat, Flat.query, reading]
    split
    all_goals simp_all [Except.map]
  write_rejected p _ hp page i := by
    have hname : refusesName p.1 = true := hp
    exact ⟨none, by simp [flat, Flat.write, hname]⟩
  write_done p _ hp page i := by
    have hname : refusesName p.1 = false := hp
    exact ⟨_, by simp only [flat, Flat.write, hname]; rfl⟩

theorem written_eq_modify (page : List Element) (i : Nat) (p : String × String) :
    flat.written i page p = page.modify i (·.written p) := by
  cases hp : refusesName p.1 with
  | true =>
    rw [written_of_error (by simp only [flat, write, hp, if_true]; rfl), Element.written_refused hp, List.modify_id]
  | false =>
    rw [written_of_ok (by simp only [flat, write, hp, Bool.false_eq_true, if_false]; rfl), Element.written_taken hp]

theorem writtenAll_eq_modify (ps : List (String × String)) (page : List Element) (i : Nat) :
    flat.writtenAll ps page i = page.modify i (ps.foldl Element.written) := by
  unfold writtenAll
  induction ps generalizing page with
  | nil => exact (List.modify_id i page).symm
  | cons p ps ih =>
    rw [List.foldl_cons, ih, written_eq_modify, List.modify_modify_eq]
    rfl

theorem getElem?_foldl_modify {α : Type} (f : α → α) {is : List Nat} (h : is.Nodup) (l : List α) (j : Nat) :
    (is.foldl (fun l i => l.modify i f) l)[j]? = if j ∈ is then l[j]?.map f else l[j]? := by
  induction is generalizing l with
  | nil => rfl
  | cons i is ih =>
    obtain ⟨hi, his⟩ := List.nodup_cons.mp h
    rw [List.foldl_cons, ih his, List.getElem?_modify]
    by_cases e : i = j
    · subst e; simp [hi]
    · simp [e, Ne.symm e]

theorem foldl_modify_hits {α : Type} (hit : α → Bool) (f : α → α) (l : List α) :
    ((List.range l.length).filter fun i => (l[i]?).any hit).foldl (fun l i => l.modify i f) l =
      l.map fun x => if hit x then f x else x := by
  apply List.ext_getElem?
  intro j
  rw [getElem?_foldl_modify f (List.nodup_range.filter _), List.getElem?_map]
  simp only [List.mem_filter, List.mem_range]
  cases hj : l[j]? with
  | none => simp
  | some x =>
    have hlt : j < l.length := (List.getElem?_eq_some_iff.mp hj).1
    by_cases hx : hit x = true <;> simp [hlt, hx]

theorem after_eq_map {d : Declaration} (page : List Element) : flat.after page d = page.map (·.after d) := by
  have hwrites : flat.writtenAll d.properties.entries =
      fun page i => page.modify i (d.properties.entries.foldl Element.written) := by
    funext page i
    exact writtenAll_eq_modify d.properties.entries page i
  rw [Host.after, hwrites]
  cases hr : reading d.selector.text with
  | ok hit =>
    have hfound : flat.found page d.selector.text = (List.range page.length).filter fun i => (page[i]?).any hit :=
      found_of_ok (by simp only [flat, query, hr]; rfl)
    have hafter : (fun e : Element => e.after d) =
        fun e => if hit e then d.properties.entries.foldl Element.written e else e := by
      funext e
      simp only [Element.after, Element.foundBy, hr]
    rw [hfound, hafter, foldl_modify_hits hit]
  | error refusal =>
    have hrefused : flat.query page d.selector.text = .error refusal := by
      simp only [flat, query, hr]
      rfl
    rw [found_of_error hrefused]
    simp [Element.after, Element.foundBy, hr]

theorem foldl_after_eq_map (ds : List Declaration) (page : List Element) :
    ds.foldl flat.after page = page.map fun e => ds.foldl Element.after e := by
  induction ds generalizing page with
  | nil => exact (List.map_id' page).symm
  | cons d ds ih =>
    rw [List.foldl_cons, ih, after_eq_map, List.map_map]
    rfl

/-- A run changes every element as the declarations do on its own, and does not halt. -/
theorem run_at {handler : Option Handler} (hq : Quiet handler) {ds : List Declaration}
    (hb : ∀ d ∈ ds, ¬ Breaks d.selector.text) (page : List Element) (reported : List Problem) (text : String) :
    (Cascade.run flat handler ds page reported text).At (page.map fun e => ds.foldl Element.after e) := by
  have htold := Cascade.run_told hq (fun d hd => flat_refusesBy (hb d hd)) page reported text
  rw [← foldl_after_eq_map]
  exact htold.toAt

/-! ## What an element keeps -/

/-- The two elements agree in all that a selector looks at. -/
structure Element.Alike (e e' : Element) : Prop where
  tag_eq : e'.tag = e.tag
  id_eq : e'.attributes.get? "id" = e.attributes.get? "id"
  class_eq : e'.attributes.get? "class" = e.attributes.get? "class"

theorem reading_alike {e e' : Element} (h : e.Alike e') {selector : String} {hit : Element → Bool}
    (hr : reading selector = .ok hit) : hit e' = hit e := by
  have hclasses : e'.classes = e.classes := by simp only [Element.classes, h.class_eq]
  unfold reading at hr
  split at hr
  all_goals cases hr
  · rfl
  · simp only [h.id_eq]
  · simp only [hclasses]
  · simp only [h.tag_eq]

theorem foundBy_alike {e e' : Element} (h : e.Alike e') (selector : String) :
    e'.foundBy selector = e.foundBy selector := by
  unfold Element.foundBy
  cases hr : reading selector with
  | ok hit => exact reading_alike h hr
  | error refusal => rfl

/-- A name that the host takes has the value of its last write, or else the one it had. -/
theorem get?_foldl_written (e : Element) (ps : List (String × String)) {name : String} (hn : ' ' ∉ name.toList) :
    (ps.foldl Element.written e).attributes.get? name =
      (OrderedMap.lastValue? name ps).or (e.attributes.get? name) := by
  have htaken : refusesName name = false := by simpa [refusesName] using hn
  induction ps generalizing e with
  | nil => rfl
  | cons p ps ih =>
    have hone : (e.written p).attributes.get? name = if name = p.1 then some p.2 else e.attributes.get? name := by
      unfold Element.written
      by_cases hp : refusesName p.1 = true
      · have hne : name ≠ p.1 := by rintro rfl; simp [htaken] at hp
        rw [if_pos hp, if_neg hne]
      · rw [if_neg hp]; exact OrderedMap.get?_insert _ _ _ _
    rw [List.foldl_cons, ih, hone, OrderedMap.lastValue?_cons]
    by_cases e : name = p.1 <;> simp [e]

theorem tag_foldl_written (e : Element) (ps : List (String × String)) : (ps.foldl Element.written e).tag = e.tag := by
  induction ps generalizing e with
  | nil => rfl
  | cons p ps ih =>
    rw [List.foldl_cons, ih, Element.written]
    split <;> rfl

theorem tag_after (e : Element) (d : Declaration) : (e.after d).tag = e.tag := by
  unfold Element.after
  split
  · exact tag_foldl_written e _
  · rfl

theorem tag_foldl_after (e : Element) (ds : List Declaration) : (ds.foldl Element.after e).tag = e.tag := by
  induction ds generalizing e with
  | nil => rfl
  | cons d ds ih => exact (ih (e.after d)).trans (tag_after e d)

theorem get?_after (e : Element) (d : Declaration) {name : String} (hn : ' ' ∉ name.toList) :
    (e.after d).attributes.get? name =
      if e.foundBy d.selector.text then
        (OrderedMap.lastValue? name d.properties.entries).or (e.attributes.get? name)
      else e.attributes.get? name := by
  unfold Element.after
  split
  · exact get?_foldl_written e _ hn
  · rfl

theorem get?_after_of_not_mem (e : Element) {d : Declaration} {name : String} (hn : ' ' ∉ name.toList)
    (hd : name ∉ d.properties.keys) : (e.after d).attributes.get? name = e.attributes.get? name := by
  rw [get?_after e d hn, OrderedMap.lastValue?_eq_none.mpr hd]
  split <;> rfl

structure Spares (d : Declaration) : Prop where
  id_kept : "id" ∉ d.properties.keys
  class_kept : "class" ∉ d.properties.keys

/-- A declaration that writes no id and no class leaves what selectors look at. -/
theorem alike_after {e e' : Element} (h : e.Alike e') {d : Declaration} (hd : Spares d) : e.Alike (e'.after d) where
  tag_eq := (tag_after e' d).trans h.tag_eq
  id_eq := (get?_after_of_not_mem e' (by decide) hd.id_kept).trans h.id_eq
  class_eq := (get?_after_of_not_mem e' (by decide) hd.class_kept).trans h.class_eq

theorem alike_foldl_after (e : Element) {ds : List Declaration} (hkeep : ∀ d ∈ ds, Spares d) :
    e.Alike (ds.foldl Element.after e) := by
  have hrun : ∀ e', e.Alike e' → e.Alike (ds.foldl Element.after e') := by
    induction ds with
    | nil => exact fun e' h => h
    | cons d ds ih =>
      intro e' h
      exact ih (fun x hx => hkeep x (by simp [hx])) _ (alike_after h (hkeep d (by simp)))
  exact hrun e ⟨rfl, rfl, rfl⟩

/-! ## The last write -/

def Sets (name : String) (e : Element) (b : Block) : Prop :=
  e.foundBy b.selector = true ∧ name ∈ b.properties.map (·.1)

/-- `e'` is `e` after the blocks of the items of `l`: a name that the host takes has the
    value that it is given last in the block of the chosen one among the items that set
    it, and the value it had if none does. -/
structure Cascades {α : Type} (block : α → Block) (chosen : (α → Prop) → List α → α → Prop) (l : List α)
    (e e' : Element) : Prop where
  tag_eq : e'.tag = e.tag
  value : ∀ name, ' ' ∉ name.toList →
    (∃ x, chosen (fun y => Sets name e (block y)) l x ∧
      e'.attributes.get? name = OrderedMap.lastValue? name (block x).properties) ∨
    ((∀ x ∈ l, ¬ Sets name e (block x)) ∧ e'.attributes.get? name = e.attributes.get? name)

/-- One declaration more: it counts if it sets the name, and else changes nothing. -/
theorem get?_after_last (e : Element) {ds : List Declaration} (hkeep : ∀ d ∈ ds, Spares d) (d : Declaration)
    {name : String} (hn : ' ' ∉ name.toList) :
    (Sets name e d.asBlock ∧ ((ds.foldl Element.after e).after d).attributes.get? name =
        OrderedMap.lastValue? name d.properties.entries) ∨
      (¬ Sets name e d.asBlock ∧ ((ds.foldl Element.after e).after d).attributes.get? name =
        (ds.foldl Element.after e).attributes.get? name) := by
  rw [get?_after _ d hn, foundBy_alike (alike_foldl_after e hkeep)]
  by_cases hfound : e.foundBy d.selector.text = true
  · rw [if_pos hfound]
    by_cases hname : name ∈ d.properties.entries.map (·.1)
    · left
      refine ⟨⟨hfound, hname⟩, ?_⟩
      cases hv : OrderedMap.lastValue? name d.properties.entries with
      | none => exact absurd hname (OrderedMap.lastValue?_eq_none.mp hv)
      | some v => rfl
    · right
      refine ⟨fun h => hname h.2, ?_⟩
      rw [OrderedMap.lastValue?_eq_none.mpr hname, Option.none_or]
  · rw [if_neg hfound]
    exact Or.inr ⟨fun h => hfound h.1, rfl⟩

/-- An element ends with what the last declaration gives it that finds it. -/
theorem foldl_after_cascades (e : Element) {ds : List Declaration} (hkeep : ∀ d ∈ ds, Spares d) :
    Cascades Declaration.asBlock LastOf ds e (ds.foldl Element.after e) := by
  refine ⟨tag_foldl_after e ds, fun name hn => ?_⟩
  induction ds using List.reverseRecOn with
  | nil => exact Or.inr ⟨by simp, rfl⟩
  | append_singleton ds d ih =>
    have hinit : ∀ x ∈ ds, Spares x := fun x hx => hkeep x (by simp [hx])
    rw [List.foldl_append, List.foldl_cons, List.foldl_nil]
    rcases get?_after_last e hinit d hn with ⟨hsets, hv⟩ | ⟨hnot, hv⟩
    · exact Or.inl ⟨d, ⟨ds, [], rfl, hsets, fun _ _ _ => trivial, by simp⟩, hv⟩
    · rw [hv]
      rcases ih hinit with ⟨x, ⟨before, after, rfl, hx, -, hnone⟩, hxv⟩ | ⟨hnone, hold⟩
      · refine Or.inl ⟨x, ⟨before, after ++ [d], by simp, hx, fun _ _ _ => trivial, fun y hy hf => ?_⟩, hxv⟩
        rcases List.mem_append.mp hy with hy | hy
        · exact hnone y hy hf
        · rw [List.mem_singleton.mp hy] at hf; exact hnot hf
      · refine Or.inr ⟨fun x hx => ?_, hold⟩
        rcases List.mem_append.mp hx with hx | hx
        · exact hnone x hx
        · rw [List.mem_singleton.mp hx]; exact hnot

end Host.Flat

end AttributeSheet
