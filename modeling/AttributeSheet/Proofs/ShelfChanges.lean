/-
  AttributeSheet.Proofs.ShelfChanges — what a change of a shelf can do.

  A batch is taken if it holds declarations only, and then all of it; else the first
  thing in it that is none is named (`labels?_eq_ok_iff`, `labels?_foreign`). A text for
  a selector is taken if it is not blank (`selectorText_cases`). Every change does all
  that is asked or nothing (`Change.allOrNothing`): it is looked at before the first write,
  or it works on something that only then takes the place of the old one.

  So every change of a shelf that is done is one of a few (`Done`, `done_of_ok`), and one
  that is refused leaves the shelf as it was (`changed_cases`). What holds along a run of
  changes is proved from these cases and not from the changes themselves.
-/
import AttributeSheet.Proofs.ShelfSorting
import AttributeSheet.Proofs.SelectorTexts
import AttributeSheet.Proofs.MapWrites

namespace AttributeSheet

def Item.label? : Item → Option String
  | declaration label => some label
  | foreign _ => none

theorem exists_of_map_ok {ε α β : Type} {f : α → β} {x : Except ε α} {y : β} (h : x.map f = .ok y) :
    ∃ a, x = .ok a ∧ f a = y := by
  cases x with
  | error e => cases h
  | ok a => exact ⟨a, rfl, Except.ok.inj h⟩

namespace Shelf

/-! ## Batches -/

variable {batch : List Item} {labels : List String}

theorem labels?_declarations (labels : List String) : labels? (labels.map .declaration) = .ok labels := by
  induction labels with
  | nil => rfl
  | cons label labels ih =>
    rw [List.map_cons, labels?, ih]
    rfl

/-- A batch is refused at the first thing in it that is no declaration. -/
theorem labels?_foreign (labels : List String) (value : Foreign) (rest : List Item) :
    labels? (labels.map .declaration ++ .foreign value :: rest) = .error (.notADeclaration value.kindName) := by
  induction labels with
  | nil => rfl
  | cons label labels ih =>
    rw [List.map_cons, List.cons_append, labels?, ih]
    rfl

theorem batch_cases (batch : List Item) :
    (∃ labels : List String, batch = labels.map .declaration) ∨
      ∃ (labels : List String) (value : Foreign) (rest : List Item),
        batch = labels.map .declaration ++ .foreign value :: rest := by
  induction batch with
  | nil => exact Or.inl ⟨[], rfl⟩
  | cons item batch ih =>
    cases item with
    | foreign value => exact Or.inr ⟨[], value, batch, rfl⟩
    | declaration label =>
      rcases ih with ⟨labels, rfl⟩ | ⟨labels, value, rest, rfl⟩
      · exact Or.inl ⟨label :: labels, rfl⟩
      · exact Or.inr ⟨label :: labels, value, rest, rfl⟩

theorem labels?_eq_ok_iff : labels? batch = .ok labels ↔ batch = labels.map .declaration := by
  constructor
  · intro h
    rcases batch_cases batch with ⟨labels', rfl⟩ | ⟨labels', value, rest, rfl⟩
    · rw [labels?_declarations] at h
      rw [Except.ok.inj h]
    · rw [labels?_foreign] at h
      cases h
  · rintro rfl
    exact labels?_declarations labels

/-- What is not a declaration holds nothing, or things that are none either. -/
theorem members_cases {value : Foreign} (h : members? value = some batch) :
    batch = [] ∨ ∃ first rest, batch = .foreign first :: rest := by
  have hforeign : ∀ item ∈ batch, ∃ v, item = .foreign v := by
    cases value with
    | text _ | array _ | object _ =>
      obtain rfl := Option.some.inj h
      intro item hitem
      obtain ⟨v, -, rfl⟩ := List.mem_map.mp hitem
      exact ⟨_, rfl⟩
    | null | boolean | integer | decimal | selector => cases h
  cases batch with
  | nil => exact Or.inl rfl
  | cons item rest =>
    obtain ⟨first, rfl⟩ := hforeign item List.mem_cons_self
    exact Or.inr ⟨first, rest, rfl⟩

/-! ## What the attempts come to -/

variable {s t : Shelf} {c : Change}

theorem run_addMany (batch : List Item) (s : Shelf) : (addMany batch).run.run s =
    match labels? batch with
    | .ok labels => (.ok (), { s with order := s.order ++ labels })
    | .error m => (.error m, s) := by
  rw [addMany, Attempt.run_bind, Attempt.run_lift]
  cases labels? batch <;> rfl

theorem run_addMany_declarations (labels : List String) (s : Shelf) :
    (addMany (labels.map .declaration)).run.run s = (.ok (), { s with order := s.order ++ labels }) := by
  rw [run_addMany, labels?_declarations]

theorem add_foreign_cases (value : Foreign) :
    (members? value = none ∧ add (.foreign value) = throw (.notIterable value.kindName)) ∨
      ∃ batch, members? value = some batch ∧ add (.foreign value) = addMany batch := by
  cases h : members? value with
  | none => exact Or.inl ⟨rfl, by rw [add, h]⟩
  | some batch => exact Or.inr ⟨batch, rfl, by rw [add, h]⟩

theorem run_addSelf (s : Shelf) : addSelf.run.run s = (.ok (), { s with order := s.order ++ s.order }) := by
  rw [addSelf, Attempt.run_bind_ok (Attempt.run_get s)]
  exact run_addMany_declarations s.order s

theorem foldl_append_order (labels : List String) (s : Shelf) :
    labels.foldl (fun (t : Shelf) label => { t with order := t.order ++ [label] }) s =
      { s with order := s.order ++ labels } := by
  induction labels generalizing s with
  | nil => rw [List.foldl_nil, List.append_nil]
  | cons label labels ih => rw [List.foldl_cons, ih, List.append_assoc, List.singleton_append]

theorem run_addEach (s : Shelf) : addEach.run.run s = (.ok (), { s with order := s.order ++ s.order }) := by
  rw [addEach, Attempt.run_bind_ok (Attempt.run_get s)]
  have hadd : ∀ label ∈ s.walk, ∀ t : Shelf,
      (add (.declaration label)).run.run t = (.ok (), { t with order := t.order ++ [label] }) := fun _ _ _ => rfl
  rw [Attempt.run_forM_ok hadd, foldl_append_order]
  rfl

/-- A new list takes the place of the old one once all of it is there. -/
theorem run_renew (batch : List Item) (s : Shelf) : (renew batch).run.run s =
    match labels? batch with
    | .ok labels => (.ok (), { s with order := labels })
    | .error m => (.error m, s) := by
  have hmade : (addMany batch).result? { s with order := [] } =
      (labels? batch).map fun labels => { s with order := labels } := by
    rw [Attempt.result?, run_addMany]
    cases labels? batch <;> rfl
  rw [renew, Attempt.run_bind_ok (Attempt.run_get s)]
  show (liftM ((addMany batch).result? { s with order := [] }) >>= _ : Attempt Shelf Unit).run.run s = _
  rw [Attempt.run_bind, Attempt.run_lift, hmade]
  cases labels? batch <;> rfl

theorem get?_of_mem {label : String} (h : label ∈ s.declarations.keys) :
    s.declarations.get? label = some (s.find label) := by
  obtain ⟨d, hd⟩ := OrderedMap.mem_keys_iff.mp h
  rw [find, hd, Option.getD_some]

theorem run_within {label : String} (h : label ∈ s.declarations.keys) (a : Attempt Declaration Unit) :
    (within label a).run.run s = ((a.run.run (s.find label)).1, s.put label (a.run.run (s.find label)).2) := by
  rw [within, Attempt.run_bind_ok (Attempt.run_get s), get?_of_mem h]
  dsimp only
  obtain ⟨answer, d⟩ := a.run.run (s.find label)
  rfl

theorem run_within_nowhere {label : String} (h : label ∉ s.declarations.keys) (a : Attempt Declaration Unit) :
    (within label a).run.run s = (.ok (), s) := by
  have hnone : s.declarations.get? label = none := OrderedMap.lookup_eq_none h
  rw [within, Attempt.run_bind_ok (Attempt.run_get s), hnone]
  rfl

/-! ## All or nothing -/

theorem allOrNothing_addMany (batch : List Item) : (addMany batch).AllOrNothing := by
  refine Attempt.allOrNothing_of_cases fun s => ?_
  rw [run_addMany]
  cases labels? batch with
  | ok labels => exact Or.inl ⟨_, _, rfl⟩
  | error m => exact Or.inr ⟨m, rfl⟩

theorem allOrNothing_renew (batch : List Item) : (renew batch).AllOrNothing := by
  refine Attempt.allOrNothing_of_cases fun s => ?_
  rw [run_renew]
  cases labels? batch with
  | ok labels => exact Or.inl ⟨_, _, rfl⟩
  | error m => exact Or.inr ⟨m, rfl⟩

theorem allOrNothing_add (item : Item) : (add item).AllOrNothing := by
  cases item with
  | declaration label => exact Attempt.allOrNothing_of_cases fun _ => Or.inl ⟨_, _, rfl⟩
  | foreign value =>
    rcases add_foreign_cases value with ⟨-, hrefused⟩ | ⟨batch, -, hbatch⟩
    · rw [hrefused]
      exact Attempt.allOrNothing_of_cases fun _ => Or.inr ⟨_, rfl⟩
    · rw [hbatch]
      exact allOrNothing_addMany batch

theorem allOrNothing_sort (turned : Bool) : (sort turned).AllOrNothing := by
  refine Attempt.allOrNothing_of_cases fun s => ?_
  rcases s.sort_cases with ⟨-, hrefused⟩ | ⟨-, sorted, -, hdone⟩
  · exact Or.inr ⟨_, hrefused turned⟩
  · exact Or.inl ⟨_, _, hdone turned⟩

/-- A declaration that is left as it was is put back in its place. -/
theorem allOrNothing_within (label : String) {a : Attempt Declaration Unit} (ha : a.AllOrNothing) :
    (within label a).AllOrNothing := by
  intro s m t hrun
  by_cases h : label ∈ s.declarations.keys
  · obtain ⟨hfailed, rfl⟩ := Prod.mk.inj ((run_within h a).symm.trans hrun)
    have hkept : (a.run.run (s.find label)).2 = s.find label := ha _ m _ (Prod.ext hfailed rfl)
    rw [hkept, put, OrderedMap.insert_of_get? (get?_of_mem h)]
  · cases (run_within_nowhere h a).symm.trans hrun

theorem Change.allOrNothing (c : Change) : c.attempt.AllOrNothing := by
  cases c with
  | renew batch => exact allOrNothing_renew batch
  | add item => exact allOrNothing_add item
  | addMany batch => exact allOrNothing_addMany batch
  | addSelf => exact Attempt.allOrNothing_of_cases fun s => Or.inl ⟨_, _, run_addSelf s⟩
  | addEach => exact Attempt.allOrNothing_of_cases fun s => Or.inl ⟨_, _, run_addEach s⟩
  | sort turned => exact allOrNothing_sort turned
  | selectorText label text =>
    rw [Change.attempt]
    exact allOrNothing_within label (Declaration.allOrNothing_setSelectorText text)
  | property label name value =>
    rw [Change.attempt]
    exact allOrNothing_within label (Declaration.allOrNothing_add name value)

theorem changed_of_refused {m : Misuse} (h : s.change? c = .error m) : s.changed c = s :=
  c.allOrNothing.left_eq h

/-! ## Changes -/

theorem change?_addMany (s : Shelf) (batch : List Item) :
    s.change? (.addMany batch) = (labels? batch).map fun labels => { s with order := s.order ++ labels } := by
  have hresult : s.change? (.addMany batch) = (addMany batch).result? s := rfl
  rw [hresult, Attempt.result?, run_addMany]
  cases labels? batch <;> rfl

theorem change?_renew (s : Shelf) (batch : List Item) :
    s.change? (.renew batch) = (labels? batch).map fun labels => { s with order := labels } := by
  have hresult : s.change? (.renew batch) = (renew batch).result? s := rfl
  rw [hresult, Attempt.result?, run_renew]
  cases labels? batch <;> rfl

theorem change?_foreign_cases (s : Shelf) (value : Foreign) :
    (members? value = none ∧ s.change? (.add (.foreign value)) = .error (.notIterable value.kindName)) ∨
      ∃ batch, members? value = some batch ∧ s.change? (.add (.foreign value)) = s.change? (.addMany batch) := by
  have hresult : s.change? (.add (.foreign value)) = (add (.foreign value)).result? s := rfl
  rw [hresult]
  rcases add_foreign_cases value with ⟨hnone, hthrown⟩ | ⟨batch, hmembers, hbatch⟩
  · rw [hthrown]
    exact Or.inl ⟨hnone, rfl⟩
  · rw [hbatch]
    exact Or.inr ⟨batch, hmembers, rfl⟩

theorem change?_addSelf (s : Shelf) : s.change? .addSelf = .ok { s with order := s.order ++ s.order } :=
  Attempt.result?_of_ok (run_addSelf s)

theorem change?_addEach (s : Shelf) : s.change? .addEach = .ok { s with order := s.order ++ s.order } :=
  Attempt.result?_of_ok (run_addEach s)

theorem selectorText_cases {label : String} (hl : label ∈ s.declarations.keys) (text : String) :
    (Text.allBlank text = true ∧ s.change? (.selectorText label text) = .error .blankSelector) ∨
    (Text.allBlank text = false ∧ ∃ x, (s.find label).selector.withText? text = .ok x ∧
      s.change? (.selectorText label text) = .ok (s.put label { s.find label with selector := x })) := by
  have hrun := run_within hl (Declaration.setSelectorText text)
  cases hblank : Text.allBlank text with
  | true =>
    rw [Declaration.run_setSelectorText_blank hblank] at hrun
    exact Or.inl ⟨rfl, Attempt.result?_of_error hrun⟩
  | false =>
    have hx := Selector.withText?_of_text hblank (s.find label).selector
    rw [Declaration.run_setSelectorText_ok hx] at hrun
    exact Or.inr ⟨rfl, _, hx, Attempt.result?_of_ok hrun⟩

/-- A change that is done, and the shelf after it. -/
inductive Done (s : Shelf) : Change → Shelf → Prop
  | renew (labels : List String) : Done s (.renew (labels.map .declaration)) { s with order := labels }
  | add (label : String) : Done s (.add (.declaration label)) { s with order := s.order ++ [label] }
  /-- Nothing is in the value, so nothing is added. -/
  | addNothing (value : Foreign) : members? value = some [] → Done s (.add (.foreign value)) s
  | addMany (labels : List String) :
      Done s (.addMany (labels.map .declaration)) { s with order := s.order ++ labels }
  | addSelf : Done s .addSelf { s with order := s.order ++ s.order }
  | addEach : Done s .addEach { s with order := s.order ++ s.order }
  | sort (turned : Bool) (sorted : List String) : ¬ s.HoldsBothKinds → StablySorted s.specificityOf s.order sorted →
      Done s (.sort turned) { s with order := if turned then sorted.reverse else sorted }
  | selectorText (label text : String) (x : Selector) : label ∈ s.declarations.keys →
      (s.find label).selector.withText? text = .ok x →
      Done s (.selectorText label text) (s.put label { s.find label with selector := x })
  | property (label name value : String) : label ∈ s.declarations.keys → Done s (.property label name (some value))
      (s.put label { s.find label with properties := (s.find label).properties.insert name value })
  /-- The label is not in use, so there is nothing to write to. -/
  | nowhere (label : String) (c : Change) : label ∉ s.declarations.keys →
      (∃ text, c = .selectorText label text) ∨ (∃ name value, c = .property label name value) → Done s c s

theorem done_of_ok (h : s.change? c = .ok t) : Done s c t := by
  cases c with
  | renew batch =>
    obtain ⟨labels, hlabels, rfl⟩ := exists_of_map_ok ((s.change?_renew batch).symm.trans h)
    rw [labels?_eq_ok_iff.mp hlabels]
    exact .renew labels
  | add item =>
    cases item with
    | declaration label =>
      obtain rfl := Except.ok.inj h
      exact .add label
    | foreign value =>
      rcases s.change?_foreign_cases value with ⟨-, hrefused⟩ | ⟨batch, hmembers, hbatch⟩
      · cases hrefused.symm.trans h
      · replace h := (s.change?_addMany batch).symm.trans (hbatch.symm.trans h)
        rcases members_cases hmembers with rfl | ⟨first, rest, rfl⟩
        · have hsame : { s with order := s.order ++ [] } = t := Except.ok.inj h
          rw [← hsame, List.append_nil]
          exact .addNothing value hmembers
        · cases h
  | addMany batch =>
    obtain ⟨labels, hlabels, rfl⟩ := exists_of_map_ok ((s.change?_addMany batch).symm.trans h)
    rw [labels?_eq_ok_iff.mp hlabels]
    exact .addMany labels
  | addSelf =>
    obtain rfl := Except.ok.inj (s.change?_addSelf.symm.trans h)
    exact .addSelf
  | addEach =>
    obtain rfl := Except.ok.inj (s.change?_addEach.symm.trans h)
    exact .addEach
  | sort turned =>
    rcases s.sort?_cases with ⟨-, hrefused⟩ | ⟨hone, sorted, hsorted, hdone⟩
    · cases (hrefused turned).symm.trans h
    · obtain rfl := Except.ok.inj ((hdone turned).symm.trans h)
      exact .sort turned sorted hone hsorted
  | selectorText label text =>
    by_cases hl : label ∈ s.declarations.keys
    · rcases selectorText_cases hl text with ⟨-, hrefused⟩ | ⟨-, x, hx, hdone⟩
      · cases hrefused.symm.trans h
      · obtain rfl := Except.ok.inj (hdone.symm.trans h)
        exact .selectorText label text x hl hx
    · have hrun := run_within_nowhere hl (Declaration.setSelectorText text)
      obtain rfl := Except.ok.inj ((Attempt.result?_of_ok hrun).symm.trans h)
      exact .nowhere label _ hl (Or.inl ⟨text, rfl⟩)
  | property label name value =>
    by_cases hl : label ∈ s.declarations.keys
    · have hrun := run_within hl (Declaration.add name value)
      cases value with
      | none => cases (Attempt.result?_of_error hrun).symm.trans h
      | some value =>
        obtain rfl := Except.ok.inj ((Attempt.result?_of_ok hrun).symm.trans h)
        exact .property label name value hl
    · have hrun := run_within_nowhere hl (Declaration.add name value)
      obtain rfl := Except.ok.inj ((Attempt.result?_of_ok hrun).symm.trans h)
      exact .nowhere label _ hl (Or.inr ⟨name, value, rfl⟩)

/-- A change is refused and leaves everything as it was, or it is done. -/
theorem changed_cases (s : Shelf) (c : Change) :
    (∃ m, s.change? c = .error m ∧ s.changed c = s) ∨ (s.change? c = .ok (s.changed c) ∧ Done s c (s.changed c)) := by
  cases h : s.change? c with
  | error m => exact Or.inl ⟨m, rfl, changed_of_refused h⟩
  | ok t =>
    rw [changed_of_done h]
    exact Or.inr ⟨rfl, done_of_ok h⟩

end Shelf

end AttributeSheet
