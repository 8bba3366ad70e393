/-
  AttributeSheet.Proofs.ListContents — what a list holds after any use of it.

  A list is made of a batch, things are added to it, it is sorted and it is copied; the
  copies are written over in any way (`Use`, `Desk`). Beside the list goes a tally of the
  labels that have been added, told by what each change asks for (`tally`, `additions`):
  a batch counts with all of its declarations or not at all.

  One change does to the list what it does to the tally, up to order (`changed_perm_tally`),
  and exactly that if it is no sort (`order_changed`). So at every moment the list holds
  the labels of the tally, each as often as it was added; and what was added since the
  last sort stands behind what that sort left, in the order in which it was added.
-/
import AttributeSheet.Proofs.ShelfChanges

namespace AttributeSheet.Shelf

/-! ## Copies -/

structure Desk where
  shelf : Shelf
  copies : List (List String)

/-- A change of the list, a new copy of it, or one of the copies written over. -/
inductive Use where
  | change (c : Change)
  | copy
  | write (i : Nat) (labels : List String)

def Use.change? : Use → Option Change
  | change c => some c
  | copy | write _ _ => none

def Desk.used (d : Desk) : Use → Desk
  | .change c => { d with shelf := d.shelf.changed c }
  | .copy => { d with copies := d.copies ++ [d.shelf.order] }
  | .write i labels => { d with copies := d.copies.set i labels }

theorem shelf_used (d : Desk) (uses : List Use) :
    (uses.foldl Desk.used d).shelf = (uses.filterMap Use.change?).foldl changed d.shelf := by
  induction uses generalizing d with
  | nil => rfl
  | cons use uses ih =>
    rw [List.foldl_cons, ih]
    cases use <;> rfl

/-! ## The tally -/

/-- The labels of a batch of declarations; none if there is something else in it. -/
def batchLabels? (batch : List Item) : Option (List String) := batch.mapM Item.label?

/-- What has been added, with what a change adds. A list that is made anew begins with
    its batch. -/
def tally (s : Shelf) (told : List String) : Change → List String
  | .renew batch => (batchLabels? batch).getD told
  | .add item => told ++ item.label?.toList
  | .addMany batch => told ++ (batchLabels? batch).getD []
  | .addSelf | .addEach => told ++ s.order
  | .sort _ | .selectorText _ _ | .property _ _ _ => told

def additions (s : Shelf) (told : List String) : List Change → List String
  | [] => told
  | c :: cs => (s.changed c).additions (s.tally told c) cs

variable {s t : Shelf} {c : Change} {told told' : List String}

theorem batchLabels?_declarations (labels : List String) : batchLabels? (labels.map .declaration) = some labels := by
  induction labels with
  | nil => rfl
  | cons label labels ih =>
    rw [batchLabels?] at ih ⊢
    rw [List.map_cons, List.mapM_cons, ih]
    rfl

theorem batchLabels?_foreign (labels : List String) (value : Foreign) (rest : List Item) :
    batchLabels? (labels.map .declaration ++ .foreign value :: rest) = none := by
  induction labels with
  | nil => rfl
  | cons label labels ih =>
    rw [batchLabels?] at ih ⊢
    rw [List.map_cons, List.cons_append, List.mapM_cons, ih]
    rfl

theorem batchLabels?_of_refused {batch : List Item} {m : Misuse} (h : labels? batch = .error m) :
    batchLabels? batch = none := by
  rcases batch_cases batch with ⟨labels, rfl⟩ | ⟨labels, value, rest, rfl⟩
  · cases (labels?_declarations labels).symm.trans h
  · exact batchLabels?_foreign labels value rest

theorem tally_of_refused {m : Misuse} (h : s.change? c = .error m) (told : List String) : s.tally told c = told := by
  cases c with
  | renew batch =>
    rw [change?_renew] at h
    cases hlabels : labels? batch with
    | ok labels => rw [hlabels] at h; cases h
    | error m' => rw [tally, batchLabels?_of_refused hlabels, Option.getD_none]
  | add item =>
    cases item with
    | declaration label => cases h
    | foreign value => exact List.append_nil told
  | addMany batch =>
    rw [change?_addMany] at h
    cases hlabels : labels? batch with
    | ok labels => rw [hlabels] at h; cases h
    | error m' => rw [tally, batchLabels?_of_refused hlabels, Option.getD_none, List.append_nil]
  | addSelf => cases s.change?_addSelf.symm.trans h
  | addEach => cases s.change?_addEach.symm.trans h
  | sort turned => rfl
  | selectorText label text => rfl
  | property label name value => rfl

/-- Every change but a sort does to the list what it does to the tally. -/
theorem order_changed (s : Shelf) (hc : ∀ turned, c ≠ .sort turned) : (s.changed c).order = s.tally s.order c := by
  rcases s.changed_cases c with ⟨m, hrefused, hsame⟩ | ⟨-, hdone⟩
  · rw [hsame, tally_of_refused hrefused]
  · generalize s.changed c = t at hdone
    cases hdone with
    | renew labels => rw [tally, batchLabels?_declarations, Option.getD_some]
    | add label => rfl
    | addNothing value hvalue => exact (List.append_nil s.order).symm
    | addMany labels => rw [tally, batchLabels?_declarations, Option.getD_some]
    | addSelf | addEach => rfl
    | sort turned sorted hone hsorted => exact absurd rfl (hc turned)
    | selectorText label text x hl hx => rfl
    | property label name value hl => rfl
    | nowhere label c hl hkind => rcases hkind with ⟨text, rfl⟩ | ⟨name, value, rfl⟩ <;> rfl

theorem sort_perm (s : Shelf) (turned : Bool) : (s.changed (.sort turned)).order.Perm s.order := by
  rcases s.sort?_cases with ⟨-, hrefused⟩ | ⟨-, sorted, hsorted, hdone⟩
  · rw [changed_of_refused (c := .sort turned) (hrefused turned)]
  · rw [changed_of_done (c := .sort turned) (hdone turned)]
    cases turned with
    | false => exact hsorted.perm
    | true => exact (List.reverse_perm sorted).trans hsorted.perm

theorem tally_perm (h : told.Perm told') (s : Shelf) (c : Change) : (s.tally told c).Perm (s.tally told' c) := by
  cases c with
  | renew batch =>
    rw [tally, tally]
    cases batchLabels? batch with
    | none => exact h
    | some labels => exact List.Perm.refl labels
  | add | addMany | addSelf | addEach => exact h.append_right _
  | sort | selectorText | property => exact h

/-- The list goes on holding what was added. -/
theorem changed_perm_tally (h : s.order.Perm told) (c : Change) : (s.changed c).order.Perm (s.tally told c) := by
  by_cases hc : ∃ turned, c = .sort turned
  · obtain ⟨turned, rfl⟩ := hc
    exact (s.sort_perm turned).trans h
  · rw [s.order_changed fun turned he => hc ⟨turned, he⟩]
    exact tally_perm h s c

/-! ## Runs -/

theorem order_perm_additions (h : s.order.Perm told) (cs : List Change) :
    (cs.foldl changed s).order.Perm (s.additions told cs) := by
  induction cs generalizing s told with
  | nil => exact h
  | cons c cs ih => exact ih (changed_perm_tally h c)

/-- Where nothing is sorted, the list is what was added, in that order. -/
theorem order_eq_additions (s : Shelf) (cs : List Change) (hcs : ∀ turned, .sort turned ∉ cs) :
    (cs.foldl changed s).order = s.additions s.order cs := by
  induction cs generalizing s with
  | nil => rfl
  | cons c cs ih =>
    have hc : ∀ turned, c ≠ .sort turned := by
      rintro turned rfl
      exact hcs turned List.mem_cons_self
    rw [List.foldl_cons, ih _ fun turned h => hcs turned (List.mem_cons_of_mem c h), s.order_changed hc]
    rfl

theorem additions_eq_append (s : Shelf) (told : List String) {cs : List Change} (hcs : ∀ batch, .renew batch ∉ cs) :
    s.additions told cs = told ++ s.additions [] cs := by
  induction cs generalizing s told with
  | nil => exact (List.append_nil told).symm
  | cons c cs ih =>
    have hrest : ∀ batch, .renew batch ∉ cs := fun batch h => hcs batch (List.mem_cons_of_mem c h)
    have htally : s.tally told c = told ++ s.tally [] c := by
      cases c with
      | renew batch => exact absurd List.mem_cons_self (hcs batch)
      | add | addMany | addSelf | addEach => simp [tally]
      | sort | selectorText | property => exact (List.append_nil told).symm
    rw [additions, additions, ih _ _ hrest, ih _ (s.tally [] c) hrest, htally, List.append_assoc]

theorem batch_refused (s : Shelf) {batch : List Item} (h : ∃ value, .foreign value ∈ batch) :
    ∃ (labels : List String) (value : Foreign) (rest : List Item),
      batch = labels.map .declaration ++ .foreign value :: rest ∧
      (s.change? (.addMany batch) = .error (.notADeclaration value.kindName) ∧ s.changed (.addMany batch) = s) ∧
      s.change? (.renew batch) = .error (.notADeclaration value.kindName) ∧ s.changed (.renew batch) = s := by
  rcases batch_cases batch with ⟨labels, rfl⟩ | ⟨labels, value, rest, rfl⟩
  · obtain ⟨value, hvalue⟩ := h
    simp at hvalue
  · have hmany := s.change?_addMany (labels.map .declaration ++ .foreign value :: rest)
    have hnew := s.change?_renew (labels.map .declaration ++ .foreign value :: rest)
    rw [labels?_foreign] at hmany hnew
    exact ⟨labels, value, rest, rfl, ⟨hmany, changed_of_refused hmany⟩, hnew, changed_of_refused hnew⟩

/-- What is no declaration adds nothing: it cannot be iterated over, or it holds nothing,
    or the first thing in it is refused. -/
theorem foreign_adds_nothing (s : Shelf) (value : Foreign) :
    s.changed (.add (.foreign value)) = s ∧
      ((members? value = none ∧ s.change? (.add (.foreign value)) = .error (.notIterable value.kindName)) ∨
        (members? value = some [] ∧ s.change? (.add (.foreign value)) = .ok s) ∨
        ∃ first rest, members? value = some (.foreign first :: rest) ∧
          s.change? (.add (.foreign value)) = .error (.notADeclaration first.kindName)) := by
  rcases s.change?_foreign_cases value with ⟨hnone, hrefused⟩ | ⟨batch, hmembers, hbatch⟩
  · exact ⟨changed_of_refused hrefused, Or.inl ⟨hnone, hrefused⟩⟩
  · rw [change?_addMany] at hbatch
    rcases members_cases hmembers with rfl | ⟨first, rest, rfl⟩
    · have hdone : s.change? (.add (.foreign value)) = .ok s := by
        rw [hbatch, labels?, Except.map, List.append_nil]
      exact ⟨changed_of_done hdone, Or.inr (Or.inl ⟨hmembers, hdone⟩)⟩
    · have hrefused : s.change? (.add (.foreign value)) = .error (.notADeclaration first.kindName) := hbatch
      exact ⟨changed_of_refused hrefused, Or.inr (Or.inr ⟨first, rest, hmembers, hrefused⟩)⟩

/-- Wherever a run has come to, for the list as it is then:
    what was done to copies does not matter to it;
    it holds what has been added, each label as often as it was;
    if nothing was sorted since some moment, it is what has been added to the list of that
    moment, behind that list if it is still the same one;
    a batch with something in it that is no declaration is refused and changes nothing,
    and what is itself no declaration adds nothing;
    the list added to itself, at once or in a walk through it, is there twice. -/
theorem contents_told (s : Shelf) (copies : List (List String)) (uses : List Use) :
    let changes := uses.filterMap Use.change?
    let t := (uses.foldl Desk.used ⟨s, copies⟩).shelf
    t = changes.foldl changed s ∧
    t.order.Perm (s.additions s.order changes) ∧
    (∀ earlier later, changes = earlier ++ later → (∀ turned, .sort turned ∉ later) →
      t.order = (earlier.foldl changed s).additions (earlier.foldl changed s).order later ∧
      ((∀ batch, .renew batch ∉ later) →
        t.order = (earlier.foldl changed s).order ++ (earlier.foldl changed s).additions [] later)) ∧
    (∀ batch, (∃ value, .foreign value ∈ batch) → ∃ (labels : List String) (value : Foreign) (rest : List Item),
      batch = labels.map .declaration ++ .foreign value :: rest ∧
      (t.change? (.addMany batch) = .error (.notADeclaration value.kindName) ∧ t.changed (.addMany batch) = t) ∧
      t.change? (.renew batch) = .error (.notADeclaration value.kindName) ∧ t.changed (.renew batch) = t) ∧
    (∀ value, t.changed (.add (.foreign value)) = t ∧
      ((members? value = none ∧ t.change? (.add (.foreign value)) = .error (.notIterable value.kindName)) ∨
        (members? value = some [] ∧ t.change? (.add (.foreign value)) = .ok t) ∨
        ∃ first rest, members? value = some (.foreign first :: rest) ∧
          t.change? (.add (.foreign value)) = .error (.notADeclaration first.kindName))) ∧
    t.change? .addSelf = .ok { t with order := t.order ++ t.order } ∧
    t.change? .addEach = .ok { t with order := t.order ++ t.order } := by
  intro changes t
  have hrun : t = changes.foldl changed s := shelf_used ⟨s, copies⟩ uses
  refine ⟨hrun, ?_, ?_, fun batch => t.batch_refused, t.foreign_adds_nothing, t.change?_addSelf, t.change?_addEach⟩
  · rw [hrun]
    exact order_perm_additions (List.Perm.refl s.order) changes
  · intro earlier later hsplit hsorts
    have horder : t.order = (earlier.foldl changed s).additions (earlier.foldl changed s).order later := by
      rw [hrun, hsplit, List.foldl_append]
      exact order_eq_additions _ later hsorts
    refine ⟨horder, fun hnew => ?_⟩
    rw [horder, additions_eq_append _ _ hnew]

/-- A copy that is emptied, a walk that adds what it meets, and a batch of which nothing
    is added. -/
example :
    let uses : List Use := [.change (.renew [.declaration "a", .declaration "b"]), .copy, .write 0 [], .change .addEach,
      .change (.addMany [.declaration "c", .foreign .null])]
    (uses.foldl Desk.used ⟨⟨.empty, []⟩, []⟩).shelf.order = ["a", "b", "a", "b"] := by decide

end AttributeSheet.Shelf
