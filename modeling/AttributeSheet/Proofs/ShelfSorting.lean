/-
  AttributeSheet.Proofs.ShelfSorting — sorting a shared list, all of it or nothing.

  The list of a shelf is sorted by what the selectors are at that moment, and a sort has
  one of two ends (`sort_cases`): it is refused because specificities of both kinds are
  listed, or it puts the labels in order. Whether it is refused does not depend on the
  direction, and a list that is in order stays as it is (`StablySorted.eq_self`). No
  declaration is changed, and a refused sort changes nothing at all
  (`sort_stable_or_refused`).
-/
import AttributeSheet.Shelf
import AttributeSheet.Proofs.StableOrder

namespace AttributeSheet

theorem StablySorted.eq_self {α : Type} {key : α → Specificity} {l s s' : List α} (h : StablySorted key l s)
    (h' : StablySorted key s s') : s' = s :=
  (h.trans h').unique h

namespace Shelf

def specificityOf (s : Shelf) (label : String) : Specificity := (s.find label).selector.specificity

def HoldsBothKinds (s : Shelf) : Prop :=
  (∃ label ∈ s.order, (s.specificityOf label).isNumber = true) ∧
    ∃ label ∈ s.order, (s.specificityOf label).isNumber = false

/-- The two ends of sorting a shelf. -/
theorem sort_cases (s : Shelf) :
    (s.HoldsBothKinds ∧ ∀ turned, (sort turned).run.run s = (.error .mixedModes, s)) ∨
      (¬ s.HoldsBothKinds ∧ ∃ sorted, StablySorted s.specificityOf s.order sorted ∧
        ∀ turned, (sort turned).run.run s = (.ok (), { s with order := if turned then sorted.reverse else sorted })) := by
  have hrun : ∀ turned, (sort turned).run.run s =
      match sortBySpecificity? s.specificityOf turned s.order with
      | .ok order => (.ok (), { s with order := order })
      | .error m => (.error m, s) := by
    intro turned
    rw [sort, Attempt.run_bind_ok (Attempt.run_get s)]
    show (liftM (sortBySpecificity? s.specificityOf turned s.order) >>= _ : Attempt Shelf Unit).run.run s = _
    rw [Attempt.run_bind, Attempt.run_lift]
    cases sortBySpecificity? s.specificityOf turned s.order <;> rfl
  rcases sortBySpecificity?_cases s.specificityOf s.order with ⟨hboth, hsort⟩ | ⟨hone, hsort⟩
  · exact Or.inl ⟨hboth, fun turned => by rw [hrun, hsort]⟩
  · exact Or.inr ⟨hone, _, groupBySpecificity_sorts s.specificityOf s.order, fun turned => by rw [hrun, hsort]⟩

theorem sort?_cases (s : Shelf) :
    (s.HoldsBothKinds ∧ ∀ turned, s.sort? turned = .error .mixedModes) ∨
      (¬ s.HoldsBothKinds ∧ ∃ sorted, StablySorted s.specificityOf s.order sorted ∧
        ∀ turned, s.sort? turned = .ok { s with order := if turned then sorted.reverse else sorted }) := by
  rcases s.sort_cases with ⟨hboth, hrun⟩ | ⟨hone, sorted, hs, hrun⟩
  · exact Or.inl ⟨hboth, fun turned => Attempt.result?_of_error (hrun turned)⟩
  · exact Or.inr ⟨hone, sorted, hs, fun turned => Attempt.result?_of_ok (hrun turned)⟩

theorem not_holdsBothKinds_of_perm {s : Shelf} {order : List String} (hone : ¬ s.HoldsBothKinds) (h : order.Perm s.order) :
    ¬ ({ s with order := order } : Shelf).HoldsBothKinds := by
  rintro ⟨⟨x, hx, hnumber⟩, y, hy, hcounts⟩
  exact hone ⟨⟨x, h.mem_iff.mp hx, hnumber⟩, y, h.mem_iff.mp hy, hcounts⟩

theorem sort?_sorted {s : Shelf} {sorted : List String} (hone : ¬ s.HoldsBothKinds)
    (h : StablySorted s.specificityOf s.order sorted) :
    ({ s with order := sorted } : Shelf).sort? false = .ok { s with order := sorted } := by
  rcases sort?_cases { s with order := sorted } with ⟨hboth, -⟩ | ⟨-, again, hagain, hdone⟩
  · exact absurd hboth (not_holdsBothKinds_of_perm hone h.perm)
  · rw [hdone false, h.eq_self hagain]
    rfl

theorem changed_of_done {s t : Shelf} {c : Change} (h : s.change? c = .ok t) : s.changed c = t :=
  Attempt.left_of_result h

/-- If the list holds specificities of both kinds, sorting is refused and nothing is
    changed. If not, there is a list that has the labels of the old one, ascends in the
    specificities as they are now and has the labels of each specificity in their old
    order; sorting puts it in the old one's place, and sorting in the turned order puts
    its reverse there. Sorting what is sorted changes nothing. -/
theorem sort_stable_or_refused (s : Shelf) :
    ((s.HoldsBothKinds ∧
        ∀ turned, s.sort? turned = .error .mixedModes ∧ s.changed (.sort turned) = s) ∨
      (¬ s.HoldsBothKinds ∧ ∃ sorted,
        sorted.Perm s.order ∧
        sorted.Pairwise (fun x y => (s.specificityOf x).le (s.specificityOf y) = true) ∧
        (∀ level, sorted.filter (fun x => s.specificityOf x = level) =
          s.order.filter fun x => s.specificityOf x = level) ∧
        ∀ turned, s.sort? turned = .ok { s with order := if turned then sorted.reverse else sorted } ∧
          s.changed (.sort turned) = { s with order := if turned then sorted.reverse else sorted })) ∧
    (∀ t, s.sort? false = .ok t → t.sort? false = .ok t) ∧
    (s.changed (.sort false)).changed (.sort false) = s.changed (.sort false) := by
  rcases s.sort_cases with ⟨hboth, hrun⟩ | ⟨hone, sorted, hs, hrun⟩
  · have hrefused : ∀ turned, s.sort? turned = .error .mixedModes := fun turned => Attempt.result?_of_error (hrun turned)
    have hkept : ∀ turned, s.changed (.sort turned) = s := fun turned => Attempt.left_of_run (hrun turned)
    refine ⟨Or.inl ⟨hboth, fun turned => ⟨hrefused turned, hkept turned⟩⟩, fun t ht => ?_, ?_⟩
    · rw [hrefused] at ht
      cases ht
    · rw [hkept, hkept]
  · have hdone := fun turned => Attempt.result?_of_ok (hrun turned)
    have hagain : ({ s with order := sorted } : Shelf).sort? false = .ok { s with order := sorted } :=
      sort?_sorted hone hs
    have hchanged : s.changed (.sort false) = { s with order := sorted } := changed_of_done (hdone false)
    have hunchanged : ({ s with order := sorted } : Shelf).changed (.sort false) = { s with order := sorted } :=
      changed_of_done hagain
    refine ⟨Or.inr ⟨hone, sorted, hs.perm, hs.ascending, hs.groups_kept,
      fun turned => ⟨hdone turned, changed_of_done (hdone turned)⟩⟩, fun t ht => ?_, ?_⟩
    · obtain rfl := Except.ok.inj ((hdone false).symm.trans ht)
      exact hagain
    · rw [hchanged, hunchanged]

end Shelf

end AttributeSheet
