/-
  AttributeSheet.Proofs.StableOrder — ascending order that keeps equals as they stood.

  `StablySorted key l sorted` says what a sort has to give: the items in ascending
  order of their keys, and those of one key exactly as they stand in `l`. At most one
  list is that (`StablySorted.unique`), it has the items of `l` and no others
  (`StablySorted.perm`), and grouping by specificity gives it (`groupBySpecificity_sorts`).

  Levels of one kind are put in order as they would be if all could be compared; of both
  kinds, two that cannot be are compared sooner or later (`sortLevels?_of_both`). So a sort
  fails exactly where both kinds occur (`sortBySpecificity?_cases`).

  Of the items that fit some purpose, the last one in that order is the greatest one in
  `l`, the later of two equals being the greater (`StablySorted.greatestOf`); the last
  one in the turned order is the least (`StablySorted.leastOf`).
-/
import AttributeSheet.CascadeOrder
import Mathlib.Data.List.Perm.Basic
import Mathlib.Data.List.Sort

namespace AttributeSheet

/-! ## The order of specificities -/

namespace Buckets

theorem le_total (x y : Buckets) : (x.le y || y.le x) = true := by
  simp only [le, Bool.or_eq_true, Bool.and_eq_true, decide_eq_true_eq, beq_iff_eq]; omega

theorem le_trans {x y z : Buckets} (h : x.le y = true) (k : y.le z = true) : x.le z = true := by
  simp only [le, Bool.or_eq_true, Bool.and_eq_true, decide_eq_true_eq, beq_iff_eq] at *; omega

theorem le_antisymm {x y : Buckets} (h : x.le y = true) (k : y.le x = true) : x = y := by
  obtain ⟨a, b, c⟩ := x
  obtain ⟨a', b', c'⟩ := y
  simp only [le, Bool.or_eq_true, Bool.and_eq_true, decide_eq_true_eq, beq_iff_eq] at h k
  simp only [mk.injEq]; omega

end Buckets

namespace Specificity

theorem le_total (x y : Specificity) : (x.le y || y.le x) = true := by
  cases x with
  | number m => cases y with
    | number n => simp only [le, Bool.or_eq_true, decide_eq_true_eq]; omega
    | counts b => rfl
  | counts a => cases y with
    | number n => rfl
    | counts b => exact Buckets.le_total a b

theorem le_refl (x : Specificity) : x.le x = true := by simpa using le_total x x

theorem le_trans {x y z : Specificity} (h : x.le y = true) (k : y.le z = true) : x.le z = true := by
  cases x with
  | number m => cases y with
    | number n => cases z with
      | number o => simp only [le, decide_eq_true_eq] at *; omega
      | counts c => rfl
    | counts b => cases z with
      | number o => cases k
      | counts c => rfl
  | counts a => cases y with
    | number n => cases h
    | counts b => cases z with
      | number o => cases k
      | counts c => exact Buckets.le_trans h k

theorem le_antisymm {x y : Specificity} (h : x.le y = true) (k : y.le x = true) : x = y := by
  cases x with
  | number m => cases y with
    | number n => simp only [le, decide_eq_true_eq] at h k; rw [Nat.le_antisymm h k]
    | counts b => cases k
  | counts a => cases y with
    | number n => cases h
    | counts b => rw [Buckets.le_antisymm h k]

end Specificity

/-! ## Stable sorting -/

section

variable {α : Type} {key : α → Specificity}

/-- `sorted` holds the items of `l` in ascending order of their keys, the items of each
    key in the order they have in `l`. -/
structure StablySorted (key : α → Specificity) (l sorted : List α) : Prop where
  ascending : sorted.Pairwise fun x y => (key x).le (key y) = true
  groups_kept : ∀ level, sorted.filter (fun x => key x = level) = l.filter (fun x => key x = level)

namespace StablySorted

theorem mem_iff {l s : List α} (h : StablySorted key l s) {x : α} : x ∈ s ↔ x ∈ l := by
  have hg := h.groups_kept (key x)
  constructor
  · intro hx
    have : x ∈ s.filter (fun y => key y = key x) := List.mem_filter.mpr ⟨hx, by simp⟩
    rw [hg] at this
    exact List.mem_of_mem_filter this
  · intro hx
    have : x ∈ l.filter (fun y => key y = key x) := List.mem_filter.mpr ⟨hx, by simp⟩
    rw [← hg] at this
    exact List.mem_of_mem_filter this

theorem unique {l s s' : List α} (h : StablySorted key l s) (h' : StablySorted key l s') : s = s' := by
  have hmem : ∀ x, x ∈ s ↔ x ∈ s' := fun x => h.mem_iff.trans h'.mem_iff.symm
  have hg : ∀ level, s.filter (fun x => key x = level) = s'.filter (fun x => key x = level) :=
    fun level => (h.groups_kept level).trans (h'.groups_kept level).symm
  have hs := h.ascending
  have hs' := h'.ascending
  clear h h'
  -- The heads have the same key, since each is at most the other, and then head the same group.
  induction s generalizing s' with
  | nil => exact (List.eq_nil_iff_forall_not_mem.mpr fun x hx => by simpa using (hmem x).mpr hx).symm
  | cons x t ih =>
    cases s' with
    | nil => simpa using (hmem x).mp (by simp)
    | cons y t' =>
      obtain ⟨hx, ht⟩ := List.pairwise_cons.mp hs
      obtain ⟨hy, ht'⟩ := List.pairwise_cons.mp hs'
      have hxy : (key x).le (key y) = true := by
        rcases List.mem_cons.mp ((hmem y).mpr (by simp)) with rfl | hm
        · exact Specificity.le_refl _
        · exact hx y hm
      have hyx : (key y).le (key x) = true := by
        rcases List.mem_cons.mp ((hmem x).mp (by simp)) with rfl | hm
        · exact Specificity.le_refl _
        · exact hy x hm
      have hkey := Specificity.le_antisymm hxy hyx
      have hhead := hg (key x)
      simp only [List.filter_cons, hkey, decide_true, if_true, List.cons.injEq] at hhead
      obtain ⟨rfl, -⟩ := hhead
      have htail : ∀ level, t.filter (fun z => key z = level) = t'.filter (fun z => key z = level) := by
        intro level
        have := hg level
        by_cases hl : key x = level <;> simpa [List.filter_cons, hl] using this
      have hmem' : ∀ z, z ∈ t ↔ z ∈ t' := by
        intro z
        have := congrArg (z ∈ ·) (htail (key z))
        simpa using this
      rw [ih hmem' htail ht ht']

/-- Sorting what is sorted is sorting the list it came from. -/
theorem trans {l s s' : List α} (h : StablySorted key l s) (h' : StablySorted key s s') : StablySorted key l s' where
  ascending := h'.ascending
  groups_kept := fun level => (h'.groups_kept level).trans (h.groups_kept level)

theorem perm {l s : List α} (h : StablySorted key l s) : s.Perm l := by
  have hg := h.groups_kept
  clear h
  induction s generalizing l with
  | nil =>
    have : l = [] := List.eq_nil_iff_forall_not_mem.mpr fun x hx => by
      have := hg (key x)
      have hm : x ∈ l.filter (fun y => key y = key x) := List.mem_filter.mpr ⟨hx, by simp⟩
      rw [← this] at hm
      cases hm
    rw [this]
  | cons x t ih =>
    -- The head stands in `l` before all others of its key; taking it out leaves the rest's groups.
    have hx := hg (key x)
    simp only [List.filter_cons, decide_true, if_true] at hx
    obtain ⟨a, b, rfl, hnone, -, hb⟩ := List.filter_eq_cons_iff.mp hx.symm
    have ha : a.filter (fun y => key y = key x) = [] := List.filter_eq_nil_iff.mpr hnone
    have hrest : t.Perm (a ++ b) := by
      apply ih
      intro level
      have := hg level
      by_cases hl : key x = level
      · subst hl; rw [List.filter_append, ha, hb, List.nil_append]
      · simpa [List.filter_cons, hl] using this
    exact (hrest.cons x).trans List.perm_middle.symm

end StablySorted

/-! ## Levels, by comparisons that may fail -/

/-- Every specificity that occurs, once, from the least to the greatest. -/
def specificityLevels (l : List Specificity) : List Specificity :=
  l.eraseDups.insertionSort fun x y => x.le y = true

theorem specificityLevels_ascending (l : List Specificity) :
    (specificityLevels l).Pairwise fun x y => x.le y = true := by
  have htotal : Std.Total fun x y : Specificity => x.le y = true := ⟨fun x y => by simpa using Specificity.le_total x y⟩
  have htrans : IsTrans Specificity fun x y => x.le y = true := ⟨fun _ _ _ => Specificity.le_trans⟩
  exact List.pairwise_insertionSort _ _

theorem mem_specificityLevels {l : List Specificity} {x : Specificity} : x ∈ specificityLevels l ↔ x ∈ l := by
  simp [specificityLevels]

theorem nodup_eraseDups : ∀ l : List Specificity, l.eraseDups.Nodup
  | [] => by simp
  | x :: l => by
    rw [List.eraseDups_cons, List.nodup_cons]
    exact ⟨by simp, nodup_eraseDups _⟩
  termination_by l => l.length
  decreasing_by
    have := List.length_filter_le (fun b => !b == x) l
    simp only [List.length_cons]; omega

theorem specificityLevels_nodup (l : List Specificity) : (specificityLevels l).Nodup :=
  (List.perm_insertionSort _ _).nodup_iff.mpr (nodup_eraseDups l)

theorem Specificity.lt?_of_kind {x y : Specificity} (h : y.isNumber = x.isNumber) : y.lt? x = .ok (!x.le y) := by
  cases x with
  | number m => cases y with
    | number n =>
      have hless : decide (n < m) = !decide (m ≤ n) := by
        rw [← decide_not]
        exact decide_eq_decide.mpr Nat.not_le.symm
      exact congrArg Except.ok hless
    | counts b => cases h
  | counts a => cases y with
    | number n => cases h
    | counts b => rfl

theorem Specificity.lt?_of_other {x y : Specificity} (h : y.isNumber ≠ x.isNumber) : y.lt? x = .error .mixedModes := by
  cases x <;> cases y <;> first | rfl | exact absurd rfl h

theorem insertLevel?_of_kind {x : Specificity} {l : List Specificity} (h : ∀ y ∈ l, y.isNumber = x.isNumber) :
    insertLevel? x l = .ok (l.orderedInsert (fun x y => x.le y = true) x) := by
  induction l with
  | nil => rfl
  | cons y l ih =>
    have hrest := ih fun z hz => h z (List.mem_cons_of_mem y hz)
    rw [insertLevel?, Specificity.lt?_of_kind (h y List.mem_cons_self), hrest]
    by_cases hle : x.le y = true <;> simp [hle, bind, Except.bind, pure, Except.pure]

theorem sortLevels?_of_kind {l : List Specificity} {b : Bool} (h : ∀ x ∈ l, x.isNumber = b) :
    sortLevels? l = .ok (l.insertionSort fun x y => x.le y = true) := by
  induction l with
  | nil => rfl
  | cons x l ih =>
    have hkind : ∀ y ∈ l.insertionSort fun x y => x.le y = true, y.isNumber = x.isNumber := by
      intro y hy
      have hmem : y ∈ l := (List.mem_insertionSort _).mp hy
      rw [h y (List.mem_cons_of_mem x hmem), h x List.mem_cons_self]
    rw [sortLevels?, ih fun y hy => h y (List.mem_cons_of_mem x hy)]
    exact insertLevel?_of_kind hkind

/-- Of both kinds, two that differ are compared at some time. -/
theorem sortLevels?_of_both {l : List Specificity} (hnumber : ∃ x ∈ l, x.isNumber = true)
    (hcounts : ∃ x ∈ l, x.isNumber = false) : sortLevels? l = .error .mixedModes := by
  induction l with
  | nil => simp at hnumber
  | cons x l ih =>
    by_cases hboth : (∃ y ∈ l, y.isNumber = true) ∧ ∃ y ∈ l, y.isNumber = false
    · rw [sortLevels?, ih hboth.1 hboth.2]
      rfl
    · -- The rest is of the other kind, and there is some of it.
      obtain ⟨y, hy, hother⟩ : ∃ y ∈ l, y.isNumber = !x.isNumber := by
        cases hx : x.isNumber with
        | true => simpa [hx] using hcounts
        | false => simpa [hx] using hnumber
      have hrest : ∀ z ∈ l, z.isNumber = !x.isNumber := by
        intro z hz
        by_contra hne
        refine hboth ?_
        cases hx : x.isNumber with
        | true => exact ⟨⟨z, hz, by simpa [hx] using hne⟩, y, hy, by simpa [hx] using hother⟩
        | false => exact ⟨⟨y, hy, by simpa [hx] using hother⟩, z, hz, by simpa [hx] using hne⟩
      rw [sortLevels?, sortLevels?_of_kind hrest]
      have hmem : ∀ z, z ∈ l.insertionSort (fun x y => x.le y = true) ↔ z ∈ l := fun z => List.mem_insertionSort _
      generalize l.insertionSort (fun x y => x.le y = true) = sorted at hmem
      cases sorted with
      | nil => simpa using (hmem y).mpr hy
      | cons z sorted =>
        have hne : z.isNumber ≠ x.isNumber := by
          rw [hrest z ((hmem z).mp List.mem_cons_self)]
          cases x.isNumber <;> decide
        show insertLevel? x (z :: sorted) = _
        rw [insertLevel?, Specificity.lt?_of_other hne]
        rfl

/-! ## Groups laid end to end -/

/-- The items of each specificity in their own order, the least specific first. -/
def groupBySpecificity (key : α → Specificity) (l : List α) : List α :=
  (specificityLevels (l.map key)).flatMap fun level => l.filter fun x => key x = level

/-- Of groups laid end to end, those of other levels than `level` leave nothing. -/
theorem flatMap_single_level {levels : List Specificity} (h : levels.Nodup) (level : Specificity) (x : List α) :
    levels.flatMap (fun v => if v = level then x else []) = if level ∈ levels then x else [] := by
  induction levels with
  | nil => simp
  | cons v levels ih =>
    obtain ⟨hv, hn⟩ := List.nodup_cons.mp h
    rw [List.flatMap_cons, ih hn]
    by_cases e : v = level
    · subst e; simp [hv]
    · simp [e, Ne.symm e]

theorem groupBySpecificity_sorts (key : α → Specificity) (l : List α) :
    StablySorted key l (groupBySpecificity key l) := by
  constructor
  · unfold groupBySpecificity
    rw [List.pairwise_flatMap]
    constructor
    · intro level _
      refine List.pairwise_of_forall_mem_list fun x hx y hy => ?_
      simp only [List.mem_filter, decide_eq_true_eq] at hx hy
      rw [hx.2, hy.2]; exact Specificity.le_refl _
    · refine (specificityLevels_ascending _).imp fun {a b} hab x hx y hy => ?_
      simp only [List.mem_filter, decide_eq_true_eq] at hx hy
      rw [hx.2, hy.2]; exact hab
  · intro level
    have hgroup : ∀ v, (l.filter (fun x => key x = v)).filter (fun x => key x = level) =
        if v = level then l.filter (fun x => key x = level) else [] := by
      intro v
      rw [List.filter_filter]
      by_cases e : v = level
      · subst e; simp
      · simp only [if_neg e, List.filter_eq_nil_iff, Bool.and_eq_true, decide_eq_true_eq, not_and]
        intro x _ h h'
        exact e (h'.symm.trans h)
    rw [groupBySpecificity, List.filter_flatMap]
    simp only [hgroup]
    rw [flatMap_single_level (specificityLevels_nodup _)]
    by_cases hm : level ∈ specificityLevels (l.map key)
    · rw [if_pos hm]
    · rw [if_neg hm, eq_comm, List.filter_eq_nil_iff]
      intro x hx e
      exact hm (mem_specificityLevels.mpr (List.mem_map.mpr ⟨x, hx, by simpa using e⟩))

theorem sortBySpecificity?_cases (key : α → Specificity) (l : List α) :
    (((∃ x ∈ l, (key x).isNumber = true) ∧ ∃ x ∈ l, (key x).isNumber = false) ∧
        ∀ turned, sortBySpecificity? key turned l = .error .mixedModes) ∨
      (¬ ((∃ x ∈ l, (key x).isNumber = true) ∧ ∃ x ∈ l, (key x).isNumber = false) ∧
        ∀ turned, sortBySpecificity? key turned l =
          .ok (if turned then (groupBySpecificity key l).reverse else groupBySpecificity key l)) := by
  have hlevel : ∀ b, (∃ x ∈ l, (key x).isNumber = b) ↔ ∃ x ∈ (l.map key).eraseDups, x.isNumber = b := by
    simp [List.mem_eraseDups]
  by_cases hboth : (∃ x ∈ l, (key x).isNumber = true) ∧ ∃ x ∈ l, (key x).isNumber = false
  · refine Or.inl ⟨hboth, fun turned => ?_⟩
    rw [hlevel, hlevel] at hboth
    rw [sortBySpecificity?, sortLevels?_of_both hboth.1 hboth.2]
    rfl
  · refine Or.inr ⟨hboth, fun turned => ?_⟩
    rw [hlevel, hlevel] at hboth
    obtain ⟨b, hkind⟩ : ∃ b, ∀ x ∈ (l.map key).eraseDups, x.isNumber = b := by
      by_cases hnumber : ∃ x ∈ (l.map key).eraseDups, x.isNumber = true
      · exact ⟨true, fun x hx => by_contra fun hne => hboth ⟨hnumber, x, hx, by simpa using hne⟩⟩
      · exact ⟨false, fun x hx => by simpa using fun e : x.isNumber = true => hnumber ⟨x, hx, e⟩⟩
    rw [sortBySpecificity?, sortLevels?_of_kind hkind]
    rfl

theorem sortBySpecificity?_of_oneKind {l : List α} {b : Bool} (h : ∀ x ∈ l, (key x).isNumber = b) (turned : Bool) :
    ∃ sorted, StablySorted key l sorted ∧
      sortBySpecificity? key turned l = .ok (if turned then sorted.reverse else sorted) := by
  rcases sortBySpecificity?_cases key l with ⟨⟨⟨x, hx, hnumber⟩, y, hy, hcounts⟩, -⟩ | ⟨-, hdone⟩
  · rw [h x hx] at hnumber
    rw [h y hy, hnumber] at hcounts
    cases hcounts
  · exact ⟨groupBySpecificity key l, groupBySpecificity_sorts key l, hdone turned⟩

/-- What sorting gives, if it does not fail. -/
theorem sortBySpecificity?_sorts {l s : List α} {turned : Bool} (h : sortBySpecificity? key turned l = .ok s) :
    ∃ sorted, StablySorted key l sorted ∧ s = if turned then sorted.reverse else sorted := by
  rcases sortBySpecificity?_cases key l with ⟨-, hfails⟩ | ⟨-, hdone⟩
  · cases (hfails turned).symm.trans h
  · exact ⟨_, groupBySpecificity_sorts key l, Except.ok.inj (h.symm.trans (hdone turned))⟩

/-! ## The item that counts -/

/-- `x` is an item of `l` that fits; of the others that do, each one before it in `l` is
    in the relation `earlier` to it, each one after it in the relation `later`. -/
def ChosenBy (earlier later : α → α → Prop) (fit : α → Prop) (l : List α) (x : α) : Prop :=
  ∃ before after, l = before ++ x :: after ∧ fit x ∧
    (∀ y ∈ before, fit y → earlier y x) ∧ ∀ y ∈ after, fit y → later y x

def LastOf (fit : α → Prop) (l : List α) (x : α) : Prop := ChosenBy (fun _ _ => True) (fun _ _ => False) fit l x

/-- The item with the greatest key of those that fit, and of these the last. -/
def GreatestOf (key : α → Specificity) (fit : α → Prop) (l : List α) (x : α) : Prop :=
  ChosenBy (fun y x => (key y).le (key x) = true) (fun y x => (key x).le (key y) = false) fit l x

/-- The item with the least key of those that fit, and of these the first. -/
def LeastOf (key : α → Specificity) (fit : α → Prop) (l : List α) (x : α) : Prop :=
  ChosenBy (fun y x => (key y).le (key x) = false) (fun y x => (key x).le (key y) = true) fit l x

theorem chosenBy_map {β : Type} {earlier later : β → β → Prop} {fit : β → Prop} {f : α → β} {l : List α} {y : β}
    (h : ChosenBy earlier later fit (l.map f) y) :
    ∃ x, f x = y ∧
      ChosenBy (fun a b => earlier (f a) (f b)) (fun a b => later (f a) (f b)) (fun a => fit (f a)) l x := by
  obtain ⟨before, after, hl, hfit, hb, ha⟩ := h
  obtain ⟨l₁, l₂, rfl, rfl, hl₂⟩ := List.map_eq_append_iff.mp hl
  obtain ⟨x, l₃, rfl, rfl, rfl⟩ := List.map_eq_cons_iff.mp hl₂
  exact ⟨x, rfl, l₁, l₃, rfl, hfit, fun a h => hb _ (List.mem_map_of_mem h), fun a h => ha _ (List.mem_map_of_mem h)⟩

namespace StablySorted

variable {l s : List α} {fit : α → Prop} {x : α}

/-- Around an item, those of its key stand the same way before and after sorting. -/
theorem split_at (h : StablySorted key l s) {before after : List α} (hs : s = before ++ x :: after) :
    ∃ before' after', l = before' ++ x :: after' ∧
      (∀ y ∈ before', key y = key x → y ∈ before) ∧ ∀ y ∈ after', key y = key x → y ∈ after := by
  have hg := h.groups_kept (key x)
  rw [hs, List.filter_append, List.filter_cons, if_pos (by simp)] at hg
  obtain ⟨l₁, l₂, rfl, hbefore, hl₂⟩ := List.filter_eq_append_iff.mp hg.symm
  obtain ⟨l₃, l₄, rfl, hnone, -, hafter⟩ := List.filter_eq_cons_iff.mp hl₂
  refine ⟨l₁ ++ l₃, l₄, by simp, fun y hy hk => ?_, fun y hy hk => ?_⟩
  · rcases List.mem_append.mp hy with hy | hy
    · have : y ∈ l₁.filter (fun z => key z = key x) := List.mem_filter.mpr ⟨hy, by simpa using hk⟩
      rw [hbefore] at this
      exact List.mem_of_mem_filter this
    · exact absurd (by simpa using hk) (hnone y hy)
  · have : y ∈ l₄.filter (fun z => key z = key x) := List.mem_filter.mpr ⟨hy, by simpa using hk⟩
    rw [hafter] at this
    exact List.mem_of_mem_filter this

theorem greatestOf (h : StablySorted key l s) (hlast : LastOf fit s x) : GreatestOf key fit l x := by
  obtain ⟨before, after, hs, hx, -, hnone⟩ := hlast
  obtain ⟨before', after', hl, -, hafter⟩ := h.split_at hs
  have hasc := h.ascending
  rw [hs] at hasc
  have hle : ∀ y ∈ l, fit y → (key y).le (key x) = true := by
    intro y hy hf
    rw [← h.mem_iff, hs, List.mem_append, List.mem_cons] at hy
    rcases hy with hy | rfl | hy
    · exact (List.pairwise_append.mp hasc).2.2 y hy x (by simp)
    · exact Specificity.le_refl _
    · exact (hnone y hy hf).elim
  refine ⟨before', after', hl, hx, fun y hy hf => hle y (by simp [hl, hy]) hf, fun y hy hf => ?_⟩
  -- One that were no less would have the same key, and stand after `x` in the sorted list too.
  by_contra hne
  have hge : (key x).le (key y) = true := by simpa using hne
  have hk := Specificity.le_antisymm (hle y (by simp [hl, hy]) hf) hge
  exact hnone y (hafter y hy hk) hf

theorem leastOf (h : StablySorted key l s) (hlast : LastOf fit s.reverse x) : LeastOf key fit l x := by
  obtain ⟨after, before, hs, hx, -, hnone⟩ := hlast
  rw [List.reverse_eq_iff, List.reverse_append, List.reverse_cons, List.append_assoc, List.singleton_append] at hs
  obtain ⟨before', after', hl, hbefore, -⟩ := h.split_at hs
  have hasc := h.ascending
  rw [hs] at hasc
  have hle : ∀ y ∈ l, fit y → (key x).le (key y) = true := by
    intro y hy hf
    rw [← h.mem_iff, hs, List.mem_append, List.mem_cons] at hy
    rcases hy with hy | rfl | hy
    · exact (hnone y (List.mem_reverse.mp hy) hf).elim
    · exact Specificity.le_refl _
    · exact (List.pairwise_cons.mp (List.pairwise_append.mp hasc).2.1).1 y hy
  refine ⟨before', after', hl, hx, fun y hy hf => ?_, fun y hy hf => hle y (by simp [hl, hy]) hf⟩
  by_contra hne
  have hge : (key y).le (key x) = true := by simpa using hne
  have hk := Specificity.le_antisymm hge (hle y (by simp [hl, hy]) hf)
  exact hnone y (List.mem_reverse.mp (hbefore y hy hk)) hf

end StablySorted

end

end AttributeSheet
