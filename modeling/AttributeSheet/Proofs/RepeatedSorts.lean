/-
  AttributeSheet.Proofs.RepeatedSorts — a list that is sorted again and again.

  A sort takes the items of one specificity as it finds them, and the turned order turns
  them round with the rest. So two things have to be told apart. Which way the groups
  stand is decided by the last sort alone (`InDirection`). How the items stand inside a
  group is decided by all of them: each turned sort turns every group round once more,
  and no other sort turns it back (`GroupsTurned`, `sort?_turns`, `sorts?_turn`).

  A list in the order of the sheet that is sorted turned and then ascending is therefore
  not in the order of the sheet: the earlier of two equals comes last
  (`tie_order_by_parity`).
-/
import AttributeSheet.Proofs.ShelfSorting
import AttributeSheet.Proofs.SourceOrder
import Mathlib.Algebra.Ring.Parity

namespace AttributeSheet

section

variable {α : Type} {key : α → Specificity} {l m o : List α}

/-- The keys ascend, or descend in the turned order. -/
def InDirection (key : α → Specificity) (turned : Bool) (l : List α) : Prop :=
  l.Pairwise fun x y => (if turned then (key y).le (key x) else (key x).le (key y)) = true

/-- In `m` the items of each key stand as they do in `l` once that order is reversed
    `n` times. -/
def GroupsTurned (key : α → Specificity) (n : Nat) (l m : List α) : Prop :=
  ∀ level, m.filter (fun x => key x = level) = List.reverse^[n] (l.filter fun x => key x = level)

namespace GroupsTurned

theorem refl (key : α → Specificity) (l : List α) : GroupsTurned key 0 l l := fun _ => rfl

theorem trans {n k : Nat} (h : GroupsTurned key n l m) (h' : GroupsTurned key k m o) :
    GroupsTurned key (k + n) l o := by
  intro level
  rw [h' level, h level, Function.iterate_add_apply]

theorem group_eq {n : Nat} (h : GroupsTurned key n l m) (level : Specificity) :
    m.filter (fun x => key x = level) =
      if Even n then l.filter (fun x => key x = level) else (l.filter fun x => key x = level).reverse := by
  have hreverse : Function.Involutive (List.reverse (α := α)) := List.reverse_reverse
  rw [h level]
  split_ifs with hn
  · rw [hreverse.iterate_even hn, id]
  · rw [hreverse.iterate_odd (Nat.not_even_iff_odd.mp hn)]

end GroupsTurned

theorem StablySorted.inOrder (h : StablySorted key l m) (turned : Bool) :
    InDirection key turned (if turned then m.reverse else m) ∧
      GroupsTurned key turned.toNat l (if turned then m.reverse else m) := by
  cases turned with
  | false => exact ⟨h.ascending, h.groups_kept⟩
  | true =>
    refine ⟨List.pairwise_reverse.mpr h.ascending, fun level => ?_⟩
    rw [if_pos rfl, List.filter_reverse, h.groups_kept]
    rfl

end

namespace Shelf

variable {s : Shelf}

def sorts? (s : Shelf) (flags : List Bool) : Except Misuse Shelf := flags.foldlM sort? s

theorem not_holdsBothKinds_of_mode {mode : Mode} (h : ∀ d ∈ s.listed, d.OfMode mode) : ¬ s.HoldsBothKinds := by
  have hkind : ∀ label ∈ s.order, (s.specificityOf label).isNumber = (mode == .legacy) :=
    fun label hlabel => (h _ (List.mem_map_of_mem hlabel)).isNumber
  rintro ⟨⟨x, hx, hnumber⟩, y, hy, hcounts⟩
  rw [hkind x hx] at hnumber
  rw [hkind y hy, hnumber] at hcounts
  cases hcounts

theorem sort?_turns (hone : ¬ s.HoldsBothKinds) (turned : Bool) :
    ∃ order, s.sort? turned = .ok { s with order := order } ∧ order.Perm s.order ∧
      InDirection s.specificityOf turned order ∧ GroupsTurned s.specificityOf turned.toNat s.order order := by
  rcases s.sort?_cases with ⟨hboth, -⟩ | ⟨-, sorted, hs, hdone⟩
  · exact absurd hboth hone
  · obtain ⟨hdirection, hgroups⟩ := hs.inOrder turned
    refine ⟨_, hdone turned, ?_, hdirection, hgroups⟩
    cases turned with
    | false => exact hs.perm
    | true => exact (List.reverse_perm sorted).trans hs.perm

theorem sorts?_snoc {t : Shelf} {flags : List Bool} (h : s.sorts? flags = .ok t) (last : Bool) :
    s.sorts? (flags ++ [last]) = t.sort? last := by
  rw [sorts?] at h ⊢
  rw [List.foldlM_append, h]
  exact bind_pure (t.sort? last)

/-- Sorts turn every group as many times as there are turned ones among them. -/
theorem sorts?_turn (hone : ¬ s.HoldsBothKinds) (flags : List Bool) :
    ∃ order, s.sorts? flags = .ok { s with order := order } ∧ order.Perm s.order ∧
      GroupsTurned s.specificityOf (flags.count true) s.order order := by
  induction flags generalizing s with
  | nil => exact ⟨s.order, rfl, List.Perm.refl _, .refl _ _⟩
  | cons turned flags ih =>
    -- The first sort turns the groups or leaves them; the others go on from what it gives.
    obtain ⟨first, hfirst, hperm, -, hturned⟩ := sort?_turns hone turned
    obtain ⟨order, hrest, hperm', hturned'⟩ := ih (not_holdsBothKinds_of_perm hone hperm)
    refine ⟨order, ?_, hperm'.trans hperm, ?_⟩
    · rw [sorts?, List.foldlM_cons, hfirst]
      exact hrest
    · have hcount : (turned :: flags).count true = flags.count true + turned.toNat := by
        cases turned <;> simp
      rw [hcount]
      exact hturned.trans hturned'

/-- However often a list of one mode is sorted, every sort is done. After the last one,
    the specificities ascend, or descend if it is a turned one. The declarations of each
    specificity are in their first order if the number of turned sorts is even, and in
    the reverse of it if that is odd. -/
theorem tie_order_by_parity (s : Shelf) {mode : Mode} (hmode : ∀ d ∈ s.listed, d.OfMode mode) (flags : List Bool)
    (last : Bool) :
    ∃ order, s.sorts? (flags ++ [last]) = .ok { s with order := order } ∧ order.Perm s.order ∧
      InDirection s.specificityOf last order ∧
      ∀ level, order.filter (fun x => s.specificityOf x = level) =
        if Even ((flags ++ [last]).count true) then s.order.filter fun x => s.specificityOf x = level
        else (s.order.filter fun x => s.specificityOf x = level).reverse := by
  have hone := not_holdsBothKinds_of_mode hmode
  obtain ⟨before, hbefore, hperm, hturned⟩ := sorts?_turn hone flags
  obtain ⟨order, hlast, hperm', hdirection, hturned'⟩ := sort?_turns (not_holdsBothKinds_of_perm hone hperm) last
  have hcount : (flags ++ [last]).count true = last.toNat + flags.count true := by
    cases last <;> simp [Nat.add_comm]
  rw [hcount]
  exact ⟨order, (sorts?_snoc hbefore last).trans hlast, hperm'.trans hperm, hdirection,
    (hturned.trans hturned').group_eq⟩

/-- Two types and an id between them, sorted turned and then ascending: the first of the
    two types comes last of the two. -/
theorem tie_order_by_parity_two_types :
    let s : Shelf := ⟨⟨[("first", ⟨⟨"a", .legacy, .number 1⟩, .empty⟩), ("id", ⟨⟨"#i", .legacy, .number 100⟩, .empty⟩),
      ("second", ⟨⟨"b", .legacy, .number 1⟩, .empty⟩)]⟩, ["first", "id", "second"]⟩
    (∀ d ∈ s.listed, d.OfMode .legacy) ∧
    ∃ order, s.sorts? [true, false] = .ok { s with order := order } ∧ InDirection s.specificityOf false order ∧
      order.filter (fun x => s.specificityOf x = .number 1) = ["second", "first"] := by
  intro s
  have hmode : ∀ d ∈ s.listed, d.OfMode .legacy := by
    have hlisted : s.listed = [⟨⟨"a", .legacy, .number 1⟩, .empty⟩, ⟨⟨"#i", .legacy, .number 100⟩, .empty⟩,
      ⟨⟨"b", .legacy, .number 1⟩, .empty⟩] := by decide
    rw [hlisted]
    simp only [List.forall_mem_cons]
    exact ⟨⟨rfl, by decide +kernel⟩, ⟨rfl, by decide +kernel⟩, ⟨rfl, by decide +kernel⟩, nofun⟩
  obtain ⟨order, hsorts, -, hdirection, hgroups⟩ := tie_order_by_parity s hmode [true] false
  refine ⟨hmode, order, hsorts, hdirection, (hgroups (.number 1)).trans ?_⟩
  decide

end Shelf

end AttributeSheet
