/-
  AttributeSheet.Proofs.GrowingCounts — a longer selector is no less specific.

  The legacy value spills over, but it never falls: where no count gets smaller, neither
  does the number that their digits read as, and where one of them grows the number does
  too (`glued_le`, `glued_lt`). A count that gets one more digit moves those before it one
  place up, and so only adds (`decimalWidth_mono`). What holds of both values is said of
  counts in either mode (`ofBuckets_le`, `ofBuckets_lt`).

  A selector to which something is put with a blank in between has the counts of both
  parts. So it is at least as specific as each of them, and more than the first exactly
  if the other counts anything (`adding_never_lowers`).
-/
import AttributeSheet.Proofs.CountedPositions
import AttributeSheet.Proofs.GluedCounts
import AttributeSheet.Proofs.StableOrder

namespace AttributeSheet

/-! ## Gluing -/

theorem decimalWidth_mono {m n : Nat} (h : m ≤ n) : decimalWidth m ≤ decimalWidth n := by
  induction m using decimalWidth.induct generalizing n with
  | case1 m hm =>
    rw [decimalWidth, if_pos hm]
    unfold decimalWidth
    split <;> omega
  | case2 m hm ih =>
    -- Both have a last digit to take off, and stay in order without it.
    have hn : ¬ n < 10 := by omega
    have hshorter := ih (Nat.div_le_div_right h)
    rw [decimalWidth, if_neg hm]
    conv_rhs => rw [decimalWidth, if_neg hn]
    omega

section

variable {m m' n n' : Nat}

theorem pow_decimalWidth_mono (h : n ≤ n') : Nat.pow 10 (decimalWidth n) ≤ Nat.pow 10 (decimalWidth n') :=
  Nat.pow_le_pow_right (by decide) (decimalWidth_mono h)

theorem glue_le (hm : m ≤ m') (hn : n ≤ n') : glue m n ≤ glue m' n' :=
  Nat.add_le_add (Nat.mul_le_mul hm (pow_decimalWidth_mono hn)) hn

theorem glue_lt_left (hm : m < m') (hn : n ≤ n') : glue m n < glue m' n' := by
  have hroom : 0 < Nat.pow 10 (decimalWidth n') := Nat.pow_pos (by decide)
  refine Nat.add_lt_add_of_lt_of_le ?_ hn
  calc m * Nat.pow 10 (decimalWidth n) ≤ m * Nat.pow 10 (decimalWidth n') :=
        Nat.mul_le_mul_left m (pow_decimalWidth_mono hn)
    _ < m' * Nat.pow 10 (decimalWidth n') := Nat.mul_lt_mul_of_pos_right hm hroom

theorem glue_lt_right (hm : m ≤ m') (hn : n < n') : glue m n < glue m' n' :=
  Nat.add_lt_add_of_le_of_lt (Nat.mul_le_mul hm (pow_decimalWidth_mono (Nat.le_of_lt hn))) hn

end

/-! ## Counts that grow -/

namespace Buckets

structure AtMost (x y : Buckets) : Prop where
  ids_le : x.ids ≤ y.ids
  classes_le : x.classes ≤ y.classes
  types_le : x.types ≤ y.types

def SomeBelow (x y : Buckets) : Prop := x.ids < y.ids ∨ x.classes < y.classes ∨ x.types < y.types

variable {x y : Buckets}

theorem glued_le (h : x.AtMost y) : x.glued ≤ y.glued := glue_le (glue_le h.ids_le h.classes_le) h.types_le

theorem glued_lt (h : x.AtMost y) (hbelow : x.SomeBelow y) : x.glued < y.glued := by
  rcases hbelow with hids | hclasses | htypes
  · exact glue_lt_left (glue_lt_left hids h.classes_le) h.types_le
  · exact glue_lt_left (glue_lt_right h.ids_le hclasses) h.types_le
  · exact glue_lt_right (glue_le h.ids_le h.classes_le) htypes

theorem le_of_atMost (h : x.AtMost y) : x.le y = true := by
  obtain ⟨hids, hclasses, htypes⟩ := h
  simp only [le, Bool.or_eq_true, Bool.and_eq_true, decide_eq_true_eq, beq_iff_eq]
  omega

theorem not_le_of_someBelow (h : x.AtMost y) (hbelow : x.SomeBelow y) : y.le x = false := by
  obtain ⟨hids, hclasses, htypes⟩ := h
  unfold SomeBelow at hbelow
  rw [← Bool.not_eq_true]
  simp only [le, Bool.or_eq_true, Bool.and_eq_true, decide_eq_true_eq, beq_iff_eq]
  omega

theorem atMost_add_left (x y : Buckets) : x.AtMost (x + y) :=
  ⟨Nat.le_add_right .., Nat.le_add_right .., Nat.le_add_right ..⟩

theorem atMost_add_right (x y : Buckets) : y.AtMost (x + y) :=
  ⟨Nat.le_add_left .., Nat.le_add_left .., Nat.le_add_left ..⟩

theorem someBelow_add_iff (x y : Buckets) : x.SomeBelow (x + y) ↔ y ≠ ⟨0, 0, 0⟩ := by
  obtain ⟨a, b, c⟩ := y
  simp only [SomeBelow, add_eq, ne_eq, mk.injEq]
  omega

end Buckets

namespace Specificity

def ofBuckets : Mode → Buckets → Specificity
  | .legacy, b => number b.glued
  | .tuple, b => counts b

theorem ofText_eq (mode : Mode) (s : String) : ofText mode s = ofBuckets mode (Buckets.ofText s) := by
  cases mode <;> rfl

variable {x y : Buckets}

theorem ofBuckets_le (mode : Mode) (h : x.AtMost y) : (ofBuckets mode x).le (ofBuckets mode y) = true := by
  cases mode with
  | legacy => exact decide_eq_true (Buckets.glued_le h)
  | tuple => exact Buckets.le_of_atMost h

theorem ofBuckets_lt (mode : Mode) (h : x.AtMost y) (hbelow : x.SomeBelow y) :
    (ofBuckets mode y).le (ofBuckets mode x) = false := by
  cases mode with
  | legacy => exact decide_eq_false (Nat.not_le.mpr (Buckets.glued_lt h hbelow))
  | tuple => exact Buckets.not_le_of_someBelow h hbelow

theorem add_le_iff (mode : Mode) (x y : Buckets) :
    (ofBuckets mode (x + y)).le (ofBuckets mode x) = false ↔ y ≠ ⟨0, 0, 0⟩ := by
  constructor
  · rintro h rfl
    have hsame : x + ⟨0, 0, 0⟩ = x := rfl
    rw [hsame, le_refl] at h
    cases h
  · exact fun hne => ofBuckets_lt mode (Buckets.atMost_add_left x y) ((Buckets.someBelow_add_iff x y).mpr hne)

/-- The digits of three counts in a row read as a number that does not fall as the counts
    grow, and that grows with each of them, however many digits they have; this number
    is the legacy value. So in both modes a selector that is put together from two, with
    blanks between them, is at least as specific as either, and more specific than the
    first exactly if the second has a count above zero. -/
theorem adding_never_lowers :
    (∀ a b c a' b' c' : Nat, a ≤ a' → b ≤ b' → c ≤ c' →
      let before := Nat.ofDigitChars 10 (Buckets.written ⟨a, b, c⟩).toList 0
      let after := Nat.ofDigitChars 10 (Buckets.written ⟨a', b', c'⟩).toList 0
      before ≤ after ∧ (a < a' ∨ b < b' ∨ c < c' → before < after)) ∧
    (∀ t : String, ofText .legacy t = number (Nat.ofDigitChars 10 (Buckets.ofText t).written.toList 0)) ∧
    ∀ (mode : Mode) (u w v : String), w ≠ "" → Text.allBlank w = true →
      (ofText mode u).le (ofText mode (u ++ w ++ v)) = true ∧
      (ofText mode v).le (ofText mode (u ++ w ++ v)) = true ∧
      ((ofText mode (u ++ w ++ v)).le (ofText mode u) = false ↔ Buckets.ofText v ≠ ⟨0, 0, 0⟩) := by
  refine ⟨fun a b c a' b' c' ha hb hc => ?_, fun t => ?_, fun mode u w v hne hblank => ?_⟩
  · have hle : Buckets.AtMost ⟨a, b, c⟩ ⟨a', b', c'⟩ := ⟨ha, hb, hc⟩
    simp only [Buckets.ofDigitChars_written]
    exact ⟨Buckets.glued_le hle, Buckets.glued_lt hle⟩
  · rw [Buckets.ofDigitChars_written]
    rfl
  · simp only [ofText_eq, Buckets.ofText_parted hne hblank]
    exact ⟨ofBuckets_le mode (Buckets.atMost_add_left _ _), ofBuckets_le mode (Buckets.atMost_add_right _ _),
      add_le_iff mode _ _⟩

/-- One type more than nine moves the counts before it up, and a class behind a blank
    makes a type more specific. -/
theorem adding_never_lowers_tenth_type :
    Nat.ofDigitChars 10 (Buckets.written ⟨9, 9, 9⟩).toList 0 < Nat.ofDigitChars 10 (Buckets.written ⟨9, 9, 10⟩).toList 0 ∧
    ∀ mode, (ofText mode ("a" ++ " " ++ ".b")).le (ofText mode "a") = false := by
  obtain ⟨hdigits, -, hparted⟩ := adding_never_lowers
  refine ⟨(hdigits 9 9 9 9 9 10 (by decide) (by decide) (by decide)).2 (by decide), fun mode => ?_⟩
  exact (hparted mode "a" " " ".b" (by decide) (by decide)).2.2.mpr (by decide +kernel)

end Specificity

end AttributeSheet
