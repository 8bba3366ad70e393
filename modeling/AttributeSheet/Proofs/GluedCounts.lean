/-
  AttributeSheet.Proofs.GluedCounts — the legacy value as a decimal number.

  Gluing two numbers is reading the digits of both, one after the other, as one number
  (`ofDigitChars_toDigits`), so the legacy value is what the three counts read as when
  they are written in a row (`ofDigitChars_written`). While the last two counts have one digit
  each, nothing spills over: the value is three digits of a number (`glued_narrow`), and
  it orders triples as they are ordered bucket by bucket (`glued_lt_iff`,
  `glued_eq_iff`).
-/
import AttributeSheet.Specificity
import Mathlib.Data.Prod.Lex

namespace AttributeSheet

/-! ## Digits in a row -/

theorem length_toDigits (n : Nat) : (Nat.toDigits 10 n).length = decimalWidth n := by
  induction n using decimalWidth.induct with
  | case1 n h => rw [decimalWidth, if_pos h, Nat.toDigits_of_lt_base h]; rfl
  | case2 n h ih =>
    rw [decimalWidth, if_neg h, Nat.toDigits_of_base_le (by decide) (Nat.le_of_not_lt h), List.length_append, ih]; rfl

/-- Going on from `m` with the digits of `n` is gluing the two. -/
theorem ofDigitChars_toDigits (m n : Nat) : Nat.ofDigitChars 10 (Nat.toDigits 10 n) m = glue m n := by
  rw [Nat.ofDigitChars_eq_ofDigitChars_zero, Nat.ofDigitChars_ten_toDigits, length_toDigits, Nat.mul_comm]; rfl

namespace Buckets

def written (b : Buckets) : String := toString b.ids ++ toString b.classes ++ toString b.types

/-- The legacy value is what the digits read as. -/
theorem ofDigitChars_written (b : Buckets) : Nat.ofDigitChars 10 b.written.toList 0 = b.glued := by
  have hchars : b.written.toList = Nat.toDigits 10 b.ids ++ Nat.toDigits 10 b.classes ++ Nat.toDigits 10 b.types := by
    simp [written, Nat.toString_eq_repr]
  rw [hchars, Nat.ofDigitChars_append, Nat.ofDigitChars_append, Nat.ofDigitChars_ten_toDigits, ofDigitChars_toDigits,
    ofDigitChars_toDigits, glued]

/-! ## Without spilling over -/

structure Narrow (b : Buckets) : Prop where
  classes_le : b.classes ≤ 9
  types_le : b.types ≤ 9

instance : DecidablePred Narrow := fun b =>
  decidable_of_iff (b.classes ≤ 9 ∧ b.types ≤ 9) ⟨fun ⟨hb, hc⟩ => ⟨hb, hc⟩, fun ⟨hb, hc⟩ => ⟨hb, hc⟩⟩

theorem glued_narrow {b : Buckets} (h : b.Narrow) : b.glued = 100 * b.ids + 10 * b.classes + b.types := by
  have hdigit : ∀ m n, n ≤ 9 → glue m n = 10 * m + n := by
    intro m n hn
    rw [glue, decimalWidth, if_pos (by omega)]
    show m * 10 + n = 10 * m + n
    omega
  rw [glued, hdigit _ _ h.types_le, hdigit _ _ h.classes_le]
  omega

def triple (b : Buckets) : Nat ×ₗ Nat ×ₗ Nat := toLex (b.ids, toLex (b.classes, b.types))

theorem triple_lt_iff {x y : Buckets} :
    x.triple < y.triple ↔ x.ids < y.ids ∨ x.ids = y.ids ∧
      (x.classes < y.classes ∨ x.classes = y.classes ∧ x.types < y.types) := by
  simp only [triple, Prod.Lex.toLex_lt_toLex]

theorem le_iff {x y : Buckets} : x.le y = true ↔ x.triple ≤ y.triple := by
  simp only [triple, Prod.Lex.toLex_le_toLex, le, Bool.or_eq_true, Bool.and_eq_true, decide_eq_true_eq, beq_iff_eq]

theorem glued_lt_iff {x y : Buckets} (hx : x.Narrow) (hy : y.Narrow) : x.glued < y.glued ↔ x.triple < y.triple := by
  rw [triple_lt_iff, glued_narrow hx, glued_narrow hy]
  have := hx.classes_le
  have := hx.types_le
  have := hy.classes_le
  have := hy.types_le
  omega

theorem glued_eq_iff {x y : Buckets} (hx : x.Narrow) (hy : y.Narrow) : x.glued = y.glued ↔ x.triple = y.triple := by
  have hlt := glued_lt_iff hx hy
  have hgt := glued_lt_iff hy hx
  rw [← not_iff_not, ← ne_eq, ← ne_eq, Nat.ne_iff_lt_or_gt, lt_or_lt_iff_ne.symm, hlt, hgt]

theorem glued_le_iff {x y : Buckets} (hx : x.Narrow) (hy : y.Narrow) : x.glued ≤ y.glued ↔ x.le y = true := by
  rw [le_iff, ← not_lt, ← not_lt, glued_lt_iff hy hx]

end Buckets

end AttributeSheet
