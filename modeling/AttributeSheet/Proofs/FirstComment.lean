/-
  AttributeSheet.Proofs.FirstComment — taking the first comment out of a text.

  A comment ends in a text exactly if star and slash stand in it (`commentEnd_iff`), and
  taking one out takes out its stars (`count_star_dropFirstComment`).

  With one text put behind another: if no comment opens in the first, the first comment
  of both is that of the second (`dropFirstCommentChars_append_of_unopened`); if none
  ends in the second, it is that of the first (`dropFirstCommentChars_append_of_unended`).
  Neither is so where the two characters of a mark stand on the two sides of the seam,
  so the two characters there have to be looked at; a second text without a slash can end
  no comment in either way (`dropFirstCommentChars_append_of_no_slash`).
-/
import AttributeSheet.Text.Comment
import Mathlib.Data.List.Infix

namespace AttributeSheet.Text

theorem getLast?_cons_of_some {c d : Char} {cs : List Char} (h : cs.getLast? = some d) : (c :: cs).getLast? = some d := by
  rw [List.getLast?_cons, h]
  rfl

/-! ## Where a comment ends -/

theorem afterCommentEnd?_cons {c : Char} {cs : List Char} (h : ∀ rest, c = '*' → cs ≠ '/' :: rest) :
    afterCommentEnd? (c :: cs) = afterCommentEnd? cs := by
  rw [afterCommentEnd?]
  rintro rest rfl rfl
  exact h rest rfl rfl

theorem commentEnd_iff {cs : List Char} : afterCommentEnd? cs = none ↔ ¬ ['*', '/'] <:+: cs := by
  fun_induction afterCommentEnd? cs with
  | case1 rest =>
    have : ['*', '/'] <:+: '*' :: '/' :: rest := ⟨[], rest, rfl⟩
    simp [this]
  | case2 c cs hmark ih =>
    have hhead : ¬ ['*', '/'] <+: c :: cs := by
      rintro ⟨rest, hrest⟩
      obtain ⟨rfl, rfl⟩ := List.cons.inj hrest
      exact hmark rest rfl rfl
    rw [ih, List.infix_cons_iff]
    simp [hhead]
  | case3 => simp

/-- The end of a comment in two texts is the one in the first, or else the one in the
    second, unless the first has none and the seam parts a star from a slash. -/
theorem afterCommentEnd?_append {a b : List Char}
    (h : afterCommentEnd? a ≠ none ∨ (a.getLast? = some '*' → b.head? ≠ some '/')) :
    afterCommentEnd? (a ++ b) = ((afterCommentEnd? a).map (· ++ b)).or (afterCommentEnd? b) := by
  fun_induction afterCommentEnd? a with
  | case1 r => rfl
  | case2 c cs hmark ih =>
    have hpassed : ∀ r, c = '*' → cs ++ b ≠ '/' :: r := by
      rintro r rfl hr
      cases cs with
      | nil =>
        rcases h with h | h
        · exact h rfl
        · exact h rfl (by rw [← List.nil_append b, hr]; rfl)
      | cons d cs =>
        obtain ⟨rfl, -⟩ := List.cons.inj hr
        exact hmark cs rfl rfl
    have htail := h.imp_right fun hseam hlast => hseam (getLast?_cons_of_some hlast)
    rw [List.cons_append, afterCommentEnd?_cons hpassed, ih htail]
  | case3 => rfl

theorem commentEnd_tail {c : Char} {cs : List Char} (h : afterCommentEnd? (c :: cs) = none) :
    afterCommentEnd? cs = none := by
  rw [commentEnd_iff] at h ⊢
  exact fun hcs => h (List.infix_cons hcs)

theorem afterCommentEnd?_suffix {cs rest : List Char} (h : afterCommentEnd? cs = some rest) : rest <:+ cs := by
  fun_induction afterCommentEnd? cs with
  | case1 r => cases h; exact ⟨['*', '/'], rfl⟩
  | case2 c r _ ih => exact (ih h).trans (List.suffix_cons c r)
  | case3 => cases h

/-! ## Taking the first comment out -/

theorem dropFirstCommentChars_cons {c : Char} {cs : List Char}
    (h : ∀ body, c = '/' → cs = '*' :: body → afterCommentEnd? body = none) :
    dropFirstCommentChars (c :: cs) = c :: dropFirstCommentChars cs := by
  by_cases hopen : ∃ body, c = '/' ∧ cs = '*' :: body
  · obtain ⟨body, rfl, rfl⟩ := hopen
    rw [dropFirstCommentChars, h body rfl rfl, Option.getD_none]
  · rw [dropFirstCommentChars]
    rintro body rfl rfl
    exact hopen ⟨body, rfl, rfl⟩

theorem dropFirstCommentChars_of_unended {cs : List Char} (h : afterCommentEnd? cs = none) :
    dropFirstCommentChars cs = cs := by
  induction cs with
  | nil => rfl
  | cons c cs ih =>
    have hcs := commentEnd_tail h
    rw [dropFirstCommentChars_cons, ih hcs]
    rintro body - rfl
    exact commentEnd_tail hcs

theorem count_star_dropFirstComment (cs : List Char) :
    dropFirstCommentChars cs = cs ∨ (dropFirstCommentChars cs).count '*' < cs.count '*' := by
  fun_induction dropFirstCommentChars cs with
  | case1 => exact Or.inl rfl
  | case2 body ih =>
    cases h : afterCommentEnd? body with
    | some rest =>
      have := (afterCommentEnd?_suffix h).sublist.count_le '*'
      right
      simp only [Option.getD_some, List.count_cons]
      simp; omega
    | none =>
      rw [Option.getD_none]
      rcases ih with h | h
      · exact Or.inl (by rw [h])
      · right; simp only [List.count_cons] at h ⊢; omega
  | case3 c r _ ih =>
    rcases ih with h | h
    · exact Or.inl (by rw [h])
    · right; simp only [List.count_cons]; omega

/-! ## One text behind another -/

/-- If no comment opens in `u` or across the seam, the first comment of `u ++ v` is the
    one of `v`. -/
theorem dropFirstCommentChars_append_of_unopened {u v : List Char} (h : ¬ ['/', '*'] <:+: u)
    (hseam : u.getLast? = some '/' → v.head? ≠ some '*') :
    dropFirstCommentChars (u ++ v) = u ++ dropFirstCommentChars v := by
  induction u with
  | nil => rfl
  | cons c u ih =>
    have hu : ¬ ['/', '*'] <:+: u := fun hin => h (List.infix_cons hin)
    have hseam' : u.getLast? = some '/' → v.head? ≠ some '*' := by
      intro hlast
      exact hseam (by rw [List.getLast?_cons, hlast]; rfl)
    rw [List.cons_append, dropFirstCommentChars_cons, ih hu hseam', List.cons_append]
    intro body hc hbody
    cases u with
    | nil =>
      rw [List.nil_append] at hbody
      exact absurd (by rw [hbody]; rfl) (hseam (by rw [hc]; rfl))
    | cons d u =>
      obtain ⟨rfl, -⟩ := List.cons.inj hbody
      exact absurd ⟨[], u, by rw [hc]; rfl⟩ h

theorem dropFirstCommentChars_of_unopened {cs : List Char} (h : ¬ ['/', '*'] <:+: cs) :
    dropFirstCommentChars cs = cs := by
  have hnil := dropFirstCommentChars_append_of_unopened (v := []) h nofun
  simpa [dropFirstCommentChars] using hnil

/-- If no comment ends in `v` or across the seam, the first comment of `u ++ v` is the one
    of `u`. -/
theorem dropFirstCommentChars_append_of_unended {u v : List Char} (h : afterCommentEnd? v = none)
    (hseam : (dropFirstCommentChars u).getLast? = some '*' → v.head? ≠ some '/') :
    dropFirstCommentChars (u ++ v) = dropFirstCommentChars u ++ v := by
  fun_induction dropFirstCommentChars u with
  | case1 => exact dropFirstCommentChars_of_unended h
  | case2 body ih =>
    cases hbody : afterCommentEnd? body with
    | some rest =>
      have hended : afterCommentEnd? body ≠ none := by simp [hbody]
      have hboth := afterCommentEnd?_append (b := v) (Or.inl hended)
      simp [dropFirstCommentChars, hboth, hbody]
    | none =>
      -- The opener is never ended in `u`, and so not in both either.
      have hkept : dropFirstCommentChars ('*' :: body) = '*' :: body := by
        rw [dropFirstCommentChars_cons, dropFirstCommentChars_of_unended hbody]
        rintro _ ⟨⟩
      rw [hbody, Option.getD_none] at hseam
      have hstar : (dropFirstCommentChars ('*' :: body)).getLast? = some '*' → v.head? ≠ some '/' :=
        fun hlast => hseam (getLast?_cons_of_some hlast)
      have hboth : afterCommentEnd? (body ++ v) = none := by
        rw [hkept] at hstar
        rw [afterCommentEnd?_append (Or.inr fun hlast => hstar (getLast?_cons_of_some hlast)), hbody, h]
        rfl
      rw [List.cons_append, dropFirstCommentChars_cons, ih hstar, Option.getD_none, List.cons_append]
      rintro _ - ⟨⟩
      exact hboth
  | case3 c cs hopen ih =>
    have htail : (dropFirstCommentChars cs).getLast? = some '*' → v.head? ≠ some '/' :=
      fun hlast => hseam (getLast?_cons_of_some hlast)
    rw [List.cons_append, dropFirstCommentChars_cons, ih htail, List.cons_append]
    intro body hc hbody
    cases cs with
    | nil => rw [List.nil_append] at hbody; rw [hbody] at h; exact commentEnd_tail h
    | cons d cs =>
      obtain ⟨rfl, -⟩ := List.cons.inj hbody
      exact (hopen _ hc rfl).elim

theorem dropFirstCommentChars_append_of_no_slash {v : List Char} (h : '/' ∉ v) (u : List Char) :
    dropFirstCommentChars (u ++ v) = dropFirstCommentChars u ++ v := by
  have hend : afterCommentEnd? v = none := commentEnd_iff.mpr fun hin => h (hin.subset (by simp))
  exact dropFirstCommentChars_append_of_unended hend fun _ hhead => h (List.mem_of_mem_head? hhead)

end AttributeSheet.Text
