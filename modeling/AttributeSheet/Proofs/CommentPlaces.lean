/-
  AttributeSheet.Proofs.CommentPlaces — where the first comment of a text stands.

  A mark stands at a place of a text if the characters from there on begin with it
  (`StandsAt`). The first comment goes from the first place of all where an opener stands
  to the first place at which an end stands behind both characters of the opener
  (`FirstComment`). It is there as soon as any opener has any end behind it
  (`exists_firstComment`), for an end behind a later opener is behind the first one too.

  Taking it out leaves the text before it and the text behind it as they are
  (`dropFirstCommentChars_of_parts`), and a text without one is left as it is
  (`dropFirstCommentChars_of_none`). A star that opens does not end: slash, star and
  slash are no comment.
-/
import AttributeSheet.Proofs.FirstComment
import Mathlib.Data.Nat.Find

namespace AttributeSheet.Text

/-! ## Marks and their places -/

def StandsAt (mark cs : List Char) (i : Nat) : Prop := mark <+: cs.drop i

instance (mark cs : List Char) (i : Nat) : Decidable (StandsAt mark cs i) :=
  inferInstanceAs (Decidable (mark <+: cs.drop i))

theorem standsAt_drop {mark cs : List Char} {n i : Nat} : StandsAt mark (cs.drop n) i ↔ StandsAt mark cs (n + i) := by
  rw [StandsAt, StandsAt, List.drop_drop]

theorem infix_iff_standsAt {mark cs : List Char} : mark <:+: cs ↔ ∃ i, StandsAt mark cs i := by
  constructor
  · intro h
    obtain ⟨before, after, rfl⟩ := h
    refine ⟨before.length, ?_⟩
    rw [StandsAt, List.append_assoc, List.drop_left]
    exact List.prefix_append mark after
  · intro h
    obtain ⟨i, hi⟩ := h
    exact hi.isInfix.trans (List.drop_suffix i cs).isInfix

namespace StandsAt

variable {mark cs : List Char} {i : Nat}

theorem of_prefix {first : List Char} (hfirst : first <+: cs) (h : StandsAt mark first i) : StandsAt mark cs i := by
  obtain ⟨rest, rfl⟩ := hfirst
  exact h.trans ((List.prefix_append _ _).trans (by rw [List.drop_append]))

theorem length_le (h : StandsAt mark cs i) (hmark : mark ≠ []) : i + mark.length ≤ cs.length := by
  have hpos := List.length_pos_iff.mpr hmark
  have hle := List.IsPrefix.length_le h
  rw [List.length_drop] at hle
  omega

theorem split (h : StandsAt mark cs i) : cs = cs.take i ++ (mark ++ cs.drop (i + mark.length)) := by
  obtain ⟨rest, hrest⟩ := h
  have hbehind : cs.drop (i + mark.length) = rest := by rw [← List.drop_drop, ← hrest, List.drop_left]
  rw [hbehind, hrest, List.take_append_drop]

end StandsAt

/-! ## The nearest end -/

/-- The nearest end behind an opener is the first place of the rest at which one stands. -/
theorem afterCommentEnd?_nearest {c : List Char} (hc : ∀ k < c.length, ¬ StandsAt ['*', '/'] (c ++ ['*', '/']) k)
    (v : List Char) : afterCommentEnd? (c ++ '*' :: '/' :: v) = some v := by
  induction c with
  | nil => rfl
  | cons d c ih =>
    have hpassed : ∀ r, d = '*' → c ++ '*' :: '/' :: v ≠ '/' :: r := by
      intro r hd hr
      refine hc 0 (by simp) ?_
      cases c with
      | nil => exact nomatch hr
      | cons e c =>
        obtain ⟨rfl, -⟩ := List.cons.inj hr
        exact ⟨c ++ ['*', '/'], by rw [hd]; rfl⟩
    rw [List.cons_append, afterCommentEnd?_cons hpassed]
    exact ih fun k hk hstands => hc (k + 1) (Nat.succ_lt_succ hk) hstands

/-! ## The first comment -/

/-- The opener at `i` is the first of the text, and the end at `j` is the first behind
    the two characters of that opener. -/
structure FirstComment (cs : List Char) (i j : Nat) : Prop where
  opens : StandsAt ['/', '*'] cs i
  no_opener_before : ∀ i' < i, ¬ StandsAt ['/', '*'] cs i'
  behind_opener : i + 2 ≤ j
  ends : StandsAt ['*', '/'] cs j
  no_end_before : ∀ j' < j, i + 2 ≤ j' → ¬ StandsAt ['*', '/'] cs j'

def HasComment (cs : List Char) : Prop :=
  ∃ i j, i + 2 ≤ j ∧ StandsAt ['/', '*'] cs i ∧ StandsAt ['*', '/'] cs j

theorem exists_firstComment {cs : List Char} (h : HasComment cs) : ∃ i j, FirstComment cs i j := by
  obtain ⟨i₀, j₀, hle, hopen, hend⟩ := h
  have hopens : ∃ i, StandsAt ['/', '*'] cs i := ⟨i₀, hopen⟩
  have hfirst : Nat.find hopens ≤ i₀ := Nat.find_min' hopens hopen
  have hends : ∃ j, Nat.find hopens + 2 ≤ j ∧ StandsAt ['*', '/'] cs j := ⟨j₀, by omega, hend⟩
  obtain ⟨hbehind, hnearest⟩ := Nat.find_spec hends
  exact ⟨Nat.find hopens, Nat.find hends, Nat.find_spec hopens, fun _ hi => Nat.find_min hopens hi, hbehind, hnearest,
    fun _ hj hle' hstands => Nat.find_min hends hj ⟨hle', hstands⟩⟩

theorem dropFirstCommentChars_before_opener {u : List Char} (hu : ¬ ['/', '*'] <:+: u) (body : List Char) :
    dropFirstCommentChars (u ++ '/' :: '*' :: body) = u ++ dropFirstCommentChars ('/' :: '*' :: body) :=
  dropFirstCommentChars_append_of_unopened hu fun _ hhead => nomatch hhead

theorem dropFirstCommentChars_of_parts {u c : List Char} (hu : ¬ ['/', '*'] <:+: u)
    (hc : ∀ k < c.length, ¬ StandsAt ['*', '/'] (c ++ ['*', '/']) k) (v : List Char) :
    dropFirstCommentChars (u ++ '/' :: '*' :: (c ++ '*' :: '/' :: v)) = u ++ v := by
  rw [dropFirstCommentChars_before_opener hu, dropFirstCommentChars, afterCommentEnd?_nearest hc]
  rfl

theorem FirstComment.parts {cs : List Char} {i j : Nat} (h : FirstComment cs i j) :
    ∃ c, cs = cs.take i ++ '/' :: '*' :: (c ++ '*' :: '/' :: cs.drop (j + 2)) ∧ ¬ ['/', '*'] <:+: cs.take i ∧
      ∀ k < c.length, ¬ StandsAt ['*', '/'] (c ++ ['*', '/']) k := by
  obtain ⟨k, rfl⟩ := Nat.exists_eq_add_of_le h.behind_opener
  have hends := standsAt_drop.mpr h.ends
  have hwhole : cs = cs.take i ++ '/' :: '*' :: cs.drop (i + 2) := h.opens.split
  have hbody : cs.drop (i + 2) = (cs.drop (i + 2)).take k ++ '*' :: '/' :: (cs.drop (i + 2)).drop (k + 2) := hends.split
  have hfirst : (cs.drop (i + 2)).take k ++ ['*', '/'] <+: cs.drop (i + 2) := by
    refine ⟨(cs.drop (i + 2)).drop (k + 2), ?_⟩
    rw [List.append_assoc]
    exact hbody.symm
  refine ⟨(cs.drop (i + 2)).take k, ?_, fun hin => ?_, fun k' hk' hstands => ?_⟩
  · have hbehind : cs.drop (i + 2 + k + 2) = (cs.drop (i + 2)).drop (k + 2) := by rw [List.drop_drop, Nat.add_assoc]
    rw [hbehind, ← hbody]
    exact hwhole
  · -- An opener before the first one.
    obtain ⟨i', hi'⟩ := infix_iff_standsAt.mp hin
    have hlen := hi'.length_le (by simp)
    have hlen' : (cs.take i).length ≤ i := List.length_take_le i cs
    simp only [List.length_cons, List.length_nil] at hlen
    exact h.no_opener_before i' (by omega) (hi'.of_prefix (List.take_prefix i cs))
  · -- An end before the nearest one.
    have hlen : k' < k := lt_of_lt_of_le hk' (List.length_take_le k _)
    exact h.no_end_before (i + 2 + k') (by omega) (by omega) (standsAt_drop.mp (hstands.of_prefix hfirst))

theorem dropFirstCommentChars_of_first {cs : List Char} {i j : Nat} (h : FirstComment cs i j) :
    dropFirstCommentChars cs = cs.take i ++ cs.drop (j + 2) := by
  obtain ⟨c, hcs, hu, hc⟩ := h.parts
  have hdropped := dropFirstCommentChars_of_parts hu hc (cs.drop (j + 2))
  rwa [← hcs] at hdropped

theorem dropFirstCommentChars_of_none {cs : List Char} (h : ¬ HasComment cs) : dropFirstCommentChars cs = cs := by
  induction cs with
  | nil => rfl
  | cons c cs ih =>
    have htail : ¬ HasComment cs := fun ⟨i, j, hle, hopen, hend⟩ => h ⟨i + 1, j + 1, by omega, hopen, hend⟩
    rw [dropFirstCommentChars_cons, ih htail]
    intro body hc hcs
    rw [commentEnd_iff, infix_iff_standsAt]
    intro hend
    obtain ⟨k, hk⟩ := hend
    subst hc hcs
    exact h ⟨0, k + 2, by omega, ⟨body, rfl⟩, hk⟩

theorem FirstComment.length_dropped {cs : List Char} {i j : Nat} (h : FirstComment cs i j) :
    (dropFirstCommentChars cs).length + 4 ≤ cs.length := by
  have hend := h.ends.length_le (by simp)
  have hbehind := h.behind_opener
  simp only [List.length_cons, List.length_nil] at hend
  rw [dropFirstCommentChars_of_first h, List.length_append, List.length_take, List.length_drop]
  omega

/-- Slash, star and slash are three characters, and never what is taken out. -/
theorem dropFirstCommentChars_ne_of_three (u v : List Char) :
    dropFirstCommentChars (u ++ '/' :: '*' :: '/' :: v) ≠ u ++ v := by
  intro hdropped
  have hlen := congrArg List.length hdropped
  by_cases h : HasComment (u ++ '/' :: '*' :: '/' :: v)
  · obtain ⟨i, j, hfirst⟩ := exists_firstComment h
    have hshort := hfirst.length_dropped
    simp only [List.length_append, List.length_cons] at hlen hshort
    omega
  · rw [dropFirstCommentChars_of_none h] at hlen
    simp only [List.length_append, List.length_cons] at hlen
    omega

theorem dropFirstCommentChars_of_three {u v : List Char} (hu : ¬ ['/', '*'] <:+: u) (hv : ¬ ['*', '/'] <:+: v) :
    dropFirstCommentChars (u ++ '/' :: '*' :: '/' :: v) = u ++ '/' :: '*' :: '/' :: v := by
  have hunended : afterCommentEnd? ('/' :: v) = none := by
    rw [afterCommentEnd?_cons fun _ hstar => absurd hstar (by decide)]
    exact commentEnd_iff.mpr hv
  have hopener : dropFirstCommentChars ('/' :: '*' :: '/' :: v) = '/' :: dropFirstCommentChars ('*' :: '/' :: v) := by
    refine dropFirstCommentChars_cons fun body _ hbody => ?_
    obtain ⟨-, rfl⟩ := List.cons.inj hbody
    exact hunended
  have hstar : dropFirstCommentChars ('*' :: '/' :: v) = '*' :: dropFirstCommentChars ('/' :: v) :=
    dropFirstCommentChars_cons fun _ hslash => absurd hslash (by decide)
  rw [dropFirstCommentChars_before_opener hu, hopener, hstar, dropFirstCommentChars_of_unended hunended]

/-- If any opener of a text has an end behind it, what is taken out begins at the first
    opener and ends at the nearest end behind it, and otherwise nothing is. So of a text
    put together from parts, the first comment is left out and the parts around it stay
    as they are, even if they make a comment once they are joined. Slash, star and slash
    are never taken out, and stay where no end follows. -/
theorem first_comment_taken_out :
    (∀ t : String,
      (HasComment t.toList → ∃ i j, FirstComment t.toList i j ∧
        dropFirstComment t = String.ofList (t.toList.take i ++ t.toList.drop (j + 2))) ∧
      (¬ HasComment t.toList → dropFirstComment t = t)) ∧
    (∀ u c v : String, ¬ "/*".toList <:+: u.toList →
      (∀ k < c.length, ¬ StandsAt "*/".toList (c ++ "*/").toList k) →
      dropFirstComment (u ++ "/*" ++ c ++ "*/" ++ v) = u ++ v) ∧
    (∀ u v : String, dropFirstComment (u ++ "/*/" ++ v) ≠ u ++ v ∧
      (¬ "/*".toList <:+: u.toList → ¬ "*/".toList <:+: v.toList →
        dropFirstComment (u ++ "/*/" ++ v) = u ++ "/*/" ++ v)) := by
  have hchars : ∀ (t : String) {r : List Char}, dropFirstCommentChars t.toList = r →
      dropFirstComment t = String.ofList r := fun _ _ ht => congrArg String.ofList ht
  refine ⟨fun t => ⟨fun h => ?_, fun h => ?_⟩, fun u c v hu hc => ?_, fun u v => ⟨fun h => ?_, fun hu hv => ?_⟩⟩
  · obtain ⟨i, j, hfirst⟩ := exists_firstComment h
    exact ⟨i, j, hfirst, hchars t (dropFirstCommentChars_of_first hfirst)⟩
  · rw [hchars t (dropFirstCommentChars_of_none h), String.ofList_toList]
  · have hends : ∀ k < c.toList.length, ¬ StandsAt ['*', '/'] (c.toList ++ ['*', '/']) k := by
      rw [String.length_toList]
      simpa using hc
    have hparts := dropFirstCommentChars_of_parts hu hends v.toList
    rw [hchars (r := (u ++ v).toList) _ (by simpa using hparts), String.ofList_toList]
  · have hlist := congrArg String.toList h
    simp only [dropFirstComment, String.toList_ofList, String.toList_append] at hlist
    exact dropFirstCommentChars_ne_of_three u.toList v.toList (by simpa using hlist)
  · have hthree := dropFirstCommentChars_of_three hu hv
    rw [hchars (r := (u ++ "/*/" ++ v).toList) _ (by simpa using hthree), String.ofList_toList]

/-- The slash before the comment and the star behind it open another one once they are
    joined, and that one stays. -/
theorem first_comment_taken_out_joined :
    let t := "u//* c **/*/ v/* w */"
    HasComment t.toList ∧
    (∃ i j, FirstComment t.toList i j ∧
      dropFirstComment t = String.ofList (t.toList.take i ++ t.toList.drop (j + 2))) ∧
    (¬ "/*".toList <:+: "u/".toList ∧ dropFirstComment t = "u/*/ v/* w */") ∧
    (¬ HasComment "a*/b".toList ∧ dropFirstComment "a*/b" = "a*/b") ∧
    dropFirstComment "//*/ /*" = "//*/ /*" := by
  intro t
  have hcomment : HasComment t.toList := ⟨2, 8, by decide, by decide, by decide⟩
  have hopen : ¬ "/*".toList <:+: "u/".toList := by decide
  have hnone : ¬ HasComment "a*/b".toList := by
    rw [HasComment]
    rintro ⟨i, j, -, hi, -⟩
    exact absurd (infix_iff_standsAt.mpr ⟨i, hi⟩) (by decide)
  obtain ⟨hplaces, hparts, hthree⟩ := first_comment_taken_out
  exact ⟨hcomment, (hplaces t).1 hcomment, ⟨hopen, hparts "u/" " c *" "*/ v/* w */" hopen (by decide)⟩,
    ⟨hnone, (hplaces "a*/b").2 hnone⟩, (hthree "/" " /*").2 (by decide) (by decide)⟩

end AttributeSheet.Text
