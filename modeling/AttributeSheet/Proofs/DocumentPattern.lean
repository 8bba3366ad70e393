/-
  AttributeSheet.Proofs.DocumentPattern — the pattern that a whole document opens with.

  The pattern is blanks, any number of comments with blanks behind each, and a marker
  (`wholeDocument`). A comment runs from its opener to any end, not only to its first, so
  two comments and all that stands between them make one comment (`comment_joined`), and
  the loop over comments comes to none or one (`language_wholeDocument`,
  `exists_opens_behindComments_iff`). The reader of the opening looks for no more than that
  (`opensDocumentChars_eq_opens`).

  The pattern takes letters of any case, and folds the case of all scripts. No character
  but the basic Latin letters has a letter of a marker as its small form
  (`lowerAllChar_eq_iff`), as none of them is a k.
-/
import AttributeSheet.Proofs.PageOpening
import AttributeSheet.Proofs.Patterns

namespace AttributeSheet

/-! ## Small forms in all scripts -/

namespace Text

/-- A basic character that is the small form of basic characters only: a k is also the small
    form of the sign for kelvin. -/
def isPlain (m : Char) : Bool := m.toNat ≠ 0 && m.toNat < 128 && m ≠ 'k'

theorem isPlain_iff {m : Char} : isPlain m = true ↔ m.toNat ≠ 0 ∧ m.toNat < 128 ∧ m ≠ 'k' := by
  simp only [isPlain, Bool.and_eq_true, decide_eq_true_eq, and_assoc]

/-- The basic capitals are the first run, and the others are outside the basic characters. -/
theorem capitalRuns_basic : ∃ others, capitalRuns = (65, 90, 1, 32) :: others ∧ ∀ run ∈ others, 128 ≤ run.1 :=
  ⟨capitalRuns.tail, rfl, by decide +kernel⟩

theorem lowerAllChar_basic {c : Char} (hc : c.toNat < 128) : lowerAllChar c = [lowerLatinChar c] := by
  obtain ⟨others, hruns, hothers⟩ := capitalRuns_basic
  rw [lowerAllChar, if_neg (by omega), hruns, List.find?_cons, List.find?_eq_none.mpr, lowerLatinChar]
  · by_cases hcapital : ('A' ≤ c && c ≤ 'Z') = true
    · obtain ⟨hfirst, hlast⟩ := isCapital_iff_toNat.mp hcapital
      simp only [hcapital, hfirst, hlast, Nat.mod_one, decide_true, Bool.and_self, BEq.rfl, if_true]
      rfl
    · have houtside : (decide (65 ≤ c.toNat) && decide (c.toNat ≤ 90)) = false := by
        simpa only [Bool.and_eq_true, decide_eq_true_eq, Bool.eq_false_iff, Ne] using mt isCapital_iff_toNat.mpr hcapital
      simp only [hcapital, houtside, Bool.false_and, Bool.false_eq_true, if_false]
  · intro run hrun hinside
    have hfar := hothers run hrun
    simp only [Bool.and_eq_true, decide_eq_true_eq] at hinside
    omega

/-- A run of capitals outside the basic ones has its small forms outside them, but for the sign
    for kelvin. -/
theorem capitalRuns_apart : ∀ run ∈ capitalRuns, 128 ≤ run.2.1 →
    128 ≤ (run.1 : Int) + run.2.2.2 ∨ run = (8490, 8490, 1, -8383) := by decide +kernel

theorem not_isPlain_ofNat {n : Nat} (hn : 128 ≤ n) : ¬ isPlain (Char.ofNat n) = true := by
  intro h
  obtain ⟨hzero, hbasic, -⟩ := isPlain_iff.mp h
  by_cases hvalid : n.isValidChar
  · have hvalue : (Char.ofNat n).toNat = n := by
      rw [Char.ofNat, dif_pos hvalid]
      rfl
    omega
  · have hvalue : (Char.ofNat n).toNat = 0 := by
      rw [Char.ofNat, dif_neg hvalid]
      rfl
    exact hzero hvalue

theorem lowerAllChar_foreign {c m : Char} (hc : 128 ≤ c.toNat) (hm : isPlain m = true) : lowerAllChar c ≠ [m] := by
  intro h
  unfold lowerAllChar at h
  split at h
  · simp at h
  · split at h
    next first last step shift hrun =>
      obtain rfl := List.singleton_inj.mp h
      have hinside := List.find?_some hrun
      simp only [Bool.and_eq_true, decide_eq_true_eq] at hinside
      obtain hfar | hkelvin : 128 ≤ (first : Int) + shift ∨ (first, last, step, shift) = (8490, 8490, 1, -8383) :=
        capitalRuns_apart _ (List.mem_of_find?_eq_some hrun) (hc.trans hinside.1.2)
      · exact not_isPlain_ofNat (by omega) hm
      · cases hkelvin
        have hsign : c.toNat = 8490 := by omega
        rw [hsign] at hm
        exact (isPlain_iff.mp hm).2.2 rfl
    · obtain rfl := List.singleton_inj.mp h
      exact absurd (isPlain_iff.mp hm).2.1 (Nat.not_lt.mpr hc)

/-- Folding the case of all scripts gives such a character where folding that of the basic
    Latin letters does. -/
theorem lowerAllChar_eq_iff {c m : Char} (hm : isPlain m = true) : lowerAllChar c = [m] ↔ lowerLatinChar c = m := by
  by_cases hc : c.toNat < 128
  · rw [lowerAllChar_basic hc, List.singleton_inj]
  · have hforeign : isLatinLetter c = false := by
      rw [Bool.eq_false_iff, Ne, isLatinLetter_iff_toNat]
      omega
    rw [lowered_of_no_letter hforeign]
    refine iff_of_false (lowerAllChar_foreign (by omega) hm) ?_
    rintro rfl
    exact hc (isPlain_iff.mp hm).2.1

end Text

namespace Markup.Prologue

open Text Pattern

/-! ## The pattern -/

/-- The word in letters of any case; it is given in small letters. -/
def letters : List Char → Pattern
  | [] => .nothing
  | m :: word => .both (.one fun c => lowerAllChar c = [m]) (letters word)

def blanks : Pattern := .rounds .most (.one isBlank)

def comment : Pattern :=
  .both (letters "<!--".toList) (.both (.rounds .fewest (.one fun _ => true)) (.both (letters "-->".toList) blanks))

def marker : Pattern :=
  .both (letters "<".toList) (.either (letters "html".toList)
    (.either (letters "head".toList) (.either (letters "body".toList) (letters "!doctype".toList))))

def wholeDocument : Pattern := .both blanks (.both (.rounds .most comment) marker)

def behindComments (n : Nat) : Pattern := .both blanks (.both (comment.times n) marker)

/-! ## The words of its parts -/

theorem mem_letters {word cs : List Char} (hplain : word.all isPlain = true) :
    cs ∈ (letters word).language ↔ Spells word cs := by
  induction word generalizing cs with
  | nil => rw [letters, language, Language.mem_one, Spells, List.map_eq_nil_iff]
  | cons m word ih =>
    obtain ⟨hm, hword⟩ := Bool.and_eq_true_iff.mp hplain
    rw [letters, language_both, Language.mem_mul, Spells, List.map_eq_cons_iff]
    simp only [mem_language_one, decide_eq_true_iff, lowerAllChar_eq_iff hm, ih hword, Spells]
    constructor
    · rintro ⟨_, ⟨c, hc, rfl⟩, b, hb, rfl⟩
      exact ⟨c, b, rfl, hc, hb⟩
    · rintro ⟨c, b, rfl, hc, hb⟩
      exact ⟨[c], ⟨c, hc, rfl⟩, b, hb, rfl⟩

theorem spells_signs {word cs : List Char} (hsigns : word.any isLatinLetter = false) :
    Spells word cs ↔ cs = word := by
  induction word generalizing cs with
  | nil => rw [Spells, List.map_eq_nil_iff]
  | cons m word ih =>
    obtain ⟨hm, hword⟩ := Bool.or_eq_false_iff.mp hsigns
    constructor
    · intro h
      obtain ⟨r, rfl, hr⟩ := h.cons hm
      rw [(ih hword).mp hr]
    · rintro rfl
      exact List.cons_eq_cons.mpr ⟨lowered_of_no_letter hm, (ih hword).mpr rfl⟩

theorem mem_letters_signs {word cs : List Char} (hplain : word.all isPlain = true)
    (hsigns : word.any isLatinLetter = false) : cs ∈ (letters word).language ↔ cs = word := by
  rw [mem_letters hplain, spells_signs hsigns]

theorem mem_blanks {cs : List Char} : cs ∈ blanks.language ↔ AllBlank cs := by
  rw [blanks, language_rounds]
  induction cs with
  | nil => exact iff_of_true (Language.nil_mem_kstar _) nofun
  | cons c cs ih =>
    rw [mem_kstar_iff_round, AllBlank, List.forall_mem_cons, ← AllBlank, ← ih]
    constructor
    · rintro (hnil | ⟨_, ⟨d, hd, rfl⟩, -, b, hb, hcs⟩)
      · cases hnil
      · obtain ⟨rfl, rfl⟩ := List.cons.inj hcs
        exact ⟨hd, hb⟩
    · rintro ⟨hc, hcs⟩
      exact Or.inr ⟨[c], ⟨c, hc, rfl⟩, List.cons_ne_nil c [], cs, hcs, rfl⟩

theorem letters_append (a b : List Char) :
    (letters (a ++ b)).language = (letters a).language * (letters b).language := by
  induction a with
  | nil => exact (one_mul _).symm
  | cons m a ih => rw [List.cons_append, letters, letters, language_both, language_both, ih, mul_assoc]

theorem mem_marker_top {cs : List Char} : cs ∈ marker.language * ⊤ ↔ startsWithMarker cs = true := by
  have hmarker : ∀ word, word ∈ marker.language ↔ ∃ m ∈ documentMarkers, Spells m word := by
    intro word
    have hsum : marker.language = (letters "<html".toList).language + ((letters "<head".toList).language +
        ((letters "<body".toList).language + (letters "<!doctype".toList).language)) := by
      simp only [marker, language_both, language_either, mul_add, ← letters_append]
      rfl
    simp only [hsum, Language.mem_add]
    rw [mem_letters (by decide), mem_letters (by decide), mem_letters (by decide), mem_letters (by decide)]
    simp [documentMarkers]
  rw [startsWithMarker_iff, Language.mem_mul]
  simp only [hmarker]
  constructor
  · rintro ⟨word, ⟨m, hm, hword⟩, rest, -, rfl⟩
    exact ⟨m, hm, word, rest, rfl, hword⟩
  · rintro ⟨m, hm, word, rest, rfl, hword⟩
    exact ⟨word, ⟨m, hm, hword⟩, rest, trivial, rfl⟩

/-! ## One comment for any number -/

theorem language_comment : comment.language =
    (letters "<!--".toList).language * (⊤ * ((letters "-->".toList).language * blanks.language)) := by
  rw [comment, language_both, language_both, language_any, language_both]

/-- From the opener of one comment to the end of the next is one comment, whatever stands
    between. -/
theorem comment_joined : comment.language * comment.language ≤ comment.language := by
  rw [language_comment]
  generalize (letters "<!--".toList).language = opener
  generalize (letters "-->".toList).language * blanks.language = ending
  -- The end of the first comment and the opener of the second are text of the joined one.
  calc opener * (⊤ * ending) * (opener * (⊤ * ending))
      = opener * (⊤ * ending * opener * ⊤ * ending) := by simp only [mul_assoc]
    _ ≤ opener * (⊤ * ending) := by
      gcongr
      exact le_top

theorem language_behindComments (n : Nat) :
    (behindComments n).language = blanks.language * (comment.language ^ n * marker.language) := by
  rw [behindComments, language_both, language_both, language_times]

/-- The pattern takes a marker behind blanks and no comment, or one. -/
theorem language_wholeDocument :
    wholeDocument.language = (behindComments 0).language + (behindComments 1).language := by
  have hrounds : (rounds .most comment).language = 1 + comment.language := kstar_eq_one_add comment_joined
  rw [language_behindComments, language_behindComments, pow_zero, pow_one, ← mul_add, ← add_mul, ← hrounds,
    wholeDocument, language_both, language_both]

theorem language_behindComments_le (n : Nat) : (behindComments n).language ≤ wholeDocument.language := by
  rw [language_behindComments, wholeDocument, language_both, language_both, language_rounds]
  gcongr
  exact pow_le_kstar

/-! ## What the pattern opens -/

theorem opens_wholeDocument_iff_none_or_one {cs : List Char} : wholeDocument.opens cs = true ↔
    (behindComments 0).opens cs = true ∨ (behindComments 1).opens cs = true := by
  simp only [opens_iff, language_wholeDocument, add_mul, Language.mem_add]

theorem exists_opens_behindComments_iff {cs : List Char} :
    (∃ n, (behindComments n).opens cs = true) ↔ wholeDocument.opens cs = true := by
  constructor
  · rintro ⟨n, hn⟩
    rw [opens_iff] at hn ⊢
    exact mul_le_mul_left (language_behindComments_le n) ⊤ hn
  · rw [opens_wholeDocument_iff_none_or_one]
    rintro (hnone | hone)
    · exact ⟨0, hnone⟩
    · exact ⟨1, hone⟩

theorem mem_blanks_marker_top {cs : List Char} :
    cs ∈ blanks.language * (marker.language * ⊤) ↔ MarkerPastBlanks cs := by
  rw [Language.mem_mul]
  simp only [mem_blanks, mem_marker_top]
  constructor
  · rintro ⟨blanks, hblanks, s, hs, rfl⟩
    exact ⟨blanks, s, rfl, hblanks, hs⟩
  · rintro ⟨blanks, s, rfl, hblanks, hs⟩
    exact ⟨blanks, hblanks, s, hs, rfl⟩

theorem opens_behindComments_zero {cs : List Char} : (behindComments 0).opens cs = true ↔ MarkerPastBlanks cs := by
  rw [opens_iff, language_behindComments, pow_zero, one_mul, mul_assoc, mem_blanks_marker_top]

theorem opens_behindComments_one {cs : List Char} : (behindComments 1).opens cs = true ↔ CommentThenMarker cs := by
  have hopener : ∀ cs, cs ∈ (letters "<!--".toList).language ↔ cs = "<!--".toList :=
    fun _ => mem_letters_signs (by decide) (by decide)
  have hender : ∀ cs, cs ∈ (letters "-->".toList).language ↔ cs = "-->".toList :=
    fun _ => mem_letters_signs (by decide) (by decide)
  have hbehind : ∀ L : Language Char, comment.language * L = (letters "<!--".toList).language *
      (⊤ * ((letters "-->".toList).language * (blanks.language * L))) := by
    intro L
    simp only [language_comment, mul_assoc]
  rw [opens_iff, language_behindComments, pow_one, mul_assoc, mul_assoc, hbehind]
  generalize hpast : blanks.language * (marker.language * ⊤) = past
  have hmarker : ∀ after, after ∈ past ↔ MarkerPastBlanks after := by
    intro after
    rw [← hpast, mem_blanks_marker_top]
  simp only [Language.mem_mul, mem_blanks, hopener, hender, hmarker, exists_eq_left]
  constructor
  · rintro ⟨w, hw, _, ⟨_, ⟨x, -, _, ⟨after, hafter, rfl⟩, rfl⟩, rfl⟩, rfl⟩
    exact ⟨w, x, after, by rw [List.append_assoc], hw, hafter⟩
  · rintro ⟨w, x, after, rfl, hw, hafter⟩
    exact ⟨w, hw, _, ⟨_, ⟨x, trivial, _, ⟨after, hafter, rfl⟩, rfl⟩, rfl⟩, by rw [List.append_assoc]⟩

/-- The reader of the opening finds what a search for the pattern finds. -/
theorem opensDocumentChars_eq_opens (cs : List Char) : opensDocumentChars cs = wholeDocument.opens cs := by
  rw [Bool.eq_iff_iff, opensDocumentChars_iff, opens_wholeDocument_iff_none_or_one, opens_behindComments_zero,
    opens_behindComments_one]

def Marked (cs : List Char) : Prop := ∃ m ∈ documentMarkers, ∃ word rest, cs = word ++ rest ∧ Spells m word

/-- Past the blanks comes a marker, or one comment with anything in it, blanks and a marker. -/
theorem opens_wholeDocument_iff {cs : List Char} : wholeDocument.opens cs = true ↔
    ∃ w r, cs = w ++ r ∧ AllBlank w ∧
      (Marked r ∨ ∃ x w' s, r = "<!--".toList ++ x ++ "-->".toList ++ w' ++ s ∧ AllBlank w' ∧ Marked s) := by
  have hmarked : ∀ cs, startsWithMarker cs = true ↔ Marked cs := fun _ => startsWithMarker_iff
  rw [← opensDocumentChars_eq_opens, opensDocumentChars_iff]
  simp only [MarkerPastBlanks, CommentThenMarker, hmarked]
  constructor
  · rintro (⟨w, r, rfl, hw, hr⟩ | ⟨w, x, _, rfl, hw, w', s, rfl, hw', hs⟩)
    · exact ⟨w, r, rfl, hw, Or.inl hr⟩
    · exact ⟨w, _, rfl, hw, Or.inr ⟨x, w', s, by simp only [List.append_assoc], hw', hs⟩⟩
  · rintro ⟨w, r, rfl, hw, hr | ⟨x, w', s, rfl, hw', hs⟩⟩
    · exact Or.inl ⟨w, r, rfl, hw, hr⟩
    · exact Or.inr ⟨w, x, w' ++ s, by simp only [List.append_assoc], hw, w', s, rfl, hw', hs⟩

end Markup.Prologue

end AttributeSheet
