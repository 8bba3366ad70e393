/-
  AttributeSheet.Proofs.PageOpening — what the opening of a page is read as.

  Each reader of the opening is told by the texts it takes: an XML declaration
  (`afterDeclaration?_eq_some`), a doctype (`leadingDoctype?_eq_some`), the opening of a
  whole document (`opensDocumentChars_iff`). The last one is a marker past blanks, or a
  comment past blanks that is followed by a marker, where the comment may be taken to
  end at any of the ends that come after its opener.

  Blanks and complete comments in any order (`Preamble`) are blank, or they run from the
  first opener to the last end with blanks around (`Preamble.blank_or_comments`).
-/
import AttributeSheet.Markup.Prologue
import AttributeSheet.Proofs.Pieces

namespace AttributeSheet

/-! ## Letters of any case -/

theorem lowered_toNat {c : Char} (h : ('A' ≤ c && c ≤ 'Z') = true) : (lowerLatinChar c).toNat = c.toNat + 32 := by
  have hle := isCapital_iff_toNat.mp h
  rw [lowerLatinChar, if_pos h, Char.ofNat, dif_pos (Or.inl (by omega))]
  rfl

theorem isLatinLetter_lowered {c : Char} (h : ('A' ≤ c && c ≤ 'Z') = true) :
    isLatinLetter (lowerLatinChar c) = true := by
  have hle := isCapital_iff_toNat.mp h
  rw [isLatinLetter_iff_toNat, lowered_toNat h]
  omega

/-- A character that is no letter is the small form of itself alone. -/
theorem eq_of_lowered_eq {c d : Char} (hd : isLatinLetter d = false) (h : lowerLatinChar c = d) : c = d := by
  by_cases hc : ('A' ≤ c && c ≤ 'Z') = true
  · rw [← h, isLatinLetter_lowered hc] at hd
    cases hd
  · rwa [lowerLatinChar, if_neg hc] at h

theorem lowered_of_no_letter {c : Char} (hc : isLatinLetter c = false) : lowerLatinChar c = c := by
  rw [lowerLatinChar, if_neg]
  intro hcapital
  rw [isLatinLetter, hcapital, Bool.or_true] at hc
  cases hc

namespace Markup.Prologue

open Text

def AllBlank (cs : List Char) : Prop := ∀ c ∈ cs, isBlank c = true

instance (cs : List Char) : Decidable (AllBlank cs) := decidable_of_iff (cs.all isBlank = true) List.all_eq_true

/-- The word, which is given in small letters, in letters of any case. -/
def Spells (word : List Char) (cs : List Char) : Prop := cs.map lowerLatinChar = word

instance (word cs : List Char) : Decidable (Spells word cs) := inferInstanceAs (Decidable (cs.map lowerLatinChar = word))

theorem Spells.length {word cs : List Char} (h : Spells word cs) : cs.length = word.length := by
  rw [← h, List.length_map]

theorem Spells.cons {mark : Char} (hmark : isLatinLetter mark = false) {word cs : List Char}
    (h : Spells (mark :: word) cs) : ∃ r, cs = mark :: r ∧ Spells word r := by
  obtain ⟨c, r, rfl, hc, hr⟩ := List.map_eq_cons_iff.mp h
  exact ⟨r, by rw [eq_of_lowered_eq hmark hc], hr⟩

theorem Spells.marked {mark : Char} (hmark : isLatinLetter mark = false) {word cs : List Char}
    (h : Spells ('<' :: mark :: word) cs) : ∃ r, cs = '<' :: mark :: r := by
  obtain ⟨r, rfl, hmarked⟩ := h.cons (by decide)
  obtain ⟨r, rfl, -⟩ := hmarked.cons hmark
  exact ⟨r, rfl⟩

/-- An XML declaration: up to its first closing bracket, which a question mark stands
    before. -/
inductive XmlDeclaration : List Char → Prop
  | intro {word inside : List Char} : Spells "<?xml".toList word → '>' ∉ inside →
      XmlDeclaration (word ++ inside ++ ['?', '>'])

inductive Doctype : List Char → Prop
  | intro {word inside : List Char} : Spells "<!doctype".toList word → '>' ∉ inside →
      Doctype (word ++ inside ++ ['>'])

/-! ## Blanks -/

theorem exists_blanks (cs : List Char) : ∃ blanks, AllBlank blanks ∧ cs = blanks ++ skipBlanks cs :=
  ⟨cs.takeWhile isBlank, fun _ hc => List.mem_takeWhile_imp hc, List.takeWhile_append_dropWhile.symm⟩

theorem skipBlanks_bracket {blanks : List Char} (h : AllBlank blanks) (r : List Char) :
    skipBlanks (blanks ++ '<' :: r) = '<' :: r := by
  rw [skipBlanks_append_blank h, skipBlanks_cons_solid (by decide)]

/-! ## Declarations and doctypes -/

theorem afterDeclaration?_eq_some {cs rest : List Char} :
    afterDeclaration? cs = some rest ↔ ∃ d, XmlDeclaration d ∧ cs = d ++ rest := by
  simp only [afterDeclaration?, Option.bind_eq_bind, Option.bind_eq_some_iff, Prod.exists]
  constructor
  · rintro ⟨body, hbody, inside, rest', hsplit, hrest⟩
    obtain ⟨word, rfl, hword⟩ := afterCaseless?_eq_some.mp hbody
    obtain ⟨rfl, hclose⟩ := splitAt?_eq_some hsplit
    split at hrest
    next hlast =>
      obtain rfl := Option.some.inj hrest
      obtain ⟨inside, rfl⟩ := List.getLast?_eq_some_iff.mp hlast
      exact ⟨_, .intro hword fun hmem => hclose (List.mem_append_left _ hmem), by simp⟩
    · cases hrest
  · rintro ⟨_, ⟨hword, hclose⟩, rfl⟩
    rename_i word inside
    have hsplit : splitAt? '>' ((inside ++ ['?']) ++ '>' :: rest) = some (inside ++ ['?'], rest) :=
      splitAt?_of_not_mem (by simp [hclose]) rest
    exact ⟨inside ++ ['?'] ++ '>' :: rest, afterCaseless?_eq_some.mpr ⟨word, by simp, hword⟩, inside ++ ['?'], rest,
      hsplit, by simp⟩

theorem leadingDoctype?_eq_some {cs d : List Char} : leadingDoctype? cs = some d ↔ Doctype d ∧ d <+: cs := by
  have htake : ∀ {word inside : List Char} (rest : List Char), Spells "<!doctype".toList word →
      (word ++ inside ++ ['>'] ++ rest).take ("<!doctype".length + inside.length + 1) = word ++ inside ++ ['>'] := by
    intro word inside rest hword
    have hlength : "<!doctype".length + inside.length + 1 = (word ++ inside ++ ['>']).length := by
      rw [← String.length_toList, ← hword.length]
      simp [Nat.add_assoc]
    rw [hlength, List.take_left]
  simp only [leadingDoctype?, Option.bind_eq_bind, Option.bind_eq_some_iff, Prod.exists]
  constructor
  · rintro ⟨body, hbody, inside, rest, hsplit, hd⟩
    obtain ⟨word, rfl, hword⟩ := afterCaseless?_eq_some.mp hbody
    obtain ⟨rfl, hclose⟩ := splitAt?_eq_some hsplit
    have hcs : word ++ (inside ++ '>' :: rest) = word ++ inside ++ ['>'] ++ rest := by simp
    rw [hcs, htake rest hword] at hd
    obtain rfl := Option.some.inj hd
    exact ⟨.intro hword hclose, rest, hcs.symm⟩
  · rintro ⟨⟨hword, hclose⟩, rest, rfl⟩
    rename_i word inside
    exact ⟨inside ++ '>' :: rest, afterCaseless?_eq_some.mpr ⟨word, by simp, hword⟩, inside, rest,
      splitAt?_of_not_mem hclose rest, congrArg some (htake rest hword)⟩

/-! ## Markers -/

theorem startsWithMarker_iff {cs : List Char} :
    startsWithMarker cs = true ↔ ∃ m ∈ documentMarkers, ∃ word rest, cs = word ++ rest ∧ Spells m word := by
  simp only [startsWithMarker, List.any_eq_true, Option.isSome_iff_exists, afterCaseless?_eq_some, Spells]
  exact ⟨fun ⟨m, hm, rest, word, h⟩ => ⟨m, hm, word, rest, h⟩, fun ⟨m, hm, word, rest, h⟩ => ⟨m, hm, rest, word, h⟩⟩

theorem startsWithMarker_bracket {cs : List Char} (h : startsWithMarker cs = true) : ∃ r, cs = '<' :: r := by
  obtain ⟨m, hm, word, rest, rfl, hword⟩ := startsWithMarker_iff.mp h
  have hbracket : ∃ m', m = '<' :: m' := by
    simp only [documentMarkers, List.map_cons, List.map_nil, List.mem_cons, List.not_mem_nil, or_false] at hm
    rcases hm with rfl | rfl | rfl | rfl <;> exact ⟨_, rfl⟩
  obtain ⟨m', rfl⟩ := hbracket
  obtain ⟨r, rfl, -⟩ := hword.cons (by decide)
  exact ⟨r ++ rest, rfl⟩

def MarkerPastBlanks (cs : List Char) : Prop :=
  ∃ blanks s, cs = blanks ++ s ∧ AllBlank blanks ∧ startsWithMarker s = true

theorem markerPastBlanks_iff {cs : List Char} : MarkerPastBlanks cs ↔ startsWithMarker (skipBlanks cs) = true := by
  constructor
  · rintro ⟨blanks, s, rfl, hblanks, hs⟩
    obtain ⟨r, rfl⟩ := startsWithMarker_bracket hs
    rwa [skipBlanks_bracket hblanks]
  · intro h
    obtain ⟨blanks, hblanks, hcs⟩ := exists_blanks cs
    exact ⟨blanks, _, hcs, hblanks, h⟩

theorem markerAfterCommentEnd_cons (c : Char) (r : List Char) :
    markerAfterCommentEnd (c :: r) =
      ((after? "-->".toList (c :: r)).any (fun rest => startsWithMarker (skipBlanks rest)) ||
        markerAfterCommentEnd r) := by
  rw [markerAfterCommentEnd]
  cases after? "-->".toList (c :: r) <;> rfl

theorem markerAfterCommentEnd_iff {cs : List Char} :
    markerAfterCommentEnd cs = true ↔ ∃ x after, cs = x ++ "-->".toList ++ after ∧ MarkerPastBlanks after := by
  induction cs with
  | nil => simp [markerAfterCommentEnd]
  | cons c r ih =>
    rw [markerAfterCommentEnd_cons, Bool.or_eq_true, ih, Option.any_eq_true]
    simp only [after?_eq_some, ← markerPastBlanks_iff]
    constructor
    · rintro (⟨after, hafter, hmarker⟩ | ⟨x, after, rfl, hmarker⟩)
      · exact ⟨[], after, hafter, hmarker⟩
      · exact ⟨c :: x, after, rfl, hmarker⟩
    · rintro ⟨x, after, hcs, hmarker⟩
      cases x with
      | nil => exact Or.inl ⟨after, hcs, hmarker⟩
      | cons d x =>
        obtain ⟨rfl, rfl⟩ := List.cons.inj hcs
        exact Or.inr ⟨x, after, rfl, hmarker⟩

/-- A comment past blanks, with a marker behind an end of it. -/
def CommentThenMarker (cs : List Char) : Prop :=
  ∃ blanks x after, cs = blanks ++ ("<!--".toList ++ (x ++ "-->".toList ++ after)) ∧ AllBlank blanks ∧
    MarkerPastBlanks after

theorem commentThenMarker_iff {cs : List Char} :
    CommentThenMarker cs ↔ (after? "<!--".toList (skipBlanks cs)).any markerAfterCommentEnd = true := by
  simp only [Option.any_eq_true, after?_eq_some, markerAfterCommentEnd_iff]
  constructor
  · rintro ⟨blanks, x, after, rfl, hblanks, hmarker⟩
    exact ⟨_, skipBlanks_bracket hblanks _, x, after, rfl, hmarker⟩
  · rintro ⟨body, hbody, x, after, rfl, hmarker⟩
    obtain ⟨blanks, hblanks, hcs⟩ := exists_blanks cs
    exact ⟨blanks, x, after, hbody ▸ hcs, hblanks, hmarker⟩

/-- A whole document opens with a marker past blanks, or with a comment past blanks that
    may be ended so that a marker follows. -/
theorem opensDocumentChars_iff {cs : List Char} :
    opensDocumentChars cs = true ↔ MarkerPastBlanks cs ∨ CommentThenMarker cs := by
  rw [markerPastBlanks_iff, commentThenMarker_iff, ← Bool.or_eq_true, opensDocumentChars]
  cases after? "<!--".toList (skipBlanks cs) <;> rfl

/-! ## Blanks and comments -/

/-- Blanks and complete comments, each up to its first end, in any order. -/
inductive Preamble : List Char → Prop
  | nil : Preamble []
  | blank {c : Char} {cs : List Char} : isBlank c = true → Preamble cs → Preamble (c :: cs)
  | comment {body cs : List Char} : ¬ "-->".toList <:+: body ++ "--".toList → Preamble cs →
      Preamble ("<!--".toList ++ (body ++ "-->".toList ++ cs))

theorem Preamble.of_blanks {blanks cs : List Char} (hblanks : AllBlank blanks) (h : Preamble cs) :
    Preamble (blanks ++ cs) := by
  induction blanks with
  | nil => exact h
  | cons c blanks ih =>
    exact .blank (hblanks c List.mem_cons_self) (ih fun d hd => hblanks d (List.mem_cons_of_mem c hd))

/-- It is blank, or runs from the opener of its first comment to the end of its last one,
    with blanks around. -/
theorem Preamble.blank_or_comments {cs : List Char} (h : Preamble cs) :
    AllBlank cs ∨ ∃ blanks x blanks', cs = blanks ++ ("<!--".toList ++ (x ++ "-->".toList ++ blanks')) ∧
      AllBlank blanks ∧ AllBlank blanks' := by
  induction h with
  | nil => exact Or.inl nofun
  | @blank c cs hc _ ih =>
    rcases ih with hcs | ⟨blanks, x, blanks', rfl, hblanks, hblanks'⟩
    · exact Or.inl (List.forall_mem_cons.mpr ⟨hc, hcs⟩)
    · exact Or.inr ⟨c :: blanks, x, blanks', rfl, List.forall_mem_cons.mpr ⟨hc, hblanks⟩, hblanks'⟩
  | @comment body cs _ _ ih =>
    rcases ih with hcs | ⟨blanks, x, blanks', rfl, -, hblanks'⟩
    · exact Or.inr ⟨[], body, cs, rfl, nofun, hcs⟩
    · exact Or.inr ⟨[], body ++ "-->".toList ++ blanks ++ "<!--".toList ++ x, blanks', by simp, nofun, hblanks'⟩

theorem Preamble.skipBlanks_append {g : List Char} (hg : Preamble g) {rest : List Char}
    (hrest : skipBlanks rest = rest) :
    AllBlank g ∧ skipBlanks (g ++ rest) = rest ∨
      ¬ AllBlank g ∧ ∃ more, skipBlanks (g ++ rest) = "<!--".toList ++ more := by
  rcases hg.blank_or_comments with hblank | ⟨blanks, x, blanks', rfl, hblanks, -⟩
  · exact Or.inl ⟨hblank, by rw [skipBlanks_append_blank hblank, hrest]⟩
  · refine Or.inr ⟨fun hall => ?_, x ++ "-->".toList ++ blanks' ++ rest, ?_⟩
    · have hbracket := hall '<' (by simp)
      exact absurd hbracket (by decide)
    · have hopener : blanks ++ ("<!--".toList ++ (x ++ "-->".toList ++ blanks')) ++ rest =
          blanks ++ '<' :: ("!--".toList ++ (x ++ "-->".toList ++ blanks' ++ rest)) := by simp
      rw [hopener, skipBlanks_bracket hblanks]
      rfl

/-- Before a text that does not begin with a blank, the preamble makes a whole document only
    of a comment that can be ended so that a marker follows. -/
theorem Preamble.opens_iff {g : List Char} (hg : Preamble g) {rest : List Char} (hrest : skipBlanks rest = rest) :
    opensDocumentChars (g ++ rest) = true ↔ startsWithMarker rest = true ∨ CommentThenMarker (g ++ rest) := by
  rw [opensDocumentChars_iff]
  constructor
  · rintro (hmarker | hcomment)
    · rw [markerPastBlanks_iff] at hmarker
      rcases hg.skipBlanks_append hrest with ⟨-, hskip⟩ | ⟨-, more, hskip⟩
      · exact Or.inl (hskip ▸ hmarker)
      · rw [hskip] at hmarker
        cases hmarker
    · exact Or.inr hcomment
  · rintro (hmarker | hcomment)
    · rcases hg.blank_or_comments with hblank | ⟨blanks, x, blanks', rfl, hblanks, hblanks'⟩
      · exact Or.inl ⟨g, rest, rfl, hblank, hmarker⟩
      · exact Or.inr ⟨blanks, x, blanks' ++ rest, by simp, hblanks, blanks', rest, rfl, hblanks', hmarker⟩
    · exact Or.inr hcomment

/-! ## Past the declaration -/

theorem XmlDeclaration.opening {d : List Char} (h : XmlDeclaration d) : ∃ r, d = '<' :: '?' :: r := by
  obtain ⟨hword, -⟩ := h
  rename_i word inside
  have hmarked : Spells ('<' :: '?' :: "xml".toList) word := hword
  obtain ⟨r, rfl⟩ := hmarked.marked (by decide)
  exact ⟨_, rfl⟩

theorem afterDeclaration?_eq_none {cs : List Char} (h : ∀ r, cs ≠ '<' :: '?' :: r) : afterDeclaration? cs = none := by
  rw [Option.eq_none_iff_forall_ne_some]
  intro rest hrest
  obtain ⟨d, hd, rfl⟩ := afterDeclaration?_eq_some.mp hrest
  obtain ⟨r, rfl⟩ := hd.opening
  exact h _ rfl

/-- The text goes on: neither with a blank nor with an instruction. -/
structure GoesOn (rest : List Char) : Prop where
  solid : skipBlanks rest = rest
  noInstruction : ∀ r, rest ≠ '<' :: '?' :: r

/-- Behind blanks, a declaration or none, blanks and comments, a page goes on as it would
    without the declaration. -/
theorem past_declaration {w p g rest : List Char} (hw : AllBlank w) (hp : p = [] ∨ XmlDeclaration p) (hg : Preamble g)
    (hrest : GoesOn rest) :
    ((afterDeclaration? (skipBlanks (w ++ p ++ g ++ rest))).map skipBlanks).getD (skipBlanks (w ++ p ++ g ++ rest)) =
        skipBlanks (g ++ rest) ∧
      ∃ w', AllBlank w' ∧ dropDeclaration (String.ofList (w ++ p ++ g ++ rest)) = String.ofList (w' ++ g ++ rest) := by
  rcases hp with rfl | hp
  · have hskip : skipBlanks (w ++ [] ++ g ++ rest) = skipBlanks (g ++ rest) := by
      rw [List.append_nil, List.append_assoc, skipBlanks_append_blank hw]
    have hnone : afterDeclaration? (skipBlanks (g ++ rest)) = none := by
      apply afterDeclaration?_eq_none
      rcases hg.skipBlanks_append hrest.solid with ⟨-, h⟩ | ⟨-, more, h⟩
      · rw [h]
        exact hrest.noInstruction
      · rw [h]
        rintro r ⟨⟩
    refine ⟨by rw [hskip, hnone]; rfl, w, hw, ?_⟩
    rw [dropDeclaration, String.toList_ofList, hskip, hnone, List.append_nil]
    rfl
  · obtain ⟨r, hr⟩ := hp.opening
    have hskip : skipBlanks (w ++ p ++ g ++ rest) = p ++ (g ++ rest) := by
      rw [hr, List.append_assoc, List.append_assoc, List.cons_append, skipBlanks_bracket hw]
    have hafter : afterDeclaration? (p ++ (g ++ rest)) = some (g ++ rest) :=
      afterDeclaration?_eq_some.mpr ⟨p, hp, rfl⟩
    refine ⟨by rw [hskip, hafter]; rfl, [], nofun, ?_⟩
    rw [dropDeclaration, String.toList_ofList, hskip, hafter]
    rfl

theorem opensDocument_iff {w p g rest : List Char} (hw : AllBlank w) (hp : p = [] ∨ XmlDeclaration p) (hg : Preamble g)
    (hrest : GoesOn rest) :
    opensDocument (dropDeclaration (String.ofList (w ++ p ++ g ++ rest))) = true ↔
      startsWithMarker rest = true ∨ CommentThenMarker (g ++ rest) := by
  obtain ⟨-, w', hw', hdrop⟩ := past_declaration hw hp hg hrest
  have hskip : CommentThenMarker (w' ++ g ++ rest) ↔ CommentThenMarker (g ++ rest) := by
    rw [commentThenMarker_iff, commentThenMarker_iff, List.append_assoc, skipBlanks_append_blank hw']
  rw [hdrop, opensDocument, String.toList_ofList, (Preamble.of_blanks hw' hg).opens_iff hrest.solid, hskip]

end Markup.Prologue

end AttributeSheet
