/-
  AttributeSheet.Proofs.Pieces — letters, trimmed texts, and the pieces between marks.

  Trimming is idempotent, keeps a slice of what it is given and cannot see blanks put
  around a text (`trimChars_surrounded`). A text that is read from left to right has
  pieces that a mark has closed and one that is still open (`closedPieces`,
  `openPiece`); one more character either closes the open piece or goes to its end
  (`openPiece_snoc`). The same for the first occurrence of a mark (`splitAt?_snoc`).

  What follows a word is the rest of a text that begins with it (`after?_eq_some`), in
  letters of any case if case is folded (`afterCaseless?_eq_some`).
-/
import AttributeSheet.Text.Blank
import AttributeSheet.Text.Letters
import Mathlib.Data.List.DropRight
import Mathlib.Data.List.Infix

namespace AttributeSheet

/-! ## Letters -/

theorem isCapital_iff_toNat {c : Char} : ('A' ≤ c && c ≤ 'Z') = true ↔ 65 ≤ c.toNat ∧ c.toNat ≤ 90 := by
  simp only [Bool.and_eq_true, decide_eq_true_eq, Char.le_def, UInt32.le_iff_toNat_le]
  rfl

theorem isLatinLetter_iff_toNat {c : Char} :
    isLatinLetter c = true ↔ 97 ≤ c.toNat ∧ c.toNat ≤ 122 ∨ 65 ≤ c.toNat ∧ c.toNat ≤ 90 := by
  rw [isLatinLetter, Bool.or_eq_true, isCapital_iff_toNat]
  simp only [Bool.and_eq_true, decide_eq_true_eq, Char.le_def, UInt32.le_iff_toNat_le]
  rfl

theorem isBlank_letter {c : Char} (h : isLatinLetter c = true) : isBlank c = false := by
  rw [isLatinLetter_iff_toNat] at h
  simp only [isBlank, Bool.or_eq_false_iff, Bool.and_eq_false_iff, decide_eq_false_iff_not, beq_eq_false_iff_ne]
  omega

theorem isLatinLetter_blank {c : Char} (h : isBlank c = true) : isLatinLetter c = false := by
  by_contra hletter
  rw [isBlank_letter (by simpa using hletter)] at h
  cases h

namespace Text

/-! ## Blank ends -/

theorem skipBlanks_idem (cs : List Char) : skipBlanks (skipBlanks cs) = skipBlanks cs :=
  List.dropWhile_idempotent _ _

theorem skipBlanks_eq_nil {cs : List Char} : skipBlanks cs = [] ↔ ∀ c ∈ cs, isBlank c = true :=
  List.dropWhile_eq_nil_iff

theorem skipBlanks_append_blank {a : List Char} (h : ∀ c ∈ a, isBlank c = true) (b : List Char) :
    skipBlanks (a ++ b) = skipBlanks b := List.dropWhile_append_of_pos h

theorem skipBlanks_cons_blank {c : Char} (h : isBlank c = true) (cs : List Char) :
    skipBlanks (c :: cs) = skipBlanks cs := List.dropWhile_cons_of_pos h

theorem skipBlanks_cons_solid {c : Char} (h : isBlank c = false) (cs : List Char) : skipBlanks (c :: cs) = c :: cs :=
  List.dropWhile_cons_of_neg (by simp [h])

theorem skipBlanks_append_solid {a : List Char} (h : ¬ ∀ c ∈ a, isBlank c = true) (b : List Char) :
    skipBlanks (a ++ b) = skipBlanks a ++ b := by
  have hne : skipBlanks a ≠ [] := fun e => h (skipBlanks_eq_nil.mp e)
  unfold skipBlanks at hne ⊢
  rw [List.dropWhile_append, if_neg (by simpa using hne)]

theorem skipBlanks_append (a b : List Char) : skipBlanks (a ++ b) = skipBlanks (skipBlanks a ++ b) := by
  by_cases h : ∀ c ∈ a, isBlank c = true
  · rw [skipBlanks_append_blank h, skipBlanks_eq_nil.mpr h, List.nil_append]
  · have hsolid : ¬ ∀ c ∈ skipBlanks a, isBlank c = true := by
      rw [← skipBlanks_eq_nil, skipBlanks_idem, skipBlanks_eq_nil]
      exact h
    rw [skipBlanks_append_solid h, skipBlanks_append_solid hsolid, skipBlanks_idem]

theorem solid_of_skipBlanks {cs r : List Char} {d : Char} (h : skipBlanks cs = d :: r) : isBlank d = false := by
  induction cs with
  | nil => cases h
  | cons c cs ih =>
    by_cases hc : isBlank c = true
    · exact ih (by rwa [skipBlanks, List.dropWhile_cons_of_pos hc] at h)
    · rw [skipBlanks, List.dropWhile_cons_of_neg hc] at h
      obtain ⟨rfl, -⟩ := List.cons.inj h
      simpa using hc

theorem trimChars_skipBlanks (cs : List Char) : trimChars (skipBlanks cs) = trimChars cs := by
  simp only [trimChars, skipBlanks_idem]

/-- Every text is what trimming leaves of it with blanks around. -/
theorem exists_blank_ends (cs : List Char) :
    ∃ a b, (∀ c ∈ a, isBlank c = true) ∧ (∀ c ∈ b, isBlank c = true) ∧ a ++ trimChars cs ++ b = cs := by
  refine ⟨cs.takeWhile isBlank, ((skipBlanks cs).reverse.takeWhile isBlank).reverse,
    fun _ hc => List.mem_takeWhile_imp hc, fun _ hc => List.mem_takeWhile_imp (List.mem_reverse.mp hc), ?_⟩
  have hend : trimChars cs ++ ((skipBlanks cs).reverse.takeWhile isBlank).reverse = skipBlanks cs := by
    rw [trimChars, dropBlankEnd, ← List.reverse_append]
    simp only [skipBlanks, List.takeWhile_append_dropWhile, List.reverse_reverse]
  rw [List.append_assoc, hend]
  exact List.takeWhile_append_dropWhile

theorem trimChars_slice (cs : List Char) : trimChars cs <:+: cs := by
  obtain ⟨a, b, -, -, hcs⟩ := exists_blank_ends cs
  exact ⟨a, b, hcs⟩

theorem mem_of_mem_trimChars {c : Char} {cs : List Char} (h : c ∈ trimChars cs) : c ∈ cs :=
  (trimChars_slice cs).subset h

theorem trimChars_surrounded {a b : List Char} (ha : ∀ c ∈ a, isBlank c = true) (hb : ∀ c ∈ b, isBlank c = true)
    (cs : List Char) : trimChars (a ++ cs ++ b) = trimChars cs := by
  rw [List.append_assoc]
  simp only [trimChars, skipBlanks_append_blank ha]
  by_cases h : ∀ c ∈ cs, isBlank c = true
  · rw [skipBlanks_append_blank h, skipBlanks_eq_nil.mpr hb, skipBlanks_eq_nil.mpr h]
  · rw [skipBlanks_append_solid h]
    simp only [dropBlankEnd, List.reverse_append]
    rw [skipBlanks_append_blank (fun c hc => hb c (List.mem_reverse.mp hc))]

theorem trim_push_blank {c : Char} (hc : isBlank c = true) (s : String) : trim (s.push c) = trim s := by
  have hsurrounded := trimChars_surrounded (a := []) (b := [c]) nofun (by simpa using hc) s.toList
  rw [trim, String.toList_push, trim]
  exact congrArg String.ofList hsurrounded

theorem trimChars_idem (cs : List Char) : trimChars (trimChars cs) = trimChars cs := by
  -- The trimmed text does not begin with a blank, so only its end is looked at again.
  by_cases h : trimChars cs = []
  · rw [h]; rfl
  · have hs : skipBlanks (trimChars cs) = trimChars cs := by
      obtain ⟨d, r, hd⟩ := List.exists_cons_of_ne_nil h
      obtain ⟨t, ht⟩ : trimChars cs <+: skipBlanks cs := List.rdropWhile_prefix isBlank _
      rw [hd, List.cons_append] at ht
      rw [hd, skipBlanks_cons_solid (solid_of_skipBlanks ht.symm)]
    calc trimChars (trimChars cs) = dropBlankEnd (trimChars cs) := by rw [trimChars, hs]
      _ = trimChars cs := List.rdropWhile_idempotent isBlank _

theorem trim_toList (s : String) : (trim s).toList = trimChars s.toList := by simp [trim]

theorem trim_trim (s : String) : trim (trim s) = trim s := by
  simp only [trim, String.toList_ofList, trimChars_idem]

/-! ## Pieces -/

/-- The pieces of a text that an occurrence of `d` has closed. -/
def closedPieces (d : Char) (cs : List Char) : List (List Char) := (cs.splitOn d).dropLast

/-- The text after the last `d`, all of it if there is none. -/
def openPiece (d : Char) (cs : List Char) : List Char := (cs.splitOn d).getLastD []

theorem splitOn_eq_closed_open (d : Char) (cs : List Char) :
    cs.splitOn d = closedPieces d cs ++ [openPiece d cs] := by
  have h := List.splitOn_ne_nil d cs
  rw [closedPieces, openPiece, List.getLastD_eq_getLast?, List.getLast?_eq_some_getLast h, Option.getD_some,
    List.dropLast_append_getLast h]

theorem splitOn_snoc_mark (d : Char) (cs : List Char) : (cs ++ [d]).splitOn d = cs.splitOn d ++ [[]] := by
  rw [List.splitOn_append_cons_self, List.splitOn_nil]

theorem closed_open_of_splitOn {d : Char} {cs p : List Char} {ps : List (List Char)} (h : cs.splitOn d = ps ++ [p]) :
    closedPieces d cs = ps ∧ openPiece d cs = p := by
  simp [closedPieces, openPiece, h]

theorem splitOn_snoc_other {d c : Char} (h : c ≠ d) (cs : List Char) :
    (cs ++ [c]).splitOn d = closedPieces d cs ++ [openPiece d cs ++ [c]] := by
  induction cs with
  | nil => simp [closedPieces, openPiece, List.splitOn_cons_eq_if_modifyHead, h]
  | cons e cs ih =>
    have hs : (e :: cs).splitOn d = if e = d then [] :: cs.splitOn d else (cs.splitOn d).modifyHead (e :: ·) := by
      simp [List.splitOn_cons_eq_if_modifyHead]
    rw [splitOn_eq_closed_open d cs] at hs
    rw [List.cons_append, List.splitOn_cons_eq_if_modifyHead, ih]
    by_cases he : e = d
    · rw [if_pos he, ← List.cons_append] at hs
      obtain ⟨h1, h2⟩ := closed_open_of_splitOn hs
      rw [h1, h2]
      simp [he]
    · rw [if_neg he] at hs
      cases hc : closedPieces d cs with
      | nil =>
        rw [hc] at hs
        obtain ⟨h1, h2⟩ : closedPieces d (e :: cs) = [] ∧ openPiece d (e :: cs) = e :: openPiece d cs :=
          closed_open_of_splitOn hs
        simp [he, h1, h2]
      | cons p ps =>
        rw [hc] at hs
        obtain ⟨h1, h2⟩ : closedPieces d (e :: cs) = (e :: p) :: ps ∧ openPiece d (e :: cs) = openPiece d cs :=
          closed_open_of_splitOn hs
        simp [he, h1, h2]

theorem closedPieces_snoc (d c : Char) (cs : List Char) :
    closedPieces d (cs ++ [c]) = if c = d then closedPieces d cs ++ [openPiece d cs] else closedPieces d cs := by
  by_cases h : c = d
  · subst h
    rw [if_pos rfl, closedPieces, splitOn_snoc_mark, List.dropLast_concat, splitOn_eq_closed_open]
  · rw [if_neg h, closedPieces, splitOn_snoc_other h, List.dropLast_concat]

theorem openPiece_snoc (d c : Char) (cs : List Char) :
    openPiece d (cs ++ [c]) = if c = d then [] else openPiece d cs ++ [c] := by
  by_cases h : c = d
  · subst h
    simp [openPiece, splitOn_snoc_mark]
  · simp [openPiece, splitOn_snoc_other h, h]

theorem flatten_splitOn (d : Char) (cs : List Char) : (cs.splitOn d).flatten = cs.filter (· != d) := by
  induction cs with
  | nil => simp
  | cons c cs ih =>
    rw [List.splitOn_cons_eq_if_modifyHead]
    obtain ⟨p, ps, hp⟩ := List.exists_cons_of_ne_nil (List.splitOn_ne_nil d cs)
    by_cases h : c = d
    · simpa [h] using ih
    · rw [hp] at ih ⊢
      simpa [h] using ih

theorem mark_not_mem_piece {d : Char} {cs p : List Char} (h : p ∈ cs.splitOn d) : d ∉ p := by
  intro hd
  have : d ∈ (cs.splitOn d).flatten := List.mem_flatten.mpr ⟨p, h, hd⟩
  simp [flatten_splitOn] at this

theorem mem_of_mem_piece {d c : Char} {cs p : List Char} (h : p ∈ cs.splitOn d) (hc : c ∈ p) : c ∈ cs := by
  have : c ∈ (cs.splitOn d).flatten := List.mem_flatten.mpr ⟨p, h, hc⟩
  rw [flatten_splitOn] at this
  exact List.mem_of_mem_filter this

/-! ## The first occurrence of a mark -/

theorem splitAt?_eq_none {d : Char} {cs : List Char} : splitAt? d cs = none ↔ d ∉ cs := by
  induction cs with
  | nil => simp [splitAt?]
  | cons c cs ih =>
    by_cases h : c = d
    · simp [splitAt?, h]
    · simp [splitAt?, h, ih, Ne.symm h]

theorem splitAt?_of_not_mem {d : Char} {a : List Char} (h : d ∉ a) (b : List Char) :
    splitAt? d (a ++ d :: b) = some (a, b) := by
  induction a with
  | nil => simp [splitAt?]
  | cons c a ih =>
    obtain ⟨hc, ha⟩ : d ≠ c ∧ d ∉ a := by simpa using h
    simp [splitAt?, Ne.symm hc, ih ha]

theorem splitAt?_eq_some {d : Char} {cs a b : List Char} (h : splitAt? d cs = some (a, b)) :
    cs = a ++ d :: b ∧ d ∉ a := by
  induction cs generalizing a with
  | nil => cases h
  | cons c cs ih =>
    by_cases hc : c = d
    · simp only [splitAt?, hc, if_true, Option.some.injEq, Prod.mk.injEq] at h
      obtain ⟨rfl, rfl⟩ := h
      simp [hc]
    · simp only [splitAt?, hc, if_false, Option.map_eq_some_iff, Prod.mk.injEq] at h
      obtain ⟨⟨a', b'⟩, hs, rfl, rfl⟩ := h
      obtain ⟨rfl, hn⟩ := ih hs
      exact ⟨rfl, by simp [Ne.symm hc, hn]⟩

theorem splitAt?_snoc (d c : Char) (cs : List Char) :
    splitAt? d (cs ++ [c]) = match splitAt? d cs with
      | some (a, b) => some (a, b ++ [c])
      | none => if c = d then some (cs, []) else none := by
  cases h : splitAt? d cs with
  | some p =>
    obtain ⟨rfl, hn⟩ := splitAt?_eq_some (a := p.1) (b := p.2) h
    rw [List.append_assoc, List.cons_append, splitAt?_of_not_mem hn]
  | none =>
    have hn := splitAt?_eq_none.mp h
    by_cases hc : c = d
    · subst hc
      simpa using splitAt?_of_not_mem hn []
    · rw [splitAt?_eq_none.mpr (by simp [hn, Ne.symm hc])]
      simp [hc]

/-! ## What follows a word -/

theorem after?_eq_some {word cs rest : List Char} : after? word cs = some rest ↔ cs = word ++ rest := by
  induction word generalizing cs with
  | nil => simp [after?]
  | cons w word ih =>
    cases cs with
    | nil => simp [after?]
    | cons c cs => by_cases h : c = w <;> simp [after?, h, ih]

theorem afterCaseless?_eq_some {word cs rest : List Char} :
    afterCaseless? word cs = some rest ↔ ∃ written, cs = written ++ rest ∧ written.map lowerLatinChar = word := by
  induction word generalizing cs with
  | nil => simp [afterCaseless?]
  | cons w word ih =>
    cases cs with
    | nil => simp [afterCaseless?]
    | cons c cs =>
      by_cases h : lowerLatinChar c = w
      · simp only [afterCaseless?, if_pos h, ih]
        constructor
        · rintro ⟨written, rfl, rfl⟩
          exact ⟨c :: written, rfl, by simp [h]⟩
        · rintro ⟨written, hcs, hword⟩
          obtain ⟨d, written', rfl, hd, hword'⟩ := List.map_eq_cons_iff.mp hword
          obtain ⟨rfl, rfl⟩ := List.cons.inj hcs
          exact ⟨written', rfl, hword'⟩
      · simp only [afterCaseless?, if_neg h, reduceCtorEq, false_iff]
        rintro ⟨written, hcs, hword⟩
        obtain ⟨d, written', rfl, hd, -⟩ := List.map_eq_cons_iff.mp hword
        exact h ((List.cons.inj hcs).1 ▸ hd)

end Text

end AttributeSheet
