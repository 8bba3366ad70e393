/-
  AttributeSheet.Proofs.CountedPositions — the counts of a selector, place by place.

  Types are counted run by run, and what a run takes up is not looked at again. Still no
  run hides another: the count is the number of places at which a type begins, a letter
  at the start or right after a blank character (`typeRuns_eq_starts`,
  `typeStarts_eq_positions`). Nor does it matter whether the blank character before a
  type is taken together with it (`typesFound_eq_starts`).

  So a text written behind another adds its counts to those of the other, and only the
  seam has to be looked at: a type at the start of the second text is one no more where
  the first ends with a character that is not blank (`ofChars_append`). Between two texts
  with a blank between them nothing is lost (`ofChars_parted`), and blanks around a text
  count nothing (`ofChars_trimChars`).
-/
import AttributeSheet.Specificity
import AttributeSheet.Proofs.Pieces

namespace AttributeSheet

/-! ## Where types begin -/

/-- The number of letters at which a type begins, where `here` says that one may begin at
    the first character. -/
def typeStarts (here : Bool) : List Char → Nat
  | [] => 0
  | c :: r => typeStarts (isBlank c) r + if here && isLatinLetter c then 1 else 0

/-- A letter stands at place `i`, and nothing or a blank character right before it. -/
def opensType (cs : List Char) (i : Nat) : Bool :=
  cs[i]?.any isLatinLetter && (i == 0 || cs[i - 1]?.any isBlank)

def opensBehind (cs : List Char) : Bool := cs.getLast?.all isBlank

theorem typeStarts_cons_blank {c : Char} (h : isBlank c = true) (here : Bool) (cs : List Char) :
    typeStarts here (c :: cs) = typeStarts true cs := by
  rw [typeStarts, h, isLatinLetter_blank h, Bool.and_false]
  rfl

theorem typeStarts_blank {w : List Char} (h : ∀ c ∈ w, isBlank c = true) (here : Bool) : typeStarts here w = 0 := by
  induction w generalizing here with
  | nil => rfl
  | cons c w ih => rw [typeStarts_cons_blank (h c (by simp)), ih fun d hd => h d (by simp [hd])]

theorem typeStarts_dropWhile (cs : List Char) : typeStarts false (cs.dropWhile isLatinLetter) = typeStarts false cs := by
  induction cs with
  | nil => rfl
  | cons c cs ih =>
    by_cases hc : isLatinLetter c = true
    -- The letter opens nothing, and as it is not blank neither does the next one.
    · rw [List.dropWhile_cons_of_pos hc, ih, typeStarts, isBlank_letter hc]
      rfl
    · rw [List.dropWhile_cons_of_neg hc]

/-- A run of letters that is passed over as a whole is one place at which a type begins. -/
theorem typeRuns_eq_starts (here : Bool) (cs : List Char) : typeRuns here cs = typeStarts here cs := by
  fun_induction typeRuns here cs with
  | case1 => rfl
  | case2 here c r hc ih =>
    obtain ⟨-, hletter⟩ := Bool.and_eq_true_iff.mp hc
    rw [ih, typeStarts_dropWhile, typeStarts, isBlank_letter hletter, if_pos hc]
  | case3 here c r hc ih => rw [ih, typeStarts, if_neg hc, Nat.add_zero]

theorem typeStarts_cons (here : Bool) (c : Char) (cs : List Char) :
    typeStarts here (c :: cs) = typeStarts (isBlank c) cs + typeStarts here [c] := by
  simp [typeStarts]

theorem typeStarts_append (here : Bool) (u v : List Char) :
    typeStarts here (u ++ v) = typeStarts here u + typeStarts ((u.getLast?.map isBlank).getD here) v := by
  induction u generalizing here with
  | nil => simp [typeStarts]
  | cons c u ih =>
    -- What may begin behind `u` is seen from its last character, and from `c` only if there is none.
    have hlast : ((c :: u).getLast?.map isBlank).getD here = (u.getLast?.map isBlank).getD (isBlank c) := by
      rw [List.getLast?_cons]
      cases u.getLast? <;> rfl
    rw [List.cons_append, typeStarts_cons, ih, typeStarts_cons here c u, hlast]
    omega

theorem typeStarts_append_start (u v : List Char) :
    typeStarts true (u ++ v) = typeStarts true u + typeStarts (opensBehind u) v := by
  rw [typeStarts_append, opensBehind]
  cases u.getLast? <;> rfl

/-! ## Counting the places -/

theorem opensType_append {u : List Char} {i : Nat} (h : i < u.length) (v : List Char) :
    opensType (u ++ v) i = opensType u i := by
  rw [opensType, opensType, List.getElem?_append_left h, List.getElem?_append_left (by omega)]

theorem opensType_length (u : List Char) (c : Char) :
    opensType (u ++ [c]) u.length = (opensBehind u && isLatinLetter c) := by
  rcases List.eq_nil_or_concat u with rfl | ⟨u, d, rfl⟩
  · simp [opensType, opensBehind]
  · simp [opensType, opensBehind, Bool.and_comm]

theorem typeStarts_eq_positions (cs : List Char) :
    typeStarts true cs = (List.range cs.length).countP (opensType cs) := by
  induction cs using List.reverseRecOn with
  | nil => rfl
  | append_singleton cs c ih =>
    have hbefore : (List.range cs.length).countP (opensType (cs ++ [c])) =
        (List.range cs.length).countP (opensType cs) :=
      List.countP_congr fun i hi => by rw [opensType_append (List.mem_range.mp hi)]
    rw [typeStarts_append_start, ih, List.length_append, List.length_singleton, List.range_succ, List.countP_append,
      hbefore, List.countP_singleton, opensType_length]
    simp [typeStarts]

/-! ## Finding types -/

def pastLetters? : List Char → Option (List Char)
  | [] => none
  | c :: r => if isLatinLetter c then some (r.dropWhile isLatinLetter) else none

def pastBlankAndLetters? : List Char → Option (List Char)
  | [] => none
  | c :: r => if isBlank c then pastLetters? r else none

/-- What follows a type that is found where the characters begin. At the start of the
    text it needs no blank character before it. -/
def pastType? (atStart : Bool) (cs : List Char) : Option (List Char) :=
  (if atStart then pastLetters? cs else none).or (pastBlankAndLetters? cs)

theorem pastLetters?_eq_some {cs rest : List Char} :
    pastLetters? cs = some rest ↔ ∃ c r, cs = c :: r ∧ isLatinLetter c = true ∧ r.dropWhile isLatinLetter = rest := by
  cases cs with
  | nil => simp [pastLetters?]
  | cons c r => simp [pastLetters?]

theorem pastType?_cases {atStart : Bool} {cs rest : List Char} (h : pastType? atStart cs = some rest) :
    (atStart = true ∧ pastLetters? cs = some rest) ∨
      ∃ c r, cs = c :: r ∧ isBlank c = true ∧ pastLetters? r = some rest := by
  rw [pastType?, Option.or_eq_some_iff] at h
  rcases h with h | ⟨-, h⟩
  · cases atStart with
    | true => exact Or.inl ⟨rfl, h⟩
    | false => cases h
  · cases cs with
    | nil => cases h
    | cons c r =>
      obtain ⟨hc, hr⟩ : isBlank c = true ∧ pastLetters? r = some rest := by simpa [pastBlankAndLetters?] using h
      exact Or.inr ⟨c, r, rfl, hc, hr⟩

theorem pastLetters?_length {cs rest : List Char} (h : pastLetters? cs = some rest) : rest.length < cs.length := by
  obtain ⟨c, r, rfl, -, rfl⟩ := pastLetters?_eq_some.mp h
  exact Nat.lt_succ_of_le (List.dropWhile_suffix isLatinLetter).length_le

theorem pastType?_length {atStart : Bool} {cs rest : List Char} (h : pastType? atStart cs = some rest) :
    rest.length < cs.length := by
  rcases pastType?_cases h with ⟨-, hletters⟩ | ⟨c, r, rfl, -, hletters⟩
  · exact pastLetters?_length hletters
  · exact Nat.lt_succ_of_lt (pastLetters?_length hletters)

/-- The number of types that are found one after the other: what one takes up, the blank
    character before it included, is not looked at for the next. -/
def typesFound (atStart : Bool) (cs : List Char) : Nat :=
  match h : pastType? atStart cs with
  | some rest => typesFound false rest + 1
  | none =>
    match cs with
    | [] => 0
    | _ :: r => typesFound false r
  termination_by cs.length
  decreasing_by
    · exact pastType?_length h
    · simp

theorem typeStarts_pastLetters {cs rest : List Char} (h : pastLetters? cs = some rest) :
    typeStarts true cs = typeStarts false rest + 1 := by
  obtain ⟨c, r, rfl, hc, rfl⟩ := pastLetters?_eq_some.mp h
  rw [typeStarts_dropWhile, typeStarts, isBlank_letter hc, hc]
  rfl

theorem typeStarts_no_letters {cs : List Char} (h : pastLetters? cs = none) (here : Bool) :
    typeStarts here cs = typeStarts false cs := by
  cases cs with
  | nil => rfl
  | cons c r =>
    have hc : isLatinLetter c = false := by simpa [pastLetters?] using h
    rw [typeStarts, typeStarts, hc, Bool.and_false, Bool.and_false]

theorem typeStarts_found {atStart : Bool} {cs rest : List Char} (h : pastType? atStart cs = some rest) :
    typeStarts atStart cs = typeStarts false rest + 1 := by
  rcases pastType?_cases h with ⟨rfl, hletters⟩ | ⟨c, r, rfl, hc, hletters⟩
  · exact typeStarts_pastLetters hletters
  · rw [typeStarts_cons_blank hc, typeStarts_pastLetters hletters]

theorem typeStarts_not_found {atStart : Bool} {c : Char} {r : List Char} (h : pastType? atStart (c :: r) = none) :
    typeStarts atStart (c :: r) = typeStarts false r := by
  obtain ⟨hstart, hblank⟩ := Option.or_eq_none_iff.mp h
  cases hc : isBlank c with
  | true =>
    have hr : pastLetters? r = none := by simpa [pastBlankAndLetters?, hc] using hblank
    rw [typeStarts_cons_blank hc, typeStarts_no_letters hr]
  | false =>
    have hnone : (atStart && isLatinLetter c) = false := by
      cases atStart with
      | true => simpa [pastLetters?] using hstart
      | false => rfl
    rw [typeStarts, hc, hnone]
    rfl

/-- Taking the blank character with a type hides no other type. -/
theorem typesFound_eq_starts (atStart : Bool) (cs : List Char) : typesFound atStart cs = typeStarts atStart cs := by
  fun_induction typesFound atStart cs with
  | case1 atStart cs rest h ih => rw [ih, typeStarts_found h]
  | case2 => rfl
  | case3 atStart c r h ih => rw [ih, typeStarts_not_found h]

/-! ## Joined texts -/

namespace Buckets

instance : Add Buckets := ⟨fun x y => ⟨x.ids + y.ids, x.classes + y.classes, x.types + y.types⟩⟩

/-- `v` begins with a letter and `u` ends with a character that is not blank, so the type
    that opens `v` is none behind `u`. -/
def fuses (u v : List Char) : Bool := u.getLast?.any (!isBlank ·) && v.head?.any isLatinLetter

theorem add_eq (x y : Buckets) : x + y = ⟨x.ids + y.ids, x.classes + y.classes, x.types + y.types⟩ := rfl

theorem countP_isClassMark (cs : List Char) :
    cs.countP isClassMark = cs.count '.' + cs.count '[' + cs.count ':' := by
  induction cs with
  | nil => rfl
  | cons c cs ih =>
    have hone : (if isClassMark c then 1 else 0) =
        (if c = '.' then 1 else 0) + (if c = '[' then 1 else 0) + if c = ':' then 1 else 0 := by
      by_cases hdot : c = '.'
      · subst hdot; rfl
      by_cases hbracket : c = '['
      · subst hbracket; rfl
      simp [isClassMark, hdot, hbracket]
    simp only [List.countP_cons, List.count_cons, beq_iff_eq, ih, hone]
    omega

theorem ofChars_eq (cs : List Char) :
    ofChars cs = ⟨cs.count '#', cs.count '.' + cs.count '[' + cs.count ':', typeStarts true cs⟩ := by
  rw [ofChars, countP_isClassMark, typeRuns_eq_starts]
  rfl

theorem typeStarts_fuses (u v : List Char) :
    typeStarts (opensBehind u) v + (if fuses u v then 1 else 0) = typeStarts true v := by
  have hlast : u.getLast?.any (!isBlank ·) = !opensBehind u := by
    rw [opensBehind]
    cases u.getLast? <;> rfl
  rw [fuses, hlast]
  cases v with
  | nil => simp [typeStarts]
  | cons c v => cases opensBehind u <;> simp [typeStarts]

theorem ofChars_append (u v : List Char) :
    ofChars (u ++ v) + ⟨0, 0, if fuses u v then 1 else 0⟩ = ofChars u + ofChars v := by
  have htypes := typeStarts_append_start u v
  have hseam := typeStarts_fuses u v
  simp only [add_eq, ofChars_eq, List.count_append, mk.injEq]
  omega

theorem ofChars_append_of_not_fuses {u v : List Char} (h : fuses u v = false) :
    ofChars (u ++ v) = ofChars u + ofChars v := by
  rw [← ofChars_append, h]
  rfl

theorem ofChars_blank {w : List Char} (h : ∀ c ∈ w, isBlank c = true) : ofChars w = ⟨0, 0, 0⟩ := by
  have hmark : ∀ mark, isBlank mark = false → w.count mark = 0 := by
    intro mark hmark
    refine List.count_eq_zero.mpr fun hw => ?_
    rw [h mark hw] at hmark
    cases hmark
  rw [ofChars_eq, typeStarts_blank h, hmark '#' rfl, hmark '.' rfl, hmark '[' rfl, hmark ':' rfl]

theorem fuses_blank {w : List Char} (h : ∀ c ∈ w, isBlank c = true) (u v : List Char) :
    fuses u w = false ∧ (w ≠ [] → fuses (u ++ w) v = false) := by
  refine ⟨?_, fun hne => ?_⟩
  · cases w with
    | nil => simp [fuses]
    | cons c w => simp [fuses, isLatinLetter_blank (h c (by simp))]
  · have hlast : (u ++ w).getLast? = some (w.getLast hne) := by
      rw [List.getLast?_append_of_ne_nil u hne, List.getLast?_eq_some_getLast hne]
    simp [fuses, hlast, h _ (List.getLast_mem hne)]

theorem ofChars_parted {w : List Char} (hne : w ≠ []) (h : ∀ c ∈ w, isBlank c = true) (u v : List Char) :
    ofChars (u ++ w ++ v) = ofChars u + ofChars v := by
  obtain ⟨hright, hleft⟩ := fuses_blank h u v
  rw [ofChars_append_of_not_fuses (hleft hne), ofChars_append_of_not_fuses hright, ofChars_blank h]
  rfl

theorem ofChars_append_blank {w : List Char} (h : ∀ c ∈ w, isBlank c = true) (cs : List Char) :
    ofChars (cs ++ w) = ofChars cs := by
  rw [ofChars_append_of_not_fuses (fuses_blank h cs []).1, ofChars_blank h]
  rfl

theorem ofChars_blank_append {w : List Char} (h : ∀ c ∈ w, isBlank c = true) (cs : List Char) :
    ofChars (w ++ cs) = ofChars cs := by
  by_cases hne : w = []
  · rw [hne]; rfl
  · have hparted := ofChars_parted hne h [] cs
    rw [List.nil_append] at hparted
    rw [hparted, add_eq]
    simp [ofChars_eq, typeStarts]

theorem ofChars_trimChars (cs : List Char) : ofChars (Text.trimChars cs) = ofChars cs := by
  obtain ⟨a, b, ha, hb, hcs⟩ := Text.exists_blank_ends cs
  calc ofChars (Text.trimChars cs) = ofChars (a ++ Text.trimChars cs ++ b) := by
        rw [ofChars_append_blank hb, ofChars_blank_append ha]
    _ = ofChars cs := by rw [hcs]

theorem ofText_parted {w : String} (hne : w ≠ "") (h : Text.allBlank w = true) (u v : String) :
    ofText (u ++ w ++ v) = ofText u + ofText v := by
  have hw : w.toList ≠ [] := by simpa using hne
  rw [ofText, String.toList_append, String.toList_append]
  exact ofChars_parted hw (List.all_eq_true.mp h) u.toList v.toList

/-- The counts are numbers of places: of number signs; of dots, opening brackets and
    colons; of letters with nothing or a blank character before them. Of these last no
    search misses any. Where two texts are joined the counts add up, less one type if
    the second begins with a letter and the first is not empty and does not end with a
    blank character; so they add up over any blanks between the texts, and trimming
    changes none. -/
theorem counts_places :
    (∀ t : String,
      ofText t = ⟨t.toList.count '#', t.toList.count '.' + t.toList.count '[' + t.toList.count ':',
        (List.range t.toList.length).countP (opensType t.toList)⟩ ∧
      (ofText t).types = typesFound true t.toList) ∧
    (∀ u v : String, ofText (u ++ v) + ⟨0, 0, if fuses u.toList v.toList then 1 else 0⟩ = ofText u + ofText v) ∧
    (∀ u w v : String, w ≠ "" → Text.allBlank w = true → ofText (u ++ w ++ v) = ofText u + ofText v) ∧
    ∀ t : String, ofText (Text.trim t) = ofText t := by
  refine ⟨fun t => ⟨?_, ?_⟩, fun u v => ?_, fun u w v hne h => ofText_parted hne h u v, fun t => ?_⟩
  · rw [ofText, ofChars_eq, typeStarts_eq_positions]
  · rw [ofText, ofChars_eq, typesFound_eq_starts]
  · rw [ofText, String.toList_append]
    exact ofChars_append u.toList v.toList
  · rw [ofText, Text.trim_toList, ofChars_trimChars, ofText]

/-- An em space and a line separator part a type from the class before it. -/
theorem counts_places_parted :
    let w := "\u2003\u2028"
    w ≠ "" ∧ Text.allBlank w = true ∧ ofText ("#a b.c" ++ w ++ "d:e") = ⟨1, 2, 2⟩ := by
  intro w
  have hblank : Text.allBlank w = true := by decide
  obtain ⟨-, -, hparted, -⟩ := counts_places
  refine ⟨by decide, hblank, (hparted "#a b.c" w "d:e" (by decide) hblank).trans ?_⟩
  decide +kernel

end Buckets

end AttributeSheet
