/-
  AttributeSheet.Proofs.JoinedSheets — one sheet written right behind another.

  A reader never looks at the blocks that it has finished (`feed_behind`), and before a
  selector it holds nothing else (`after_between`). So once the last block of a sheet is
  closed, another sheet is read behind it as it is on its own (`ofSheet_append`), unless
  the first comment of both is neither the one of the first sheet nor, if that has none,
  the one of the second. Sorting what the two come to on their own is then sorting what
  they come to together (`parse_append`).
-/
import AttributeSheet.Proofs.FirstComment
import AttributeSheet.Proofs.SheetReading

namespace AttributeSheet

open Text Block

/-! ## Reading behind finished blocks -/

namespace Block.Reader

def behind (blocks : List Block) (r : Reader) : Reader := { r with blocks := blocks ++ r.blocks }

theorem endProperty_behind (blocks : List Block) (r : Reader) :
    (r.behind blocks).endProperty = r.endProperty.behind blocks := by
  cases hname : (Text.trim r.name).isEmpty <;> simp [endProperty, behind, hname]

theorem endBlock_behind (blocks : List Block) (r : Reader) :
    (r.behind blocks).endBlock = r.endBlock.behind blocks := by
  simp [endBlock, behind, between]

theorem step_behind (blocks : List Block) (r : Reader) (c : Char) :
    (r.behind blocks).step c = (r.step c).behind blocks := by
  have hphase : (r.behind blocks).phase = r.phase := rfl
  unfold step
  rw [hphase]
  cases r.phase with
  | beforeSelector => simp only [endBlock_behind]; split_ifs <;> rfl
  | inSelector => simp only [endBlock_behind]; split_ifs <;> rfl
  | inProperties => simp only [endProperty_behind, endBlock_behind]; split_ifs <;> rfl
  | inValue => simp only [endProperty_behind, endBlock_behind]; split_ifs <;> rfl

theorem feed_nil (r : Reader) : r.feed [] = r := rfl

theorem feed_cons (r : Reader) (c : Char) (cs : List Char) : r.feed (c :: cs) = (r.step c).feed cs :=
  List.foldl_cons

theorem feed_append (r : Reader) (a b : List Char) : r.feed (a ++ b) = (r.feed a).feed b := List.foldl_append

theorem feed_behind (blocks : List Block) (r : Reader) (cs : List Char) :
    (r.behind blocks).feed cs = (r.feed cs).behind blocks := by
  induction cs generalizing r with
  | nil => rfl
  | cons c cs ih => rw [feed_cons, feed_cons, step_behind, ih]

theorem finish_behind (blocks : List Block) (r : Reader) : (r.behind blocks).finish = r.finish.behind blocks := by
  have hphase : (r.behind blocks).phase = r.phase := rfl
  unfold finish
  rw [hphase]
  cases r.phase with
  | beforeSelector => rfl
  | inSelector => exact endBlock_behind blocks r
  | inProperties => simp only [endProperty_behind, endBlock_behind]
  | inValue => simp only [endProperty_behind, endBlock_behind]

theorem between_eq_behind (blocks : List Block) : between blocks = start.behind blocks := by
  simp [behind, start, between]

/-! ## Before a selector -/

/-- Before a selector the reader holds nothing but the blocks, and the text has nothing
    but blanks since its last closing brace. -/
theorem after_between {t : List Char} (h : (after t).phase = .beforeSelector) :
    after t = between ((closedPieces '}' t).map Chained.block) ∧ ∀ c ∈ openPiece '}' t, isBlank c = true := by
  unfold after opened at h ⊢
  cases hs : splitAt? '{' (openPiece '}' t) with
  | some p =>
    rw [hs] at h
    rcases within_phase ((closedPieces '}' t).map Chained.block) p.1 p.2 with hp | hp
    · exact nomatch hp.symm.trans h
    · exact nomatch hp.symm.trans h
  | none =>
    rw [hs] at h
    by_cases hb : (openPiece '}' t).all isBlank = true
    · have hblank := List.all_eq_true.mp hb
      simp only [hb, if_true, skipBlanks_eq_nil.mpr hblank]
      exact ⟨rfl, hblank⟩
    · simp only [hb] at h
      exact nomatch h

theorem getLast?_of_between {t : List Char} (h : (after t).phase = .beforeSelector) {c : Char}
    (hc : t.getLast? = some c) : c = '}' ∨ isBlank c = true := by
  obtain ⟨t, rfl⟩ := List.getLast?_eq_some_iff.mp hc
  by_cases hbrace : c = '}'
  · exact Or.inl hbrace
  · have hblank := (after_between h).2
    rw [openPiece_snoc, if_neg hbrace] at hblank
    exact Or.inr (hblank c (by simp))

end Block.Reader

/-! ## Two sheets -/

/-- The first comment of both sheets is that of the first, or that of the second. -/
theorem Text.dropFirstComment_append {u v : String}
    (hclosed : (Reader.start.feed (dropFirstComment u).toList).phase = .beforeSelector)
    (hcomment : ¬ "/*".toList <:+: u.toList ∨ ¬ "*/".toList <:+: v.toList) :
    (dropFirstComment (u ++ v)).toList = (dropFirstComment u).toList ++ (dropFirstComment v).toList := by
  rw [Reader.feed_start] at hclosed
  simp only [dropFirstComment, String.toList_ofList, String.toList_append] at hclosed ⊢
  have hlast : ∀ c, (dropFirstCommentChars u.toList).getLast? = some c → c ≠ '/' ∧ c ≠ '*' := by
    intro c hc
    rcases Reader.getLast?_of_between hclosed hc with rfl | hblank
    · decide
    · constructor <;> rintro rfl <;> exact absurd hblank (by decide)
  rcases hcomment with hopen | hend
  · rw [dropFirstCommentChars_of_unopened hopen] at hlast ⊢
    exact dropFirstCommentChars_append_of_unopened hopen fun hc => absurd rfl (hlast _ hc).1
  · have hend' := commentEnd_iff.mpr hend
    rw [dropFirstCommentChars_of_unended hend']
    exact dropFirstCommentChars_append_of_unended hend' fun hc => absurd rfl (hlast _ hc).2

theorem Block.ofSheet_append {u v : String}
    (hclosed : (Reader.start.feed (dropFirstComment u).toList).phase = .beforeSelector)
    (hcomment : ¬ "/*".toList <:+: u.toList ∨ ¬ "*/".toList <:+: v.toList) :
    ofSheet (u ++ v) = ofSheet u ++ ofSheet v := by
  have htext := dropFirstComment_append hclosed hcomment
  rw [Reader.feed_start] at hclosed
  have hu := (Reader.feed_start _).trans (Reader.after_between hclosed).1
  have hblocks : ofSheet u = (closedPieces '}' (dropFirstComment u).toList).map Chained.block := by
    rw [ofSheet, Reader.read, hu]; rfl
  rw [← hblocks] at hu
  rw [ofSheet, Reader.read, htext, Reader.feed_append, hu, Reader.between_eq_behind, Reader.feed_behind,
    Reader.finish_behind]
  rfl

theorem StablySorted.of_append {α : Type} {key : α → Specificity} {a b a' b' s : List α} (ha : StablySorted key a a')
    (hb : StablySorted key b b') (hs : StablySorted key (a' ++ b') s) : StablySorted key (a ++ b) s where
  ascending := hs.ascending
  groups_kept level := by
    rw [hs.groups_kept, List.filter_append, List.filter_append, ha.groups_kept, hb.groups_kept]

namespace Sheet

/-- The last block of `u` is closed, and no comment of `u ++ v` begins in `u` and ends in
    `v` or comes after one of `u`. Then the blocks of `u ++ v` are those of `u` and those
    of `v`, and its declarations are what the two come to, put together and sorted. -/
theorem parse_append {u v : String} (hu : u ≠ "") (hv : v ≠ "")
    (hclosed : (Reader.start.feed (dropFirstComment u).toList).phase = .beforeSelector)
    (hcomment : ¬ "/*".toList <:+: u.toList ∨ ¬ "*/".toList <:+: v.toList) :
    Block.ofSheet (u ++ v) = Block.ofSheet u ++ Block.ofSheet v ∧
    ∀ mode, ∃ lu lv l, parse mode (some u) = .ok lu ∧ parse mode (some v) = .ok lv ∧
      Declaration.sort? false (lu ++ lv) = .ok l ∧ parse mode (some (u ++ v)) = .ok l := by
  have hblocks := Block.ofSheet_append hclosed hcomment
  refine ⟨hblocks, fun mode => ?_⟩
  have huv : u ++ v ≠ "" := by simp [hu]
  obtain ⟨lu, hlu, hsu⟩ := parse_sorts mode hu
  obtain ⟨lv, hlv, hsv⟩ := parse_sorts mode hv
  obtain ⟨l, hl, hs⟩ := parse_sorts mode huv
  have hinOrder : inSourceOrder mode (u ++ v) = inSourceOrder mode u ++ inSourceOrder mode v := by
    simp only [inSourceOrder, Block.selecting, hblocks, List.filter_append, List.map_append]
  have hkinds : ∀ d ∈ lu ++ lv, d.selector.specificity.isNumber = (mode == .legacy) := by
    intro d hd
    rcases List.mem_append.mp hd with hd | hd
    · exact isNumber_inSourceOrder (hsu.mem_iff.mp hd)
    · exact isNumber_inSourceOrder (hsv.mem_iff.mp hd)
  obtain ⟨sorted, hsorted, hsort⟩ := sortBySpecificity?_of_oneKind hkinds false
  have hboth := hsu.of_append hsv hsorted
  rw [← hinOrder] at hboth
  refine ⟨lu, lv, l, hlu, hlv, ?_, hl⟩
  rw [hs.unique hboth]
  exact hsort

/-- The comment between the two blocks does not part the sheets. -/
theorem parse_append_commented :
    let u := "#a\x7bx:1\x7d/* y */ "
    let v := "b\x7bx:2\x7d"
    let a : Declaration := ⟨⟨"#a", .legacy, .number 100⟩, ⟨[("x", "1")]⟩⟩
    let b : Declaration := ⟨⟨"b", .legacy, .number 1⟩, ⟨[("x", "2")]⟩⟩
    (Reader.start.feed (dropFirstComment u).toList).phase = .beforeSelector ∧ ¬ "*/".toList <:+: v.toList ∧
    Block.ofSheet (u ++ v) = [⟨"#a", [("x", "1")]⟩, ⟨"b", [("x", "2")]⟩] ∧
    parse .legacy (some u) = .ok [a] ∧ parse .legacy (some v) = .ok [b] ∧
    Declaration.sort? false [a, b] = .ok [b, a] ∧ parse .legacy (some (u ++ v)) = .ok [b, a] := by
  intro u v a b
  have hclosed : (Reader.start.feed (dropFirstComment u).toList).phase = .beforeSelector := by decide
  have hend : ¬ "*/".toList <:+: v.toList := by decide
  obtain ⟨hblocks, hparse⟩ := parse_append (by decide) (by decide) hclosed (Or.inr hend)
  obtain ⟨lu, lv, l, hlu, hlv, hsort, hl⟩ := hparse .legacy
  have hu : parse .legacy (some u) = .ok [a] := by decide +kernel
  have hv : parse .legacy (some v) = .ok [b] := by decide +kernel
  have hab : Declaration.sort? false [a, b] = .ok [b, a] := by decide +kernel
  obtain rfl : lu = [a] := Except.ok.inj (hlu.symm.trans hu)
  obtain rfl : lv = [b] := Except.ok.inj (hlv.symm.trans hv)
  obtain rfl : l = [b, a] := Except.ok.inj (hsort.symm.trans hab)
  exact ⟨hclosed, hend, hblocks.trans (by decide), hu, hv, hab, hl⟩

end Sheet

end AttributeSheet
