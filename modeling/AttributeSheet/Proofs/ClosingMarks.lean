/-
  AttributeSheet.Proofs.ClosingMarks — sheets that end with an open block.

  The end of a sheet ends what is open as the closing marks do: an open property as a
  semicolon does (`finish_step_semicolon`), an open block as a closing brace does
  (`finish_step_close`). So it makes no difference which of these marks a sheet leaves out
  at its end. Neither mark ends a comment, so the sheets with and without it have the same
  first comment (`ofSheet_append_of_no_slash`).

  A closing brace that closes nothing makes a block without a selector
  (`ofSheet_close_cases`). Such a block is skipped, so a sheet is parsed to the same
  declarations with any number of closing braces at its end (`parse_surplus_close`).
-/
import AttributeSheet.Proofs.RepeatedReading
import AttributeSheet.Proofs.SortedBlocks

namespace AttributeSheet

open Text Block

/-! ## The end of the text and the closing marks -/

namespace Block.Reader

theorem endProperty_idem (r : Reader) : r.endProperty.endProperty = r.endProperty := by
  have hempty : (trim "").isEmpty = true := rfl
  simp only [endProperty, hempty, if_true]

/-- What a closing brace ends is nothing to the end of the text any more. -/
theorem finish_step_close {r : Reader} (h : r.phase ≠ .beforeSelector) : (r.step '}').finish = r.finish := by
  unfold step finish
  cases hphase : r.phase with
  | beforeSelector => exact absurd hphase h
  | inSelector => rfl
  | inProperties => rfl
  | inValue => rfl

theorem step_semicolon {r : Reader} (h : r.phase = .inProperties ∨ r.phase = .inValue) :
    r.step ';' = { r.endProperty with phase := .inProperties } := by
  rcases h with h | h
  · have hstep : r.step ';' = r.endProperty := by simp [step, h]
    have hkept : r.endProperty.phase = .inProperties := h
    rw [hstep, ← hkept]
  · simp [step, h]

theorem finish_step_semicolon {r : Reader} (h : r.phase = .inProperties ∨ r.phase = .inValue) :
    (r.step ';').finish = r.finish := by
  have hends : r.finish = r.endProperty.endBlock := by
    unfold finish
    rcases h with h | h <;> rw [h]
  have hends' : ∀ s : Reader, { s with phase := Phase.inProperties }.finish = s.endProperty.endBlock := fun _ => rfl
  rw [step_semicolon h, hends', endProperty_idem, hends]

theorem finish_between (blocks : List Block) : (between blocks).finish = between blocks := rfl

theorem between_step_close (blocks : List Block) : (between blocks).step '}' = between (blocks ++ [⟨"", []⟩]) := by
  have hnothing : Chained.block [] = ⟨"", []⟩ := by decide
  rw [← opened_nil, opened_step_close, hnothing]

theorem finish_close_cases {r : Reader} (h : Orderly r) :
    (r.step '}').finish.blocks = r.finish.blocks ∨ (r.step '}').finish.blocks = r.finish.blocks ++ [⟨"", []⟩] := by
  by_cases hphase : r.phase = .beforeSelector
  · right
    rw [h.eq_between hphase, between_step_close, finish_between, finish_between]
    rfl
  · left
    rw [finish_step_close hphase]

end Block.Reader

/-! ## Sheets -/

namespace Block

/-- The reader at the end of a sheet, before the end is taken account of. -/
def atEnd (u : String) : Reader := Reader.start.feed (dropFirstComment u).toList

/-- A text without a slash is read behind a sheet as it stands: it ends no comment. -/
theorem ofSheet_append_of_no_slash (u : String) {v : String} {cs : List Char} (hv : v.toList = cs) (h : '/' ∉ cs) :
    ofSheet (u ++ v) = ((atEnd u).feed cs).finish.blocks := by
  have htext : (dropFirstComment (u ++ v)).toList = (dropFirstComment u).toList ++ cs := by
    simp only [dropFirstComment, String.toList_ofList, String.toList_append, hv]
    exact dropFirstCommentChars_append_of_no_slash h u.toList
  rw [ofSheet, Reader.read, htext, Reader.feed_append, atEnd]

theorem ofSheet_close (u : String) : ofSheet (u ++ "\x7d") = ((atEnd u).step '}').finish.blocks := by
  have hchars : "\x7d".toList = ['}'] := rfl
  rw [ofSheet_append_of_no_slash u hchars (by decide), Reader.feed_cons, Reader.feed_nil]

theorem ofSheet_semicolon (u : String) : ofSheet (u ++ ";") = ((atEnd u).step ';').finish.blocks := by
  have hchars : ";".toList = [';'] := rfl
  rw [ofSheet_append_of_no_slash u hchars (by decide), Reader.feed_cons, Reader.feed_nil]

theorem ofSheet_semicolon_close (u : String) :
    ofSheet (u ++ ";\x7d") = (((atEnd u).step ';').step '}').finish.blocks := by
  have hchars : ";\x7d".toList = [';', '}'] := rfl
  rw [ofSheet_append_of_no_slash u hchars (by decide), Reader.feed_cons, Reader.feed_cons, Reader.feed_nil]

theorem ofSheet_close_cases (u : String) :
    ofSheet (u ++ "\x7d") = ofSheet u ∨ ofSheet (u ++ "\x7d") = ofSheet u ++ [⟨"", []⟩] := by
  rw [ofSheet_close]
  exact Reader.finish_close_cases (Reader.orderly_feed (dropFirstComment u).toList)

theorem selecting_append_close (u : String) : selecting (u ++ "\x7d") = selecting u := by
  rcases ofSheet_close_cases u with h | h
  · rw [selecting, h, selecting]
  · rw [selecting, h, List.filter_append, ← selecting]
    exact List.append_nil _

theorem selecting_surplus_close (u : String) (k : Nat) :
    selecting (u ++ String.ofList (List.replicate k '}')) = selecting u := by
  induction k with
  | zero => rw [List.replicate_zero, String.ofList_nil, String.append_empty]
  | succ k ih =>
    have hlast : u ++ String.ofList (List.replicate (k + 1) '}') = u ++ String.ofList (List.replicate k '}') ++ "\x7d" := by
      rw [List.replicate_succ', String.ofList_append, String.append_assoc]
    rw [hlast, selecting_append_close, ih]

end Block

namespace Sheet

theorem parse_congr (mode : Mode) {text text' : String} (hne : text ≠ "") (hne' : text' ≠ "")
    (h : selecting text = selecting text') : parse mode (some text) = parse mode (some text') := by
  rw [parse_eq_map mode hne, parse_eq_map mode hne', sortedBlocks, sortedBlocks, h]

theorem parse_surplus_close (mode : Mode) {u : String} (h : u ≠ "") (k : Nat) :
    parse mode (some (u ++ String.ofList (List.replicate k '}'))) = parse mode (some u) := by
  have hne : u ++ String.ofList (List.replicate k '}') ≠ "" := by simp [h]
  exact parse_congr mode hne h (selecting_surplus_close u k)

/-- If a sheet ends among its properties or in a value, its blocks are the same without
    more, with a closing brace, with a semicolon and with both; if it ends in a selector,
    without more and with a closing brace. And closing braces at the end, however many, do
    not change what a sheet that has any text is parsed to. -/
theorem closing_marks_agree :
    (∀ u : String,
      let phase := (atEnd u).phase
      (phase = .inProperties ∨ phase = .inValue →
        ofSheet (u ++ "\x7d") = ofSheet u ∧ ofSheet (u ++ ";") = ofSheet u ∧ ofSheet (u ++ ";\x7d") = ofSheet u) ∧
      (phase = .inSelector → ofSheet (u ++ "\x7d") = ofSheet u)) ∧
    ∀ (mode : Mode) (u : String) (k : Nat), u ≠ "" →
      parse mode (some (u ++ String.ofList (List.replicate k '}'))) = parse mode (some u) := by
  refine ⟨fun u => ?_, fun mode u k hne => parse_surplus_close mode hne k⟩
  intro phase
  have hend : ofSheet u = (atEnd u).finish.blocks := rfl
  rw [ofSheet_close, ofSheet_semicolon, ofSheet_semicolon_close, hend]
  refine ⟨fun h => ?_, fun h => ?_⟩
  · have hopen : (atEnd u).phase ≠ .beforeSelector := by
      intro hbefore
      rcases h with h | h <;> exact nomatch h.symm.trans hbefore
    have hstays : ((atEnd u).step ';').phase ≠ .beforeSelector := by
      rw [Reader.step_semicolon h]
      exact Phase.noConfusion
    rw [Reader.finish_step_close hstays, Reader.finish_step_close hopen, Reader.finish_step_semicolon h]
    exact ⟨rfl, rfl, rfl⟩
  · have hopen : (atEnd u).phase ≠ .beforeSelector := fun hbefore => nomatch h.symm.trans hbefore
    rw [Reader.finish_step_close hopen]

/-- A star at the end of an open value does not make a comment end with what follows. -/
theorem closing_marks_agree_open_value :
    let u := "a \x7b x: /* 1 ; y :*"
    let blocks : List Block := [⟨"a", [("x", "/* 1"), ("y", "*")]⟩]
    (atEnd u).phase = .inValue ∧ (atEnd "a\x7d b ").phase = .inSelector ∧
    (ofSheet u = blocks ∧ ofSheet (u ++ "\x7d") = blocks ∧ ofSheet (u ++ ";") = blocks ∧ ofSheet (u ++ ";\x7d") = blocks) ∧
    ofSheet ("a\x7d b " ++ "\x7d") = [⟨"a", []⟩, ⟨"b", []⟩] ∧
    parse .legacy (some (u ++ "\x7d\x7d\x7d")) =
      .ok [⟨⟨"a", .legacy, .number 1⟩, ⟨[("x", "/* 1"), ("y", "*")]⟩⟩] := by
  intro u blocks
  have hvalue : (atEnd u).phase = .inValue := by decide
  have hselector : (atEnd "a\x7d b ").phase = .inSelector := by decide
  have hu : ofSheet u = blocks := by decide
  obtain ⟨hblocks, hparse⟩ := closing_marks_agree
  obtain ⟨hclose, hsemicolon, hboth⟩ := (hblocks u).1 (Or.inr hvalue)
  have hopen := (hblocks "a\x7d b ").2 hselector
  have hread := hparse .legacy u 3 (by decide)
  exact ⟨hvalue, hselector, ⟨hu, hclose.trans hu, hsemicolon.trans hu, hboth.trans hu⟩, hopen.trans (by decide),
    hread.trans (by decide +kernel)⟩

end Sheet

end AttributeSheet
