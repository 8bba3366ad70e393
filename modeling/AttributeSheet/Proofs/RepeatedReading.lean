/-
  AttributeSheet.Proofs.RepeatedReading — what a reader holds, and reading a sheet again.

  A reader holds only what its phase has opened (`Orderly`): before a selector nothing but
  the finished blocks, in a selector no property, among the properties no value. Every
  character keeps this (`Orderly.step`), so it is so after every text (`orderly_feed`).

  The end of the text takes any such reader back to where it holds the finished blocks and
  nothing else (`Orderly.finish`). A second reading therefore begins as the first one did
  and only puts its blocks behind those that are there (`read_between`), whatever was still
  open when the text ended; and so does any number of readings (`read_again`).
-/
import AttributeSheet.Proofs.JoinedSheets

namespace AttributeSheet.Block.Reader

open Text

/-! ## What a reader holds -/

/-- What each character of a text keeps, the text keeps. -/
theorem feed_keeps {P : Reader → Prop} {cs : List Char} (hstep : ∀ r, ∀ c ∈ cs, P r → P (r.step c)) {r : Reader}
    (h : P r) : P (r.feed cs) := by
  induction cs generalizing r with
  | nil => exact h
  | cons c cs ih =>
    have hnext : P (r.step c) := hstep r c (by simp) h
    exact ih (fun r d hd => hstep r d (by simp [hd])) hnext

/-- The parts that the phase has not opened yet are empty. -/
inductive Orderly : Reader → Prop
  | between (blocks : List Block) : Orderly (between blocks)
  | inSelector (selector : String) (blocks : List Block) : Orderly ⟨.inSelector, selector, "", "", [], blocks⟩
  | inProperties (selector name : String) (properties : List (String × String)) (blocks : List Block) :
      Orderly ⟨.inProperties, selector, name, "", properties, blocks⟩
  | inValue (selector name value : String) (properties : List (String × String)) (blocks : List Block) :
      Orderly ⟨.inValue, selector, name, value, properties, blocks⟩

namespace Orderly

variable {r : Reader}

theorem endBlock (r : Reader) : Orderly r.endBlock := .between _

theorem step (h : Orderly r) (c : Char) : Orderly (r.step c) := by
  cases h with
  | between blocks =>
    simp only [Reader.step, Reader.between]
    split_ifs
    · exact endBlock _
    · exact .inProperties "" "" [] blocks
    · exact .between blocks
    · exact .inSelector _ blocks
  | inSelector selector blocks =>
    simp only [Reader.step]
    split_ifs
    · exact .inProperties selector "" [] blocks
    · exact endBlock _
    · exact .inSelector _ blocks
  | inProperties selector name properties blocks =>
    simp only [Reader.step]
    split_ifs
    · exact .inValue selector name "" properties blocks
    · exact .inProperties selector "" _ blocks
    · exact endBlock _
    · exact .inProperties selector _ properties blocks
  | inValue selector name value properties blocks =>
    simp only [Reader.step]
    split_ifs
    · exact .inProperties selector "" _ blocks
    · exact endBlock _
    · exact .inValue selector name _ properties blocks

theorem eq_between (h : Orderly r) (hphase : r.phase = .beforeSelector) : r = Reader.between r.blocks := by
  cases h with
  | between blocks => rfl
  | inSelector selector blocks => exact nomatch hphase
  | inProperties selector name properties blocks => exact nomatch hphase
  | inValue selector name value properties blocks => exact nomatch hphase

/-- The end of the text leaves nothing but the finished blocks, from every phase. -/
theorem finish (h : Orderly r) : r.finish = Reader.between r.finish.blocks := by
  cases h with
  | between blocks => rfl
  | inSelector selector blocks => rfl
  | inProperties selector name properties blocks => rfl
  | inValue selector name value properties blocks => rfl

end Orderly

theorem orderly_feed (cs : List Char) : Orderly (start.feed cs) :=
  feed_keeps (fun _ c _ h => h.step c) (Orderly.between [])

/-! ## Reading again -/

/-- Reading puts the blocks of the text behind those that are finished, and leaves nothing
    else. -/
theorem read_between (blocks : List Block) (text : String) :
    (between blocks).read text = between (blocks ++ (start.read text).blocks) := by
  have hread : start.read text = between (start.read text).blocks := (orderly_feed text.toList).finish
  calc (between blocks).read text = (start.read text).behind blocks := by
        rw [between_eq_behind, read, feed_behind, finish_behind, ← read]
    _ = (between (start.read text).blocks).behind blocks := by rw [← hread]
    _ = between (blocks ++ (start.read text).blocks) := rfl

theorem readTimes_between (text : String) (times : Nat) (blocks : List Block) :
    readTimes text times (between blocks) =
      between (blocks ++ (List.replicate times (start.read text).blocks).flatten) := by
  induction times generalizing blocks with
  | zero => rw [readTimes, List.replicate_zero, List.flatten_nil, List.append_nil]
  | succ times ih => rw [readTimes, read_between, ih, List.append_assoc, List.replicate_succ, List.flatten_cons]

/-- A reader that reads one sheet any number of times has the blocks of the sheet as many
    times over, and stands before a selector with nothing open, in whatever way the sheet
    ends. -/
theorem read_again (source : String) (times : Nat) :
    ∃ r, readTimes (dropFirstComment source) times start = r ∧
      r.blocks = (List.replicate times (ofSheet source)).flatten ∧ r.phase = .beforeSelector ∧
      r.selector = "" ∧ r.name = "" ∧ r.value = "" ∧ r.properties = [] := by
  have hr : readTimes (dropFirstComment source) times start = between (List.replicate times (ofSheet source)).flatten :=
    readTimes_between (dropFirstComment source) times []
  exact ⟨between (List.replicate times (ofSheet source)).flatten, hr, rfl, rfl, rfl, rfl, rfl, rfl⟩

/-- The open block at the end of the first reading does not run into the second one. -/
example : (readTimes "a\x7bx:1\x7d b\x7by:" 2 start).blocks =
    [⟨"a", [("x", "1")]⟩, ⟨"b", [("y", "")]⟩, ⟨"a", [("x", "1")]⟩, ⟨"b", [("y", "")]⟩] := by decide

end AttributeSheet.Block.Reader
