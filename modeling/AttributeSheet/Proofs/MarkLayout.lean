/-
  AttributeSheet.Proofs.MarkLayout — blanks around the marks of a sheet.

  Blanks around a mark do not show in the blocks, though a reader holds them until the
  part they belong to is trimmed, which may be at the end of the text. Two readings are
  compared, one of them with blanks before and behind a mark.

  Before the mark, blanks go to the end of the open part, or nowhere: the readers agree
  once that part is trimmed (`SameTrimmed`). A mark closes the part, so behind it nothing
  of this can show any more (`SameTrimmed.step_mark`), and the next part is empty
  (`Fresh`). Blanks behind the mark are at the start of that part.

  From there on the readers are `Alike`: they agree on every closed part once it is
  trimmed, and on the open one behind the blanks it starts with. Whatever follows, they
  stay alike (`Alike.feed`), and at the end of the text they have the same blocks
  (`Alike.finish`). So the layout around marks is free (`layout_around_mark`).
-/
import AttributeSheet.Proofs.RepeatedReading

namespace AttributeSheet.Block

open Text

/-- The characters that are no text in the phase: they close its part. -/
def Phase.marks : Phase → List Char
  | .beforeSelector | .inSelector => ['{', '}']
  | .inProperties => [':', ';', '}']
  | .inValue => [';', '}']

section

variable {d : Char}

theorem Phase.mem_marks_beforeSelector : d ∈ marks .beforeSelector ↔ d = '{' ∨ d = '}' := by simp [marks]

theorem Phase.mem_marks_inSelector : d ∈ marks .inSelector ↔ d = '{' ∨ d = '}' := by simp [marks]

theorem Phase.mem_marks_inProperties : d ∈ marks .inProperties ↔ d = ':' ∨ d = ';' ∨ d = '}' := by simp [marks]

theorem Phase.mem_marks_inValue : d ∈ marks .inValue ↔ d = ';' ∨ d = '}' := by simp [marks]

end

namespace Reader

/-! ## Texts that differ in blank ends -/

def SameStart (s s' : String) : Prop := skipBlanks s.toList = skipBlanks s'.toList

theorem SameStart.trim_eq {s s' : String} (h : SameStart s s') : trim s = trim s' := by
  rw [trim, trim, trimChars, trimChars, h]

theorem SameStart.push {s s' : String} (h : SameStart s s') (c : Char) : SameStart (s.push c) (s'.push c) := by
  rw [SameStart, String.toList_push, String.toList_push, skipBlanks_append, h, ← skipBlanks_append]

theorem SameStart.push_blank {s : String} (h : SameStart "" s) {c : Char} (hc : isBlank c = true) :
    SameStart "" (s.push c) := by
  have hblank : skipBlanks [c] = [] := skipBlanks_eq_nil.mpr (by simpa using hc)
  have hs : skipBlanks s.toList = [] := h.symm
  rw [SameStart, String.toList_push, skipBlanks_append, hs, List.nil_append, hblank]
  rfl

theorem blank_no_mark {c : Char} (hc : isBlank c = true) : c ≠ '{' ∧ c ≠ '}' ∧ c ≠ ':' ∧ c ≠ ';' := by
  refine ⟨?_, ?_, ?_, ?_⟩ <;> rintro rfl <;> exact absurd hc (by decide)

/-! ## Readers from which the same blocks come -/

/-- The readers agree on every closed part once it is trimmed, and on the open part
    behind the blanks it starts with. -/
inductive Alike : Reader → Reader → Prop
  | between (blocks : List Block) : Alike (between blocks) (between blocks)
  | inSelector (selector : String) (blocks : List Block) :
      Alike ⟨.inSelector, selector, "", "", [], blocks⟩ ⟨.inSelector, selector, "", "", [], blocks⟩
  | inProperties {selector selector' name name' : String} (hselector : trim selector = trim selector')
      (hname : SameStart name name') (properties : List (String × String)) (blocks : List Block) :
      Alike ⟨.inProperties, selector, name, "", properties, blocks⟩
        ⟨.inProperties, selector', name', "", properties, blocks⟩
  | inValue {selector selector' name name' value value' : String} (hselector : trim selector = trim selector')
      (hname : trim name = trim name') (hvalue : SameStart value value') (properties : List (String × String))
      (blocks : List Block) :
      Alike ⟨.inValue, selector, name, value, properties, blocks⟩
        ⟨.inValue, selector', name', value', properties, blocks⟩

namespace Alike

variable {r r' : Reader}

theorem refl (h : Orderly r) : Alike r r := by
  cases h with
  | between blocks => exact .between blocks
  | inSelector selector blocks => exact .inSelector selector blocks
  | inProperties selector name properties blocks => exact .inProperties rfl rfl properties blocks
  | inValue selector name value properties blocks => exact .inValue rfl rfl rfl properties blocks

theorem step (h : Alike r r') (c : Char) : Alike (r.step c) (r'.step c) := by
  cases h with
  | between blocks => exact refl ((Orderly.between blocks).step c)
  | inSelector selector blocks => exact refl ((Orderly.inSelector selector blocks).step c)
  | inProperties hselector hname properties blocks =>
    simp only [Reader.step, endProperty, endBlock, hselector, hname.trim_eq]
    split_ifs
    · exact .inValue hselector hname.trim_eq rfl properties blocks
    · exact .inProperties hselector rfl properties blocks
    · exact .inProperties hselector rfl _ blocks
    · exact .between _
    · exact .between _
    · exact .inProperties hselector (hname.push c) properties blocks
  | inValue hselector hname hvalue properties blocks =>
    simp only [Reader.step, endProperty, endBlock, hselector, hname, hvalue.trim_eq]
    split_ifs
    · exact .inProperties hselector rfl properties blocks
    · exact .inProperties hselector rfl _ blocks
    · exact .between _
    · exact .between _
    · exact .inValue hselector hname (hvalue.push c) properties blocks

theorem feed (h : Alike r r') (cs : List Char) : Alike (r.feed cs) (r'.feed cs) := by
  induction cs generalizing r r' with
  | nil => exact h
  | cons c cs ih => exact ih (h.step c)

theorem finish (h : Alike r r') : r.finish = r'.finish := by
  cases h with
  | between blocks => rfl
  | inSelector selector blocks => rfl
  | inProperties hselector hname properties blocks =>
    simp only [Reader.finish, endProperty, endBlock, hselector, hname.trim_eq]
  | inValue hselector hname hvalue properties blocks =>
    simp only [Reader.finish, endProperty, endBlock, hselector, hname, hvalue.trim_eq]

end Alike

/-! ## Before a mark -/

/-- The readers agree once the open part is trimmed. -/
inductive SameTrimmed : Reader → Reader → Prop
  | between (blocks : List Block) : SameTrimmed (between blocks) (between blocks)
  | inSelector {selector selector' : String} (hselector : trim selector = trim selector') (blocks : List Block) :
      SameTrimmed ⟨.inSelector, selector, "", "", [], blocks⟩ ⟨.inSelector, selector', "", "", [], blocks⟩
  | inProperties (selector : String) {name name' : String} (hname : trim name = trim name')
      (properties : List (String × String)) (blocks : List Block) :
      SameTrimmed ⟨.inProperties, selector, name, "", properties, blocks⟩
        ⟨.inProperties, selector, name', "", properties, blocks⟩
  | inValue (selector name : String) {value value' : String} (hvalue : trim value = trim value')
      (properties : List (String × String)) (blocks : List Block) :
      SameTrimmed ⟨.inValue, selector, name, value, properties, blocks⟩
        ⟨.inValue, selector, name, value', properties, blocks⟩

namespace SameTrimmed

variable {r r' : Reader}

theorem refl (h : Orderly r) : SameTrimmed r r := by
  cases h with
  | between blocks => exact .between blocks
  | inSelector selector blocks => exact .inSelector rfl blocks
  | inProperties selector name properties blocks => exact .inProperties selector rfl properties blocks
  | inValue selector name value properties blocks => exact .inValue selector name rfl properties blocks

theorem step_blank (h : SameTrimmed r r') {c : Char} (hc : isBlank c = true) : SameTrimmed r (r'.step c) := by
  obtain ⟨hopen, hclose, hcolon, hsemicolon⟩ := blank_no_mark hc
  cases h with
  | between blocks =>
    simp only [step, Reader.between, hopen, hclose, hc, if_true, if_false]
    exact .between blocks
  | inSelector hselector blocks =>
    simp only [step, hopen, hclose, if_false]
    exact .inSelector (hselector.trans (trim_push_blank hc _).symm) blocks
  | inProperties selector hname properties blocks =>
    simp only [step, hcolon, hsemicolon, hclose, if_false]
    exact .inProperties selector (hname.trans (trim_push_blank hc _).symm) properties blocks
  | inValue selector name hvalue properties blocks =>
    simp only [step, hsemicolon, hclose, if_false]
    exact .inValue selector name (hvalue.trans (trim_push_blank hc _).symm) properties blocks

theorem feed_blank (h : SameTrimmed r r') {w : List Char} (hw : ∀ c ∈ w, isBlank c = true) :
    SameTrimmed r (r'.feed w) := feed_keeps (P := SameTrimmed r) (fun _ c hc hr => hr.step_blank (hw c hc)) h

/-- A mark closes the part in which they differ. -/
theorem step_mark (h : SameTrimmed r r') {d : Char} (hd : d ∈ r.phase.marks) : Alike (r.step d) (r'.step d) := by
  cases h with
  | between blocks => exact .refl ((Orderly.between blocks).step d)
  | inSelector hselector blocks =>
    rcases Phase.mem_marks_inSelector.mp hd with rfl | rfl
    · exact .inProperties hselector rfl [] blocks
    · simp only [step, endBlock, hselector]
      exact .between _
  | inProperties selector hname properties blocks =>
    rcases Phase.mem_marks_inProperties.mp hd with rfl | rfl | rfl
    · exact .inValue rfl hname rfl properties blocks
    · simp only [step, endProperty, hname]
      exact .inProperties rfl rfl _ blocks
    · simp only [step, endProperty, endBlock, hname]
      exact .between _
  | inValue selector name hvalue properties blocks =>
    rcases Phase.mem_marks_inValue.mp hd with rfl | rfl
    · simp only [step, endProperty, hvalue]
      exact .inProperties rfl rfl _ blocks
    · simp only [step, endProperty, endBlock, hvalue]
      exact .between _

end SameTrimmed

/-! ## Behind a mark -/

inductive Fresh : Reader → Prop
  | between (blocks : List Block) : Fresh (between blocks)
  | inProperties (selector : String) (properties : List (String × String)) (blocks : List Block) :
      Fresh ⟨.inProperties, selector, "", "", properties, blocks⟩
  | inValue (selector name : String) (properties : List (String × String)) (blocks : List Block) :
      Fresh ⟨.inValue, selector, name, "", properties, blocks⟩

namespace Fresh

variable {r r' : Reader}

theorem of_mark (h : Orderly r) {d : Char} (hd : d ∈ r.phase.marks) : Fresh (r.step d) := by
  cases h with
  | between blocks =>
    rcases Phase.mem_marks_beforeSelector.mp hd with rfl | rfl
    · exact .inProperties "" [] blocks
    · exact .between _
  | inSelector selector blocks =>
    rcases Phase.mem_marks_inSelector.mp hd with rfl | rfl
    · exact .inProperties selector [] blocks
    · exact .between _
  | inProperties selector name properties blocks =>
    rcases Phase.mem_marks_inProperties.mp hd with rfl | rfl | rfl
    · exact .inValue selector name properties blocks
    · exact .inProperties selector _ blocks
    · exact .between _
  | inValue selector name value properties blocks =>
    rcases Phase.mem_marks_inValue.mp hd with rfl | rfl
    · exact .inProperties selector _ blocks
    · exact .between _

theorem step_blank (hr : Fresh r) (h : Alike r r') {c : Char} (hc : isBlank c = true) : Alike r (r'.step c) := by
  obtain ⟨hopen, hclose, hcolon, hsemicolon⟩ := blank_no_mark hc
  cases hr with
  | between blocks =>
    cases h with
    | between =>
      simp only [step, Reader.between, hopen, hclose, hc, if_true, if_false]
      exact .between blocks
  | inProperties selector properties blocks =>
    cases h with
    | inProperties hselector hname =>
      simp only [step, hcolon, hsemicolon, hclose, if_false]
      exact .inProperties hselector (hname.push_blank hc) properties blocks
  | inValue selector name properties blocks =>
    cases h with
    | inValue hselector hname hvalue =>
      simp only [step, hsemicolon, hclose, if_false]
      exact .inValue hselector hname (hvalue.push_blank hc) properties blocks

theorem feed_blank (hr : Fresh r) (h : Alike r r') {w : List Char} (hw : ∀ c ∈ w, isBlank c = true) :
    Alike r (r'.feed w) := feed_keeps (P := Alike r) (fun _ c hc halike => hr.step_blank halike (hw c hc)) h

end Fresh

/-! ## Around a mark -/

theorem alike_around_mark {r : Reader} (hr : Orderly r) {d : Char} (hd : d ∈ r.phase.marks) {w w' : List Char}
    (hw : ∀ c ∈ w, isBlank c = true) (hw' : ∀ c ∈ w', isBlank c = true) :
    Alike (r.step d) (((r.feed w).step d).feed w') := by
  have hbefore : Alike (r.step d) ((r.feed w).step d) := ((SameTrimmed.refl hr).feed_blank hw).step_mark hd
  exact (Fresh.of_mark hr hd).feed_blank hbefore hw'

/-- Where a character is read as a mark, blanks before it and behind it make no
    difference to the blocks, whatever stands before and whatever follows. -/
theorem layout_around_mark (u v w w' : String) (d : Char) (hd : d ∈ (start.feed u.toList).phase.marks)
    (hw : allBlank w = true) (hw' : allBlank w' = true) :
    (start.read (u ++ w ++ String.singleton d ++ w' ++ v)).blocks = (start.read (u ++ String.singleton d ++ v)).blocks := by
  have halike := alike_around_mark (orderly_feed u.toList) hd (List.all_eq_true.mp hw) (List.all_eq_true.mp hw')
  have hends := (halike.feed v.toList).finish
  simp only [read, String.toList_append, String.toList_singleton, feed_append]
  exact congrArg Reader.blocks hends.symm

/-- Around the colon of a value that runs to the end of the text. -/
theorem layout_around_mark_colon :
    let u := "a\x7b b: 1; href"
    let blocks : List Block := [⟨"a", [("b", "1"), ("href", "x y")]⟩]
    ':' ∈ (start.feed u.toList).phase.marks ∧ allBlank " \t" = true ∧ allBlank "\n " = true ∧
      (start.read (u ++ String.singleton ':' ++ "x y ")).blocks = blocks ∧
      (start.read (u ++ " \t" ++ String.singleton ':' ++ "\n " ++ "x y ")).blocks = blocks := by
  intro u blocks
  have hmark : ':' ∈ (start.feed u.toList).phase.marks := by decide
  have hbefore : allBlank " \t" = true := by decide
  have hbehind : allBlank "\n " = true := by decide
  have hplain : (start.read (u ++ String.singleton ':' ++ "x y ")).blocks = blocks := by decide
  have hspaced := layout_around_mark u "x y " " \t" "\n " ':' hmark hbefore hbehind
  exact ⟨hmark, hbefore, hbehind, hplain, hspaced.trans hplain⟩

end Reader

end AttributeSheet.Block
