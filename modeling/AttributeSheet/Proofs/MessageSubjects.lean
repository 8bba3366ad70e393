/-
  AttributeSheet.Proofs.MessageSubjects — what a refusal is about can be read off its message.

  The message of a refused selector has its text quoted, and behind it the words of the
  cause as they are; that of a refused attribute has its name quoted. A quoted text says
  where it ends, so both can be read back from the message alone (`Subject.ofMessage?`),
  whatever the texts are. Two refusals with one message are therefore about the same
  (`subject_read_off`).

  The words that stand around a quoted text are printable, and so is what quoting writes
  (`PlainLine.of_quote`). A message without the words of a cause has no other characters,
  so the line that the log has of it is one line.
-/
import AttributeSheet.Proofs.ErrorRouting
import AttributeSheet.Proofs.QuotedTexts

namespace AttributeSheet

open Text

/-! ## Reading a message -/

inductive Subject where
  | selectorText (text : String) (cause : Option String)
  | attributeName (name : String)
  deriving DecidableEq, Repr

namespace Subject

def cause? : List Char → Option (Option String)
  | [] => some none
  | ':' :: ' ' :: words => some (some (String.ofList words))
  | _ => none

def selectorText? (cs : List Char) : Option Subject := do
  let (text, behind) ← unquote? cs
  let cause ← cause? behind
  return selectorText (String.ofList text) cause

def attributeName? (cs : List Char) : Option Subject := do
  let (name, behind) ← unquote? cs
  if behind.isEmpty then some (attributeName (String.ofList name)) else none

/-- Reads a message; the words before the quoted text say which kind it is. -/
def ofMessage? (message : String) : Option Subject :=
  match after? "Invalid selector ".toList message.toList with
  | some cs => selectorText? cs
  | none => (after? "Cannot set attribute ".toList message.toList).bind attributeName?

theorem cause?_causeTail (k : Option Cause) : cause? (Problem.causeTail k).toList = some (k.map Cause.words) := by
  cases k with
  | none => rfl
  | some cause =>
    have htail : (Problem.causeTail (some cause)).toList = ':' :: ' ' :: cause.words.toList := by
      rw [Problem.causeTail, String.toList_append]
      rfl
    rw [Option.map_some, htail, cause?, String.ofList_toList]

theorem ofMessage?_badSelector (s : String) (k : Option Cause) :
    ofMessage? (Problem.badSelector s k).message = some (selectorText s (k.map Cause.words)) := by
  have hmessage : (Problem.badSelector s k).message.toList =
      "Invalid selector ".toList ++ (quoteChars s.toList ++ (Problem.causeTail k).toList) := by
    unfold Problem.message
    rw [String.toList_append, String.toList_append, toList_quote, List.append_assoc]
  have hafter := after?_eq_some.mpr hmessage
  have hread := unquote?_quoteChars s.toList (Problem.causeTail k).toList
  rw [ofMessage?, hafter]
  simp only [selectorText?, hread, cause?_causeTail, Option.bind_eq_bind, Option.bind_some, Option.pure_def,
    String.ofList_toList]

theorem ofMessage?_badAttribute (name : String) (cause : Option Cause) :
    ofMessage? (Problem.badAttribute name cause).message = some (attributeName name) := by
  have hmessage : (Problem.badAttribute name cause).message.toList =
      "Cannot set attribute ".toList ++ quoteChars name.toList := by
    unfold Problem.message
    rw [String.toList_append, toList_quote]
  have hother : after? "Invalid selector ".toList (Problem.badAttribute name cause).message.toList = none := by
    rw [hmessage]
    rfl
  have hafter := after?_eq_some.mpr hmessage
  have hread := unquote?_quoteChars name.toList []
  rw [List.append_nil] at hread
  rw [ofMessage?, hother, hafter]
  simp [attributeName?, hread]

end Subject

/-! ## On one line -/

/-- The text has no character that is not printable, and so none that ends a line. -/
def PlainLine (s : String) : Prop := ∀ c ∈ s.toList, isPrintable c = true ∧ endsLine c = false

namespace PlainLine

theorem of_printable {s : String} (h : ∀ c ∈ s.toList, isPrintable c = true) : PlainLine s := by
  intro c hc
  refine ⟨h c hc, ?_⟩
  by_contra hends
  have hnot := not_isPrintable_of_endsLine (eq_true_of_ne_false hends)
  rw [h c hc] at hnot
  cases hnot

theorem of_ascii {s : String} (h : s.toList.all isAscii = true) : PlainLine s :=
  of_printable (printable_of_all_ascii h)

theorem of_quote (s : String) : PlainLine (quote s) := of_printable (isPrintable_quote s)

theorem append {s t : String} (hs : PlainLine s) (ht : PlainLine t) : PlainLine (s ++ t) := by
  intro c hc
  rw [String.toList_append] at hc
  rcases List.mem_append.mp hc with hc | hc
  · exact hs c hc
  · exact ht c hc

end PlainLine

namespace Problem

/-- A refusal whose message has no words but its own: that of a selector without a cause,
    or that of an attribute. -/
inductive OwnWords : Problem → Prop
  | ofSelector (text : String) : OwnWords (badSelector text none)
  | ofAttribute (name : String) (cause : Option Cause) : OwnWords (badAttribute name cause)

theorem OwnWords.message {p : Problem} (h : OwnWords p) : PlainLine p.message := by
  cases h with
  | ofSelector text =>
    have hwords : PlainLine "Invalid selector " := .of_ascii (by decide)
    have htail : PlainLine (causeTail none) := nofun
    exact (hwords.append (.of_quote text)).append htail
  | ofAttribute name cause =>
    have hwords : PlainLine "Cannot set attribute " := .of_ascii (by decide)
    exact hwords.append (.of_quote name)

theorem OwnWords.label {p : Problem} (h : OwnWords p) : PlainLine p.label := by
  cases h with
  | ofSelector text =>
    show PlainLine "InvalidSelectorError"
    exact .of_ascii (by decide)
  | ofAttribute name cause =>
    show PlainLine "InvalidAttributeError"
    exact .of_ascii (by decide)

theorem OwnWords.logLine {p : Problem} (h : OwnWords p) : PlainLine p.logLine := by
  have hsource : PlainLine (Level.error.name ++ " " ++ "cas.compiler" ++ ": ") := .of_ascii (by decide)
  have hcolon : PlainLine ": " := .of_ascii (by decide)
  exact hsource.append ((h.label.append hcolon).append h.message)

theorem errorLines_report {δ ε : Type} (handler : Option Handler) (p : Problem) (r : Run δ ε) :
    errorLines (r.report handler p).events = errorLines r.events ++ [p.logLine] := by
  rw [errorLines_eq, errorLines_eq, Run.problems_report, List.map_append]
  rfl

/-- From the message of a refused selector its text and the words of its cause can be read,
    if it has one, and from that of a refused attribute its name, whatever characters are in
    them. So selectors and causes that read differently never have one message. The message of a selector
    without a cause, and that of an attribute, has no character that is not printable or ends
    a line; nor has the one line that the log has of its report. -/
theorem subject_read_off :
    (∀ (s : String) (k : Option Cause),
      Subject.ofMessage? (badSelector s k).message = some (.selectorText s (k.map Cause.words))) ∧
    (∀ (name : String) (cause : Option Cause),
      Subject.ofMessage? (badAttribute name cause).message = some (.attributeName name)) ∧
    (∀ (s s' : String) (k k' : Option Cause),
      (badSelector s k).message = (badSelector s' k').message → s = s' ∧ k.map Cause.words = k'.map Cause.words) ∧
    ∀ p, OwnWords p → PlainLine p.message ∧
      ∀ {δ ε : Type} (handler : Option Handler) (r : Run δ ε),
        ∃ line, errorLines (r.report handler p).events = errorLines r.events ++ [line] ∧ PlainLine line := by
  refine ⟨Subject.ofMessage?_badSelector, Subject.ofMessage?_badAttribute, ?_, ?_⟩
  · intro s s' k k' h
    have hread := Subject.ofMessage?_badSelector s k
    rw [h, Subject.ofMessage?_badSelector s' k'] at hread
    obtain ⟨hs, hk⟩ := Subject.selectorText.inj (Option.some.inj hread)
    exact ⟨hs.symm, hk.symm⟩
  · intro p hp
    refine ⟨hp.message, ?_⟩
    intro δ ε handler r
    exact ⟨p.logLine, errorLines_report handler p r, hp.logLine⟩

/-- Both marks, a backslash, a line feed and a colon, which the words of a cause begin with
    too. -/
theorem subject_read_off_marks :
    let s := "a'\"\\\n: b"
    (badSelector s (some (.stated ": c"))).message = "Invalid selector 'a\\'\"\\\\\\n: b': : c" ∧
    Subject.ofMessage? "Invalid selector 'a\\'\"\\\\\\n: b': : c" = some (.selectorText s (some ": c")) ∧
    OwnWords (badSelector s none) ∧ PlainLine "Invalid selector 'a\\'\"\\\\\\n: b'" := by
  intro s
  obtain ⟨hselector, -, -, hplain⟩ := subject_read_off
  have hmessage : (badSelector s (some (.stated ": c"))).message = "Invalid selector 'a\\'\"\\\\\\n: b': : c" := by
    decide +kernel
  have hbare : (badSelector s none).message = "Invalid selector 'a\\'\"\\\\\\n: b'" := by decide +kernel
  have hread := hselector s (some (.stated ": c"))
  rw [hmessage] at hread
  obtain ⟨hline, -⟩ := hplain _ (.ofSelector s)
  rw [hbare] at hline
  exact ⟨hmessage, hread, .ofSelector s, hline⟩

end Problem

end AttributeSheet
