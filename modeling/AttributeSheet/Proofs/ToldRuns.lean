/-
  AttributeSheet.Proofs.ToldRuns — a run over a host that judges by the text.

  Some hosts tell from the text of a selector alone whether they reject it, from a name
  and its value alone whether they reject an attribute, and do everything else they are
  asked (`Host.RefusesBy`). On such a host, while the handler does not raise (`Quiet`), a
  run goes to its end, and the page and the reports can be told declaration by
  declaration (`run_told`): a rejected selector is one report, and a rejected property is
  one for every element that is matched.
-/
import AttributeSheet.Log
import AttributeSheet.Proofs.RunMoves

namespace AttributeSheet

variable {δ ε : Type} {host : Host δ ε} {handler : Option Handler}

/-! ## Runs that go on -/

/-- No handler is installed, or one that does not raise. -/
def Quiet (handler : Option Handler) : Prop := ∀ h ∈ handler, ∀ ps, h.raises ps = false

theorem quiet_none : Quiet none := nofun

theorem quiet_recording (name : String) : Quiet (some (.recording name)) := by
  rintro h ⟨⟩ ps
  rfl

theorem Run.halt_report (hq : Quiet handler) (r : Run δ ε) (p : Problem) : (r.report handler p).halt = none := by
  cases handler with
  | none => rfl
  | some handler => simp [Run.report, hq handler rfl]

structure Run.At (r : Run δ ε) (page : δ) : Prop where
  page_eq : r.page = page
  going : r.halt = none

namespace Run.At

variable {r : Run δ ε} {page : δ}

theorem unlessHalted (h : r.At page) (f : Run δ ε → Run δ ε) : r.unlessHalted f = f r := by
  simp [Run.unlessHalted, h.going]

theorem note (h : r.At page) (e : Event ε) : (r.note e).At page := ⟨h.page_eq, h.going⟩

theorem report (hq : Quiet handler) (h : r.At page) (p : Problem) :
    (r.report handler p).At page := ⟨h.page_eq, r.halt_report hq p⟩

end Run.At

/-! ## Hosts that judge by the text -/

/-- The selectors and the properties that are rejected, told by their texts. -/
structure Refusals where
  selector : String → Bool
  property : String → String → Bool

/-- The host rejects the selector and the properties of `d` where `refusals` say so, each
    by the name it is asked under, and else answers the query and does the writes,
    whatever page it holds. -/
structure Host.RefusesBy (host : Host δ ε) (refusals : Refusals) (d : Declaration) : Prop where
  query_rejected : refusals.selector d.selector.text = true →
    ∀ page, ∃ cause, host.query page d.selector.text = .error (.rejected d.selector.text cause)
  query_answered : refusals.selector d.selector.text = false →
    ∀ page, ∃ elements, host.query page d.selector.text = .ok elements
  write_rejected : ∀ p ∈ d.properties.entries, refusals.property p.1 p.2 = true →
    ∀ page element, ∃ cause, host.write page element p.1 p.2 = .error (.rejected p.1 cause)
  write_done : ∀ p ∈ d.properties.entries, refusals.property p.1 p.2 = false →
    ∀ page element, ∃ page', host.write page element p.1 p.2 = .ok page'

/-! ## Pages and reports, declaration by declaration -/

namespace Host

/-- The page after a write, which may be rejected. -/
def written (host : Host δ ε) (element : ε) (page : δ) (p : String × String) : δ :=
  (host.write page element p.1 p.2).toOption.getD page

theorem written_of_ok {element : ε} {page page' : δ} {p : String × String}
    (h : host.write page element p.1 p.2 = .ok page') : host.written element page p = page' := by
  rw [written, h]; rfl

theorem written_of_error {element : ε} {page : δ} {p : String × String} {refusal : Refusal}
    (h : host.write page element p.1 p.2 = .error refusal) : host.written element page p = page := by
  rw [written, h]; rfl

def writtenAll (host : Host δ ε) (properties : List (String × String)) (page : δ) (element : ε) : δ :=
  properties.foldl (host.written element) page

/-- The elements that a selector matches; one that is rejected matches none. -/
def found (host : Host δ ε) (page : δ) (selector : String) : List ε := (host.query page selector).toOption.getD []

theorem found_of_ok {page : δ} {selector : String} {elements : List ε} (h : host.query page selector = .ok elements) :
    host.found page selector = elements := by
  rw [found, h]; rfl

theorem found_of_error {page : δ} {selector : String} {refusal : Refusal}
    (h : host.query page selector = .error refusal) : host.found page selector = [] := by
  rw [found, h]; rfl

def after (host : Host δ ε) (page : δ) (d : Declaration) : δ :=
  (host.found page d.selector.text).foldl (host.writtenAll d.properties.entries) page

end Host

def Problem.bare : Problem → Problem
  | general message _ => general message none
  | badSelector selector _ => badSelector selector none
  | badAttribute name _ => badAttribute name none
  | p => p

namespace Refusals

variable (refusals : Refusals)

/-- What is reported, causes apart, of a declaration that matches `elements`: its
    selector, or else for each element the names of the rejected properties. -/
def reports (elements : List ε) (d : Declaration) : List Problem :=
  if refusals.selector d.selector.text then [.badSelector d.selector.text none]
  else elements.flatMap fun _ =>
    (d.properties.entries.filter fun p => refusals.property p.1 p.2).map fun p => .badAttribute p.1 none

/-- What is reported of a list: each declaration comes to the page that those before it
    have left. -/
def reportsAlong (host : Host δ ε) (page : δ) : List Declaration → List Problem
  | [] => []
  | d :: l => refusals.reports (host.found page d.selector.text) d ++ reportsAlong host (host.after page d) l

end Refusals

/-! ## A run, page and reports together -/

/-- The run goes on, holds `page` and has reported `told`, causes apart. -/
structure Run.Told (r : Run δ ε) (page : δ) (told : List Problem) : Prop extends r.At page where
  told_eq : (problems r.events).map Problem.bare = told

namespace Run.Told

variable {r : Run δ ε} {page : δ} {told : List Problem}

theorem note (h : r.Told page told) {e : Event ε} (he : e.problem? = none) : (r.note e).Told page told where
  toAt := h.toAt.note e
  told_eq := by rw [Run.problems_note r he, h.told_eq]

theorem report (hq : Quiet handler) (h : r.Told page told) (p : Problem) :
    (r.report handler p).Told page (told ++ [p.bare]) where
  toAt := h.toAt.report hq p
  told_eq := by rw [Run.problems_report, List.map_append, h.told_eq]; rfl

end Run.Told

namespace Cascade

variable {refusals : Refusals} {d : Declaration} {r : Run δ ε} {page : δ} {told : List Problem}

/-- One write: it is done, or it is one report. -/
theorem writeOne_told (hq : Quiet handler) (hd : host.RefusesBy refusals d) {p : String × String}
    (hp : p ∈ d.properties.entries) (h : r.Told page told) (element : ε) :
    (writeOne host handler element r p).Told (host.written element page p)
      (told ++ if refusals.property p.1 p.2 then [.badAttribute p.1 none] else []) := by
  rw [writeOne, h.toAt.unlessHalted, h.page_eq]
  cases hr : refusals.property p.1 p.2 with
  | true =>
    obtain ⟨cause, hw⟩ := hd.write_rejected p hp hr page element
    rw [hw, Host.written_of_error hw]
    exact h.report hq _
  | false =>
    obtain ⟨page', hw⟩ := hd.write_done p hp hr page element
    have hwritten : ({ r with page := page' } : Run δ ε).Told page' told := ⟨⟨rfl, h.going⟩, h.told_eq⟩
    rw [hw, Host.written_of_ok hw, if_neg Bool.false_ne_true, List.append_nil]
    exact hwritten.note rfl

theorem writeAll_told (hq : Quiet handler) (hd : host.RefusesBy refusals d) {ps : List (String × String)}
    (hps : ∀ p ∈ ps, p ∈ d.properties.entries) (h : r.Told page told) (element : ε) :
    (writeAll host handler ps r element).Told (host.writtenAll ps page element)
      (told ++ (ps.filter fun p => refusals.property p.1 p.2).map fun p => .badAttribute p.1 none) := by
  unfold writeAll Host.writtenAll
  induction ps generalizing r page told with
  | nil => simpa using h
  | cons p ps ih =>
    have hrest := ih (fun q hq => hps q (by simp [hq])) (writeOne_told hq hd (hps p (by simp)) h element)
    cases hr : refusals.property p.1 p.2 <;> simpa [hr] using hrest

theorem foldl_writeAll_told (hq : Quiet handler) (hd : host.RefusesBy refusals d) (h : r.Told page told)
    (elements : List ε) :
    (elements.foldl (writeAll host handler d.properties.entries) r).Told
      (elements.foldl (host.writtenAll d.properties.entries) page)
      (told ++ elements.flatMap fun _ =>
        (d.properties.entries.filter fun p => refusals.property p.1 p.2).map fun p => .badAttribute p.1 none) := by
  induction elements generalizing r page told with
  | nil => simpa using h
  | cons element elements ih => simpa using ih (writeAll_told hq hd (fun _ hp => hp) h element)

theorem ask_told (hq : Quiet handler) (hd : host.RefusesBy refusals d) (h : r.Told page told) :
    (ask host handler r d).2 = host.found page d.selector.text ∧
      (ask host handler r d).1.Told page
        (told ++ if refusals.selector d.selector.text then [.badSelector d.selector.text none] else []) := by
  have hnoted : (r.note (.queried d.selector.text)).Told page told := h.note rfl
  simp only [ask, h.going, Option.isSome_none, Bool.false_eq_true, if_false, hnoted.page_eq]
  cases hr : refusals.selector d.selector.text with
  | true =>
    obtain ⟨cause, hquery⟩ := hd.query_rejected hr page
    rw [hquery, Host.found_of_error hquery]
    exact ⟨rfl, hnoted.report hq _⟩
  | false =>
    obtain ⟨elements, hquery⟩ := hd.query_answered hr page
    rw [hquery, Host.found_of_ok hquery, if_neg Bool.false_ne_true, List.append_nil]
    exact ⟨rfl, hnoted.note rfl⟩

theorem applyOne_told (hq : Quiet handler) (hd : host.RefusesBy refusals d) (h : r.Told page told) :
    (applyOne host handler r d).Told (host.after page d)
      (told ++ refusals.reports (host.found page d.selector.text) d) := by
  obtain ⟨helements, hasked⟩ := ask_told hq hd h
  simp only [applyOne, helements, Refusals.reports, Host.after]
  cases hr : refusals.selector d.selector.text with
  | true =>
    obtain ⟨cause, hquery⟩ := hd.query_rejected hr page
    rw [hr] at hasked
    rw [Host.found_of_error hquery]
    exact hasked
  | false =>
    rw [hr, if_neg Bool.false_ne_true, List.append_nil] at hasked
    exact foldl_writeAll_told hq hd hasked _

theorem foldl_applyOne_told (hq : Quiet handler) {l : List Declaration} (hl : ∀ d ∈ l, host.RefusesBy refusals d)
    (h : r.Told page told) :
    (l.foldl (applyOne host handler) r).Told (l.foldl host.after page)
      (told ++ refusals.reportsAlong host page l) := by
  induction l generalizing r page told with
  | nil => simpa [Refusals.reportsAlong] using h
  | cons d l ih =>
    simpa [Refusals.reportsAlong] using ih (fun x hx => hl x (by simp [hx])) (applyOne_told hq (hl d (by simp)) h)

theorem load_told (page : δ) (reported : List Problem) (text : String) :
    (load host page reported text : Run δ ε).Told (host.load page text) [] := by
  have hloaded : ((Run.start (host.load page text) reported : Run δ ε).note (.loaded text)).Told
      (host.load page text) [] := ⟨⟨rfl, rfl⟩, rfl⟩
  rcases load_cases host page reported text with h | h
  · rw [h]; exact hloaded
  · rw [h]; exact hloaded.note rfl

/-- A run over a host that judges by the text goes to its end, and its page and reports
    are those of one declaration after the other. -/
theorem run_told (hq : Quiet handler) {l : List Declaration} (hl : ∀ d ∈ l, host.RefusesBy refusals d) (page : δ)
    (reported : List Problem) (text : String) :
    (run host handler l page reported text).Told (l.foldl host.after (host.load page text))
      (refusals.reportsAlong host (host.load page text) l) :=
  foldl_applyOne_told hq hl (load_told page reported text)

end Cascade

end AttributeSheet
