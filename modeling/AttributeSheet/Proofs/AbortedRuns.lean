/-
  AttributeSheet.Proofs.AbortedRuns — a run that a handler cuts short.

  Two runs of one list over one page, the second under a handler that raises: as long as
  nothing is reported they are the same run, and the first report, which the first run
  goes on from, is where the second one ends (`CutShort`). Asking and writing keep them so
  (`cutShort_kept`), and whatever the first run does after that it only adds. So what the
  second asks of the host is the beginning of what the first asks, and its page is that of
  the attributes it has written by then (`raising_run_cuts_short`).
-/
import AttributeSheet.Proofs.ErrorRouting
import AttributeSheet.Proofs.HostCalls
import AttributeSheet.Proofs.RunPairs

namespace AttributeSheet

variable {δ ε : Type} {host : Host δ ε} {other : Option Handler} {loud : Handler}

/-- The run `r'`, whose handler is `loud`, is the run `r` as long as nothing is reported,
    and else has ended at the first report. -/
inductive Run.CutShort (other : Option Handler) (loud : Handler) (r r' : Run δ ε) : Prop
  | level : r' = r → problems r.events = [] → CutShort other loud r r'
  | cut {before after : List (Event ε)} {p : Problem} :
      r.events = before ++ reporting other p ++ after → r'.events = before ++ reporting (some loud) p →
      problems before = [] → r'.halt = some (.handlerRaised loud.name) → CutShort other loud r r'

namespace Run.CutShort

variable {r r' : Run δ ε}

theorem report (hraises : ∀ ps, loud.raises ps = true) (hr : problems r.events = []) (p : Problem) :
    CutShort other loud (r.report other p) (r.report (some loud) p) :=
  .cut (List.append_nil _).symm rfl hr (by simp [Run.report, hraises])

theorem extend {before after : List (Event ε)} {p : Problem} {s s' : Run δ ε}
    (hr : r.events = before ++ reporting other p ++ after) (hr' : r'.events = before ++ reporting (some loud) p)
    (hnone : problems before = []) (hhalt : r'.halt = some (.handlerRaised loud.name))
    (hextends : r.events <+: s.events) (hstays : s' = r') : CutShort other loud s s' := by
  obtain ⟨more, hmore⟩ := hextends
  rw [hr, List.append_assoc] at hmore
  rw [hstays]
  exact .cut hmore.symm hr' hnone hhalt

theorem calls_prefix (h : CutShort other loud r r') : calls r'.events <+: calls r.events := by
  cases h with
  | level hsame _ => rw [hsame]
  | cut hr hr' _ _ =>
    rw [hr, hr', calls_append, calls_append, calls_append, calls_reporting, calls_reporting, List.append_nil]
    exact List.prefix_append _ _

theorem same (h : CutShort other loud r r') (hnone : problems r.events = []) : r' = r := by
  cases h with
  | level hsame _ => exact hsame
  | cut hr _ _ _ => simp [hr] at hnone

theorem first (h : CutShort other loud r r') {p : Problem} {rest : List Problem}
    (hp : problems r.events = p :: rest) :
    problems r'.events = [p] ∧ r'.halt = some (.handlerRaised loud.name) := by
  cases h with
  | level _ hnone => rw [hp] at hnone; cases hnone
  | @cut before after q hr hr' hnone hhalt =>
    rw [hr, problems_append, problems_append, hnone, problems_reporting] at hp
    obtain ⟨rfl, -⟩ := List.cons.inj hp
    refine ⟨?_, hhalt⟩
    rw [hr', problems_append, hnone, problems_reporting]
    rfl

end Run.CutShort

namespace Cascade

variable {r r' : Run δ ε}

theorem ask_cut (hraises : ∀ ps, loud.raises ps = true) (d : Declaration) (h : r.CutShort other loud r') :
    (ask host other r d).1.CutShort other loud (ask host (some loud) r' d).1 ∧
      ((ask host (some loud) r' d).1.halt.isSome = true ∨
        (ask host (some loud) r' d).2 = (ask host other r d).2) := by
  cases h with
  | cut hr hr' hnone hhalt =>
    have hstays : ask host (some loud) r' d = (r', []) := ask_halted (by rw [hhalt]; rfl) d
    rw [hstays]
    exact ⟨.extend hr hr' hnone hhalt (ask_moves r d).extends rfl, Or.inl (by rw [hhalt]; rfl)⟩
  | level hsame hnone =>
    subst hsame
    have hqueried : problems (r'.note (.queried d.selector.text)).events = [] :=
      (Run.problems_note r' rfl).trans hnone
    unfold ask
    cases r'.halt with
    | some halt => exact ⟨.level rfl hnone, Or.inr rfl⟩
    | none =>
      simp only [Option.isSome_none, Bool.false_eq_true, if_false]
      cases host.query (r'.note (.queried d.selector.text)).page d.selector.text with
      | ok elements => exact ⟨.level rfl ((Run.problems_note _ rfl).trans hqueried), Or.inr rfl⟩
      | error refusal => cases refusal with
        | rejected named cause => exact ⟨.report hraises hqueried _, Or.inr rfl⟩
        | broken message => exact ⟨.level rfl hqueried, Or.inr rfl⟩

theorem writeOne_cut (hraises : ∀ ps, loud.raises ps = true) (element : ε) (p : String × String)
    (h : r.CutShort other loud r') :
    (writeOne host other element r p).CutShort other loud (writeOne host (some loud) element r' p) := by
  cases h with
  | cut hr hr' hnone hhalt =>
    exact .extend hr hr' hnone hhalt (writeOne_moves element r p).extends
      (writeOne_halted (by rw [hhalt]; rfl) element p)
  | level hsame hnone =>
    subst hsame
    unfold writeOne Run.unlessHalted
    cases r'.halt with
    | some halt => exact .level rfl hnone
    | none =>
      simp only [Option.isSome_none, Bool.false_eq_true, if_false]
      cases host.write r'.page element p.1 p.2 with
      | ok page => exact .level rfl ((Run.problems_note _ rfl).trans hnone)
      | error refusal => cases refusal with
        | rejected named cause => exact .report hraises hnone _
        | broken message => exact .level rfl hnone

theorem cutShort_kept (hraises : ∀ ps, loud.raises ps = true) (d : Declaration) :
    Keeps host other (some loud) (Run.CutShort other loud) d d where
  properties_eq := rfl
  ask h := ask_cut hraises d h
  write h element p _ := writeOne_cut hraises element p h

theorem run_cut (hraises : ∀ ps, loud.raises ps = true) (l : List Declaration) (page : δ) (reported : List Problem)
    (text : String) :
    (run host other l page reported text).CutShort other loud (run host (some loud) l page reported text) :=
  run_pairs (List.forall₂_same.mpr fun d _ => cutShort_kept hraises d) (.level rfl (problems_load host page reported text))

end Cascade

namespace Session

/-- Applying a list under a handler that raises, and under another one or none. What it
    asks of the host is the beginning of what the other asks. If the other has nothing to
    report, all is the same; else the first that it has to report is handed over, and
    nothing more, and the handler's raising ends the step. In either case the page is the
    loaded one with the logged writes done. -/
theorem raising_run_cuts_short (host : Host δ ε) (s : Session δ) (other : Option Handler) {loud : Handler}
    (hraises : ∀ ps, loud.raises ps = true) (l : List Declaration) (html : String) :
    let full := { s with handler := other }.apply host l html
    let cut := { s with handler := some loud }.apply host l html
    calls cut.events <+: calls full.events ∧
    (problems full.events = [] →
      cut.events = full.events ∧ cut.result = full.result ∧ cut.session.page = full.session.page) ∧
    (∀ p rest, problems full.events = p :: rest →
      problems cut.events = [p] ∧ handovers cut.events = [(loud, p)] ∧
        cut.result = .error (.handlerRaised loud.name)) ∧
    cut.session.page = host.replay (host.load s.page html) (writes (calls cut.events)) := by
  intro full cut
  have hcut : (Cascade.run host other l s.page s.reported html).CutShort other loud
      (Cascade.run host (some loud) l s.page s.reported html) := Cascade.run_cut hraises l s.page s.reported html
  refine ⟨hcut.calls_prefix, fun hnone => ?_, fun p rest hp => ?_, ?_⟩
  · have hsame := hcut.same hnone
    simp only [full, cut, apply, hsame, and_self]
  · obtain ⟨hone, hhalt⟩ := hcut.first hp
    have hrouted := Cascade.run_routed host (some loud) l s.page s.reported html
    refine ⟨hone, ?_, ?_⟩
    · exact (handovers_of_reports hrouted.reports_eq).trans (by rw [hone]; rfl)
    · simp only [cut, apply, Cascade.result, hhalt]
  · rw [writes_calls]
    exact Cascade.run_replays host (some loud) l s.page s.reported html

/-- A name that the host refuses, between two that it takes, cuts the run short there. -/
theorem raising_run_cuts_short_refused_name :
    let s : Session (List Host.Flat.Element) := ⟨.legacy, none, [⟨"a", .empty⟩, ⟨"b", .empty⟩], [], []⟩
    let l : List Declaration := [⟨⟨"*", .legacy, .number 0⟩, ⟨[("x", "1"), ("y z", "2"), ("y", "3")]⟩⟩]
    let loud : Handler := .raising "stop"
    let cut := { s with handler := some loud }.apply Host.flat l ""
    (∀ ps, loud.raises ps = true) ∧
    calls cut.events = [.loaded "", .queried "*", .wrote 0 "x" "1"] ∧
    calls cut.events <+: calls ({ s with handler := some (.recording "log") }.apply Host.flat l "").events ∧
    handovers cut.events = [(loud, .badAttribute "y z" none)] ∧ cut.result = .error (.handlerRaised "stop") ∧
    cut.session.page = [⟨"a", ⟨[("x", "1")]⟩⟩, ⟨"b", .empty⟩] := by
  intro s l loud cut
  have hraises : ∀ ps, loud.raises ps = true := fun _ => rfl
  obtain ⟨hcalls, -, hfirst, hpage⟩ := raising_run_cuts_short Host.flat s (some (.recording "log")) hraises l ""
  obtain ⟨-, hhanded, hresult⟩ := hfirst (.badAttribute "y z" none) [.badAttribute "y z" none] (by decide)
  exact ⟨hraises, rfl, hcalls, hhanded, hresult, hpage.trans (by decide)⟩

end Session

end AttributeSheet
