/-
  AttributeSheet.Proofs.ErrorRouting — where the reports of a session go.

  What a step comes upon can be told before it is made (`Step.faults`): a value that is no
  handler, a missing sheet, the problem it is to report, or what the host rejects as a
  list is applied (`Host.rejections`). The handler is told of it problem by problem, and
  where it raises the rest is never come to (`heard`).

  So what a step reports is known (`Outcome.Routed`): each problem is one log line and
  then one delivery to the handler that was installed when the step began, if there was
  one, and a problem at which it raises is the last and ends the step. For runs inside a
  step this is kept by every move (`Run.Routed.of_move`), and each declaration takes its
  own rejections from those to come (`foretold_applyOne`). A step changes the handler only
  by offering one that can be called; over a whole session it follows that the handler is
  always the last one offered (`reports_routed`).
-/
import AttributeSheet.Host.Flat
import AttributeSheet.Proofs.TotalBoundary

namespace AttributeSheet

variable {δ ε α : Type} {host : Host δ ε} {handler : Option Handler}

/-! ## Log lines and deliveries -/

def Event.isReport : Event ε → Bool
  | logged _ | handed .. => true
  | skipped _ | parsed _ | loaded _ | vacant | queried _ | matched .. | wrote .. => false

def reports (events : List (Event ε)) : List (Event ε) := events.filter Event.isReport

@[simp] theorem reports_append (a b : List (Event ε)) : reports (a ++ b) = reports a ++ reports b :=
  List.filter_append ..

def Problem.logLine (p : Problem) : String := Record.line ⟨.error, "cas.compiler", p.line⟩

def handedTo (handler : Option Handler) (ps : List Problem) : List (Handler × Problem) :=
  match handler with
  | some h => ps.map fun p => (h, p)
  | none => []

theorem errorLines_eq (events : List (Event ε)) : errorLines events = (problems events).map Problem.logLine := by
  induction events with
  | nil => rfl
  | cons e events ih =>
    have hcons : errorLines (e :: events) = errorLines [e] ++ errorLines events := by
      simp only [errorLines, ← List.map_append, ← List.filter_append, ← List.filterMap_append]
      rfl
    have hproblems : problems (e :: events) = problems [e] ++ problems events := problems_append [e] events
    have hone : errorLines [e] = (problems [e]).map Problem.logLine := by cases e <;> rfl
    rw [hcons, hproblems, List.map_append, hone, ih]

theorem handovers_reports (events : List (Event ε)) : handovers (reports events) = handovers events := by
  rw [handovers, reports, List.filterMap_filter]
  exact List.filterMap_congr fun e _ => by cases e <;> rfl

theorem handovers_reporting (handler : Option Handler) (ps : List Problem) :
    handovers (ps.flatMap (reporting handler) : List (Event ε)) = handedTo handler ps := by
  induction ps with
  | nil => cases handler <;> rfl
  | cons p ps ih =>
    rw [List.flatMap_cons, handovers_append, ih]
    cases handler <;> rfl

/-- Problems that come to the log one by one, each handed over right behind its line, are
    handed over one by one. -/
theorem handovers_of_reports {events : List (Event ε)}
    (h : reports events = (problems events).flatMap (reporting handler)) :
    handovers events = handedTo handler (problems events) := by
  rw [← handovers_reports, h, handovers_reporting]

/-! ## What a handler is told -/

/-- Of the problems `ps` that come up, after `reported` has been reported, those that are
    reported too: all up to the first that the handler raises at. -/
def heard (handler : Option Handler) : List Problem → List Problem → List Problem
  | _, [] => []
  | reported, p :: ps =>
    p :: if handler.any (·.raises (reported ++ [p])) then [] else heard handler (reported ++ [p]) ps

@[simp] theorem heard_nil (handler : Option Handler) (reported : List Problem) : heard handler reported [] = [] := rfl

theorem heard_singleton (handler : Option Handler) (reported : List Problem) (p : Problem) :
    heard handler reported [p] = [p] := by
  simp [heard]

theorem eq_heard_of_raises {h : Handler} {reported ps told : List Problem} (hne : told ≠ [])
    (hbegins : told <+: heard (some h) reported ps) (hraises : h.raises (reported ++ told) = true) :
    told = heard (some h) reported ps := by
  induction ps generalizing reported told with
  | nil => exact absurd (List.prefix_nil.mp hbegins) hne
  | cons p ps ih =>
    obtain ⟨q, rest, rfl⟩ := List.exists_cons_of_ne_nil hne
    obtain ⟨rfl, hrest⟩ := List.cons_prefix_cons.mp hbegins
    rw [heard]
    cases hp : (some h).any (·.raises (reported ++ [q])) with
    | true =>
      rw [hp, if_pos rfl] at hrest
      rw [if_pos rfl, List.prefix_nil.mp hrest]
    | false =>
      rw [hp, if_neg Bool.false_ne_true] at hrest
      rw [if_neg Bool.false_ne_true]
      cases rest with
      | nil => simp [hraises] at hp
      | cons x rest => rw [ih (List.cons_ne_nil _ _) hrest (by simpa using hraises)]

theorem length_heard_le {h : Handler} (hraises : ∀ ps, h.raises ps = true) (reported ps : List Problem) :
    (heard (some h) reported ps).length ≤ 1 := by
  cases ps with
  | nil => exact Nat.zero_le 1
  | cons p ps => simp [heard, hraises]

/-! ## What a host rejects -/

namespace Host

variable (host : Host δ ε)

/-- What the host rejects of writes to a page, and then of what comes `next`, in the page
    that the writes leave. Nothing comes behind a breakdown. -/
def rejectedWrites (next : δ → List Problem) : List (ε × String × String) → δ → List Problem
  | [], page => next page
  | (element, name, value) :: ws, page =>
    match host.write page element name value with
    | .ok page => rejectedWrites next ws page
    | .error (.rejected named cause) => .badAttribute named cause :: rejectedWrites next ws page
    | .error (.broken _) => []

/-- What the host rejects as declarations are applied to a page: a selector, or else, for
    each element that it finds, names and values of the properties. -/
def rejections : List Declaration → δ → List Problem
  | [], _ => []
  | d :: l, page =>
    match host.query page d.selector.text with
    | .ok elements =>
      host.rejectedWrites (rejections l) (elements.flatMap fun e => d.properties.entries.map fun p => (e, p)) page
    | .error (.rejected named cause) => .badSelector named cause :: rejections l page
    | .error (.broken _) => []

theorem rejectedWrites_append (next : δ → List Problem) (a b : List (ε × String × String)) :
    host.rejectedWrites next (a ++ b) = host.rejectedWrites (host.rejectedWrites next b) a := by
  funext page
  induction a generalizing page with
  | nil => rfl
  | cons w a ih =>
    obtain ⟨element, name, value⟩ := w
    simp only [List.cons_append, rejectedWrites, ih]

end Host

/-! ## Runs -/

/-- What a run has reported and will have, if `next` tells what is rejected from now on. -/
def Run.foretold (handler : Option Handler) (next : δ → List Problem) (r : Run δ ε) : List Problem :=
  problems r.events ++ if r.halt.isSome then [] else heard handler r.reported (next r.page)

namespace Cascade

variable {r : Run δ ε} {next : δ → List Problem}

theorem foretold_report (r : Run δ ε) (p : Problem) :
    (r.report handler p).foretold handler next = problems r.events ++ heard handler r.reported (p :: next r.page) := by
  rw [Run.foretold, Run.problems_report, Run.isSome_halt_report, heard, List.append_assoc]
  rfl

theorem foretold_writeOne (element : ε) (r : Run δ ε) (p : String × String) :
    (writeOne host handler element r p).foretold handler next =
      r.foretold handler (host.rejectedWrites next [(element, p)]) := by
  cases hr : r.halt with
  | some halt => simp [writeOne, Run.unlessHalted, Run.foretold, hr]
  | none =>
    rw [writeOne, Run.unlessHalted, hr]
    simp only [Option.isSome_none, Bool.false_eq_true, if_false, Run.foretold, hr, Host.rejectedWrites]
    cases host.write r.page element p.1 p.2 with
    | ok page =>
      rw [Run.problems_note _ rfl]
      simp [Run.note]
    | error refusal => cases refusal with
      | rejected named cause => exact foretold_report r _
      | broken message => simp

theorem foretold_writeAll (properties : List (String × String)) (r : Run δ ε) (element : ε) :
    (writeAll host handler properties r element).foretold handler next =
      r.foretold handler (host.rejectedWrites next (properties.map fun p => (element, p))) := by
  unfold writeAll
  induction properties generalizing r with
  | nil => rfl
  | cons p properties ih =>
    rw [List.foldl_cons, ih, foretold_writeOne, ← Host.rejectedWrites_append]
    rfl

theorem foretold_foldl_writeAll (properties : List (String × String)) (elements : List ε) (r : Run δ ε) :
    (elements.foldl (writeAll host handler properties) r).foretold handler next =
      r.foretold handler (host.rejectedWrites next (elements.flatMap fun e => properties.map fun p => (e, p))) := by
  induction elements generalizing r with
  | nil => rfl
  | cons element elements ih =>
    rw [List.foldl_cons, ih, foretold_writeAll, ← Host.rejectedWrites_append, List.flatMap_cons]

/-- A declaration takes what is rejected of it from what is to come. -/
theorem foretold_applyOne (r : Run δ ε) (d : Declaration) (l : List Declaration) :
    (applyOne host handler r d).foretold handler (host.rejections l) =
      r.foretold handler (host.rejections (d :: l)) := by
  cases hr : r.halt with
  | some halt => simp [applyOne, ask, Run.foretold, hr]
  | none =>
    have hnoted : (r.note (.queried d.selector.text)).page = r.page := rfl
    have hqueried : problems (r.note (.queried d.selector.text)).events = problems r.events := Run.problems_note r rfl
    simp only [applyOne, ask, hr, Option.isSome_none, Bool.false_eq_true, if_false, hnoted]
    cases hq : host.query r.page d.selector.text with
    | ok elements =>
      rw [foretold_foldl_writeAll, Run.foretold, Run.foretold, Run.problems_note _ rfl, hqueried, Host.rejections, hq]
      rfl
    | error refusal => cases refusal with
      | rejected named cause =>
        rw [List.foldl_nil, foretold_report, hqueried, Run.foretold, hr, Host.rejections, hq]
        rfl
      | broken message =>
        rw [List.foldl_nil, Run.foretold, hqueried, Run.foretold, hr, Host.rejections, hq]
        rfl

theorem foretold_foldl_applyOne (l : List Declaration) (r : Run δ ε) :
    (l.foldl (applyOne host handler) r).foretold handler (host.rejections []) =
      r.foretold handler (host.rejections l) := by
  induction l generalizing r with
  | nil => rfl
  | cons d l ih => rw [List.foldl_cons, ih, foretold_applyOne]

/-- A run reports what is rejected, as far as the handler lets it. -/
theorem problems_run_eq (host : Host δ ε) (handler : Option Handler) (l : List Declaration) (page : δ)
    (reported : List Problem) (text : String) :
    problems (run host handler l page reported text).events =
      heard handler reported (host.rejections l (host.load page text)) := by
  have hend : ∀ r : Run δ ε, r.foretold handler (host.rejections []) = problems r.events := by
    intro r
    simp [Run.foretold, Host.rejections]
  have hload : (load host page reported text).foretold handler (host.rejections l) =
      heard handler reported (host.rejections l (host.load page text)) := by
    have hnone := problems_load host page reported text
    rw [Run.foretold, hnone]
    rcases load_cases host page reported text with h | h <;> rw [h] <;> rfl
  rw [← hend, run, foretold_foldl_applyOne, hload]

end Cascade

/-- Each problem of the run has come to the log and right then to the handler; what has been
    reported is what had been before and these; and where the handler has raised at the
    last of them, that has halted the run. -/
structure Run.Routed (handler : Option Handler) (before : List Problem) (r : Run δ ε) : Prop where
  reports_eq : reports r.events = (problems r.events).flatMap (reporting handler)
  reported_eq : r.reported = before ++ problems r.events
  raised : ∀ h ∈ handler, problems r.events ≠ [] → h.raises r.reported = true →
    r.halt = some (.handlerRaised h.name)

namespace Run.Routed

variable {r r' : Run δ ε} {before : List Problem}

theorem note (h : r.Routed handler before) {e : Event ε} (hp : e.problem? = none) (hr : e.isReport = false) :
    (r.note e).Routed handler before where
  reports_eq := by
    have hsame : reports (r.note e).events = reports r.events := by simp [Run.note, reports, hr]
    rw [hsame, Run.problems_note r hp, h.reports_eq]
  reported_eq := by rw [Run.problems_note r hp]; exact h.reported_eq
  raised := by rw [Run.problems_note r hp]; exact h.raised

theorem report (h : r.Routed handler before) (p : Problem) : (r.report handler p).Routed handler before where
  reports_eq := by
    have hnew : reports (reporting handler p : List (Event ε)) = reporting handler p := by cases handler <;> rfl
    have hevents : reports (r.report handler p).events = reports r.events ++ reports (reporting handler p) :=
      reports_append _ _
    rw [hevents, hnew, Run.problems_report, List.flatMap_append, h.reports_eq, List.flatMap_singleton]
  reported_eq := by
    have hreported : (r.report handler p).reported = r.reported ++ [p] := rfl
    rw [hreported, Run.problems_report, h.reported_eq, List.append_assoc]
  raised x hx _ hraises := by
    have hlast : x.raises (r.reported ++ [p]) = true := hraises
    rw [Option.mem_def.mp hx]
    simp [Run.report, hlast]

theorem broke (h : r.Routed handler before) (hr : r.halt = none) (message : String) :
    ({ r with halt := some (.hostBroke message) } : Run δ ε).Routed handler before where
  reports_eq := h.reports_eq
  reported_eq := h.reported_eq
  raised x hx hsome hraises := by
    have hhalted := h.raised x hx hsome hraises
    rw [hr] at hhalted
    cases hhalted

theorem of_move (h : r.Routed handler before) (hmove : Cascade.Move host handler r r') : r'.Routed handler before := by
  cases hmove with
  | queried selector hr => exact h.note rfl rfl
  | matched selector count hr => exact h.note rfl rfl
  | @wrote page element name value hr hw =>
    have hwritten : ({ r with page := page } : Run δ ε).Routed handler before := ⟨h.reports_eq, h.reported_eq, h.raised⟩
    exact hwritten.note rfl rfl
  | badSelector hr _ => exact h.report _
  | badAttribute hr _ => exact h.report _
  | queryBroke hr _ => exact h.broke hr _
  | writeBroke hr _ => exact h.broke hr _

end Run.Routed

theorem Run.routed_start (handler : Option Handler) (page : δ) (reported : List Problem) :
    (Run.start page reported : Run δ ε).Routed handler reported where
  reports_eq := rfl
  reported_eq := (List.append_nil reported).symm
  raised _ _ hsome := absurd rfl hsome

theorem Cascade.run_routed (host : Host δ ε) (handler : Option Handler) (l : List Declaration) (page : δ)
    (reported : List Problem) (text : String) : (run host handler l page reported text).Routed handler reported := by
  refine run_keeps (P := Run.Routed handler reported) (fun _ _ hmove h => h.of_move hmove) ?_
  have hloaded : ((Run.start (host.load page text) reported : Run δ ε).note (.loaded text)).Routed handler reported :=
    (Run.routed_start handler (host.load page text) reported).note rfl rfl
  rcases load_cases host page reported text with h | h
  · rw [h]; exact hloaded
  · rw [h]; exact hloaded.note rfl rfl

/-! ## Steps -/

/-- Of the problems that a step comes upon in the session `s`, it has reported those that
    are heard of: each is one line of the log and then one delivery to the handler of `s`,
    if there is one. One that the handler raises at is the last and ends the step; so one
    that raises at everything takes one problem at most. -/
structure Outcome.Routed (s : Session δ) (faults : List Problem) (o : Outcome δ ε α) : Prop where
  told : problems o.events = heard s.handler s.reported faults
  reports_eq : reports o.events = (problems o.events).flatMap (reporting s.handler)
  logged : errorLines o.events = (problems o.events).map Problem.logLine
  handed : handovers o.events = handedTo s.handler (problems o.events)
  reported_eq : o.session.reported = s.reported ++ problems o.events
  raised : ∀ h ∈ s.handler, ∀ told, told ≠ [] → told <+: problems o.events →
    h.raises (s.reported ++ told) = true → told = problems o.events ∧ o.result = .error (.handlerRaised h.name)
  alone : ∀ h ∈ s.handler, (∀ ps, h.raises ps = true) → (problems o.events).length ≤ 1

namespace Outcome.Routed

variable {β : Type} {s : Session δ} {faults : List Problem} {o : Outcome δ ε α}

/-- The step has reported as a run does, has kept what has been reported and ends as the
    run does. -/
theorem of_run {r : Run δ ε} (h : r.Routed s.handler s.reported)
    (htold : problems r.events = heard s.handler s.reported faults)
    (hproblems : problems o.events = problems r.events) (hreports : reports o.events = reports r.events)
    (hreported : o.session.reported = r.reported) (hresult : ∀ halt, r.halt = some halt → o.result = .error halt) :
    o.Routed s faults := by
  have hroute : reports o.events = (problems o.events).flatMap (reporting s.handler) := by
    rw [hreports, hproblems, h.reports_eq]
  have hheard : problems o.events = heard s.handler s.reported faults := hproblems.trans htold
  refine ⟨hheard, hroute, errorLines_eq _, handovers_of_reports hroute, ?_, ?_, ?_⟩
  · rw [hreported, hproblems, h.reported_eq]
  · intro x hx told hne hbegins hraises
    rw [hheard, Option.mem_def.mp hx] at hbegins
    have hall : told = problems o.events := by
      rw [hheard, Option.mem_def.mp hx]
      exact eq_heard_of_raises hne hbegins hraises
    refine ⟨hall, hresult _ (h.raised x hx ?_ ?_)⟩
    · rw [← hproblems, ← hall]; exact hne
    · rw [h.reported_eq, ← hproblems, ← hall]; exact hraises
  · intro x hx hraises
    rw [hheard, Option.mem_def.mp hx]
    exact length_heard_le hraises _ _

theorem of_silent (hp : problems o.events = []) (hr : reports o.events = [])
    (hreported : o.session.reported = s.reported) : o.Routed s [] :=
  of_run (r := Run.start s.page s.reported) (Run.routed_start s.handler s.page s.reported) rfl hp hr hreported nofun

theorem map (h : o.Routed s faults) (f : α → β) : (o.map f).Routed s faults where
  told := h.told
  reports_eq := h.reports_eq
  logged := h.logged
  handed := h.handed
  reported_eq := h.reported_eq
  raised x hx told hne hbegins hraises := by
    obtain ⟨hall, hresult⟩ := h.raised x hx told hne hbegins hraises
    exact ⟨hall, by rw [Outcome.map, hresult]; rfl⟩
  alone := h.alone

end Outcome.Routed

namespace Session

theorem report_routed (s : Session δ) (p : Problem) (x : α) : (s.report p x : Outcome δ ε α).Routed s [p] := by
  have hstart : (Run.start s.page s.reported : Run δ ε).Routed s.handler s.reported := Run.routed_start ..
  refine .of_run (hstart.report p) ?_ rfl rfl rfl fun halt hhalt => ?_
  · rw [Run.problems_report, heard_singleton]
    rfl
  · simp only [report, hhalt]

theorem reports_readingEvents (text : String) : reports (readingEvents text : List (Event ε)) = [] := by
  simp [readingEvents, reports, Event.isReport]

theorem handovers_readingEvents (text : String) : handovers (readingEvents text : List (Event ε)) = [] := by
  simp [readingEvents, handovers, Event.handover?]

theorem apply_routed (host : Host δ ε) (s : Session δ) (l : List Declaration) (html : String) :
    (s.apply host l html).Routed s (host.rejections l (host.load s.page html)) := by
  refine .of_run (Cascade.run_routed host s.handler l s.page s.reported html) (Cascade.problems_run_eq ..) rfl rfl rfl
    fun halt hhalt => ?_
  simp only [apply, Cascade.result, hhalt]

theorem reading_routed {s : Session δ} {faults : List Problem} {o : Outcome δ ε α} (h : o.Routed s faults)
    (text : String) : ({ o with events := readingEvents text ++ o.events } : Outcome δ ε α).Routed s faults := by
  have hproblems : problems (readingEvents text ++ o.events) = problems o.events := by
    rw [problems_append, problems_readingEvents, List.nil_append]
  have hreports : reports (readingEvents text ++ o.events) = reports o.events := by
    rw [reports_append, reports_readingEvents, List.nil_append]
  have hroute : reports (readingEvents text ++ o.events) =
      (problems (readingEvents text ++ o.events)).flatMap (reporting s.handler) := by
    rw [hreports, hproblems, h.reports_eq]
  refine ⟨hproblems.trans h.told, hroute, errorLines_eq _, handovers_of_reports hroute, ?_, ?_, ?_⟩
  · rw [hproblems]; exact h.reported_eq
  · rw [hproblems]; exact h.raised
  · rw [hproblems]; exact h.alone

end Session

/-! ## The installed handler -/

def Offer.handler? : Offer → Option Handler
  | .handler h => some h
  | .foreign _ => none

def Offer.faults : Offer → List Problem
  | .handler _ => []
  | .foreign value => [.badHandler value.kindName]

namespace Session

def Step.offered? : Step → Option Handler
  | .offer o => o.handler?
  | .parse _ | .sort _ | .apply .. | .compile .. | .report _ => none

def sheetFaults (source : Option String) : List Problem := if source.getD "" = "" then [.noInput] else []

/-- What a step comes upon in a session, if no handler stops it. -/
def Step.faults (host : Host δ ε) (s : Session δ) : Step → List Problem
  | .offer o => o.faults
  | .sort _ => []
  | .report p => [p]
  | .parse source => sheetFaults source
  | .compile source text =>
    sheetFaults source ++
      match Sheet.parse s.mode source with
      | .ok l => host.rejections l (host.load s.page text)
      | .error _ => []
  | .apply none text => host.rejections s.current (host.load s.page text)
  | .apply (some drafts) text =>
    match drafts.mapM (·.declaration?) with
    | .ok l => host.rejections l (host.load s.page text)
    | .error _ => []

/-- The last handler that was offered, as the session began or in one of the steps. -/
def lastOffered (given : Option Offer) (steps : List Step) : Option Handler :=
  ((given.bind Offer.handler?).toList ++ steps.filterMap Step.offered?).getLast?

theorem getLast?_append_toList {β : Type} (l : List β) (x : Option β) : (l ++ x.toList).getLast? = x.or l.getLast? := by
  cases x with
  | none => simp
  | some x => simp

theorem lastOffered_snoc (given : Option Offer) (steps : List Step) (a : Step) :
    lastOffered given (steps ++ [a]) = a.offered?.or (lastOffered given steps) := by
  have hone : [a].filterMap Step.offered? = a.offered?.toList := by
    cases h : a.offered? <;> simp [h]
  rw [lastOffered, List.filterMap_append, hone, ← List.append_assoc, getLast?_append_toList, lastOffered]

variable {s : Session δ}

/-- The step `a` has come to `o` from the session `s`: what it comes upon is routed, what
    it offers is installed if it can be called, and is else the one problem of the step. -/
structure Step.Routed (host : Host δ ε) (s : Session δ) (a : Step) (o : Outcome δ ε Answer) : Prop where
  problems_routed : o.Routed s (a.faults host s)
  installs : o.session.handler = a.offered?.or s.handler
  refuses : ∀ value, a = .offer (.foreign value) →
    problems o.events = [.badHandler value.kindName] ∧ o.session.handler = s.handler

theorem sheetFaults_missing {source : Option String} (h : source = none ∨ source = some "") :
    sheetFaults source = [.noInput] := by
  rcases h with rfl | rfl <;> rfl

theorem sheetFaults_text {text : String} (h : text ≠ "") : sheetFaults (some text) = [] := by
  simp [sheetFaults, h]

theorem handler_compile (host : Host δ ε) (s : Session δ) (source : Option String) (html : String) :
    (s.compile host source html).session.handler = s.handler := by
  rcases compile_cases host s source html with h | ⟨text, l, h⟩
  · rw [h]; rfl
  · rw [h]; rfl

theorem compile_routed (host : Host δ ε) (s : Session δ) (source : Option String) (html : String) :
    (s.compile host source html).Routed s (Step.faults host s (.compile source html)) := by
  rcases missing_or_text source with h | ⟨text, rfl, hne⟩
  · have hparse : Sheet.parse s.mode source = .error (.problem .noInput) := by
      rcases h with rfl | rfl <;> rfl
    rw [compile_missing h]
    simp only [Step.faults, hparse, sheetFaults_missing h, List.append_nil]
    exact report_routed s .noInput html
  · obtain ⟨l, hl, -⟩ := Sheet.parse_sorts s.mode hne
    have hread : (s.parse (some text) : Outcome δ ε _) = ⟨s, readingEvents text, .ok (some l)⟩ := by
      simp only [parse, hl, Option.getD_some]
    rw [compile_text host hread]
    simp only [Step.faults, sheetFaults_text hne, hl, List.nil_append]
    exact reading_routed (apply_routed host s l html) text

theorem takeUp_report (s : Session δ) (p : Problem) :
    takeUp (s.report p none : Outcome δ ε _) = s.report p .nothing := by
  unfold takeUp report
  dsimp only
  cases ((Run.start s.page s.reported : Run δ ε).report s.handler p).halt with
  | none => rfl
  | some halt => rfl

theorem step_parse_routed (host : Host δ ε) (s : Session δ) (source : Option String) :
    Step.Routed host s (.parse source) (s.step host (.parse source)) := by
  rcases missing_or_text source with h | ⟨text, rfl, hne⟩
  · have hstep : s.step host (.parse source) = s.report .noInput .nothing := by
      rw [step, parse_missing h, takeUp_report]
    have hfaults : Step.faults host s (.parse source) = [.noInput] := sheetFaults_missing h
    exact ⟨by rw [hstep, hfaults]; exact report_routed s _ _, by rw [hstep]; rfl, nofun⟩
  · obtain ⟨l, hread⟩ := parse_text (s := s) (ε := ε) hne
    have hstep : s.step host (.parse (some text)) =
        ⟨{ s with current := l }, readingEvents text, .ok (.declarations l)⟩ := by
      rw [step, hread]
      rfl
    have hfaults : Step.faults host s (.parse (some text)) = [] := sheetFaults_text hne
    refine ⟨?_, by rw [hstep]; rfl, nofun⟩
    rw [hstep, hfaults]
    exact .of_silent (problems_readingEvents text) (reports_readingEvents text) rfl

/-- Every step routes its problems, by the handler that is installed as it begins. -/
theorem step_routed (host : Host δ ε) (s : Session δ) (a : Step) : a.Routed host s (s.step host a) := by
  cases a with
  | offer o => cases o with
    | handler h =>
      have hsilent : ({ s with handler := some h }.answer () : Outcome δ ε Unit).Routed s [] := .of_silent rfl rfl rfl
      exact ⟨hsilent.map _, rfl, nofun⟩
    | foreign value =>
      have hrouted : (s.report (.badHandler value.kindName) () : Outcome δ ε Unit).Routed s [.badHandler value.kindName] :=
        report_routed s _ ()
      refine ⟨hrouted.map _, rfl, ?_⟩
      rintro _ ⟨⟩
      exact ⟨hrouted.told.trans (heard_singleton ..), rfl⟩
  | report p => exact ⟨report_routed s p _, rfl, nofun⟩
  | compile source text => exact ⟨(compile_routed host s source text).map _, handler_compile host s source text, nofun⟩
  | apply drafts text => cases drafts with
    | none => exact ⟨(apply_routed host s s.current text).map _, rfl, nofun⟩
    | some drafts =>
      cases hdrafts : drafts.mapM (·.declaration?) with
      | ok l =>
        refine ⟨?_, by simp only [step, hdrafts]; rfl, nofun⟩
        simp only [step, Step.faults, hdrafts]
        exact (apply_routed host s l text).map _
      | error m =>
        refine ⟨?_, by simp only [step, hdrafts]; rfl, nofun⟩
        simp only [step, Step.faults, hdrafts]
        exact .of_silent rfl rfl rfl
  | sort turned =>
    simp only [step]
    cases Declaration.sort? turned s.current with
    | ok sorted => exact ⟨.of_silent rfl rfl rfl, rfl, nofun⟩
    | error m => exact ⟨.of_silent rfl rfl rfl, rfl, nofun⟩
  | parse source => exact step_parse_routed host s source

/-! ## Whole sessions -/

def after (host : Host δ ε) (s : Session δ) (steps : List Step) : Session δ :=
  steps.foldl (fun s a => (s.step host a).session) s

theorem length_run (host : Host δ ε) (s : Session δ) (steps : List Step) :
    (s.run host steps).length = steps.length := by
  induction steps generalizing s with
  | nil => rfl
  | cons a rest ih => simp [run, ih]

theorem getElem?_run (host : Host δ ε) (s : Session δ) (steps : List Step) (i : Nat) :
    (s.run host steps)[i]? = steps[i]?.map fun a => (s.after host (steps.take i)).step host a := by
  induction steps generalizing s i with
  | nil => simp [run]
  | cons a rest ih =>
    cases i with
    | zero => rfl
    | succ i => exact ih (s.step host a).session i

theorem handler_after (host : Host δ ε) (given : Option Offer) (h : s.handler = lastOffered given [])
    (steps : List Step) : (s.after host steps).handler = lastOffered given steps := by
  induction steps using List.reverseRecOn with
  | nil => exact h
  | append_singleton steps a ih =>
    have hsnoc : s.after host (steps ++ [a]) = ((s.after host steps).step host a).session := List.foldl_append
    rw [hsnoc, (step_routed host (s.after host steps) a).installs, ih, lastOffered_snoc]

/-- What is wrong with what a session is begun with; nothing is if nothing is given. -/
def givenFaults : Option Offer → List Problem
  | none | some (.foreign .null) => []
  | some o => o.faults

/-- As a session begins there is no handler yet: a value that cannot be called is logged,
    and handed to nobody. -/
theorem start_routed (mode : Mode) (page : δ) (given : Option Offer) :
    (start mode page given : Outcome δ ε Unit).Routed ⟨mode, none, page, [], []⟩ (givenFaults given) ∧
    (start mode page given : Outcome δ ε Unit).session.handler = lastOffered given [] := by
  cases given with
  | none => exact ⟨.of_silent rfl rfl rfl, rfl⟩
  | some offered => cases offered with
    | handler h => exact ⟨.of_silent rfl rfl rfl, rfl⟩
    | foreign value =>
      cases value with
      | null => exact ⟨.of_silent rfl rfl rfl, rfl⟩
      | _ => exact ⟨report_routed (⟨mode, none, page, [], []⟩ : Session δ) _ (), rfl⟩

/-- Whatever a session is begun with, and in any run of steps: as every step begins, the
    installed handler is the last one that was offered and can be called. What the step
    comes upon is reported up to the first problem that this handler raises at, which ends
    the step: each problem is one error line, in order, and is handed once to that handler
    and to no other, if there is one. What cannot be called is reported to it, and it
    stays. -/
theorem reports_routed (host : Host δ ε) (mode : Mode) (page : δ) (given : Option Offer) (steps : List Step) :
    let begun : Outcome δ ε Unit := start mode page given
    (begun.Routed ⟨mode, none, page, [], []⟩ (givenFaults given) ∧ begun.session.handler = lastOffered given []) ∧
    (begun.session.run host steps).length = steps.length ∧
    ∀ i a o, steps[i]? = some a → (begun.session.run host steps)[i]? = some o →
      let before := begun.session.after host (steps.take i)
      a.Routed host before o ∧ before.handler = lastOffered given (steps.take i) ∧
      o.session.handler = lastOffered given (steps.take (i + 1)) ∧
      o.session = begun.session.after host (steps.take (i + 1)) := by
  intro begun
  have hbegun := start_routed (ε := ε) mode page given
  refine ⟨hbegun, length_run host _ steps, fun i a o ha ho => ?_⟩
  have hnext : steps.take (i + 1) = steps.take i ++ [a] := by
    rw [List.take_add_one, ha]
    rfl
  have hafter : begun.session.after host (steps.take (i + 1)) =
      ((begun.session.after host (steps.take i)).step host a).session := by
    rw [hnext]
    exact List.foldl_append
  rw [getElem?_run, ha] at ho
  cases ho
  refine ⟨step_routed host _ a, handler_after host given hbegun.2 _, ?_, hafter.symm⟩
  rw [← hafter]
  exact handler_after host given hbegun.2 _

/-- A handler that raises from the third report on takes one that it does not raise at, the
    report of a missing sheet and then that of a value that is not to take its place. -/
theorem reports_routed_raising :
    let h : Handler := ⟨"stop", fun reported => decide (3 ≤ reported.length)⟩
    let p : Problem := .general "odd" none
    let steps : List Step := [.offer (.handler h), .report p, .compile none "<p>", .offer (.foreign .integer)]
    let begun : Outcome (List Host.Flat.Element) Nat Unit := start .legacy [] (some (.foreign (.text "log")))
    problems begun.events = [.badHandler "str"] ∧ handovers begun.events = [] ∧
    ∃ installed told missing refused, begun.session.run Host.flat steps = [installed, told, missing, refused] ∧
      installed.session.handler = some h ∧ reports installed.events = [] ∧
      reports told.events = [.logged p, .handed h p] ∧
      reports missing.events = [.logged .noInput, .handed h .noInput] ∧
      missing.result = .error (.handlerRaised "stop") ∧
      reports refused.events = [.logged (.badHandler "int"), .handed h (.badHandler "int")] ∧
      refused.result = .error (.handlerRaised "stop") ∧ refused.session.handler = some h := by
  intro h p steps begun
  obtain ⟨⟨hrouted, -⟩, -, hsteps⟩ := reports_routed Host.flat .legacy [] (some (.foreign (.text "log"))) steps
  have hproblem : problems begun.events = [.badHandler "str"] := hrouted.told
  refine ⟨hproblem, by rw [hrouted.handed]; rfl, _, _, _, _, rfl, ?_⟩
  obtain ⟨hinstalled, -, -, -⟩ := hsteps 0 (.offer (.handler h)) _ rfl rfl
  obtain ⟨htold, -, -, -⟩ := hsteps 1 (.report p) _ rfl rfl
  obtain ⟨hmissing, hhandler, -, -⟩ := hsteps 2 (.compile none "<p>") _ rfl rfl
  obtain ⟨hrefused, hhandler', -, -⟩ := hsteps 3 (.offer (.foreign .integer)) _ rfl rfl
  refine ⟨hinstalled.installs, ?_, ?_, ?_, ?_, ?_, ?_, (hrefused.refuses .integer rfl).2.trans hhandler'⟩
  · rw [hinstalled.problems_routed.reports_eq, hinstalled.problems_routed.told]; rfl
  · rw [htold.problems_routed.reports_eq, htold.problems_routed.told]; rfl
  · rw [hmissing.problems_routed.reports_eq, hmissing.problems_routed.told]; rfl
  · exact (hmissing.problems_routed.raised h hhandler [.noInput] (List.cons_ne_nil _ _)
      (hmissing.problems_routed.told ▸ List.prefix_refl _) rfl).2
  · rw [hrefused.problems_routed.reports_eq, hrefused.problems_routed.told]; rfl
  · exact (hrefused.problems_routed.raised h hhandler' [.badHandler "int"] (List.cons_ne_nil _ _)
      (hrefused.problems_routed.told ▸ List.prefix_refl _) rfl).2

end Session

end AttributeSheet
