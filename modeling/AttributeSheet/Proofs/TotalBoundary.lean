/-
  AttributeSheet.Proofs.TotalBoundary — nothing but a raising handler or a broken host gets out.

  On a host that rejects what it cannot do and never breaks down (`Host.OnlyRejects`),
  and while the handler does not raise, a run never halts (`run_going`): no move of it
  does. A sheet that has any text is read without a report (`parse_text`), and a run
  reports rejections only (`problems_run`). So every step of a session gives an answer,
  and a missing sheet is the one thing reported as such (`compile_total`).
-/
import AttributeSheet.Host.Tree
import AttributeSheet.Session
import AttributeSheet.Proofs.SheetReading
import AttributeSheet.Proofs.ToldRuns

namespace AttributeSheet

variable {δ ε : Type} {host : Host δ ε} {handler : Option Handler}

/-- What the host cannot do it rejects; it never breaks down. -/
structure Host.OnlyRejects (host : Host δ ε) : Prop where
  query : ∀ page selector message, host.query page selector ≠ .error (.broken message)
  write : ∀ page element name value message, host.write page element name value ≠ .error (.broken message)

/-- The hosts of parsed pages are among them, whatever library they have. -/
theorem Host.parsed_onlyRejects {τ ν σ : Type} [DecidableEq ν] (lib : Markup.Library τ ν σ) :
    (parsed lib).OnlyRejects where
  query page selector message := by
    simp only [parsed, Parsed.query]
    split
    · simp
    · split <;> simp
  write page element name value message := by
    simp only [parsed, Parsed.write]
    split <;> simp

def Problem.isRejection : Problem → Bool
  | badSelector .. | badAttribute .. => true
  | general .. | emptySheet _ | badHandler _ => false

/-! ## Runs -/

namespace Cascade

variable {r r' : Run δ ε}

theorem Move.going (hhost : host.OnlyRejects) (hq : Quiet handler) (h : Move host handler r r') : r'.halt = none := by
  cases h with
  | queried selector hr => exact hr
  | matched selector count hr => exact hr
  | wrote hr hw => exact hr
  | badSelector _ _ => exact r.halt_report hq _
  | badAttribute _ _ => exact r.halt_report hq _
  | queryBroke hr hquery => exact absurd hquery (hhost.query _ _ _)
  | writeBroke hr hw => exact absurd hw (hhost.write _ _ _ _ _)

theorem run_going (hhost : host.OnlyRejects) (hq : Quiet handler) (l : List Declaration) (page : δ)
    (reported : List Problem) (text : String) : (run host handler l page reported text).halt = none := by
  refine run_keeps (P := fun r => r.halt = none) (fun _ _ h _ => h.going hhost hq) ?_
  rcases load_cases host page reported text with h | h <;> rw [h] <;> rfl

theorem problems_load (host : Host δ ε) (page : δ) (reported : List Problem) (text : String) :
    problems (load host page reported text).events = [] := by
  rcases load_cases host page reported text with h | h <;> rw [h] <;> rfl

theorem Move.rejections (h : Move host handler r r') (hr : ∀ p ∈ problems r.events, p.isRejection = true) :
    ∀ p ∈ problems r'.events, p.isRejection = true := by
  have hreport : ∀ p, p.isRejection = true → ∀ q ∈ problems (r.report handler p).events, q.isRejection = true := by
    intro p hp q hmem
    rw [Run.problems_report, List.mem_append, List.mem_singleton] at hmem
    rcases hmem with hmem | rfl
    · exact hr q hmem
    · exact hp
  cases h with
  | queried selector _ => rw [Run.problems_note r rfl]; exact hr
  | matched selector count _ => rw [Run.problems_note r rfl]; exact hr
  | wrote _ _ => rw [Run.problems_note _ rfl]; exact hr
  | badSelector _ _ => exact hreport _ rfl
  | badAttribute _ _ => exact hreport _ rfl
  | queryBroke _ _ => exact hr
  | writeBroke _ _ => exact hr

theorem problems_run (l : List Declaration) (page : δ) (reported : List Problem) (text : String) :
    ∀ p ∈ problems (run host handler l page reported text).events, p.isRejection = true :=
  run_keeps (P := fun r => ∀ p ∈ problems r.events, p.isRejection = true) (fun _ _ h hr => h.rejections hr)
    (by simp [problems_load host])

end Cascade

/-! ## Steps -/

namespace Session

variable {s : Session δ} {source : Option String}

theorem problems_readingEvents (text : String) : problems (readingEvents text : List (Event ε)) = [] := by
  simp [readingEvents, problems, Event.problem?]

theorem missing_or_text (source : Option String) :
    (source = none ∨ source = some "") ∨ ∃ text, source = some text ∧ text ≠ "" := by
  cases source with
  | none => exact Or.inl (Or.inl rfl)
  | some text => by_cases h : text = "" <;> simp [h]

theorem parse_missing (h : source = none ∨ source = some "") :
    (s.parse source : Outcome δ ε _) = s.report .noInput none := by
  rcases h with rfl | rfl <;> rfl

theorem parse_text {text : String} (h : text ≠ "") :
    ∃ l, (s.parse (some text) : Outcome δ ε _) = ⟨s, readingEvents text, .ok (some l)⟩ := by
  obtain ⟨l, hl, -⟩ := Sheet.parse_sorts s.mode h
  refine ⟨l, ?_⟩
  simp only [parse, hl, Option.getD_some]

theorem compile_missing (h : source = none ∨ source = some "") (html : String) :
    s.compile host source html = s.report .noInput html := by
  simp only [compile, parse_missing h, report]
  cases ((Run.start s.page s.reported : Run δ ε).report s.handler .noInput).halt <;> rfl

theorem compile_text (host : Host δ ε) {text : String} {l : List Declaration}
    (h : (s.parse (some text) : Outcome δ ε _) = ⟨s, readingEvents text, .ok (some l)⟩) (html : String) :
    s.compile host (some text) html =
      { s.apply host l html with events := readingEvents text ++ (s.apply host l html).events } := by
  simp only [compile, h]

/-- Reading a sheet reports that there is none, or reports nothing and gives a list. -/
theorem parse_cases (s : Session δ) (source : Option String) :
    (s.parse source : Outcome δ ε _) = s.report .noInput none ∨
      ∃ text l, (s.parse source : Outcome δ ε _) = ⟨s, readingEvents text, .ok (some l)⟩ := by
  rcases missing_or_text source with h | ⟨text, rfl, hne⟩
  · exact Or.inl (parse_missing h)
  · exact Or.inr ⟨text, parse_text hne⟩

/-- Compiling a sheet reports that there is none, or applies a list behind reading it. -/
theorem compile_cases (host : Host δ ε) (s : Session δ) (source : Option String) (html : String) :
    s.compile host source html = s.report .noInput html ∨
      ∃ text l, s.compile host source html =
        { s.apply host l html with events := readingEvents text ++ (s.apply host l html).events } := by
  rcases missing_or_text source with h | ⟨text, rfl, hne⟩
  · exact Or.inl (compile_missing h html)
  · obtain ⟨l, hl⟩ := parse_text (s := s) (ε := ε) hne
    exact Or.inr ⟨text, l, compile_text host hl html⟩

theorem report_quiet {α : Type} (hq : Quiet s.handler) (p : Problem) (x : α) :
    (s.report p x : Outcome δ ε α) =
      ⟨{ s with reported := s.reported ++ [p] }, reporting s.handler p, .ok x⟩ := by
  have hgoing : ((Run.start s.page s.reported : Run δ ε).report s.handler p).halt = none := Run.halt_report hq _ p
  simp only [report, hgoing]
  rfl

theorem apply_answers (hhost : host.OnlyRejects) (hq : Quiet s.handler) (l : List Declaration) (html : String) :
    (s.apply host l html).result =
      .ok (host.doctype html ++ host.print (Cascade.run host s.handler l s.page s.reported html).page) := by
  simp only [apply, Cascade.result, Cascade.run_going hhost hq]

theorem emptySheet_not_mem_apply (l : List Declaration) (html message : String) :
    .emptySheet message ∉ problems (s.apply host l html).events := by
  intro h
  have := Cascade.problems_run l s.page s.reported html _ h
  cases this

/-- On a host that only rejects, and while the handler does not raise, parsing, applying
    and compiling give an answer, whatever they are given. A missing sheet gives the
    page's text back as it is, is reported once as an empty one, and the host is not
    asked for anything. Any other is never reported as empty and read without a report,
    and compiling it is applying what it is read to: the page is that of the run over the
    page as it is loaded, and the answer is the doctype and that page. -/
theorem compile_total (hhost : host.OnlyRejects) (hq : Quiet s.handler) (source : Option String) (html : String) :
    ((∃ parsed, (s.parse source : Outcome δ ε _).result = .ok parsed) ∧
      (∀ l, ∃ shown, (s.apply host l html).result = .ok shown) ∧
      ∃ shown, (s.compile host source html).result = .ok shown) ∧
    (source = none ∨ source = some "" →
      s.compile host source html =
        ⟨{ s with reported := s.reported ++ [.noInput] }, reporting s.handler .noInput, .ok html⟩) ∧
    ∀ text, source = some text → text ≠ "" →
      (∀ message, .emptySheet message ∉ problems (s.compile host source html).events ∧
        ∀ l, .emptySheet message ∉ problems (s.apply host l html).events) ∧
      problems (s.parse source : Outcome δ ε _).events = [] ∧
      ∃ l, (s.parse source : Outcome δ ε _).result = .ok (some l) ∧
        (s.compile host source html).session = (s.apply host l html).session ∧
        (s.compile host source html).events =
          (s.parse source : Outcome δ ε _).events ++ (s.apply host l html).events ∧
        (s.compile host source html).result = (s.apply host l html).result ∧
        (s.compile host source html).session.page = (Cascade.run host s.handler l s.page s.reported html).page ∧
        (s.compile host source html).result =
          .ok (host.doctype html ++ host.print (Cascade.run host s.handler l s.page s.reported html).page) := by
  refine ⟨⟨?_, fun l => ⟨_, apply_answers hhost hq l html⟩, ?_⟩, ?_, ?_⟩
  · rcases parse_cases s source with h | ⟨text, l, h⟩
    · exact ⟨none, by rw [h, report_quiet hq]⟩
    · exact ⟨some l, by rw [h]⟩
  · rcases compile_cases host s source html with h | ⟨text, l, h⟩
    · exact ⟨html, by rw [h, report_quiet hq]⟩
    · exact ⟨_, by rw [h]; exact apply_answers hhost hq l html⟩
  · intro h
    exact (compile_missing h html).trans (report_quiet hq _ _)
  · rintro text rfl hne
    obtain ⟨l, hl⟩ := parse_text (s := s) (ε := ε) hne
    have hcompile := compile_text host hl html
    have hreading := problems_readingEvents (ε := ε) text
    rw [hcompile, hl]
    refine ⟨fun message => ⟨?_, fun l => emptySheet_not_mem_apply l html message⟩, hreading, l, rfl, rfl, rfl, rfl,
      rfl, ?_⟩
    · simpa [hreading] using emptySheet_not_mem_apply l html message
    · exact apply_answers hhost hq l html

/-- A parsed page, with a sheet that writes an attribute to it and with none. -/
theorem compile_total_paragraph :
    let s : Session (Markup.Page Markup.Element) := ⟨.tuple, some (.recording "log"), .empty Host.Tree.library, [], []⟩
    Host.tree.OnlyRejects ∧ Quiet s.handler ∧
    (s.compile Host.tree (some "p[ \x7b x: 1; \x7d p \x7b y: 2; \x7d") "<p></p>").result =
      .ok "<!doctype html><p y=\"2\"></p>" ∧
    (∃ l, (s.compile Host.tree (some "p[ \x7b x: 1; \x7d p \x7b y: 2; \x7d") "<p></p>").session.page =
      (Cascade.run Host.tree s.handler l s.page [] "<p></p>").page) ∧
    (s.compile Host.tree none "<p></p>").session.reported = [.noInput] ∧
    (s.compile Host.tree none "<p></p>").result = .ok "<p></p>" := by
  intro s
  have hhost : Host.tree.OnlyRejects := Host.parsed_onlyRejects Host.Tree.library
  have hq : Quiet s.handler := quiet_recording "log"
  obtain ⟨-, -, htext⟩ := compile_total hhost hq (some "p[ \x7b x: 1; \x7d p \x7b y: 2; \x7d") "<p></p>"
  obtain ⟨-, -, l, -, -, -, -, hpage, -⟩ := htext _ rfl (by decide)
  obtain ⟨-, hmissing, -⟩ := compile_total hhost hq none "<p></p>"
  have hnone := hmissing (Or.inl rfl)
  refine ⟨hhost, hq, by decide +kernel, ⟨l, hpage⟩, ?_, ?_⟩
  · rw [hnone]; rfl
  · rw [hnone]

end Session

end AttributeSheet
