/-
  AttributeSheet.Proofs.TurnedListing — the turned listing of a sheet is the listing read backwards.

  A sheet is parsed to a list in cascade order, and the turned listing sorts that list once
  more, turned. Sorting keeps what is in order as it is, so all that the second sort does is
  turn the whole list round, declarations of one specificity too (`sort?_turned_parsed`).

  Of two calls that differ in nothing but the turned order (`Turns`), every check says the
  same (`Turns.askedFor_eq`, `Turns.checkCall_eq`), and the sheet is read in the same mode.
  So the calls end alike and write the same, but for the order of the entries
  (`listing_turned`).
-/
import AttributeSheet.CommandLine.Run
import AttributeSheet.Proofs.ShelfSorting
import AttributeSheet.Proofs.TotalBoundary

namespace AttributeSheet

/-! ## Sorting a second time -/

/-- A parsed list that is sorted turned is turned round as a whole. -/
theorem Sheet.sort?_turned_parsed {mode : Mode} {text : String} (h : text ≠ "") {l : List Declaration}
    (hl : parse mode (some text) = .ok l) : Declaration.sort? true l = .ok l.reverse := by
  obtain ⟨l', hl', hsorted⟩ := parse_sorts mode h
  obtain rfl := Except.ok.inj (hl'.symm.trans hl)
  have hkinds : ∀ d ∈ l', d.selector.specificity.isNumber = (mode == .legacy) := by
    intro d hd
    exact isNumber_inSourceOrder (hsorted.mem_iff.mp hd)
  obtain ⟨again, hagain, hsort⟩ := sortBySpecificity?_of_oneKind hkinds true
  rw [hsorted.eq_self hagain] at hsort
  exact hsort

namespace CommandLine

/-! ## Calls that differ in the order -/

/-- `turned` asks for the turned order, `straight` does not, and nothing else differs. -/
structure Turns (straight turned : Call) : Prop where
  arguments : turned.arguments = straight.arguments
  settings : turned.settings.filter (·.name ≠ .reverse) = straight.settings
  asks : turned.has .reverse = true

theorem eraseDups_filter {α : Type} [BEq α] [LawfulBEq α] (p : α → Bool) :
    ∀ l : List α, (l.filter p).eraseDups = l.eraseDups.filter p
  | [] => rfl
  | x :: l => by
    have ih := eraseDups_filter p (l.filter fun y => !y == x)
    have hswap : (l.filter p).filter (fun y => !y == x) = (l.filter fun y => !y == x).filter p := by
      rw [List.filter_filter, List.filter_filter]
      exact List.filter_congr fun y _ => Bool.and_comm _ _
    by_cases hx : p x = true
    · rw [List.filter_cons_of_pos hx, List.eraseDups_cons, hswap, ih, List.eraseDups_cons, List.filter_cons_of_pos hx]
    · have hkept : l.filter p = (l.filter fun y => !y == x).filter p := by
        rw [List.filter_filter]
        refine List.filter_congr fun y _ => ?_
        by_cases hy : y = x
        · subst hy
          simp [hx]
        · simp [hy]
      rw [List.filter_cons_of_neg hx, hkept, ih, List.eraseDups_cons, List.filter_cons_of_neg hx]
  termination_by l => l.length
  decreasing_by
    have := List.length_filter_le (fun y => !y == x) l
    simp only [List.length_cons]
    omega

namespace Turns

variable {straight turned : Call}

theorem not_asks (h : Turns straight turned) : straight.has .reverse = false := by
  unfold Call.has
  rw [← h.settings, List.any_filter]
  simp

theorem value?_eq (h : Turns straight turned) {name : Name} (hname : name ≠ .reverse) :
    turned.value? name = straight.value? name := by
  have hsame : ∀ s : Setting, (s.name ≠ .reverse ∧ s.name = name) ↔ s.name = name := by
    intro s
    exact ⟨And.right, fun hs => ⟨hs ▸ hname, hs⟩⟩
  unfold Call.value?
  rw [← h.settings, ← List.filter_reverse, List.find?_filter]
  simp only [decide_eq_true_eq, hsame]

theorem names_eq (h : Turns straight turned) : straight.names = turned.names.filter (· ≠ .reverse) := by
  unfold Call.names
  rw [← h.settings, ← eraseDups_filter, List.filter_map]
  rfl

/-- Neither call asks for anything but the listing, or both do. -/
theorem askedFor_eq (h : Turns straight turned) (reader : Reader) (c : Command) :
    askedFor reader c turned = askedFor reader c straight := by
  unfold askedFor
  rw [h.names_eq]
  induction turned.names with
  | nil => rfl
  | cons name names ih => cases name <;> simp_all

theorem checkOption_eq (h : Turns straight turned) (f : Folder) (name : Name) :
    checkOption f turned name = checkOption f straight name := by
  have houtput : turned.value? .output = straight.value? .output := h.value?_eq (by decide)
  have hmode : turned.value? .specificity = straight.value? .specificity := h.value?_eq (by decide)
  cases name with
  | output => simp only [checkOption, houtput]
  | specificity => simp only [checkOption, hmode]
  | _ => rfl

theorem checkOptions_eq (h : Turns straight turned) (f : Folder) :
    turned.names.forM (checkOption f turned) = straight.names.forM (checkOption f straight) := by
  have hcheck : checkOption f turned = checkOption f straight := funext (h.checkOption_eq f)
  rw [h.names_eq, hcheck]
  induction turned.names with
  | nil => rfl
  | cons name names ih =>
    by_cases hname : name = .reverse
    · subst hname
      rw [List.filter_cons_of_neg (by decide)]
      exact ih
    · rw [List.filter_cons_of_pos (by simpa using hname)]
      simp only [List.forM, ih]

theorem checkCall_eq (h : Turns straight turned) (f : Folder) (names : List String) :
    checkCall f names turned = checkCall f names straight := by
  unfold checkCall
  rw [h.checkOptions_eq f, h.arguments]

theorem mode_eq (h : Turns straight turned) : mode turned = mode straight := by
  unfold mode
  rw [h.value?_eq (by decide)]

end Turns

/-! ## What is listed -/

def remarks (verbose : Bool) (call : Call) (sheet : String) : String :=
  let o : Outcome _ Unit _ := (session () call).parse (some sheet)
  eventText verbose o.events

theorem inspectSheet_empty (verbose : Bool) (call : Call) :
    inspectSheet verbose call "" = ⟨1, none, "", remarks verbose call "", []⟩ := by
  have hquiet : Quiet (session () call).handler := quiet_recording "errors"
  have hparse : ((session () call).parse (some "") : Outcome _ Unit _).result = .ok none := by
    rw [Session.parse_missing (Or.inr rfl), Session.report_quiet hquiet]
  unfold inspectSheet remarks
  simp only [hparse]
  rfl

/-- A sheet with text is listed in the order that the call asks for. -/
theorem inspectSheet_text (verbose : Bool) (call : Call) {text : String} (h : text ≠ "") {l : List Declaration}
    (hl : Sheet.parse (mode call) (some text) = .ok l) :
    inspectSheet verbose call text =
      ⟨0, none, listing (if call.has .reverse then l.reverse else l), remarks verbose call text, []⟩ := by
  have hmode : (session () call).mode = mode call := rfl
  have hparse : ((session () call).parse (some text) : Outcome _ Unit _).result = .ok (some l) := by
    simp only [Session.parse, hmode, hl]
  unfold inspectSheet remarks
  cases hasks : call.has .reverse with
  | false =>
    simp only [hparse]
    rfl
  | true =>
    simp only [hparse, bind, Except.bind, Sheet.sort?_turned_parsed h hl]
    rfl

theorem Turns.remarks_eq {straight turned : Call} (h : Turns straight turned) (verbose : Bool) (sheet : String) :
    remarks verbose turned sheet = remarks verbose straight sheet := by
  unfold remarks session
  rw [h.mode_eq]

/-! ## Whole runs -/

/-- The call is one for a listing, and it is right; `text` is the text of its sheet. -/
structure Reads (reader : Reader) (f : Folder) (call : Call) (text : String) : Prop where
  asked : askedFor reader .inspect call = none
  checked : checkCall f (argumentNames .inspect) call = .ok ()
  sheet : call.arguments.mapM f.text? = .ok [text]

theorem one_sheet {f : Folder} {call : Call} (h : checkCall f (argumentNames .inspect) call = .ok ()) :
    ∃ path, call.arguments = [path] := by
  have harguments : checkArguments f ["SHEET"] call.arguments = .ok () := by
    unfold checkCall at h
    cases hoptions : call.names.forM (checkOption f call) with
    | error b =>
      rw [hoptions] at h
      cases h
    | ok _ =>
      rw [hoptions] at h
      exact h
  match hpaths : call.arguments with
  | [] =>
    rw [hpaths] at harguments
    cases harguments
  | [path] => exact ⟨path, rfl⟩
  | path :: surplus :: r =>
    rw [hpaths] at harguments
    cases hfile : checkFile f (Text.quote "SHEET") path with
    | error b => simp [checkArguments, hfile, bind, Except.bind] at harguments
    | ok _ => simp [checkArguments, hfile, bind, Except.bind] at harguments

def details (verbose : Bool) : List String := if verbose then ["-v"] else []

/-- The reader takes `-v` before the command for the option that asks for details, and
    leaves all that stands behind the command to be read for that command. -/
def Reader.PartsInspect (reader : Reader) : Prop :=
  ∀ verbose arguments, reader.read .program (details verbose ++ "inspect" :: arguments) =
    .ok ⟨if verbose then [⟨.verbose, none⟩] else [], "inspect" :: arguments⟩

theorem reader_partsInspect : reader.PartsInspect := by
  intro verbose arguments
  cases verbose with
  | false => rfl
  | true => rfl

section Runs

variable {τ ν σ : Type} [DecidableEq ν] {reader : Reader} {f : Folder} {call straight turned : Call}
  {arguments turnedArguments : List String}

theorem Turns.reads (h : Turns straight turned) {text : String} (hreads : Reads reader f straight text) :
    Reads reader f turned text where
  asked := by rw [h.askedFor_eq, hreads.asked]
  checked := by rw [h.checkCall_eq, hreads.checked]
  sheet := by rw [h.arguments, hreads.sheet]

theorem runCommand_of_reads (lib : Markup.Library τ ν σ) (verbose : Bool) (hcall : reader.read .inspect arguments = .ok call)
    {text : String} (h : Reads reader f call text) :
    runCommand reader lib f verbose .inspect arguments = inspectSheet verbose call text := by
  unfold runCommand inspect
  simp only [hcall, h.asked, h.checked, h.sheet]

/-- A call that lists nothing fails alike in either order. -/
theorem Turns.runCommand_eq (h : Turns straight turned) (lib : Markup.Library τ ν σ) (verbose : Bool)
    (hstraight : reader.read .inspect arguments = .ok straight)
    (hturned : reader.read .inspect turnedArguments = .ok turned) (hno : ∀ text, ¬ Reads reader f straight text) :
    runCommand reader lib f verbose .inspect turnedArguments = runCommand reader lib f verbose .inspect arguments := by
  unfold runCommand inspect
  simp only [hstraight, hturned, h.askedFor_eq, h.checkCall_eq, h.arguments]
  cases hasked : askedFor reader .inspect straight with
  | some r => rfl
  | none =>
    cases hchecked : checkCall f (argumentNames .inspect) straight with
    | error b => rfl
    | ok _ =>
      obtain ⟨path, hpath⟩ := one_sheet hchecked
      cases htext : f.text? path with
      | error failure => simp only [hpath, List.mapM_cons, htext]; rfl
      | ok text =>
        refine absurd ⟨hasked, hchecked, ?_⟩ (hno text)
        simp only [hpath, List.mapM_cons, List.mapM_nil, htext]
        rfl

theorem run_inspect (hreader : reader.PartsInspect) (lib : Markup.Library τ ν σ) (f : Folder) (verbose : Bool)
    (arguments : List String) :
    run reader lib f (details verbose ++ "inspect" :: arguments) =
      runCommand reader lib f verbose .inspect arguments := by
  unfold run
  rw [hreader verbose arguments]
  cases verbose with
  | false => rfl
  | true => rfl

/-- `--reverse` before the other arguments asks for the turned order. -/
theorem turns_front {call : Call} (hcall : CommandLine.reader.read .inspect arguments = .ok call)
    (hstraight : call.has .reverse = false) :
    ∃ turned, CommandLine.reader.read .inspect ("--reverse" :: arguments) = .ok turned ∧ Turns call turned := by
  have hread : CommandLine.reader.read .inspect ("--reverse" :: arguments) =
      (CommandLine.reader.read .inspect arguments).map (Call.settingThen [⟨.reverse, none⟩]) := rfl
  refine ⟨call.settingThen [⟨.reverse, none⟩], ?_, rfl, ?_, rfl⟩
  · rw [hread, hcall]
    rfl
  · have hkept : ∀ s ∈ call.settings, decide (s.name ≠ .reverse) = true := by
      intro s hs
      simpa using List.any_eq_false.mp hstraight s hs
    exact List.filter_eq_self.mpr hkept

def countLine (n : Nat) : String := "Declarations: " ++ toString n ++ "\n"

/-- Two calls that are read alike but for the turned order end alike and write the same to
    the error channel. A sheet with text is listed by both: the count is the same, and the
    entries of the turned listing are those of the other one, the last one first. -/
theorem listing_turned (hreader : reader.PartsInspect) (lib : Markup.Library τ ν σ) (f : Folder) (verbose : Bool)
    (hstraight : reader.read .inspect arguments = .ok straight)
    (hturned : reader.read .inspect turnedArguments = .ok turned) (h : Turns straight turned) :
    let a := run reader lib f (details verbose ++ "inspect" :: arguments)
    let b := run reader lib f (details verbose ++ "inspect" :: turnedArguments)
    (b.exitCode = a.exitCode ∧ b.failure = a.failure ∧ b.err = a.err ∧ b.written = a.written) ∧
      ((∀ text, ¬ Reads reader f straight text) → b = a) ∧
      ∀ text, Reads reader f straight text →
        (text = "" → a.exitCode = 1 ∧ a.out = "" ∧ b.out = "") ∧
        (text ≠ "" → a.exitCode = 0 ∧ ∃ l, Sheet.parse (mode straight) (some text) = .ok l ∧
          a.out = countLine l.length ++ String.join (l.map listedLine) ∧
          b.out = countLine l.length ++ String.join (l.map listedLine).reverse) := by
  simp only [run_inspect hreader]
  by_cases hreads : ∃ text, Reads reader f straight text
  · obtain ⟨text, hreads⟩ := hreads
    have hone : ∀ text', Reads reader f straight text' → text' = text := by
      intro text' h'
      have hsame := h'.sheet.symm.trans hreads.sheet
      simpa using hsame
    rw [runCommand_of_reads lib verbose hstraight hreads, runCommand_of_reads lib verbose hturned (h.reads hreads)]
    by_cases hempty : text = ""
    · subst hempty
      rw [inspectSheet_empty, inspectSheet_empty, h.remarks_eq]
      refine ⟨⟨rfl, rfl, rfl, rfl⟩, fun _ => rfl, fun text' h' => ?_⟩
      exact ⟨fun _ => ⟨rfl, rfl, rfl⟩, fun hne => absurd (hone text' h') hne⟩
    · obtain ⟨l, hl, -⟩ := Sheet.parse_sorts (mode straight) hempty
      have hl' : Sheet.parse (mode turned) (some text) = .ok l := h.mode_eq ▸ hl
      have hreverse : listing l.reverse = countLine l.length ++ String.join (l.map listedLine).reverse := by
        unfold listing countLine
        rw [List.length_reverse, List.map_reverse]
      rw [inspectSheet_text verbose straight hempty hl, inspectSheet_text verbose turned hempty hl', h.remarks_eq,
        h.not_asks, h.asks]
      refine ⟨⟨rfl, rfl, rfl, rfl⟩, fun hno => absurd hreads (hno text), fun text' h' => ?_⟩
      obtain rfl := hone text' h'
      exact ⟨fun he => absurd he hempty, fun _ => ⟨rfl, l, hl, rfl, hreverse⟩⟩
  · have hno : ∀ text, ¬ Reads reader f straight text := fun text ht => hreads ⟨text, ht⟩
    have hsame := h.runCommand_eq lib verbose hstraight hturned hno
    exact ⟨by simp only [hsame, and_self], fun _ => hsame, fun text ht => absurd ht (hno text)⟩

end Runs

/-- Two declarations of one specificity are turned round too. -/
theorem listing_turned_tie :
    let sheet := "p \x7b a: 1 \x7d q \x7b b: 2 \x7d r s \x7b c: 3 \x7d"
    let f := Folder.ofEntries [("s.cas", sheet.toUTF8)] []
    let straight : Call := ⟨[], ["s.cas"]⟩
    reader.read .inspect ["s.cas"] = .ok straight ∧
      (∃ turned, reader.read .inspect ["--reverse", "s.cas"] = .ok turned ∧ Turns straight turned) ∧
      Reads reader f straight sheet ∧ reader.PartsInspect ∧
      (run reader Host.Tree.library f ["inspect", "s.cas"]).out =
        "Declarations: 3\n  [1]  p \x7b a: 1; \x7d\n  [1]  q \x7b b: 2; \x7d\n  [2]  r s \x7b c: 3; \x7d\n" ∧
      (run reader Host.Tree.library f ["inspect", "--reverse", "s.cas"]).out =
        "Declarations: 3\n  [2]  r s \x7b c: 3; \x7d\n  [1]  q \x7b b: 2; \x7d\n  [1]  p \x7b a: 1; \x7d\n" := by
  intro sheet f straight
  have hreads : Reads reader f straight sheet := ⟨rfl, by decide +kernel, by decide +kernel⟩
  have hcall : reader.read .inspect ["s.cas"] = .ok straight := rfl
  obtain ⟨turned, hcall', hturns⟩ := turns_front hcall rfl
  have htext : sheet ≠ "" := by decide
  obtain ⟨-, -, hlisted⟩ := listing_turned reader_partsInspect Host.Tree.library f false hcall hcall' hturns
  obtain ⟨-, l, hl, hout, hout'⟩ := (hlisted sheet hreads).2 htext
  -- the sheet is in cascade order as it is written
  have hsource : l = Sheet.inSourceOrder .legacy sheet := by
    obtain ⟨l', hl', hsorted⟩ := Sheet.parse_sorts .legacy htext
    obtain rfl := Except.ok.inj (hl'.symm.trans hl)
    exact hsorted.unique ⟨by decide +kernel, fun _ => rfl⟩
  have hentries : l.map listedLine =
      ["  [1]  p \x7b a: 1; \x7d\n", "  [1]  q \x7b b: 2; \x7d\n", "  [2]  r s \x7b c: 3; \x7d\n"] := by
    rw [hsource]
    decide +kernel
  have hlength : l.length = 3 := by simpa using congrArg List.length hentries
  rw [hentries, hlength] at hout hout'
  exact ⟨hcall, ⟨turned, hcall', hturns⟩, hreads, reader_partsInspect, hout, hout'⟩

end CommandLine

end AttributeSheet
