/-
  AttributeSheet.Proofs.SourceOrder — what the order of a sheet can change and what not.

  Where a list is sorted, the order between items of different specificity is lost and
  the order among those of one specificity is kept, so two lists sort to the same
  exactly if they have the same items of each specificity in the same order. Two sheets
  of which that is true of their blocks are read to the same list, and compiling one or
  the other asks the same of the host (`only_groups_matter`).

  A sheet without text is refused, and one of blank text is not, though neither has any
  block (`blank_sheet_is_no_empty_one`). So either both sheets have text or neither has.
-/
import AttributeSheet.Proofs.ErrorRouting
import AttributeSheet.Proofs.HostCalls
import AttributeSheet.Proofs.SortedBlocks

namespace AttributeSheet

/-- The selector of the declaration is of the mode, and its specificity is the one that
    its text has in it. -/
structure Declaration.OfMode (mode : Mode) (d : Declaration) : Prop where
  mode_eq : d.selector.mode = mode
  counted : d.selector.specificity = .ofText mode d.selector.text

theorem Declaration.OfMode.isNumber {mode : Mode} {d : Declaration} (h : d.OfMode mode) :
    d.selector.specificity.isNumber = (mode == .legacy) := by
  rw [h.counted]
  cases mode <;> rfl

theorem Declaration.sort?_ofMode {mode : Mode} {l : List Declaration} (h : ∀ d ∈ l, d.OfMode mode) :
    ∃ sorted, Declaration.sort? false l = .ok sorted ∧ StablySorted (·.selector.specificity) l sorted := by
  obtain ⟨sorted, hs, hsort⟩ := sortBySpecificity?_of_oneKind (fun d hd => (h d hd).isNumber) false
  exact ⟨sorted, hsort, hs⟩

namespace Sheet

/-- The two sheets have the same blocks of each specificity, in the same order. -/
def SameGroups (mode : Mode) (text text' : String) : Prop :=
  ∀ level, (Block.selecting text).filter (fun b => b.specificity mode = level) =
    (Block.selecting text').filter fun b => b.specificity mode = level

theorem SameGroups.sortedBlocks_eq {mode : Mode} {text text' : String} (h : SameGroups mode text text') :
    sortedBlocks mode text = sortedBlocks mode text' :=
  ((sortedBlocks_sorts mode text).eq_iff (sortedBlocks_sorts mode text')).mpr h

end Sheet

namespace Session

variable {δ ε : Type}

theorem calls_readingEvents (text : String) : calls (readingEvents text : List (Event ε)) = [] := by
  simp [readingEvents, calls, Event.isCall]

/-- After reading a sheet that has text, what is reported and what is asked of the host is
    that of applying its sorted blocks. -/
theorem compile_alike (host : Host δ ε) (s : Session δ) {text text' : String} (hne : text ≠ "") (hne' : text' ≠ "")
    (h : Sheet.sortedBlocks s.mode text = Sheet.sortedBlocks s.mode text') (html : String) :
    let o := s.compile host (some text) html
    let o' := s.compile host (some text') html
    o.session = o'.session ∧ o.result = o'.result ∧ problems o.events = problems o'.events ∧
      handovers o.events = handovers o'.events ∧ calls o.events = calls o'.events := by
  simp [compile_sorted host s hne, compile_sorted host s hne', h, problems_readingEvents, handovers_readingEvents,
    calls_readingEvents]

end Session

namespace Sheet

theorem both_missing_or_text {source source' : Option String} (h : source.getD "" = "" ↔ source'.getD "" = "") :
    ((source = none ∨ source = some "") ∧ (source' = none ∨ source' = some "")) ∨
      ∃ text text', source = some text ∧ source' = some text' ∧ text ≠ "" ∧ text' ≠ "" := by
  have hempty : ∀ {x : Option String}, (x = none ∨ x = some "") → x.getD "" = "" := by
    rintro x (rfl | rfl) <;> rfl
  rcases Session.missing_or_text source with hnone | ⟨text, rfl, hne⟩
  · rcases Session.missing_or_text source' with hnone' | ⟨text', rfl, hne'⟩
    · exact Or.inl ⟨hnone, hnone'⟩
    · exact absurd (h.mp (hempty hnone)) hne'
  · rcases Session.missing_or_text source' with hnone' | ⟨text', rfl, hne'⟩
    · exact absurd (h.mpr (hempty hnone')) hne
    · exact Or.inr ⟨text, text', rfl, rfl, hne, hne'⟩

/-- Lists of a mode sort to the same exactly if they have the same declarations of each
    specificity in the same order. Sheets that both have text or both have none, with
    the same blocks of each specificity in the same order, are read to the same list,
    and compiling them gives the same answer, reports and calls on the host. -/
theorem only_groups_matter :
    (∀ (mode mode' : Mode) (l l' : List Declaration), (∀ d ∈ l, d.OfMode mode) → (∀ d ∈ l', d.OfMode mode') →
      ∃ sorted sorted', Declaration.sort? false l = .ok sorted ∧ Declaration.sort? false l' = .ok sorted' ∧
        (sorted = sorted' ↔ ∀ level, l.filter (fun d => d.selector.specificity = level) =
          l'.filter fun d => d.selector.specificity = level)) ∧
    ∀ (mode : Mode) (source source' : Option String), (source.getD "" = "" ↔ source'.getD "" = "") →
      SameGroups mode (source.getD "") (source'.getD "") →
      parse mode source = parse mode source' ∧
      ∀ {δ ε : Type} (host : Host δ ε) (s : Session δ) (html : String),
        let o := { s with mode := mode }.compile host source html
        let o' := { s with mode := mode }.compile host source' html
        o.session = o'.session ∧ o.result = o'.result ∧ problems o.events = problems o'.events ∧
          handovers o.events = handovers o'.events ∧ calls o.events = calls o'.events := by
  refine ⟨fun mode mode' l l' hl hl' => ?_, fun mode source source' hboth hgroups => ?_⟩
  · obtain ⟨sorted, hsort, hs⟩ := Declaration.sort?_ofMode hl
    obtain ⟨sorted', hsort', hs'⟩ := Declaration.sort?_ofMode hl'
    exact ⟨sorted, sorted', hsort, hsort', hs.eq_iff hs'⟩
  · rcases both_missing_or_text hboth with ⟨hnone, hnone'⟩ | ⟨text, text', rfl, rfl, hne, hne'⟩
    · refine ⟨?_, fun host s html => ?_⟩
      · rcases hnone with rfl | rfl <;> rcases hnone' with rfl | rfl <;> rfl
      · rw [Session.compile_missing hnone, Session.compile_missing hnone']
        exact ⟨rfl, rfl, rfl, rfl, rfl⟩
    · have hblocks : sortedBlocks mode text = sortedBlocks mode text' := SameGroups.sortedBlocks_eq hgroups
      refine ⟨?_, fun host s html => Session.compile_alike host { s with mode := mode } hne hne' hblocks html⟩
      rw [parse_eq_map mode hne, parse_eq_map mode hne', hblocks]

/-- An id and a tag in either order, as declarations and as sheets. -/
theorem only_groups_matter_id_and_tag :
    let l : List Declaration :=
      [⟨⟨"#i", .legacy, .number 100⟩, ⟨[("x", "1")]⟩⟩, ⟨⟨"a", .legacy, .number 1⟩, ⟨[("x", "2")]⟩⟩]
    let text := "#i\x7bx:1\x7da\x7bx:2\x7d"
    let text' := "a\x7bx:2\x7d#i\x7bx:1\x7d"
    let s : Session (List Host.Flat.Element) := ⟨.legacy, some (.recording "log"), [⟨"a", .empty⟩], [], []⟩
    (∀ d ∈ l, d.OfMode .legacy) ∧
    (∃ sorted, Declaration.sort? false l = .ok sorted ∧ Declaration.sort? false l.reverse = .ok sorted) ∧
    SameGroups .legacy text text' ∧ parse .legacy (some text) = parse .legacy (some text') ∧
    calls (s.compile Host.flat (some text) "").events = calls (s.compile Host.flat (some text') "").events := by
  intro l text text' s
  have hid : Specificity.ofText .legacy "#i" = .number 100 := by decide +kernel
  have htag : Specificity.ofText .legacy "a" = .number 1 := by decide +kernel
  have hl : ∀ d ∈ l, d.OfMode .legacy := by
    simp only [l, List.mem_cons, List.not_mem_nil, or_false]
    rintro d (rfl | rfl)
    · exact ⟨rfl, hid.symm⟩
    · exact ⟨rfl, htag.symm⟩
  have hgroups : SameGroups .legacy text text' := by
    have hblocks : Block.selecting text = [⟨"#i", [("x", "1")]⟩, ⟨"a", [("x", "2")]⟩] := by decide
    have hturned : Block.selecting text' = [⟨"a", [("x", "2")]⟩, ⟨"#i", [("x", "1")]⟩] := by decide
    intro level
    rw [hblocks, hturned]
    by_cases h : level = .number 1
    · subst h; simp [Block.specificity, hid, htag]
    · simp [Block.specificity, hid, htag, Ne.symm h, List.filter_cons]
  obtain ⟨sorted, sorted', hsort, hsort', hiff⟩ := only_groups_matter.1 .legacy .legacy l l.reverse hl fun d hd =>
    hl d (List.mem_reverse.mp hd)
  have hsame : sorted = sorted' := hiff.mpr fun level => by
    by_cases h : level = .number 1
    · subst h; simp [l]
    · simp [l, List.filter_cons, Ne.symm h]
  obtain ⟨hparse, hcompile⟩ := only_groups_matter.2 .legacy (some text) (some text') (by decide) hgroups
  obtain ⟨-, -, -, -, hcalls⟩ := hcompile Host.flat s ""
  exact ⟨hl, ⟨sorted, hsort, hsame ▸ hsort'⟩, hgroups, hparse, hcalls⟩

/-- Neither has any block, but a sheet without text is refused and reported, and one of
    blank text is read to no declarations and applied. -/
theorem blank_sheet_is_no_empty_one :
    let s : Session (List Host.Flat.Element) := ⟨.legacy, none, [], [], []⟩
    SameGroups .legacy "" " " ∧
    parse .legacy (some "") = .error (.problem .noInput) ∧ parse .legacy (some " ") = .ok [] ∧
    (s.compile Host.flat (some "") "p").result = .ok "p" ∧
    (s.compile Host.flat (some " ") "p").result = .ok "<!doctype html>" ∧
    problems (s.compile Host.flat (some "") "p").events = [.noInput] ∧
    problems (s.compile Host.flat (some " ") "p").events = [] := by
  intro s
  have hempty : Block.selecting "" = [] := by decide
  have hblank : Block.selecting " " = [] := by decide
  have hparse : parse .legacy (some " ") = .ok [] := by
    rw [parse_eq_map .legacy (by decide), sortedBlocks, hblank]
    rfl
  refine ⟨fun level => by rw [hempty, hblank], rfl, hparse, rfl, ?_, rfl, ?_⟩
  · simp only [Session.compile, Session.parse, s, hparse]; decide
  · simp only [Session.compile, Session.parse, s, hparse]; decide

end Sheet

end AttributeSheet
