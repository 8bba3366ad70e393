/-
  AttributeSheet.Proofs.ContainerKept — a fragment's container is never asked about and never printed.

  What may be done with a page is to ask for elements and to write to those an answer has
  named (`Host.Handled`); a run does nothing else (`Cascade.run_handled`). No answer names
  the container of a fragment (`Parsed.query_below`), and a lawful library leaves its
  attributes alone where another element is written to. So it stays a body without
  attributes, and its tags are what the printed fragment is cut out of. Of the nodes in
  it, though, tags that declare a content type are left out, although they are the
  fragment's own (`container_never_leaks`, `content_type_left_out`).
-/
import AttributeSheet.Proofs.ForestLibrary
import AttributeSheet.Proofs.RunMoves

namespace AttributeSheet

/-! ## Pages that are asked and written to -/

section

variable {δ ε : Type} {host : Host δ ε} {first page : δ} {named : List ε}

/-- The page, and the elements that answers have named, after any number of questions and
    of writes to such elements. A question or a write that the host rejects changes
    neither. -/
inductive Host.Handled (host : Host δ ε) (first : δ) : δ → List ε → Prop
  | taken : Handled host first first []
  | asked {page : δ} {named found : List ε} {selector : String} :
      Handled host first page named → host.query page selector = .ok found →
      Handled host first page (named ++ found)
  | wrote {page page' : δ} {named : List ε} {element : ε} {name value : String} :
      Handled host first page named → element ∈ named → host.write page element name value = .ok page' →
      Handled host first page' named

namespace Cascade

variable {handler : Option Handler}

theorem writeOne_handled {r : Run δ ε} (h : host.Handled first r.page named) {element : ε} (hmem : element ∈ named)
    (p : String × String) : host.Handled first (writeOne host handler element r p).page named := by
  unfold writeOne Run.unlessHalted
  split
  · exact h
  · dsimp only
    split
    next hw => exact h.wrote hmem hw
    · exact h
    · exact h

theorem foldl_handled {α : Type} {f : Run δ ε → α → Run δ ε} {l : List α}
    (hf : ∀ x ∈ l, ∀ r : Run δ ε, host.Handled first r.page named → host.Handled first (f r x).page named)
    {r : Run δ ε} (h : host.Handled first r.page named) : host.Handled first (l.foldl f r).page named := by
  induction l generalizing r with
  | nil => exact h
  | cons x l ih =>
    exact ih (fun y hy => hf y (List.mem_cons_of_mem x hy)) (hf x List.mem_cons_self r h)

theorem applyOne_handled {r : Run δ ε} (h : host.Handled first r.page named) (d : Declaration) :
    ∃ named', host.Handled first (applyOne host handler r d).page named' := by
  -- Asking keeps the page, and what it finds is named from then on.
  have hasked : host.Handled first (ask host handler r d).1.page (named ++ (ask host handler r d).2) := by
    unfold ask
    split
    · exact (List.append_nil named).symm ▸ h
    · dsimp only
      split
      next elements hq => exact h.asked hq
      · exact (List.append_nil named).symm ▸ h
      · exact (List.append_nil named).symm ▸ h
  refine ⟨_, foldl_handled (fun element hmem s hs => ?_) hasked⟩
  exact foldl_handled (fun p _ t ht => writeOne_handled ht (List.mem_append_right _ hmem) p) hs

/-- A run asks, and writes to what the answers have named, wherever it has ended. -/
theorem run_handled (host : Host δ ε) (handler : Option Handler) (l : List Declaration) (page : δ)
    (reported : List Problem) (text : String) :
    ∃ named, host.Handled (host.load page text) (run host handler l page reported text).page named := by
  have hload : (load host page reported text).page = host.load page text := by
    rcases load_cases host page reported text with h | h <;> rw [h] <;> rfl
  have hfoldl : ∀ (l : List Declaration) (r : Run δ ε) (named : List ε), host.Handled (host.load page text) r.page named →
      ∃ named', host.Handled (host.load page text) (l.foldl (applyOne host handler) r).page named' := by
    intro l
    induction l with
    | nil => exact fun r named h => ⟨named, h⟩
    | cons d l ih =>
      intro r named h
      have hnext : ∃ named', host.Handled (host.load page text) (applyOne host handler r d).page named' :=
        applyOne_handled h d
      obtain ⟨named', h'⟩ := hnext
      exact ih _ named' h'
  exact hfoldl l (load host page reported text) [] (hload ▸ .taken)

end Cascade

end

/-! ## The container -/

namespace Host

open Markup (Element Library Page)

section

variable {τ ν σ : Type} [DecidableEq ν] {lib : Library τ ν σ} {page : Page τ} {named : List ν}

theorem Parsed.query_below (h : page.isFragment = true) {selector : String} {found : List ν}
    (hquery : (parsed lib).query page selector = .ok found) : lib.root page.root ∉ found := by
  simp only [parsed, query] at hquery
  split at hquery
  · cases hquery
  · split at hquery
    · obtain rfl := Except.ok.inj hquery
      exact List.not_mem_nil
    · obtain rfl := Except.ok.inj hquery
      simp [h]

theorem Handled.inContainer (hlib : lib.KeepsContainer) {first : Page τ} (hfirst : Page.InContainer lib first)
    (h : (parsed lib).Handled first page named) : Page.InContainer lib page ∧ lib.root page.root ∉ named := by
  induction h with
  | taken => exact ⟨hfirst, List.not_mem_nil⟩
  | asked _ hquery ih =>
    obtain ⟨hcontainer, hnamed⟩ := ih
    refine ⟨hcontainer, fun hmem => ?_⟩
    rcases List.mem_append.mp hmem with hmem | hmem
    · exact hnamed hmem
    · exact Parsed.query_below hcontainer.isFragment hquery hmem
  | @wrote page page' named element name value _ hmem hwrite ih =>
    obtain ⟨hcontainer, hnamed⟩ := ih
    have hother : element ≠ lib.root page.root := fun heq => hnamed (heq ▸ hmem)
    simp only [parsed, Parsed.write] at hwrite
    split at hwrite
    next root hset =>
      obtain rfl := Except.ok.inj hwrite
      refine ⟨⟨hcontainer.isFragment, (hlib.set_tag hset).trans hcontainer.tag, ?_⟩, ?_⟩
      · exact (hlib.set_attributes hset hother).trans hcontainer.attributes
      · rw [hlib.set_root hset]
        exact hnamed
    · cases hwrite

/-- Whatever is asked of a page that is taken in as a fragment and written to the elements
    that are named, no answer names the container, and it stays a body without attributes.
    Its nodes are printed, one after the other, and nothing else; but of each node the
    tags that declare a content type are left out, so that they are printed whole exactly
    if none of them holds such a tag. A run comes to such a page, also one that is halted. -/
theorem container_never_leaks (hlib : lib.KeepsContainer) {html : String}
    (hfragment : (Page.ofText lib html).isFragment = true) :
    (∀ {page named}, (parsed lib).Handled (Page.ofText lib html) page named →
      lib.root page.root ∉ named ∧
      (∀ selector found, (parsed lib).query page selector = .ok found → lib.root page.root ∉ found) ∧
      page.isFragment = true ∧ lib.tag page.root = "body" ∧ lib.attributes page.root = [] ∧
      (parsed lib).print page =
        String.ofList ((lib.inside page.root).flatMap (Markup.Written.dropContentTypes false)) ∧
      ((parsed lib).print page = String.ofList (lib.inside page.root).flatten ↔
        ∀ piece ∈ lib.inside page.root, ¬ Markup.Written.HoldsContentType piece)) ∧
    ∀ (handler : Option Handler) (l : List Declaration) (page : Page τ) (reported : List Problem), ∃ named,
      (parsed lib).Handled (Page.ofText lib html) (Cascade.run (parsed lib) handler l page reported html).page named := by
  constructor
  · intro page named h
    obtain ⟨hcontainer, hnamed⟩ := h.inContainer hlib (.of_ofText hlib hfragment)
    exact ⟨hnamed, fun selector found hquery => Parsed.query_below hcontainer.isFragment hquery,
      hcontainer.isFragment, hcontainer.tag, hcontainer.attributes, hcontainer.print_eq hlib,
      hcontainer.print_whole_iff hlib⟩
  · exact fun handler l page reported => Cascade.run_handled (parsed lib) handler l page reported html

end

/-- A script with an end tag in its text, and an attribute with a bracket in its value. -/
theorem container_never_leaks_brackets :
    let lib := Tree.library
    let first := Page.ofText lib "<p>1</p><script>'</body>'</script>"
    let page : Page Element := { first with root := first.root.modifyAt (·.insert "x" (some ">")) [0] }
    lib.KeepsContainer ∧ first.isFragment = true ∧ tree.query first "body, *" = .ok [[0], [1]] ∧
    tree.Handled first page [[0], [1]] ∧ tree.query page ":root" = .ok [] ∧ lib.attributes page.root = [] ∧
    lib.inside page.root = ["<p x=\"&gt;\">1</p>".toList, "<script>'</body>'</script>".toList] ∧
    tree.print page = "<p x=\"&gt;\">1</p><script>'</body>'</script>" := by
  intro lib first page
  have hfirst : first =
      ⟨⟨"body", .empty, .element "p" .empty (.text "1" .nil) (.element "script" .empty (.text "'</body>'" .nil) .nil)⟩,
        true, false⟩ := by decide +kernel
  have hfragment : first.isFragment = true := by rw [hfirst]
  have hquery : tree.query first "body, *" = .ok [[0], [1]] := by rw [hfirst]; decide +kernel
  have hwrite : tree.write first [0] "x" ">" = .ok page := by rfl
  have hhandled : tree.Handled first page [[0], [1]] :=
    (Handled.taken.asked hquery).wrote List.mem_cons_self hwrite
  have hroot : tree.query page ":root" = .ok [] := by simp only [page, hfirst]; decide +kernel
  have hinside : lib.inside page.root = ["<p x=\"&gt;\">1</p>".toList, "<script>'</body>'</script>".toList] := by
    simp only [page, hfirst]
    decide +kernel
  obtain ⟨-, -, -, -, hattributes, hprint, -⟩ :=
    (container_never_leaks Tree.library_keepsContainer hfragment).1 hhandled
  refine ⟨Tree.library_keepsContainer, hfragment, hquery, hhandled, hroot, hattributes, hinside, ?_⟩
  exact hprint.trans (by rw [hinside]; decide +kernel)

/-- A meta that declares a content type, between two paragraphs, is a node of the fragment
    and is not printed. -/
theorem content_type_left_out :
    let html := "<p>1</p><meta http-equiv=\"Content-Type\" content=\"x\"><p>2</p>"
    let page := Page.ofText Tree.library html
    page.isFragment = true ∧ String.ofList (Tree.library.inside page.root).flatten = html ∧
    tree.print page = "<p>1</p><p>2</p>" := by
  intro html page
  have hpage : page =
      ⟨⟨"body", .empty, .element "p" .empty (.text "1" .nil) (.element "meta"
        (.ofList [("http-equiv", some "Content-Type"), ("content", some "x")]) .nil
        (.element "p" .empty (.text "2" .nil) .nil))⟩, true, false⟩ := by decide +kernel
  rw [hpage]
  exact ⟨rfl, by decide +kernel, by decide +kernel⟩

end Host

end AttributeSheet
