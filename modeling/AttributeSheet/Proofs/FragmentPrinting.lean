/-
  AttributeSheet.Proofs.FragmentPrinting — what is printed of a fragment and of a document.

  Tags that declare a content type are looked for in the whole of the finished markup. In
  that of a container's nodes every opening bracket is closed, so none of these tags
  reaches from one node into the next (`dropContentTypes_flatten`), and nothing else is
  left out (`dropContentTypes_eq_self_iff`). The container's own tags are cut off again by
  the first closing bracket and the last opener of an end tag, whatever stands between
  them (`withoutOuterTags_tagged`). So a fragment is printed node by node, less these tags
  (`InContainer.print_eq`), and a document from its html on (`Page.print_html`).
-/
import AttributeSheet.Proofs.LawfulLibraries

namespace AttributeSheet.Markup

/-! ## Brackets that are closed -/

namespace Written

theorem Closed.of_no_opening {cs : List Char} (h : '<' ∉ cs) : Closed cs := by
  rintro a b rfl
  simp at h

theorem Closed.of_last (cs : List Char) : Closed (cs ++ ['>']) := by
  intro a b h
  have hlast := congrArg List.getLast? h
  rw [List.getLast?_concat, List.getLast?_append, List.getLast?_cons] at hlast
  cases hb : b.getLast? with
  | none => simp [hb] at hlast
  | some d =>
    have hd : '>' = d := by simpa [hb] using hlast
    exact hd ▸ List.mem_of_getLast? hb

theorem Closed.tail {c : Char} {cs : List Char} (h : Closed (c :: cs)) : Closed cs :=
  fun a b hcs => h (c :: a) b (by rw [hcs, List.cons_append])

/-! ## Declarations of the content type -/

theorem declaresContentType_iff {cs : List Char} :
    declaresContentType cs = true ↔ ∃ rest, cs = contentTypeOpener ++ rest ∧ '>' ∈ rest := by
  simp [declaresContentType, Option.any_eq_true, Text.after?_eq_some]

theorem not_mem_contentTypeOpener : '>' ∉ contentTypeOpener := by decide

/-- A tag that is closed in a text is the same one with more text behind it. -/
theorem declaresContentType_append {cs : List Char} (h : '>' ∈ cs) (more : List Char) :
    declaresContentType (cs ++ more) = declaresContentType cs := by
  rw [Bool.eq_iff_iff, declaresContentType_iff, declaresContentType_iff]
  constructor
  · rintro ⟨rest, hrest, -⟩
    -- The opener has no closing bracket, so it ends within `cs`, before one.
    rcases List.append_eq_append_iff.mp hrest with ⟨beyond, hopener, -⟩ | ⟨inside, hcs, -⟩
    · have hmem : '>' ∈ contentTypeOpener := hopener ▸ List.mem_append_left beyond h
      exact absurd hmem not_mem_contentTypeOpener
    · have hmem : '>' ∈ contentTypeOpener ∨ '>' ∈ inside := List.mem_append.mp (hcs ▸ h)
      exact ⟨inside, hcs, hmem.resolve_left not_mem_contentTypeOpener⟩
  · rintro ⟨rest, rfl, hclose⟩
    exact ⟨rest ++ more, List.append_assoc .., List.mem_append_left _ hclose⟩

theorem declaresContentType_opening {c : Char} {cs : List Char} (h : declaresContentType (c :: cs) = true) :
    c = '<' := by
  obtain ⟨rest, hrest, -⟩ := declaresContentType_iff.mp h
  have hopener : contentTypeOpener = '<' :: contentTypeOpener.tail := by decide
  rw [hopener, List.cons_append, List.cons.injEq] at hrest
  exact hrest.1

/-- In a text that is closed, no tag that is left out reaches into what follows; one that is
    being left out already has to be closed in it too. -/
theorem dropContentTypes_append_from (inside : Bool) {cs : List Char} (hclosed : Closed cs)
    (hinside : inside = true → '>' ∈ cs) (more : List Char) :
    dropContentTypes inside (cs ++ more) = dropContentTypes inside cs ++ dropContentTypes false more := by
  induction cs generalizing inside with
  | nil =>
    cases inside with
    | true => simp at hinside
    | false => rfl
  | cons c cs ih =>
    cases inside with
    | true =>
      have hrest : (c != '>') = true → '>' ∈ cs := by
        intro hc
        have := hinside rfl
        simpa [Ne.symm (bne_iff_ne.mp hc)] using this
      simpa [dropContentTypes] using ih (c != '>') hclosed.tail hrest
    | false =>
      have hclose : c = '<' → '>' ∈ cs := fun hc => hclosed [] cs (by rw [hc]; rfl)
      have hsame : declaresContentType (c :: (cs ++ more)) = declaresContentType (c :: cs) := by
        by_cases hc : c = '<'
        · exact declaresContentType_append (List.mem_cons_of_mem _ (hclose hc)) more
        · rw [Bool.eq_iff_iff]
          exact ⟨fun h => absurd (declaresContentType_opening h) hc, fun h => absurd (declaresContentType_opening h) hc⟩
      cases hdeclares : declaresContentType (c :: cs) with
      | true =>
        simpa [dropContentTypes, hsame, hdeclares] using
          ih true hclosed.tail fun _ => hclose (declaresContentType_opening hdeclares)
      | false => simpa [dropContentTypes, hsame, hdeclares] using ih false hclosed.tail nofun

theorem dropContentTypes_append {cs : List Char} (h : Closed cs) (more : List Char) :
    dropContentTypes false (cs ++ more) = dropContentTypes false cs ++ dropContentTypes false more :=
  dropContentTypes_append_from false h nofun more

theorem dropContentTypes_flatten {pieces : List (List Char)} (h : ∀ piece ∈ pieces, Closed piece) (more : List Char) :
    dropContentTypes false (pieces.flatten ++ more) =
      pieces.flatMap (dropContentTypes false) ++ dropContentTypes false more := by
  induction pieces with
  | nil => rfl
  | cons piece pieces ih =>
    obtain ⟨hpiece, hpieces⟩ := List.forall_mem_cons.mp h
    rw [List.flatten_cons, List.append_assoc, dropContentTypes_append hpiece, ih hpieces, List.flatMap_cons,
      List.append_assoc]

def HoldsContentType (cs : List Char) : Prop := ∃ before rest, cs = before ++ rest ∧ declaresContentType rest = true

theorem holdsContentType_cons {c : Char} {cs : List Char} :
    HoldsContentType (c :: cs) ↔ declaresContentType (c :: cs) = true ∨ HoldsContentType cs := by
  constructor
  · rintro ⟨before, rest, hcs, hdeclares⟩
    cases before with
    | nil => exact Or.inl (hcs ▸ hdeclares)
    | cons d before => exact Or.inr ⟨before, rest, (List.cons.inj hcs).2, hdeclares⟩
  · rintro (hdeclares | ⟨before, rest, rfl, hdeclares⟩)
    · exact ⟨[], c :: cs, rfl, hdeclares⟩
    · exact ⟨c :: before, rest, rfl, hdeclares⟩

theorem length_dropContentTypes_le (inside : Bool) (cs : List Char) : (dropContentTypes inside cs).length ≤ cs.length := by
  induction cs generalizing inside with
  | nil => exact Nat.le_refl 0
  | cons c cs ih =>
    have hstays := ih false
    unfold dropContentTypes
    split
    · exact Nat.le_succ_of_le (ih _)
    · split
      · exact Nat.le_succ_of_le (ih _)
      · exact Nat.succ_le_succ hstays

theorem dropContentTypes_eq_self_iff (cs : List Char) : dropContentTypes false cs = cs ↔ ¬ HoldsContentType cs := by
  induction cs with
  | nil =>
    have hnone : ¬ HoldsContentType [] := by
      rintro ⟨before, rest, hcs, hdeclares⟩
      obtain ⟨-, rfl⟩ := List.append_eq_nil_iff.mp hcs.symm
      exact absurd hdeclares (by decide)
    exact ⟨fun _ => hnone, fun _ => rfl⟩
  | cons c cs ih =>
    rw [holdsContentType_cons, not_or, ← ih]
    cases hdeclares : declaresContentType (c :: cs) with
    | true =>
      have hshorter := length_dropContentTypes_le true cs
      simp only [dropContentTypes, hdeclares, Bool.false_eq_true, if_false, if_true, not_true_eq_false, false_and, iff_false]
      intro h
      rw [h, List.length_cons] at hshorter
      omega
    | false => simp [dropContentTypes, hdeclares]

theorem flatMap_dropContentTypes_eq_iff (pieces : List (List Char)) :
    pieces.flatMap (dropContentTypes false) = pieces.flatten ↔ ∀ piece ∈ pieces, ¬ HoldsContentType piece := by
  have hshorter : ∀ l : List (List Char), (l.flatMap (dropContentTypes false)).length ≤ l.flatten.length := by
    intro l
    induction l with
    | nil => exact Nat.le_refl 0
    | cons piece l ih =>
      rw [List.flatMap_cons, List.flatten_cons, List.length_append, List.length_append]
      exact Nat.add_le_add (length_dropContentTypes_le false piece) ih
  induction pieces with
  | nil => simp
  | cons piece pieces ih =>
    rw [List.forall_mem_cons, ← dropContentTypes_eq_self_iff, List.flatMap_cons, List.flatten_cons]
    refine Iff.trans ?_ (and_congr_right' ih)
    constructor
    · intro h
      -- Neither part can be longer than what it is a part of, so both are as long.
      have hlength := congrArg List.length h
      rw [List.length_append, List.length_append] at hlength
      have hpiece := length_dropContentTypes_le false piece
      have hrest := hshorter pieces
      exact List.append_inj h (by omega)
    · rintro ⟨hpiece, hrest⟩
      rw [hpiece, hrest]

theorem dropContentTypes_html (more : List Char) :
    dropContentTypes false ("<html".toList ++ more) =
      "<html".toList ++ dropContentTypes false more := by
  have hkept : ∀ {c : Char} (r : List Char), c ≠ '<' → declaresContentType (c :: r) = false :=
    fun r hc => Bool.eq_false_iff.mpr fun h => hc (declaresContentType_opening h)
  have hbracket : declaresContentType ('<' :: 'h' :: 't' :: 'm' :: 'l' :: more) = false := by
    rw [Bool.eq_false_iff]
    intro h
    obtain ⟨rest, hrest, -⟩ := declaresContentType_iff.mp h
    cases hrest
  change dropContentTypes false ('<' :: 'h' :: 't' :: 'm' :: 'l' :: more) =
    '<' :: 'h' :: 't' :: 'm' :: 'l' :: dropContentTypes false more
  simp [dropContentTypes, hbracket, hkept]

end Written

/-! ## The container's tags -/

namespace Page

theorem afterTurnedOpener_append {a : List Char} (h : '/' ∉ a) (b : List Char) :
    afterTurnedOpener (a ++ '/' :: '<' :: b) = b := by
  induction a with
  | nil => rfl
  | cons c a ih =>
    obtain ⟨hc, ha⟩ : '/' ≠ c ∧ '/' ∉ a := by simpa using h
    rw [List.cons_append, afterTurnedOpener, ih ha]
    rintro rest rfl
    exact absurd rfl hc

/-- The tags around a text are cut off, whatever brackets the text has. -/
theorem withoutOuterTags_tagged {tag : List Char} (hclose : '>' ∉ tag) (hslash : '/' ∉ tag) (inside : List Char) :
    withoutOuterTags ('<' :: tag ++ '>' :: (inside ++ '<' :: '/' :: tag ++ ['>'])) = inside := by
  have hopener : ∀ c ∈ '<' :: tag, decide (c ≠ '>') = true := by
    intro c hc
    have hne : c ≠ '>' := by
      rintro rfl
      rcases List.mem_cons.mp hc with hbracket | hc
      · exact absurd hbracket (by decide)
      · exact hclose hc
    exact decide_eq_true hne
  have hturned : (inside ++ '<' :: '/' :: tag ++ ['>']).reverse =
      ('>' :: tag.reverse) ++ '/' :: '<' :: inside.reverse := by simp
  rw [withoutOuterTags, List.dropWhile_append_of_pos hopener, List.dropWhile_cons_of_neg (by decide), List.drop_one,
    List.tail_cons, hturned, afterTurnedOpener_append (by simpa using hslash), List.reverse_reverse]

variable {τ ν σ : Type} {lib : Library τ ν σ} {p : Page τ}

/-- Of a page in a container, exactly its nodes are printed, less such tags. -/
theorem InContainer.print_eq (hlib : lib.KeepsContainer) (h : InContainer lib p) :
    p.print lib = String.ofList ((lib.inside p.root).flatMap (Written.dropContentTypes false)) := by
  have hmarkup := hlib.markup_body h.tag h.attributes
  have hclosed := hlib.inside_closed h.tag
  have hopening : Written.Closed "<body>".toList := Written.Closed.of_last "<body".toList
  have hkept : Written.dropContentTypes false "<body>".toList = "<body>".toList ∧
      Written.dropContentTypes false "</body>".toList = "</body>".toList := by decide
  have hprinted : Written.dropContentTypes false (lib.markup p.root) =
      '<' :: "body".toList ++ '>' ::
        ((lib.inside p.root).flatMap (Written.dropContentTypes false) ++ '<' :: '/' :: "body".toList ++ ['>']) := by
    rw [hmarkup, List.append_assoc, Written.dropContentTypes_append hopening, Written.dropContentTypes_flatten hclosed,
      hkept.1, hkept.2]
    simp
  rw [print, hprinted, h.isFragment]
  simp only [if_true]
  rw [withoutOuterTags_tagged (by decide) (by decide)]

theorem InContainer.print_whole_iff (hlib : lib.KeepsContainer) (h : InContainer lib p) :
    p.print lib = String.ofList (lib.inside p.root).flatten ↔
      ∀ piece ∈ lib.inside p.root, ¬ Written.HoldsContentType piece := by
  rw [h.print_eq hlib, String.ofList_inj, Written.flatMap_dropContentTypes_eq_iff]

theorem print_html (hlib : lib.KeepsDocument) (hdocument : p.isFragment = false) (htag : lib.tag p.root = "html") :
    "<html".toList <+: (p.print lib).toList := by
  obtain ⟨more, hmarkup⟩ := hlib.markup_html htag
  rw [print, hdocument, ← hmarkup, Written.dropContentTypes_html]
  simp only [Bool.false_eq_true, if_false, String.toList_ofList]
  exact List.prefix_append _ _

end Page

end AttributeSheet.Markup
