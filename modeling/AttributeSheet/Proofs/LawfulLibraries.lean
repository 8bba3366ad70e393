/-
  AttributeSheet.Proofs.LawfulLibraries — what is relied on of a library of parsed markup.

  How a page is parsed and printed is up to the library. What the theory of pages relies
  on are a few laws: of the body that a fragment is put into (`KeepsContainer`), and of
  the html that a document is kept as (`KeepsDocument`). From the first, a fragment is
  always taken in with a bare body for its root (`InContainer.of_ofText`); from the
  second, it can be told from the page's text whether it is a fragment
  (`Page.isFragment_iff`), and whatever is none is an html (`Page.ofText_html`).
-/
import AttributeSheet.Host.Parsed
import AttributeSheet.Proofs.Pieces

namespace AttributeSheet.Markup

def Written.Closed (cs : List Char) : Prop := ∀ a b, cs = a ++ '<' :: b → '>' ∈ b

variable {τ ν σ : Type}

/-! ## Laws -/

/-- New elements and the body that is written around a fragment have no attributes; a write
    keeps the root, its tag and, if it is to another element, its attributes; and a body
    without attributes is printed as what it holds between its tags, node by node, none of
    them with a bracket left open. -/
structure Library.KeepsContainer (lib : Library τ ν σ) : Prop where
  element_tag : ∀ tag, lib.tag (lib.element tag) = tag
  element_attributes : ∀ tag, lib.attributes (lib.element tag) = []
  child_tag : ∀ {e child tag}, lib.child? e tag = some child → lib.tag child = tag
  wrapped_attributes : ∀ {text root body}, lib.document? (Page.wrap text) = some root →
    lib.child? root "body" = some body → lib.attributes body = []
  set_root : ∀ {e e' n name value}, lib.set e n name value = .ok e' → lib.root e' = lib.root e
  set_tag : ∀ {e e' n name value}, lib.set e n name value = .ok e' → lib.tag e' = lib.tag e
  set_attributes : ∀ {e e' n name value}, lib.set e n name value = .ok e' → n ≠ lib.root e →
    lib.attributes e' = lib.attributes e
  markup_body : ∀ {e}, lib.tag e = "body" → lib.attributes e = [] →
    lib.markup e = "<body>".toList ++ (lib.inside e).flatten ++ "</body>".toList
  inside_closed : ∀ {e}, lib.tag e = "body" → ∀ piece ∈ lib.inside e, Written.Closed piece

/-- A document is an html; there is one with a body where these are written around a
    fragment; a write keeps the tag; and an html is printed from its own tag on. -/
structure Library.KeepsDocument (lib : Library τ ν σ) : Prop where
  document_tag : ∀ {text root}, lib.document? text = some root → lib.tag root = "html"
  wrapped : ∀ text, ∃ root body, lib.document? (Page.wrap text) = some root ∧ lib.child? root "body" = some body
  set_tag : ∀ {e e' n name value}, lib.set e n name value = .ok e' → lib.tag e' = lib.tag e
  markup_html : ∀ {e}, lib.tag e = "html" → "<html".toList <+: lib.markup e

/-! ## Pages as they are taken in -/

namespace Page

variable {lib : Library τ ν σ}

/-- The root is a body without attributes and no element of the page. -/
structure InContainer (lib : Library τ ν σ) (p : Page τ) : Prop where
  isFragment : p.isFragment = true
  tag : lib.tag p.root = "body"
  attributes : lib.attributes p.root = []

theorem InContainer.empty (hlib : lib.KeepsContainer) (vacant : Bool) :
    InContainer lib { Page.empty lib with isVacant := vacant } :=
  ⟨rfl, hlib.element_tag "body", hlib.element_attributes "body"⟩

/-- A page that is a fragment is kept in a container. -/
theorem InContainer.of_ofText (hlib : lib.KeepsContainer) {page : String} (h : (ofText lib page).isFragment = true) :
    InContainer lib (ofText lib page) := by
  unfold ofText at h ⊢
  dsimp only at h ⊢
  split at h
  next hblank =>
    rw [if_pos hblank]
    exact .empty hlib false
  next hblank =>
    rw [if_neg hblank]
    split at h
    next hopens =>
      rw [if_pos hopens]
      unfold ofDocument at h ⊢
      cases hroot : lib.document? (dropDeclaration page) with
      | some root => simp [hroot] at h
      | none => exact .empty hlib true
    next hopens =>
      rw [if_neg hopens]
      unfold ofFragment at h ⊢
      cases hroot : lib.document? (wrap (dropDeclaration page)) with
      | none => exact .empty hlib false
      | some root =>
        cases hbody : lib.child? root "body" with
        | none => simp [hroot, hbody] at h
        | some body =>
          simp only [hbody]
          exact ⟨rfl, hlib.child_tag hbody, hlib.wrapped_attributes hroot hbody⟩

theorem not_opensDocument_of_blank {text : String} (h : Text.allBlank text = true) : opensDocument text = false := by
  have hnone : Text.skipBlanks text.toList = [] := Text.skipBlanks_eq_nil.mpr (List.all_eq_true.mp h)
  rw [opensDocument, Prologue.opensDocumentChars, hnone]
  rfl

theorem isFragment_iff (hlib : lib.KeepsDocument) (page : String) :
    (ofText lib page).isFragment = true ↔
      (ofText lib page).isVacant = true ∨ opensDocument (dropDeclaration page) = false := by
  unfold ofText
  dsimp only
  split
  next hblank => simp [empty, not_opensDocument_of_blank hblank]
  next =>
    split
    next hopens =>
      unfold ofDocument
      split
      · simp [hopens]
      · simp [empty]
    next hopens =>
      obtain ⟨root, body, hroot, hbody⟩ := hlib.wrapped (dropDeclaration page)
      simp [ofFragment, hroot, hbody, hopens]

theorem ofText_html (hlib : lib.KeepsDocument) {page : String} (h : (ofText lib page).isFragment = false) :
    lib.tag (ofText lib page).root = "html" := by
  unfold ofText at h ⊢
  dsimp only at h ⊢
  split at h
  · cases h
  next hblank =>
    rw [if_neg hblank]
    split at h
    next hopens =>
      rw [if_pos hopens]
      unfold ofDocument at h ⊢
      cases hroot : lib.document? (dropDeclaration page) with
      | some root => exact hlib.document_tag hroot
      | none => simp [hroot, empty] at h
    next hopens =>
      obtain ⟨root, body, hroot, hbody⟩ := hlib.wrapped (dropDeclaration page)
      simp [ofFragment, hroot, hbody] at h

end Page

end AttributeSheet.Markup
