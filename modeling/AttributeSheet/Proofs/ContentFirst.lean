/-
  AttributeSheet.Proofs.ContentFirst — pages that open with text or with an element.

  A page whose first construct is text, or the start tag of an element that is none of
  html, head and body, is one to be taken for a fragment. It is, but for two kinds of
  page (`content_first_fragment`): those whose first tag has a name that only begins like
  one of the three, as a header does, and those that open with a comment and have a
  marker behind an end of any later one. They are printed as whole documents
  (`content_taken_for_document`).
-/
import AttributeSheet.Proofs.ForestLibrary
import AttributeSheet.Proofs.PageOpening

namespace AttributeSheet.Markup

open Prologue

def documentTags : List String := ["html", "head", "body"]

/-- The characters open with text, or with the start tag of an element that is none of those
    that make up a document. -/
inductive OpensContent : List Char → Prop
  | text {c : Char} {r : List Char} : isBlank c = false → c ≠ '<' → OpensContent (c :: r)
  /-- A bracket that opens nothing is text, -/
  | bracket {r : List Char} :
      (∀ c, r.head? = some c → isLatinLetter c = false ∧ c ∉ ['!', '?', '/']) → OpensContent ('<' :: r)
  /-- and so is the opener of an end tag that the page ends in. -/
  | slash : OpensContent ['<', '/']
  | startTag {c : Char} {name r : List Char} : isLatinLetter c = true → name.all Token.inTagName = true →
      r.head?.any Token.inTagName = false → Token.lowered (c :: name) ∉ documentTags →
      OpensContent ('<' :: c :: name ++ r)

/-- The characters begin with a bracket and one of these tags, though the name may go on. -/
def BeginsLikeDocument (cs : List Char) : Prop :=
  ∃ tag ∈ documentTags, ∃ word more, cs = '<' :: (word ++ more) ∧ Spells tag.toList word

namespace OpensContent

variable {cs : List Char}

theorem solid (h : OpensContent cs) : Text.skipBlanks cs = cs := by
  have hbracket : isBlank '<' = false := by decide
  cases h with
  | text hsolid _ => exact Text.skipBlanks_cons_solid hsolid _
  | bracket _ => exact Text.skipBlanks_cons_solid hbracket _
  | slash => exact Text.skipBlanks_cons_solid hbracket _
  | startTag => exact Text.skipBlanks_cons_solid hbracket _

theorem noMark (h : OpensContent cs) {mark : Char} (hmark : mark ∈ ['!', '?']) (r : List Char) :
    cs ≠ '<' :: mark :: r := by
  rintro rfl
  cases h with
  | text _ hne => exact hne rfl
  | bracket hopens =>
    have hnone := (hopens mark rfl).2
    exact hnone (List.mem_append_left ['/'] hmark)
  | slash => simp at hmark
  | startTag hletter _ _ _ =>
    simp only [List.mem_cons, List.not_mem_nil, or_false] at hmark
    rcases hmark with rfl | rfl <;> cases hletter

theorem goesOn (h : OpensContent cs) : GoesOn cs := ⟨h.solid, h.noMark (by simp)⟩

theorem marker_iff (h : OpensContent cs) : startsWithMarker cs = true ↔ BeginsLikeDocument cs := by
  rw [startsWithMarker_iff]
  constructor
  · rintro ⟨m, hm, word, more, rfl, hword⟩
    have hmarker : m = '<' :: '!' :: "doctype".toList ∨ ∃ tag ∈ documentTags, m = '<' :: tag.toList := by
      simp only [documentMarkers, List.map_cons, List.map_nil, List.mem_cons, List.not_mem_nil, or_false] at hm
      rcases hm with rfl | rfl | rfl | rfl
      · exact Or.inr ⟨"html", by decide, rfl⟩
      · exact Or.inr ⟨"head", by decide, rfl⟩
      · exact Or.inr ⟨"body", by decide, rfl⟩
      · exact Or.inl rfl
    rcases hmarker with rfl | ⟨tag, htag, rfl⟩
    · -- A doctype is no content.
      obtain ⟨r, rfl⟩ := hword.marked (by decide)
      exact absurd rfl (h.noMark (by decide) (r ++ more))
    · obtain ⟨r, rfl, hspells⟩ := hword.cons (by decide)
      exact ⟨tag, htag, r, more, rfl, hspells⟩
  · rintro ⟨tag, htag, word, more, rfl, hword⟩
    have hmarker : '<' :: tag.toList ∈ documentMarkers := by
      simp only [documentTags, List.mem_cons, List.not_mem_nil, or_false] at htag
      rcases htag with rfl | rfl | rfl <;> decide
    exact ⟨_, hmarker, '<' :: word, more, rfl, congrArg ('<' :: ·) hword⟩

end OpensContent

/-- A page that opens with content is a fragment, which nothing is printed around, unless
    it has an element and what it opens with begins like the tag of a document or a comment
    before it may be ended so that a marker follows. Then it is printed in an html. -/
theorem content_first_fragment {τ ν σ : Type} {lib : Library τ ν σ} (hcontainer : lib.KeepsContainer)
    (hkept : lib.KeepsDocument) {html : String} {w p g rest : List Char} (hhtml : html.toList = w ++ p ++ g ++ rest)
    (hw : AllBlank w) (hp : p = [] ∨ XmlDeclaration p) (hg : Preamble g) (hrest : OpensContent rest) :
    let page := Page.ofText lib html
    (page.isFragment = true ↔
      page.isVacant = true ∨ ¬ (BeginsLikeDocument rest ∨ CommentThenMarker (g ++ rest))) ∧
    (page.isFragment = true →
      page.print lib = String.ofList ((lib.inside page.root).flatMap (Written.dropContentTypes false))) ∧
    (page.isFragment = false → "<html".toList <+: (page.print lib).toList) := by
  obtain rfl : html = String.ofList (w ++ p ++ g ++ rest) := by rw [← hhtml, String.ofList_toList]
  refine ⟨?_, ?_, ?_⟩
  · rw [Page.isFragment_iff hkept, ← hrest.marker_iff, ← opensDocument_iff hw hp hg hrest.goesOn, Bool.not_eq_true]
  · exact fun hfragment => (Page.InContainer.of_ofText hcontainer hfragment).print_eq hcontainer
  · exact fun hdocument => Page.print_html hkept hdocument (Page.ofText_html hkept hdocument)

open Host.Tree (library library_keepsContainer library_keepsDocument)

/-- A paragraph behind a declaration and a comment. -/
theorem content_first_fragment_paragraph :
    let page := Page.ofText library " <?xml ?><!-- c --><p>1</p>"
    library.KeepsContainer ∧ library.KeepsDocument ∧ OpensContent "<p>1</p>".toList ∧ page.isFragment = true ∧
    page.print library = String.ofList ((library.inside page.root).flatMap (Written.dropContentTypes false)) ∧
    page.print library = "<!-- c --><p>1</p>" := by
  intro page
  have hp : XmlDeclaration ("<?xml".toList ++ [' '] ++ ['?', '>']) := .intro (by decide) (by decide)
  have hg : Preamble ("<!--".toList ++ (" c ".toList ++ "-->".toList ++ [])) := .comment (by decide) .nil
  have hrest : OpensContent ('<' :: 'p' :: [] ++ ">1</p>".toList) :=
    .startTag (by decide) (by decide) (by decide) (by decide)
  have hplain : ¬ (BeginsLikeDocument "<p>1</p>".toList ∨
      CommentThenMarker ("<!-- c -->".toList ++ "<p>1</p>".toList)) := by
    rintro (hbegins | hcomment)
    · exact absurd (hrest.marker_iff.mpr hbegins) (by decide)
    · exact absurd (commentThenMarker_iff.mp hcomment) (by decide)
  obtain ⟨hiff, hprint, -⟩ := content_first_fragment library_keepsContainer library_keepsDocument
    (show " <?xml ?><!-- c --><p>1</p>".toList = _ by decide) (show AllBlank [' '] by decide) (Or.inr hp) hg hrest
  have hfragment := hiff.mpr (Or.inr hplain)
  exact ⟨library_keepsContainer, library_keepsDocument, hrest, hfragment, hprint hfragment, by decide +kernel⟩

/-- A header is taken for the head of a document, and a paragraph between two comments for
    a part of the first of them, which is lost. -/
theorem content_taken_for_document :
    let header := Page.ofText library "<header>x</header>"
    let parted := Page.ofText library "<!-- a --><p>1</p><!-- b --><body>2</body>"
    (OpensContent "<header>x</header>".toList ∧ header.isFragment = false ∧
      header.print library = "<html><body><header>x</header></body></html>") ∧
    Preamble "<!-- a -->".toList ∧ OpensContent "<p>1</p><!-- b --><body>2</body>".toList ∧
      parted.isFragment = false ∧ parted.print library = "<html><body><p>1</p><!-- b -->2</body></html>" := by
  have hheader : OpensContent ('<' :: 'h' :: "eader".toList ++ ">x</header>".toList) :=
    .startTag (by decide) (by decide) (by decide) (by decide)
  have hparagraph : OpensContent ('<' :: 'p' :: [] ++ ">1</p><!-- b --><body>2</body>".toList) :=
    .startTag (by decide) (by decide) (by decide) (by decide)
  have hcomment : Preamble ("<!--".toList ++ (" a ".toList ++ "-->".toList ++ [])) := .comment (by decide) .nil
  exact ⟨⟨hheader, by decide +kernel, by decide +kernel⟩,
    hcomment, hparagraph, by decide +kernel, by decide +kernel⟩

end AttributeSheet.Markup
