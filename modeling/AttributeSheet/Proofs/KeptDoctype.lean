/-
  AttributeSheet.Proofs.KeptDoctype — a document's own doctype before what is printed of it.

  The printed page has no doctype, so the answer to a run begins with one that is read
  off the page's text. Two readers pass over what comes before it. The one that tells
  documents from fragments passes over blanks and comments, the one that reads the
  doctype over blanks alone; a declaration both pass over. So every page with a doctype
  behind these is a document, and its doctype is kept if there is no comment before it
  (`own_doctype_behind_blanks`). If there is one, the current doctype replaces it
  (`own_doctype_lost_behind_comment`).
-/
import AttributeSheet.Proofs.ContainerKept
import AttributeSheet.Proofs.PageOpening
import AttributeSheet.Proofs.TotalBoundary

namespace AttributeSheet

namespace Markup

open Prologue

namespace Prologue

/-! ## What a doctype opens with -/

theorem Doctype.opening {d : List Char} (h : Doctype d) : ∃ r, d = '<' :: '!' :: r := by
  obtain ⟨hword, -⟩ := h
  rename_i word inside
  have hmarked : Spells ('<' :: '!' :: "doctype".toList) word := hword
  obtain ⟨r, rfl⟩ := hmarked.marked (by decide)
  exact ⟨_, rfl⟩

theorem Doctype.goesOn {d : List Char} (h : Doctype d) (rest : List Char) : GoesOn (d ++ rest) := by
  obtain ⟨r, rfl⟩ := h.opening
  exact ⟨Text.skipBlanks_cons_solid (by decide) _, nofun⟩

theorem Doctype.marker {d : List Char} (h : Doctype d) (rest : List Char) : startsWithMarker (d ++ rest) = true := by
  obtain ⟨hword, -⟩ := h
  rename_i word inside
  exact startsWithMarker_iff.mpr ⟨_, by decide, word, inside ++ ['>'] ++ rest, by simp, hword⟩

theorem leadingDoctype?_comment (more : List Char) : leadingDoctype? ("<!--".toList ++ more) = none := rfl

end Prologue

/-! ## The doctype of a page -/

/-- A doctype behind blanks, a declaration or none, blanks and comments is the page's own if
    there is no comment, and not seen if there is one. -/
theorem doctype_behind_preamble {html : String} {w p g d rest : List Char}
    (hhtml : html.toList = w ++ p ++ g ++ (d ++ rest)) (hw : AllBlank w) (hp : p = [] ∨ XmlDeclaration p)
    (hg : Preamble g) (hd : Doctype d) :
    doctype html = if AllBlank g then String.ofList d else currentDoctype := by
  obtain ⟨hpast, -⟩ := past_declaration hw hp hg (hd.goesOn rest)
  rw [doctype, doctype?, hhtml, hpast]
  rcases hg.skipBlanks_append (hd.goesOn rest).solid with ⟨hblank, hskip⟩ | ⟨hcomment, more, hskip⟩
  · have hread : leadingDoctype? (d ++ rest) = some d := leadingDoctype?_eq_some.mpr ⟨hd, List.prefix_append d rest⟩
    rw [hskip, hread, if_pos hblank]
    rfl
  · rw [hskip, leadingDoctype?_comment, if_neg hcomment]
    rfl

end Markup

/-! ## What is printed behind it -/

namespace Host

open Markup (Library Page)

variable {τ ν σ : Type} [DecidableEq ν] {lib : Library τ ν σ}

theorem Handled.document (hlib : lib.KeepsDocument) {first page : Page τ} {named : List ν}
    (h : (parsed lib).Handled first page named) :
    page.isFragment = first.isFragment ∧ lib.tag page.root = lib.tag first.root := by
  induction h with
  | taken => exact ⟨rfl, rfl⟩
  | asked _ _ ih => exact ih
  | wrote _ _ hwrite ih =>
    simp only [parsed, Parsed.write] at hwrite
    split at hwrite
    next root hset =>
      obtain rfl := Except.ok.inj hwrite
      exact ⟨ih.1, (hlib.set_tag hset).trans ih.2⟩
    · cases hwrite

theorem print_run_html (hlib : lib.KeepsDocument) {html : String} (hdocument : (Page.ofText lib html).isFragment = false)
    (handler : Option Handler) (l : List Declaration) (page : Page τ) (reported : List Problem) :
    "<html".toList <+: ((parsed lib).print (Cascade.run (parsed lib) handler l page reported html).page).toList := by
  obtain ⟨named, hhandled⟩ := Cascade.run_handled (parsed lib) handler l page reported html
  obtain ⟨hfragment, htag⟩ := Handled.document hlib hhandled
  exact Page.print_html hlib (hfragment.trans hdocument) (htag.trans (Page.ofText_html hlib hdocument))

end Host

namespace Session

open Markup (Element Library Page)
open Markup.Prologue (AllBlank XmlDeclaration Preamble Doctype)
open Host.Tree (library library_keepsDocument)

/-- Of a page with a doctype behind blanks, a declaration or none, blanks and comments, that
    one is read if no comment comes before it, and none is if one does. The page is a whole
    document, or has no element. What it comes to begins with the doctype that is read,
    and the html of a document follows at once. -/
theorem own_doctype_behind_blanks {τ ν σ : Type} [DecidableEq ν] {lib : Library τ ν σ} (hlib : lib.KeepsDocument)
    {html : String} {w p g d rest : List Char}
    (hhtml : html.toList = w ++ p ++ g ++ (d ++ rest)) (hw : AllBlank w) (hp : p = [] ∨ XmlDeclaration p)
    (hg : Preamble g) (hd : Doctype d) {s : Session (Page τ)} (hq : Quiet s.handler) (l : List Declaration) :
    Markup.doctype html = (if AllBlank g then String.ofList d else Markup.currentDoctype) ∧
    ((Page.ofText lib html).isFragment = true ↔ (Page.ofText lib html).isVacant = true) ∧
    ∃ printed, (s.apply (Host.parsed lib) l html).result = .ok (Markup.doctype html ++ printed) ∧
      ((Page.ofText lib html).isFragment = false → "<html".toList <+: printed.toList) := by
  refine ⟨Markup.doctype_behind_preamble hhtml hw hp hg hd, ?_, ?_⟩
  · have hopens : Markup.opensDocument (Markup.dropDeclaration html) = true := by
      rw [← String.ofList_toList (s := html), hhtml, Markup.Prologue.opensDocument_iff hw hp hg (hd.goesOn rest)]
      exact Or.inl (hd.marker rest)
    simp [Page.isFragment_iff hlib, hopens]
  · exact ⟨_, apply_answers (Host.parsed_onlyRejects lib) hq l html,
      fun hdocument => Host.print_run_html hlib hdocument s.handler l s.page s.reported⟩

/-- A public doctype behind a declaration. -/
theorem own_doctype_behind_declaration :
    let html := " <?xml ?>\n<!DOCTYPE html PUBLIC \"x\"><html></html>"
    let s : Session (Page Element) := ⟨.tuple, none, .empty library, [], []⟩
    library.KeepsDocument ∧
    Markup.doctype html = "<!DOCTYPE html PUBLIC \"x\">" ∧ (Page.ofText library html).isFragment = false ∧
    (∃ printed, (s.apply Host.tree [] html).result = .ok (Markup.doctype html ++ printed) ∧
      "<html".toList <+: printed.toList) ∧
    (s.apply Host.tree [] html).result = .ok "<!DOCTYPE html PUBLIC \"x\"><html></html>" := by
  intro html s
  have hp : XmlDeclaration ("<?xml".toList ++ [' '] ++ ['?', '>']) := .intro (by decide) (by decide)
  have hg : Preamble ['\n'] := .blank (by decide) .nil
  have hd : Doctype ("<!DOCTYPE".toList ++ " html PUBLIC \"x\"".toList ++ ['>']) := .intro (by decide) (by decide)
  have hdocument : (Page.ofText library html).isFragment = false := by decide +kernel
  obtain ⟨hdoctype, -, printed, hresult, hprinted⟩ := own_doctype_behind_blanks (s := s) library_keepsDocument
    (show html.toList = [' '] ++ _ ++ _ ++ (_ ++ "<html></html>".toList) by decide)
    (by decide) (Or.inr hp) hg hd quiet_none []
  have hshown : (s.apply Host.tree [] html).result = _ := apply_answers (Host.parsed_onlyRejects library) quiet_none [] html
  exact ⟨library_keepsDocument, hdoctype, hdocument, ⟨printed, hresult, hprinted hdocument⟩,
    hshown.trans (congrArg Except.ok (by decide +kernel))⟩

/-- Behind a comment the page is a document as well, and its doctype is replaced. -/
theorem own_doctype_lost_behind_comment :
    let html := "<!-- c --><!DOCTYPE html PUBLIC \"x\"><html></html>"
    let s : Session (Page Element) := ⟨.tuple, none, .empty library, [], []⟩
    Preamble "<!-- c -->".toList ∧ Doctype "<!DOCTYPE html PUBLIC \"x\">".toList ∧
    (Page.ofText library html).isFragment = false ∧ Markup.doctype html = "<!doctype html>" ∧
    (s.apply Host.tree [] html).result = .ok "<!doctype html><html></html>" := by
  intro html s
  have hg : Preamble ("<!--".toList ++ (" c ".toList ++ "-->".toList ++ [])) := .comment (by decide) .nil
  have hd : Doctype ("<!DOCTYPE".toList ++ " html PUBLIC \"x\"".toList ++ ['>']) := .intro (by decide) (by decide)
  have hshown : (s.apply Host.tree [] html).result = _ := apply_answers (Host.parsed_onlyRejects library) quiet_none [] html
  exact ⟨hg, hd, by decide +kernel, by decide +kernel, hshown.trans (congrArg Except.ok (by decide +kernel))⟩

end Session

end AttributeSheet
