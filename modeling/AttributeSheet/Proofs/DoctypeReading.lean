/-
  AttributeSheet.Proofs.DoctypeReading — which pages have a doctype of their own, and which.

  A page has one if it opens with it past blanks and an XML declaration with blanks behind
  it, or none (`Opening`). There is at most one way to part a page so (`Opening.unique`):
  blanks end where a bracket stands, the character behind the bracket tells a declaration
  from a doctype, and each of these ends at its first closing bracket. The reader of the
  doctype finds it wherever there is one (`Opening.read`), and nothing anywhere else
  (`exists_opening`).

  Whatever is read is a doctype itself (`doctype_isDoctype`), so it is read again from any
  text that begins with it. What compiling answers begins with it or is the page, and so
  has the doctype of the page (`doctype_read_and_kept`).
-/
import AttributeSheet.Host.Flat
import AttributeSheet.Proofs.KeptDoctype

namespace AttributeSheet

namespace Markup

namespace Prologue

open Text

inductive Declared : List Char → Prop
  | nothing : Declared []
  | declaration {x blanks : List Char} : XmlDeclaration x → AllBlank blanks → Declared (x ++ blanks)

/-- The page is blanks, a declaration or none, a doctype and the rest. -/
structure Opening (cs w p d rest : List Char) : Prop where
  parts : cs = w ++ p ++ d ++ rest
  blank : AllBlank w
  declared : Declared p
  doctype : Doctype d

/-! ## One way to part a page -/

/-- Blanks end where a text begins that does not begin with a blank. -/
theorem blanks_unique {w w' r r' : List Char} (hw : AllBlank w) (hw' : AllBlank w') (hr : skipBlanks r = r)
    (hr' : skipBlanks r' = r') (h : w ++ r = w' ++ r') : w = w' ∧ r = r' := by
  have hrest : r = r' := by
    have hskip := congrArg skipBlanks h
    rwa [skipBlanks_append_blank hw, skipBlanks_append_blank hw', hr, hr'] at hskip
  subst hrest
  exact ⟨List.append_cancel_right h, rfl⟩

theorem XmlDeclaration.unique {x x' r r' : List Char} (hx : XmlDeclaration x) (hx' : XmlDeclaration x')
    (h : x ++ r = x' ++ r') : x = x' ∧ r = r' := by
  have hafter : afterDeclaration? (x ++ r) = some r := afterDeclaration?_eq_some.mpr ⟨x, hx, rfl⟩
  have hafter' : afterDeclaration? (x ++ r) = some r' := afterDeclaration?_eq_some.mpr ⟨x', hx', h⟩
  have hrest : r = r' := Option.some.inj (hafter.symm.trans hafter')
  subst hrest
  exact ⟨List.append_cancel_right h, rfl⟩

theorem Doctype.unique {d d' r r' : List Char} (hd : Doctype d) (hd' : Doctype d') (h : d ++ r = d' ++ r') :
    d = d' ∧ r = r' := by
  have hread : leadingDoctype? (d ++ r) = some d := leadingDoctype?_eq_some.mpr ⟨hd, r, rfl⟩
  have hread' : leadingDoctype? (d ++ r) = some d' := leadingDoctype?_eq_some.mpr ⟨hd', r', h.symm⟩
  have hsame : d = d' := Option.some.inj (hread.symm.trans hread')
  subst hsame
  exact ⟨rfl, List.append_cancel_left h⟩

theorem Doctype.no_declaration {d x rest r : List Char} (hd : Doctype d) (hx : XmlDeclaration x) :
    d ++ rest ≠ x ++ r := by
  obtain ⟨s, rfl⟩ := hx.opening
  exact (hd.goesOn rest).noInstruction (s ++ r)

namespace Declared

theorem solid {p d : List Char} (hp : Declared p) (hd : Doctype d) (rest : List Char) :
    skipBlanks (p ++ (d ++ rest)) = p ++ (d ++ rest) := by
  cases hp with
  | nothing => exact (hd.goesOn rest).solid
  | @declaration x blanks hx _ =>
    obtain ⟨r, rfl⟩ := hx.opening
    exact skipBlanks_cons_solid (by decide) _

theorem unique {p p' d d' rest rest' : List Char} (hp : Declared p) (hp' : Declared p') (hd : Doctype d)
    (hd' : Doctype d') (h : p ++ (d ++ rest) = p' ++ (d' ++ rest')) : p = p' ∧ d ++ rest = d' ++ rest' := by
  cases hp with
  | nothing =>
    cases hp' with
    | nothing => exact ⟨rfl, h⟩
    | @declaration x' blanks' hx' _ =>
      rw [List.nil_append, List.append_assoc] at h
      exact absurd h (hd.no_declaration hx')
  | @declaration x blanks hx hblanks =>
    cases hp' with
    | nothing =>
      rw [List.nil_append, List.append_assoc] at h
      exact absurd h.symm (hd'.no_declaration hx)
    | @declaration x' blanks' hx' hblanks' =>
      rw [List.append_assoc, List.append_assoc] at h
      obtain ⟨rfl, hbehind⟩ := hx.unique hx' h
      obtain ⟨rfl, hrest⟩ := blanks_unique hblanks hblanks' (hd.goesOn rest).solid (hd'.goesOn rest').solid hbehind
      exact ⟨rfl, hrest⟩

end Declared

theorem Opening.unique {cs w p d rest w' p' d' rest' : List Char} (h : Opening cs w p d rest)
    (h' : Opening cs w' p' d' rest') : w' = w ∧ p' = p ∧ d' = d ∧ rest' = rest := by
  have hparts : w' ++ (p' ++ (d' ++ rest')) = w ++ (p ++ (d ++ rest)) := by
    simpa only [List.append_assoc] using h'.parts.symm.trans h.parts
  obtain ⟨hw, hpast⟩ := blanks_unique h'.blank h.blank (h'.declared.solid h'.doctype rest')
    (h.declared.solid h.doctype rest) hparts
  obtain ⟨hp, hbehind⟩ := h'.declared.unique h.declared h'.doctype h.doctype hpast
  obtain ⟨hd, hrest⟩ := h'.doctype.unique h.doctype hbehind
  exact ⟨hw, hp, hd, hrest⟩

/-! ## The reader -/

theorem Opening.read {cs w p d rest : List Char} (h : Opening cs w p d rest) : doctype? cs = some d := by
  obtain ⟨rfl, hw, hp, hd⟩ := h
  have hread : leadingDoctype? (d ++ rest) = some d := leadingDoctype?_eq_some.mpr ⟨hd, rest, rfl⟩
  have hsolid := (hd.goesOn rest).solid
  cases hp with
  | nothing =>
    obtain ⟨hpast, -⟩ := past_declaration hw (Or.inl rfl) .nil (hd.goesOn rest)
    rw [List.append_nil, List.nil_append, hsolid, ← List.append_assoc] at hpast
    rw [doctype?, hpast, hread]
  | @declaration x blanks hx hblanks =>
    have hpreamble : Preamble blanks := by simpa using Preamble.of_blanks hblanks .nil
    obtain ⟨hpast, -⟩ := past_declaration hw (Or.inr hx) hpreamble (hd.goesOn rest)
    rw [skipBlanks_append_blank hblanks, hsolid, ← List.append_assoc, List.append_assoc w] at hpast
    rw [doctype?, hpast, hread]

theorem exists_opening {cs d : List Char} (h : doctype? cs = some d) : ∃ w p rest, Opening cs w p d rest := by
  unfold doctype? at h
  obtain ⟨hd, rest, hrest⟩ := leadingDoctype?_eq_some.mp h
  obtain ⟨w, hw, hcs⟩ := exists_blanks cs
  cases hafter : afterDeclaration? (skipBlanks cs) with
  | none =>
    have hskip : d ++ rest = skipBlanks cs := by simpa only [hafter, Option.map_none, Option.getD_none] using hrest
    have hparts : cs = w ++ [] ++ d ++ rest := by rw [List.append_nil, List.append_assoc, hskip, ← hcs]
    exact ⟨w, [], rest, hparts, hw, .nothing, hd⟩
  | some body =>
    have hskip : d ++ rest = skipBlanks body := by simpa only [hafter, Option.map_some, Option.getD_some] using hrest
    obtain ⟨x, hx, hopening⟩ := afterDeclaration?_eq_some.mp hafter
    obtain ⟨blanks, hblanks, hbody⟩ := exists_blanks body
    have hparts : cs = w ++ (x ++ blanks) ++ d ++ rest := by
      rw [List.append_assoc _ d, hskip, List.append_assoc w, List.append_assoc x, ← hbody, ← hopening, ← hcs]
    exact ⟨w, x ++ blanks, rest, hparts, hw, .declaration hx hblanks, hd⟩

theorem currentDoctype_isDoctype : Doctype currentDoctype.toList :=
  .intro (show Spells "<!doctype".toList "<!doctype".toList by decide) (show '>' ∉ " html".toList by decide)

end Prologue

open Prologue

theorem doctype_of_opening {html : String} {w p d rest : List Char} (h : Opening html.toList w p d rest) :
    doctype html = String.ofList d := by
  rw [doctype, h.read]
  rfl

theorem doctype_of_no_opening {html : String} (h : ∀ w p d rest, ¬ Opening html.toList w p d rest) :
    doctype html = currentDoctype := by
  cases hread : doctype? html.toList with
  | none =>
    rw [doctype, hread]
    rfl
  | some d =>
    obtain ⟨w, p, rest, hopening⟩ := exists_opening hread
    exact absurd hopening (h w p d rest)

theorem doctype_isDoctype (html : String) : Doctype (doctype html).toList := by
  by_cases h : ∃ w p d rest, Opening html.toList w p d rest
  · obtain ⟨w, p, d, rest, hopening⟩ := h
    rw [doctype_of_opening hopening, String.toList_ofList]
    exact hopening.doctype
  · rw [doctype_of_no_opening fun w p d rest hopening => h ⟨w, p, d, rest, hopening⟩]
    exact currentDoctype_isDoctype

theorem doctype_doctype_append (html rest : String) : doctype (doctype html ++ rest) = doctype html := by
  have hopening : Opening (doctype html ++ rest).toList [] [] (doctype html).toList rest.toList :=
    ⟨String.toList_append, nofun, .nothing, doctype_isDoctype html⟩
  rw [doctype_of_opening hopening, String.ofList_toList]

end Markup

namespace Session

open Markup.Prologue (Opening Declared XmlDeclaration Doctype)

/-- What compiling answers is the page, or begins with what the host takes for its doctype. -/
theorem compile_answer {δ ε : Type} {host : Host δ ε} {s : Session δ} {source : Option String} {html out : String}
    (h : (s.compile host source html).result = .ok out) : out = html ∨ ∃ printed, out = host.doctype html ++ printed := by
  rcases compile_cases host s source html with hmissing | ⟨text, l, happlied⟩
  · left
    rw [hmissing] at h
    unfold report at h
    cases hhalt : ((Run.start s.page s.reported : Run δ ε).report s.handler .noInput).halt with
    | none => simpa only [hhalt, Except.ok.injEq, eq_comm] using h
    | some halt => simp only [hhalt, reduceCtorEq] at h
  · right
    rw [happlied] at h
    have hresult : Cascade.result host html (Cascade.run host s.handler l s.page s.reported html) = .ok out := h
    unfold Cascade.result at hresult
    cases hhalt : (Cascade.run host s.handler l s.page s.reported html).halt with
    | none =>
      rw [hhalt] at hresult
      exact ⟨_, (Except.ok.inj hresult).symm⟩
    | some halt =>
      rw [hhalt] at hresult
      cases hresult

/-- If a page opens with a doctype past blanks and an XML declaration with blanks behind it,
    or none, there is one way to part it so, and that doctype is read from it; from every
    other page the current one is read. What is read is read again from every text that
    begins with it. So on every host that reads doctypes this way, and for every sheet, a
    page that is compiled has the doctype that it had before. -/
theorem doctype_read_and_kept :
    (∀ html : String,
      (∀ w p d rest, Opening html.toList w p d rest →
        Markup.doctype html = String.ofList d ∧
          ∀ w' p' d' rest', Opening html.toList w' p' d' rest' → w' = w ∧ p' = p ∧ d' = d ∧ rest' = rest) ∧
      ((∀ w p d rest, ¬ Opening html.toList w p d rest) → Markup.doctype html = "<!doctype html>")) ∧
    (∀ html rest : String, Markup.doctype (Markup.doctype html ++ rest) = Markup.doctype html) ∧
    ∀ {δ ε : Type} (host : Host δ ε) (s : Session δ) (source : Option String) (html out : String),
      host.doctype = Markup.doctype → (s.compile host source html).result = .ok out →
        Markup.doctype out = Markup.doctype html := by
  refine ⟨fun html => ⟨?_, ?_⟩, Markup.doctype_doctype_append, ?_⟩
  · intro w p d rest hopening
    exact ⟨Markup.doctype_of_opening hopening, fun w' p' d' rest' h' => hopening.unique h'⟩
  · intro hnone
    exact Markup.doctype_of_no_opening hnone
  · intro δ ε host s source html out hhost hout
    rcases compile_answer hout with hpage | ⟨printed, hanswer⟩
    · rw [hpage]
    · rw [hanswer, hhost]
      exact Markup.doctype_doctype_append html printed

/-- A doctype in capitals behind a declaration in capitals, a page whose doctype stands behind
    a comment, and what the first one is compiled to. -/
theorem doctype_read_and_kept_capitals :
    let html := "\n<?XML a=\"<\"?>\t<!DOCTYPE a [<b]><p>"
    let hidden := "<!-- c --><!doctype a>"
    let s : Session (List Host.Flat.Element) := ⟨.legacy, none, [⟨"p", .empty⟩], [], []⟩
    let out := "<!DOCTYPE a [<b]><p x=\"<!doctype b>\"></p>"
    (∃ w p d rest, Opening html.toList w p d rest ∧ Markup.doctype html = String.ofList d) ∧
    (∀ w p d rest, ¬ Opening hidden.toList w p d rest) ∧ Markup.doctype hidden = "<!doctype html>" ∧
    Host.flat.doctype = Markup.doctype ∧
    (s.compile Host.flat (some "p \x7b x: <!doctype b>; \x7d") html).result = .ok out ∧
    Markup.doctype out = Markup.doctype html := by
  intro html hidden s out
  have hp : Declared (("<?XML".toList ++ " a=\"<\"".toList ++ ['?', '>']) ++ ['\t']) :=
    .declaration (.intro (by decide) (by decide)) (by decide)
  have hd : Doctype ("<!DOCTYPE".toList ++ " a [<b]".toList ++ ['>']) := .intro (by decide) (by decide)
  have hopening : Opening html.toList ['\n'] _ _ "<p>".toList := ⟨by decide, by decide, hp, hd⟩
  have hhidden : ∀ w p d rest, ¬ Opening hidden.toList w p d rest := by
    intro w p d rest h
    have hread := h.read
    have hnone : Markup.Prologue.doctype? hidden.toList = none := by decide
    exact nomatch hnone.symm.trans hread
  have hout : (s.compile Host.flat (some "p \x7b x: <!doctype b>; \x7d") html).result = .ok out := by decide +kernel
  obtain ⟨hreading, -, hcompile⟩ := doctype_read_and_kept
  exact ⟨⟨_, _, _, _, hopening, ((hreading html).1 _ _ _ _ hopening).1⟩, hhidden, (hreading hidden).2 hhidden, rfl,
    hout, hcompile Host.flat s _ html out rfl hout⟩

end Session

end AttributeSheet
