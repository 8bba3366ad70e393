/-
  AttributeSheet.Proofs.DocumentScan — documents told from fragments in one pass.

  One pass over a page is enough to tell whether it is a whole document, and it remembers
  one of finitely many states (`Scan`): how much of an end of a comment has been read, or
  of a marker. Every state stands for a text that goes on the same way (`Scan.text`), and
  one more character takes the state to one whose text goes on like the text with that
  character (`Scan.step_text`). So after all of them the state says what a search for the
  pattern finds (`scan_eq_document_iff`), where the comments may be parted in any way.
  A page is taken in by what the pass says (`document_told_in_one_pass`).

  A comment that has been opened is never given up: what follows an end of it either is a
  marker, or belongs to the comment as well.
-/
import AttributeSheet.Markup.Page
import AttributeSheet.Proofs.DocumentPattern
import Mathlib.Tactic.DeriveFintype

namespace AttributeSheet.Markup

namespace Prologue

open Text

/-! ## Letters of any case -/

theorem lowered_idem (c : Char) : lowerLatinChar (lowerLatinChar c) = lowerLatinChar c := by
  by_cases hc : ('A' ≤ c && c ≤ 'Z') = true
  · have hle := isCapital_iff_toNat.mp hc
    have hsmall : ¬ ('A' ≤ lowerLatinChar c && lowerLatinChar c ≤ 'Z') = true := by
      rw [isCapital_iff_toNat, lowered_toNat hc]
      omega
    rw [lowerLatinChar, if_neg hsmall]
  · simp only [lowerLatinChar, if_neg hc]

theorem isBlank_lowered (c : Char) : isBlank (lowerLatinChar c) = isBlank c := by
  by_cases hc : ('A' ≤ c && c ≤ 'Z') = true
  · have hletter : isLatinLetter c = true := by rw [isLatinLetter, hc, Bool.or_true]
    rw [isBlank_letter (isLatinLetter_lowered hc), isBlank_letter hletter]
  · rw [lowerLatinChar, if_neg hc]

theorem map_lowered_idem (cs : List Char) : (cs.map lowerLatinChar).map lowerLatinChar = cs.map lowerLatinChar := by
  rw [List.map_map]
  exact List.map_congr_left fun c _ => lowered_idem c

theorem skipBlanks_lowered (cs : List Char) :
    skipBlanks (cs.map lowerLatinChar) = (skipBlanks cs).map lowerLatinChar := by
  have hblank : isBlank ∘ lowerLatinChar = isBlank := funext isBlank_lowered
  rw [skipBlanks, List.dropWhile_map, hblank, skipBlanks]

theorem after?_lowered {word : List Char} (hsigns : word.any isLatinLetter = false) (cs : List Char) :
    after? word (cs.map lowerLatinChar) = (after? word cs).map (·.map lowerLatinChar) := by
  induction word generalizing cs with
  | nil => rfl
  | cons m word ih =>
    obtain ⟨hm, hword⟩ := Bool.or_eq_false_iff.mp hsigns
    cases cs with
    | nil => rfl
    | cons c cs =>
      by_cases h : c = m
      · have hc : lowerLatinChar c = m := h ▸ lowered_of_no_letter (h ▸ hm)
        rw [List.map_cons, after?, if_pos hc, ih hword, after?, if_pos h]
      · have hc : lowerLatinChar c ≠ m := fun hc => h (eq_of_lowered_eq hm hc)
        rw [List.map_cons, after?, if_neg hc, after?, if_neg h]
        rfl

theorem startsWithMarker_iff_prefix {cs : List Char} :
    startsWithMarker cs = true ↔ ∃ m ∈ documentMarkers, m <+: cs.map lowerLatinChar := by
  rw [startsWithMarker_iff]
  constructor
  · rintro ⟨m, hm, word, rest, rfl, hword⟩
    exact ⟨m, hm, rest.map lowerLatinChar, by rw [List.map_append, hword]⟩
  · rintro ⟨m, hm, rest, hrest⟩
    obtain ⟨word, rest, rfl, hword, -⟩ := List.map_eq_append_iff.mp hrest.symm
    exact ⟨m, hm, word, rest, rfl, hword⟩

theorem startsWithMarker_lowered (cs : List Char) : startsWithMarker (cs.map lowerLatinChar) = startsWithMarker cs := by
  rw [Bool.eq_iff_iff, startsWithMarker_iff_prefix, startsWithMarker_iff_prefix, map_lowered_idem]

theorem markerAfterCommentEnd_lowered (cs : List Char) :
    markerAfterCommentEnd (cs.map lowerLatinChar) = markerAfterCommentEnd cs := by
  induction cs with
  | nil => rfl
  | cons c cs ih =>
    rw [List.map_cons, markerAfterCommentEnd_cons, markerAfterCommentEnd_cons, ih, ← List.map_cons,
      after?_lowered (by decide), Option.any_map]
    simp only [skipBlanks_lowered, startsWithMarker_lowered]

theorem opensDocumentChars_eq (cs : List Char) : opensDocumentChars cs =
    (startsWithMarker (skipBlanks cs) || (after? "<!--".toList (skipBlanks cs)).any markerAfterCommentEnd) := by
  rw [opensDocumentChars]
  cases after? "<!--".toList (skipBlanks cs) <;> rfl

theorem opensDocumentChars_lowered (cs : List Char) :
    opensDocumentChars (cs.map lowerLatinChar) = opensDocumentChars cs := by
  rw [opensDocumentChars_eq, opensDocumentChars_eq, skipBlanks_lowered, startsWithMarker_lowered,
    after?_lowered (by decide), Option.any_map]
  simp only [markerAfterCommentEnd_lowered]

theorem opensDocumentChars_letter (p : List Char) (c : Char) (r : List Char) :
    opensDocumentChars (p ++ c :: r) = opensDocumentChars (p ++ lowerLatinChar c :: r) := by
  rw [← opensDocumentChars_lowered, ← opensDocumentChars_lowered (p ++ lowerLatinChar c :: r)]
  simp only [List.map_append, List.map_cons, lowered_idem]

/-! ## What the words begin with -/

/-- What the words begin with: not nothing, and none of them as a whole. -/
def stems (words : List (List Char)) : List (List Char) :=
  words.flatMap fun word => word.inits.filter fun stem => stem ≠ [] ∧ stem ≠ word

theorem mem_stems {words : List (List Char)} {stem : List Char} :
    stem ∈ stems words ↔ ∃ word ∈ words, stem <+: word ∧ stem ≠ [] ∧ stem ≠ word := by
  simp [stems]

/-- Where one more character makes neither a word nor a stem of one, no word begins. -/
theorem no_word_begins {words : List (List Char)} {p : List Char} {d : Char} (hp : ∀ word ∈ words, ¬ word <+: p)
    (hword : p ++ [d] ∉ words) (hstem : p ++ [d] ∉ stems words) (r : List Char) :
    ∀ word ∈ words, ¬ word <+: p ++ [d] ++ r := by
  intro word hmem hbegins
  rcases List.prefix_or_prefix_of_prefix hbegins (List.prefix_append (p ++ [d]) r) with hshort | hlong
  · rcases List.prefix_concat_iff.mp hshort with rfl | hshorter
    · exact hword hmem
    · exact hp word hmem hshorter
  · refine hstem (mem_stems.mpr ⟨word, hmem, hlong, by simp, ?_⟩)
    rintro rfl
    exact hword hmem

/-! ## The states of the pass -/

def documentOpeners : List (List Char) := "<!--".toList :: documentMarkers

/-- What there is to remember of the characters read. -/
inductive Scan where
  /-- Nothing but blanks came. -/
  | blank
  /-- Behind them, something begins. -/
  | opened (stem : { stem : List Char // stem ∈ stems documentOpeners })
  /-- A comment is open, -/
  | inside
  /-- and so much of an end was read last. -/
  | dash
  | dashes
  /-- An end of the comment, and blanks behind it. -/
  | ended
  /-- Behind these, a marker begins. -/
  | reopened (stem : { stem : List Char // stem ∈ stems documentMarkers })
  | document
  | fragment
  deriving DecidableEq, Fintype

namespace Scan

/-- Before any comment, one more character of what may be a marker or the opener of a comment. -/
def opening (read : List Char) (c : Char) : Scan :=
  if read ++ [c] ∈ documentMarkers then .document
  else if read ++ [c] = "<!--".toList then .inside
  else if h : read ++ [c] ∈ stems documentOpeners then .opened ⟨_, h⟩
  else .fragment

/-- Behind an end of a comment, one more character of what may be a marker. -/
def reopening (read : List Char) (c : Char) : Scan :=
  if read ++ [c] ∈ documentMarkers then .document
  else if h : read ++ [c] ∈ stems documentMarkers then .reopened ⟨_, h⟩
  else if c = '-' then .dash
  else .inside

def step : Scan → Char → Scan
  | blank, c => if isBlank c then .blank else opening [] (lowerLatinChar c)
  | opened stem, c => opening stem (lowerLatinChar c)
  | inside, c => if c = '-' then .dash else .inside
  | dash, c => if c = '-' then .dashes else .inside
  | dashes, c => if c = '-' then .dashes else if c = '>' then .ended else .inside
  | ended, c => if isBlank c then .ended else reopening [] (lowerLatinChar c)
  | reopened stem, c => reopening stem (lowerLatinChar c)
  | document, _ => .document
  | fragment, _ => .fragment

/-- A text that goes on the way the state does. -/
def text : Scan → List Char
  | blank => []
  | opened stem => stem
  | inside => "<!--".toList
  | dash => "<!---".toList
  | dashes => "<!----".toList
  | ended => "<!---->".toList
  | reopened stem => "<!---->".toList ++ stem
  | document => "<html".toList
  | fragment => ['.']

end Scan

def scan (cs : List Char) : Scan := cs.foldl Scan.step .blank

/-! ## Inside a comment -/

theorem opens_comment (body : List Char) : opensDocumentChars ("<!--".toList ++ body) = markerAfterCommentEnd body := rfl

theorem opens_comment_congr {body body' : List Char} (h : markerAfterCommentEnd body = markerAfterCommentEnd body') :
    opensDocumentChars ("<!--".toList ++ body) = opensDocumentChars ("<!--".toList ++ body') := by
  rw [opens_comment, opens_comment, h]

theorem markerAfterCommentEnd_other {c : Char} (hc : c ≠ '-') (r : List Char) :
    markerAfterCommentEnd (c :: r) = markerAfterCommentEnd r := by
  simp [markerAfterCommentEnd_cons, after?, hc]

theorem markerAfterCommentEnd_dash {c : Char} (hc : c ≠ '-') (r : List Char) :
    markerAfterCommentEnd ('-' :: c :: r) = markerAfterCommentEnd r := by
  rw [← markerAfterCommentEnd_other hc r, markerAfterCommentEnd_cons '-']
  simp [after?, hc]

theorem markerAfterCommentEnd_dashes {c : Char} (hc : c ≠ '-') (hend : c ≠ '>') (r : List Char) :
    markerAfterCommentEnd ('-' :: '-' :: c :: r) = markerAfterCommentEnd r := by
  rw [← markerAfterCommentEnd_dash hc r, markerAfterCommentEnd_cons '-' ('-' :: c :: r)]
  simp [after?, hend]

theorem markerAfterCommentEnd_third_dash (r : List Char) :
    markerAfterCommentEnd ('-' :: '-' :: '-' :: r) = markerAfterCommentEnd ('-' :: '-' :: r) := by
  rw [markerAfterCommentEnd_cons '-' ('-' :: '-' :: r)]
  simp [after?]

theorem markerAfterCommentEnd_end (r : List Char) :
    markerAfterCommentEnd ("-->".toList ++ r) = (startsWithMarker (skipBlanks r) || markerAfterCommentEnd r) := by
  have hrest : markerAfterCommentEnd ('-' :: '>' :: r) = markerAfterCommentEnd r :=
    markerAfterCommentEnd_dash (by decide) r
  exact (markerAfterCommentEnd_cons '-' ('-' :: '>' :: r)).trans (by rw [hrest]; rfl)

theorem markerAfterCommentEnd_append {p : List Char} (hp : '-' ∉ p) (r : List Char) :
    markerAfterCommentEnd (p ++ r) = markerAfterCommentEnd r := by
  induction p with
  | nil => rfl
  | cons c p ih =>
    obtain ⟨hc, hrest⟩ : '-' ≠ c ∧ '-' ∉ p := by simpa using hp
    rw [List.cons_append, markerAfterCommentEnd_other (Ne.symm hc), ih hrest]

/-! ## One more character -/

theorem startsWithMarker_append {m : List Char} (hm : m ∈ documentMarkers) (r : List Char) :
    startsWithMarker (m ++ r) = true := by
  have hsmall : ∀ m ∈ documentMarkers, Spells m m := by decide
  exact startsWithMarker_iff.mpr ⟨m, hm, m, r, rfl, hsmall m hm⟩

theorem opens_marker {m : List Char} (hm : m ∈ documentMarkers) (r : List Char) : opensDocumentChars (m ++ r) = true :=
  opensDocumentChars_iff.mpr (Or.inl ⟨[], m ++ r, rfl, nofun, startsWithMarker_append hm r⟩)

theorem opens_fragment (r : List Char) : opensDocumentChars (Scan.fragment.text ++ r) = false := rfl

/-- What may be a marker or the opener of a comment, up to the last character, which is
    given in its small form. -/
structure Candidate (read : List Char) (c : Char) : Prop where
  mem : read ∈ [] :: stems documentOpeners
  solid : read = [] → isBlank c = false
  small : lowerLatinChar c = c

namespace Candidate

theorem first {c : Char} (hc : ¬ isBlank c = true) : Candidate [] (lowerLatinChar c) where
  mem := List.mem_cons_self
  solid _ := by rwa [isBlank_lowered, ← Bool.not_eq_true]
  small := lowered_idem c

theorem next {stem : List Char} (hstem : stem ∈ stems documentOpeners) (c : Char) :
    Candidate stem (lowerLatinChar c) where
  mem := List.mem_cons_of_mem _ hstem
  solid := by
    rintro rfl
    exact absurd hstem (by decide)
  small := lowered_idem c

variable {read : List Char} {c : Char}

theorem skipBlanks_append (h : Candidate read c) (r : List Char) :
    skipBlanks (read ++ [c] ++ r) = read ++ [c] ++ r := by
  rcases List.mem_cons.mp h.mem with rfl | hstem
  · exact skipBlanks_cons_solid (h.solid rfl) r
  · have hbracket : ∀ stem ∈ stems documentOpeners, stem.head? = some '<' := by decide
    obtain ⟨more, rfl⟩ := List.head?_eq_some_iff.mp (hbracket read hstem)
    exact skipBlanks_cons_solid (by decide) _

theorem no_word (h : Candidate read c) {words : List (List Char)} (hwords : words ⊆ documentOpeners)
    (hword : read ++ [c] ∉ words) (hstem : read ++ [c] ∉ stems words) (r : List Char) :
    ∀ word ∈ words, ¬ word <+: read ++ [c] ++ r := by
  have hread : ∀ stem ∈ [] :: stems documentOpeners, ∀ word ∈ documentOpeners, ¬ word <+: stem := by decide
  exact no_word_begins (fun word hmem => hread read h.mem word (hwords hmem)) hword hstem r

theorem no_marker (h : Candidate read c) (hno : ∀ r, ∀ m ∈ documentMarkers, ¬ m <+: read ++ [c] ++ r) (r : List Char) :
    startsWithMarker (read ++ [c] ++ r) = false := by
  have hsmall : ∀ stem ∈ [] :: stems documentOpeners, stem.map lowerLatinChar = stem := by decide
  rw [Bool.eq_false_iff, Ne, startsWithMarker_iff_prefix]
  rintro ⟨m, hm, hbegins⟩
  rw [List.map_append, List.map_append, hsmall read h.mem, List.map_singleton, h.small] at hbegins
  exact hno _ m hm hbegins

theorem opening_text (h : Candidate read c) (r : List Char) :
    opensDocumentChars (read ++ [c] ++ r) = opensDocumentChars ((Scan.opening read c).text ++ r) := by
  unfold Scan.opening
  split_ifs with hmarker hopener hstem
  · exact (opens_marker hmarker r).trans (opens_marker (by decide : "<html".toList ∈ documentMarkers) r).symm
  · rw [hopener]
    rfl
  · rfl
  · have hno := h.no_word (List.Subset.refl documentOpeners) (List.not_mem_cons_of_ne_of_not_mem hopener hmarker) hstem
    have hcomment : after? "<!--".toList (read ++ [c] ++ r) = none := by
      rw [Option.eq_none_iff_forall_ne_some]
      intro body hbody
      exact hno r _ List.mem_cons_self ⟨body, (after?_eq_some.mp hbody).symm⟩
    rw [opens_fragment, opensDocumentChars_eq, h.skipBlanks_append, hcomment,
      h.no_marker fun r m hm => hno r m (List.mem_cons_of_mem _ hm)]
    rfl

theorem reopening_text (h : Candidate read c) (hread : read ∈ [] :: stems documentMarkers) (r : List Char) :
    opensDocumentChars (Scan.ended.text ++ (read ++ [c] ++ r)) =
      opensDocumentChars ((Scan.reopening read c).text ++ r) := by
  have hplain : ∀ stem ∈ [] :: stems documentMarkers, '-' ∉ stem := by decide
  have hends : opensDocumentChars (Scan.ended.text ++ (read ++ [c] ++ r)) =
      (startsWithMarker (read ++ [c] ++ r) || markerAfterCommentEnd (c :: r)) := by
    have hbody : markerAfterCommentEnd (read ++ [c] ++ r) = markerAfterCommentEnd (c :: r) := by
      rw [List.append_assoc, markerAfterCommentEnd_append (hplain read hread)]
      rfl
    calc opensDocumentChars (Scan.ended.text ++ (read ++ [c] ++ r))
        = markerAfterCommentEnd ("-->".toList ++ (read ++ [c] ++ r)) := opens_comment _
      _ = _ := by rw [markerAfterCommentEnd_end, h.skipBlanks_append, hbody]
  unfold Scan.reopening
  split_ifs with hmarker hstem hdash
  · rw [hends, startsWithMarker_append hmarker, Bool.true_or]
    exact (opens_marker (by decide : "<html".toList ∈ documentMarkers) r).symm
  · exact congrArg opensDocumentChars (List.append_assoc Scan.ended.text (read ++ [c]) r).symm
  · rw [hends, h.no_marker (h.no_word (List.subset_cons_self _ _) hmarker hstem), hdash]
    rfl
  · rw [hends, h.no_marker (h.no_word (List.subset_cons_self _ _) hmarker hstem), markerAfterCommentEnd_other hdash]
    rfl

end Candidate

theorem opensDocumentChars_blank {c : Char} (hc : isBlank c = true) (r : List Char) :
    opensDocumentChars (c :: r) = opensDocumentChars r := by
  rw [opensDocumentChars_eq, opensDocumentChars_eq, skipBlanks_cons_blank hc]

theorem markerAfterCommentEnd_blank {c : Char} (hc : isBlank c = true) (r : List Char) :
    markerAfterCommentEnd ("-->".toList ++ c :: r) = markerAfterCommentEnd ("-->".toList ++ r) := by
  have hdash : c ≠ '-' := by
    rintro rfl
    cases hc
  rw [markerAfterCommentEnd_end, markerAfterCommentEnd_end, skipBlanks_cons_blank hc, markerAfterCommentEnd_other hdash]

namespace Scan

/-- One more character takes the state to one that goes on like the text with it. -/
theorem step_text (s : Scan) (c : Char) (r : List Char) :
    opensDocumentChars (s.text ++ c :: r) = opensDocumentChars ((s.step c).text ++ r) := by
  cases s with
  | blank =>
    rw [step]
    split_ifs with hc
    · exact opensDocumentChars_blank hc r
    · exact (opensDocumentChars_letter [] c r).trans ((Candidate.first hc).opening_text r)
  | opened stem =>
    have htext := (Candidate.next stem.2 c).opening_text r
    rw [List.append_assoc] at htext
    exact (opensDocumentChars_letter stem c r).trans htext
  | inside =>
    rw [step]
    split_ifs with hc
    · rw [hc]
      rfl
    · exact opens_comment_congr (markerAfterCommentEnd_other hc r)
  | dash =>
    rw [step]
    split_ifs with hc
    · rw [hc]
      rfl
    · exact opens_comment_congr (markerAfterCommentEnd_dash hc r)
  | dashes =>
    rw [step]
    split_ifs with hc hend
    · rw [hc]
      exact opens_comment_congr (markerAfterCommentEnd_third_dash r)
    · rw [hend]
      rfl
    · exact opens_comment_congr (markerAfterCommentEnd_dashes hc hend r)
  | ended =>
    rw [step]
    split_ifs with hc
    · exact opens_comment_congr (markerAfterCommentEnd_blank hc r)
    -- What is no blank may begin a marker, and it may be the first dash of another end.
    · have htext := (Candidate.first hc).reopening_text List.mem_cons_self r
      exact (opensDocumentChars_letter ended.text c r).trans htext
  | reopened stem =>
    have hopeners : ∀ stem ∈ stems documentMarkers, stem ∈ stems documentOpeners := by decide
    have htext := (Candidate.next (hopeners stem.1 stem.2) c).reopening_text (List.mem_cons_of_mem _ stem.2) r
    rw [List.append_assoc, ← List.append_assoc] at htext
    exact (opensDocumentChars_letter (ended.text ++ stem) c r).trans htext
  | document =>
    have hmarker : "<html".toList ∈ documentMarkers := by decide
    exact (opens_marker hmarker (c :: r)).trans (opens_marker hmarker r).symm
  | fragment => exact (opens_fragment (c :: r)).trans (opens_fragment r).symm

theorem opens_text_iff (s : Scan) : opensDocumentChars s.text = true ↔ s = .document := by
  cases s with
  | opened stem =>
    have hopeners : ∀ stem ∈ stems documentOpeners, opensDocumentChars stem = false := by decide
    exact iff_of_false (Bool.eq_false_iff.mp (hopeners stem.1 stem.2)) nofun
  | reopened stem =>
    have hmarkers : ∀ stem ∈ stems documentMarkers, opensDocumentChars (ended.text ++ stem) = false := by decide
    exact iff_of_false (Bool.eq_false_iff.mp (hmarkers stem.1 stem.2)) nofun
  | blank => decide
  | inside => decide
  | dash => decide
  | dashes => decide
  | ended => decide
  | document => decide
  | fragment => decide

/-- The text of a state with any characters behind it opens a document if the pass over these
    characters ends in one. -/
theorem foldl_step_iff (s : Scan) (cs : List Char) :
    cs.foldl step s = .document ↔ opensDocumentChars (s.text ++ cs) = true := by
  induction cs generalizing s with
  | nil => rw [List.append_nil, opens_text_iff, List.foldl_nil]
  | cons c cs ih => rw [List.foldl_cons, ih, step_text]

end Scan

theorem scan_eq_document_iff {cs : List Char} : scan cs = .document ↔ wholeDocument.opens cs = true := by
  rw [← opensDocumentChars_eq_opens]
  exact Scan.foldl_step_iff .blank cs

end Prologue

open Prologue

/-- A page is a whole document if a search for the pattern finds it, that is, if past its
    blanks it has a marker, or one comment that holds anything with blanks and a marker
    behind it. What any number of comments opens, no comment or one opens as well. One pass
    with finitely many states says the same, and by what it says a page that is not blank
    without its declaration is taken in as a document or as a fragment. -/
theorem document_told_in_one_pass :
    (∀ html : String,
      opensDocument html = wholeDocument.opens html.toList ∧
      (wholeDocument.opens html.toList = true ↔
        ∃ w r, html.toList = w ++ r ∧ AllBlank w ∧
          (Marked r ∨ ∃ x w' s, r = "<!--".toList ++ x ++ "-->".toList ++ w' ++ s ∧ AllBlank w' ∧ Marked s)) ∧
      (wholeDocument.opens html.toList = true ↔ ∃ n, (behindComments n).opens html.toList = true) ∧
      ((∃ n, (behindComments n).opens html.toList = true) ↔
        (behindComments 0).opens html.toList = true ∨ (behindComments 1).opens html.toList = true) ∧
      (scan html.toList = .document ↔ wholeDocument.opens html.toList = true)) ∧
    Finite Scan ∧
    ∀ {τ ν σ : Type} (lib : Library τ ν σ) (page : String), Page.ofText lib page =
      if Text.allBlank (dropDeclaration page) then .empty lib
      else if scan (dropDeclaration page).toList = .document then .ofDocument lib (dropDeclaration page)
      else .ofFragment lib (dropDeclaration page) := by
  refine ⟨fun html => ⟨?_, ?_, ?_, ?_, ?_⟩, inferInstance, fun lib page => ?_⟩
  · exact opensDocumentChars_eq_opens html.toList
  · exact opens_wholeDocument_iff
  · exact exists_opens_behindComments_iff.symm
  · rw [exists_opens_behindComments_iff, opens_wholeDocument_iff_none_or_one]
  · exact scan_eq_document_iff
  · have hscan : scan (dropDeclaration page).toList = .document ↔ opensDocument (dropDeclaration page) = true := by
      rw [scan_eq_document_iff, ← opensDocumentChars_eq_opens, opensDocument]
    simp only [Page.ofText, hscan]

/-- An end inside the comment, with markup behind it, and a tag that begins like a marker. -/
example : scan "\n<!-- a --> <p> <!-- b -->\t<HEADer>".toList = .document := by decide

end AttributeSheet.Markup
