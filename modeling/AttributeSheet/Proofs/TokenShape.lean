/-
  AttributeSheet.Proofs.TokenShape — what the texts of a block look like.

  A block that is read from a sheet has a selector without braces, names that are
  trimmed, not empty and free of the marks that end them, and values that are trimmed
  and free of the marks that end them (`Admissible`). And nothing in it is made up: its
  texts stand in the sheet outside the first comment as they are, one after the other
  (`slices_ofSheet`). So the sheet has all their characters, in the same order
  (`ink_sublist`).

  Cutting keeps slices: those of the pieces of a text, taken in order, are slices of the
  text (`Slices.splitOn`). So a block has them from its parts (`block_slices`), and the
  parts from trimming.
-/
import AttributeSheet.Proofs.SheetReading
import Mathlib.Data.List.Flatten

namespace AttributeSheet

open Text

/-- The selector and the properties can stand in a sheet as they are. -/
structure Block.Admissible (b : Block) : Prop where
  selector_free : '{' ∉ b.selector.toList ∧ '}' ∉ b.selector.toList
  names : ∀ p ∈ b.properties, p.1 ≠ "" ∧ trim p.1 = p.1 ∧ ':' ∉ p.1.toList ∧ ';' ∉ p.1.toList ∧ '}' ∉ p.1.toList
  values : ∀ p ∈ b.properties, trim p.2 = p.2 ∧ ';' ∉ p.2.toList ∧ '}' ∉ p.2.toList

instance : DecidablePred Block.Admissible := fun b =>
  decidable_of_iff (('{' ∉ b.selector.toList ∧ '}' ∉ b.selector.toList) ∧
      (∀ p ∈ b.properties, p.1 ≠ "" ∧ trim p.1 = p.1 ∧ ':' ∉ p.1.toList ∧ ';' ∉ p.1.toList ∧ '}' ∉ p.1.toList) ∧
      ∀ p ∈ b.properties, trim p.2 = p.2 ∧ ';' ∉ p.2.toList ∧ '}' ∉ p.2.toList)
    ⟨fun ⟨hs, hn, hv⟩ => ⟨hs, hn, hv⟩, fun ⟨hs, hn, hv⟩ => ⟨hs, hn, hv⟩⟩

namespace Block.Chained

theorem not_mem_trimmed {c : Char} {cs : List Char} (h : c ∉ cs) : c ∉ (trimmed cs).toList := by
  simp only [trimmed, String.toList_ofList]
  exact fun hc => h (mem_of_mem_trimChars hc)

theorem mem_propertiesOf {p : String × String} {cs : List Char} (h : p ∈ propertiesOf cs) :
    p.1 ≠ "" ∧ ∃ entry ∈ cs.splitOn ';', property entry = p := by
  simp only [propertiesOf, named, List.mem_filter, List.mem_map, decide_eq_true_eq] at h
  exact ⟨h.2, h.1⟩

/-- The two texts of a property are trimmed slices of the entry, the name before any colon. -/
theorem property_shape (entry : List Char) :
    trim (property entry).1 = (property entry).1 ∧ ':' ∉ (property entry).1.toList ∧
      trim (property entry).2 = (property entry).2 ∧
      ∀ c, c ∉ entry → c ∉ (property entry).1.toList ∧ c ∉ (property entry).2.toList := by
  rcases property_cases entry with ⟨name, value, rfl, hn, hp⟩ | ⟨hn, hp⟩
  · rw [hp]
    refine ⟨trim_trimmed _, not_mem_trimmed hn, trim_trimmed _, fun c hc => ?_⟩
    simp only [List.mem_append, List.mem_cons, not_or] at hc
    exact ⟨not_mem_trimmed hc.1, not_mem_trimmed hc.2.2⟩
  · rw [hp]
    exact ⟨trim_trimmed _, not_mem_trimmed hn, rfl, fun c hc => ⟨not_mem_trimmed hc, by simp⟩⟩

theorem admissible_block {piece : List Char} (h : '}' ∉ piece) : (block piece).Admissible := by
  rcases block_cases piece with ⟨selector, rest, rfl, hs, hb⟩ | ⟨hs, hb⟩
  · simp only [List.mem_append, List.mem_cons, not_or] at h
    rw [hb]
    have hfree : ∀ p ∈ propertiesOf rest, ∃ entry, property entry = p ∧ ';' ∉ entry ∧ '}' ∉ entry := by
      intro p hp
      obtain ⟨-, entry, he, rfl⟩ := mem_propertiesOf hp
      exact ⟨entry, rfl, mark_not_mem_piece he, fun hc => h.2.2 (mem_of_mem_piece he hc)⟩
    refine ⟨⟨not_mem_trimmed hs, not_mem_trimmed h.1⟩, fun p hp => ?_, fun p hp => ?_⟩
    · obtain ⟨entry, rfl, hsemi, hbrace⟩ := hfree p hp
      obtain ⟨ht, hcolon, -, hc⟩ := property_shape entry
      exact ⟨(mem_propertiesOf hp).1, ht, hcolon, (hc _ hsemi).1, (hc _ hbrace).1⟩
    · obtain ⟨entry, rfl, hsemi, hbrace⟩ := hfree p hp
      obtain ⟨-, -, ht, hc⟩ := property_shape entry
      exact ⟨ht, (hc _ hsemi).2, (hc _ hbrace).2⟩
  · rw [hb]
    exact ⟨⟨not_mem_trimmed hs, not_mem_trimmed h⟩, by simp, by simp⟩

theorem pieces_sublist (cs : List Char) : (pieces cs).Sublist (cs.splitOn '}') := by
  unfold pieces
  split
  · exact List.dropLast_sublist _
  · exact List.Sublist.refl _

end Block.Chained

theorem Block.admissible {source : String} {b : Block} (h : b ∈ ofSheet source) : b.Admissible := by
  rw [ofSheet_eq_map] at h
  obtain ⟨piece, hp, rfl⟩ := List.mem_map.mp h
  exact Chained.admissible_block (mark_not_mem_piece ((Chained.pieces_sublist _).subset hp))

namespace Declaration

open Block

theorem admissible_inSourceOrder {mode : Mode} {text : String} {d : Declaration}
    (h : d ∈ Sheet.inSourceOrder mode text) : d.asBlock.Admissible := by
  obtain ⟨b, hb, rfl⟩ := List.mem_map.mp h
  obtain ⟨hs, hn, hv⟩ := Block.admissible (mem_selecting.mp hb).1
  have hentries : ∀ p ∈ (b.declaration mode).properties.entries, p ∈ b.properties :=
    fun p hp => (OrderedMap.ofList_subperm b.properties).subset hp
  exact ⟨hs, fun p hp => hn p (hentries p hp), fun p hp => hv p (hentries p hp)⟩

end Declaration

/-! ## Slices -/

namespace Text

/-- The texts stand in the characters as they are, one after the other and none over
    another. -/
inductive Slices : List String → List Char → Prop
  | nil (cs : List Char) : Slices [] cs
  | cons (gap : List Char) (text : String) {texts : List String} {rest : List Char} :
      Slices texts rest → Slices (text :: texts) (gap ++ text.toList ++ rest)

namespace Slices

variable {texts texts' : List String} {cs cs' : List Char}

theorem behind (h : Slices texts cs) (gap : List Char) : Slices texts (gap ++ cs) := by
  cases h with
  | nil => exact .nil _
  | cons gap' text h =>
    have hcons := h.cons (gap ++ gap') text
    simpa only [List.append_assoc] using hcons

theorem append (h : Slices texts cs) (h' : Slices texts' cs') : Slices (texts ++ texts') (cs ++ cs') := by
  induction h with
  | nil cs => exact h'.behind cs
  | cons gap text _ ih =>
    have hcons := ih.cons gap text
    simpa only [List.append_assoc, List.cons_append] using hcons

/-- Leaving texts out leaves larger gaps. -/
theorem sublist (hsub : texts'.Sublist texts) (h : Slices texts cs) : Slices texts' cs := by
  induction h generalizing texts' with
  | nil cs =>
    rw [List.sublist_nil.mp hsub]
    exact .nil cs
  | cons gap text _ ih =>
    -- A text that is left out goes to the gap before the next one.
    cases hsub with
    | cons _ hsub => exact (ih hsub).behind (gap ++ text.toList)
    | cons_cons _ hsub => exact (ih hsub).cons gap text

theorem single {text : String} (h : text.toList <:+: cs) : Slices [text] cs := by
  obtain ⟨before, after, rfl⟩ := h
  exact (Slices.nil after).cons before text

theorem intercalate {f : List Char → List String} (d : Char) (parts : List (List Char))
    (h : ∀ part ∈ parts, Slices (f part) part) : Slices (parts.flatMap f) ([d].intercalate parts) := by
  induction parts with
  | nil => exact .nil _
  | cons part parts ih =>
    have hpart := h part (by simp)
    have hparts := ih fun other hother => h other (by simp [hother])
    cases parts with
    | nil => simpa using hpart
    | cons next parts =>
      rw [List.intercalate_cons_of_ne_nil (List.cons_ne_nil _ _), List.append_assoc]
      exact hpart.append (hparts.behind [d])

theorem splitOn {f : List Char → List String} (d : Char) (h : ∀ part ∈ cs.splitOn d, Slices (f part) part) :
    Slices ((cs.splitOn d).flatMap f) cs := by
  have hwhole := intercalate d (cs.splitOn d) h
  rwa [List.intercalate_splitOn] at hwhole

theorem sublist_chars (h : Slices texts cs) : (texts.flatMap String.toList).Sublist cs := by
  induction h with
  | nil cs => exact List.nil_sublist cs
  | cons gap text _ ih =>
    rw [List.flatMap_cons, List.append_assoc]
    exact ((List.Sublist.refl _).append ih).trans (List.sublist_append_right gap _)

end Slices

end Text

/-! ## Nothing is made up -/

namespace Block

def propertyTexts (p : String × String) : List String := [p.1, p.2]

def texts (b : Block) : List String := b.selector :: b.properties.flatMap propertyTexts

def propertyInk (p : String × String) : List Char := p.1.toList ++ p.2.toList

/-- The characters of the selector and of the properties, one after the other. -/
def ink (b : Block) : List Char := b.selector.toList ++ b.properties.flatMap propertyInk

theorem ink_eq (b : Block) : b.ink = b.texts.flatMap String.toList := by
  have hproperty : propertyInk = fun p => (propertyTexts p).flatMap String.toList := by
    funext p
    simp [propertyInk, propertyTexts]
  rw [ink, texts, List.flatMap_cons, List.flatMap_assoc, hproperty]

namespace Chained

theorem trimmed_slices (cs : List Char) : Slices [trimmed cs] cs := by
  refine .single ?_
  rw [trimmed, String.toList_ofList]
  exact trimChars_slice cs

theorem property_slices (entry : List Char) : Slices (propertyTexts (property entry)) entry := by
  rcases property_cases entry with ⟨name, value, rfl, -, hp⟩ | ⟨-, hp⟩
  · rw [hp]
    exact (trimmed_slices name).append ((trimmed_slices value).behind [':'])
  · rw [hp]
    have hempty : Slices [""] [] := .single (List.infix_refl [])
    have hboth := (trimmed_slices entry).append hempty
    rwa [List.append_nil] at hboth

theorem propertiesOf_slices (cs : List Char) : Slices ((propertiesOf cs).flatMap propertyTexts) cs := by
  have hentries : Slices (((cs.splitOn ';').map property).flatMap propertyTexts) cs := by
    rw [List.flatMap_map]
    exact .splitOn ';' fun entry _ => property_slices entry
  exact hentries.sublist (List.filter_sublist.flatMap propertyTexts)

theorem block_slices (piece : List Char) : Slices (block piece).texts piece := by
  rcases block_cases piece with ⟨selector, rest, rfl, -, hb⟩ | ⟨-, hb⟩
  · rw [hb]
    exact (trimmed_slices selector).append ((propertiesOf_slices rest).behind ['{'])
  · rw [hb]
    exact trimmed_slices piece

end Chained

/-- The texts of all blocks are slices of the sheet without its first comment. -/
theorem slices_ofSheet (source : String) : Slices ((ofSheet source).flatMap texts) (dropFirstComment source).toList := by
  have hpieces : Slices (((dropFirstComment source).toList.splitOn '}').flatMap fun piece => (Chained.block piece).texts)
      (dropFirstComment source).toList :=
    .splitOn '}' fun piece _ => Chained.block_slices piece
  rw [ofSheet_eq_map, List.flatMap_map]
  exact hpieces.sublist ((Chained.pieces_sublist _).flatMap _)

/-- The blocks of a sheet hold characters of its text without the first comment, each
    at most once and in their order, and no others. -/
theorem ink_sublist (source : String) : ((ofSheet source).flatMap ink).Sublist (dropFirstComment source).toList := by
  have hink : (ofSheet source).flatMap ink = ((ofSheet source).flatMap texts).flatMap String.toList := by
    rw [List.flatMap_assoc]
    exact List.flatMap_congr fun b _ => b.ink_eq
  rw [hink]
  exact (slices_ofSheet source).sublist_chars

end Block

namespace Sheet

open Block

theorem selector_inSourceOrder {mode : Mode} {text : String} {d : Declaration} (h : d ∈ inSourceOrder mode text) :
    d.selector.text ≠ "" := by
  obtain ⟨b, hb, rfl⟩ := List.mem_map.mp h
  exact (mem_selecting.mp hb).2

/-- The texts of every sheet's blocks have the shapes that its marks leave them, and stand
    in the sheet as they are, all of them in the order in which they are read. A sheet
    that has any text is read to declarations that have a selector, and to no property
    without a name. -/
theorem texts_verbatim :
    (∀ source : String,
      (∀ b ∈ ofSheet source, trim b.selector = b.selector ∧ b.Admissible) ∧
      Slices ((ofSheet source).flatMap texts) (dropFirstComment source).toList) ∧
    ∀ (mode : Mode) (source : Option String),
      ((source = none ∨ source = some "") ∧ parse mode source = .error (.problem .noInput)) ∨
        ∃ l, parse mode source = .ok l ∧
          ∀ d ∈ l, d.selector.text ≠ "" ∧ ∀ name ∈ d.properties.keys, name ≠ "" := by
  refine ⟨fun source => ⟨fun b hb => ⟨trim_selector hb, admissible hb⟩, slices_ofSheet source⟩, fun mode source => ?_⟩
  rcases source with _ | text
  · exact Or.inl ⟨Or.inl rfl, rfl⟩
  by_cases hne : text = ""
  · subst hne
    exact Or.inl ⟨Or.inr rfl, rfl⟩
  obtain ⟨l, hparse, hsorts⟩ := parse_sorts mode hne
  refine Or.inr ⟨l, hparse, fun d hd => ?_⟩
  have hd' := hsorts.mem_iff.mp hd
  refine ⟨selector_inSourceOrder hd', fun name hname => ?_⟩
  obtain ⟨p, hp, rfl⟩ := List.mem_map.mp hname
  exact ((Declaration.admissible_inSourceOrder hd').names p hp).1

/-- A comment between two blocks, a brace in a value and an entry without a name. -/
theorem texts_verbatim_commented :
    let source := "a \x7b x : 1 \x7d/* b */ #b\x7b:3; y : \x7b2 "
    let b : Block := ⟨"#b", [("y", "\x7b2")]⟩
    b ∈ ofSheet source ∧ (trim b.selector = b.selector ∧ b.Admissible) ∧
      Slices ["a", "x", "1", "#b", "y", "\x7b2"] (dropFirstComment source).toList := by
  intro source b
  have hblocks : ofSheet source = [⟨"a", [("x", "1")]⟩, b] := by decide
  have hmem : b ∈ ofSheet source := by rw [hblocks]; simp
  obtain ⟨hshape, hslices⟩ := texts_verbatim.1 source
  rw [hblocks] at hslices
  exact ⟨hmem, hshape b hmem, hslices⟩

end Sheet

end AttributeSheet
