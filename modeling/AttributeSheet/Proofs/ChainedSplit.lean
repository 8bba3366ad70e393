/-
  AttributeSheet.Proofs.ChainedSplit — a sheet cut up by its marks.

  A sheet can be cut up without reading it character by character (`Chained.blocks`):
  at every closing brace into pieces, the last one being dropped if it is blank; each
  piece at its first opening brace; what follows that at every semicolon; each entry at
  its first colon. Entries without a name are dropped.

  The reader does the same. Where it stands after a text is computed from the text
  alone, in the words of the cuts (`Reader.after`), and one more character takes it
  from there to where it stands after the longer text (`after_snoc`). So every reader
  on the way is known (`feed_start`), and the end of the text leaves the blocks of the
  cuts (`ofSheet_eq_chained`).
-/
import AttributeSheet.Block.Reader
import AttributeSheet.Proofs.Pieces

namespace AttributeSheet.Block

open Text

/-! ## The cuts -/

namespace Chained

def trimmed (cs : List Char) : String := String.ofList (trimChars cs)

/-- What stands before the first colon of an entry and what stands after it; an entry
    without a colon is all name. -/
def property (entry : List Char) : String × String :=
  match splitAt? ':' entry with
  | some (name, value) => (trimmed name, trimmed value)
  | none => (trimmed entry, "")

def named (entries : List (List Char)) : List (String × String) := (entries.map property).filter (·.1 ≠ "")

def propertiesOf (cs : List Char) : List (String × String) := named (cs.splitOn ';')

/-- What stands before the first opening brace of a piece and what stands after it; a
    piece without one is all selector. -/
def block (piece : List Char) : Block :=
  match splitAt? '{' piece with
  | some (selector, rest) => ⟨trimmed selector, propertiesOf rest⟩
  | none => ⟨trimmed piece, []⟩

/-- The pieces between the closing braces, without the last one if it is blank. -/
def pieces (cs : List Char) : List (List Char) :=
  if ((cs.splitOn '}').getLastD []).all isBlank then (cs.splitOn '}').dropLast else cs.splitOn '}'

def blocks (source : String) : List Block := (pieces (dropFirstComment source).toList).map block

theorem trim_trimmed (cs : List Char) : trim (trimmed cs) = trimmed cs := by
  simp only [trim, trimmed, String.toList_ofList, trimChars_idem]

theorem property_cases (entry : List Char) :
    (∃ name value, entry = name ++ ':' :: value ∧ ':' ∉ name ∧ property entry = (trimmed name, trimmed value)) ∨
      (':' ∉ entry ∧ property entry = (trimmed entry, "")) := by
  unfold property
  cases h : splitAt? ':' entry with
  | none => exact Or.inr ⟨splitAt?_eq_none.mp h, rfl⟩
  | some p =>
    obtain ⟨he, hn⟩ := splitAt?_eq_some (a := p.1) (b := p.2) h
    exact Or.inl ⟨p.1, p.2, he, hn, rfl⟩

theorem block_cases (piece : List Char) :
    (∃ selector rest, piece = selector ++ '{' :: rest ∧ '{' ∉ selector ∧
        block piece = ⟨trimmed selector, propertiesOf rest⟩) ∨
      ('{' ∉ piece ∧ block piece = ⟨trimmed piece, []⟩) := by
  unfold block
  cases h : splitAt? '{' piece with
  | none => exact Or.inr ⟨splitAt?_eq_none.mp h, rfl⟩
  | some p =>
    obtain ⟨he, hn⟩ := splitAt?_eq_some (a := p.1) (b := p.2) h
    exact Or.inl ⟨p.1, p.2, he, hn, rfl⟩

end Chained

/-! ## Where the reader stands after a text -/

namespace Reader

open Chained

/-- After an opening brace, `rest` being the text since then. -/
def within (blocks : List Block) (selector rest : List Char) : Reader :=
  match splitAt? ':' (openPiece ';' rest) with
  | none =>
    ⟨.inProperties, String.ofList (skipBlanks selector), String.ofList (openPiece ';' rest), "",
      named (closedPieces ';' rest), blocks⟩
  | some (name, value) =>
    ⟨.inValue, String.ofList (skipBlanks selector), String.ofList name, String.ofList value,
      named (closedPieces ';' rest), blocks⟩

/-- In a block of which `piece` is the text so far. -/
def opened (blocks : List Block) (piece : List Char) : Reader :=
  match splitAt? '{' piece with
  | none =>
    ⟨if piece.all isBlank then .beforeSelector else .inSelector, String.ofList (skipBlanks piece), "", "", [], blocks⟩
  | some (selector, rest) => within blocks selector rest

def after (t : List Char) : Reader := opened ((closedPieces '}' t).map block) (openPiece '}' t)

theorem trim_ofList (cs : List Char) : trim (String.ofList cs) = trimmed cs := by simp [trim, trimmed]

theorem trimmed_skipBlanks (cs : List Char) : trimmed (skipBlanks cs) = trimmed cs := by
  simp only [trimmed, trimChars_skipBlanks]

theorem named_append (a b : List (List Char)) : named (a ++ b) = named a ++ named b := by simp [named]

theorem named_singleton (entry : List Char) :
    named [entry] = if (property entry).1 = "" then [] else [property entry] := by
  by_cases h : (property entry).1 = "" <;> simp [named, h]

theorem propertiesOf_eq (cs : List Char) :
    propertiesOf cs = named (closedPieces ';' cs) ++ named [openPiece ';' cs] := by
  rw [propertiesOf, splitOn_eq_closed_open, named_append]

theorem within_endProperty (blocks : List Block) (selector rest : List Char) :
    (within blocks selector rest).endProperty = { within blocks selector rest with
      name := "", value := "", properties := propertiesOf rest } := by
  rw [propertiesOf_eq, named_singleton]
  unfold within property
  cases h : splitAt? ':' (openPiece ';' rest) with
  | none =>
    have htail : trim "" = "" := rfl
    simp only [endProperty, trim_ofList, String.isEmpty_iff, htail]
    split <;> simp
  | some p =>
    simp only [endProperty, trim_ofList, String.isEmpty_iff]
    split <;> simp

theorem within_phase (blocks : List Block) (selector rest : List Char) :
    (within blocks selector rest).phase = .inProperties ∨ (within blocks selector rest).phase = .inValue := by
  unfold within
  cases splitAt? ':' (openPiece ';' rest) with
  | none => exact Or.inl rfl
  | some p => exact Or.inr rfl

theorem within_endBlock (blocks : List Block) (selector rest : List Char) :
    (within blocks selector rest).endProperty.endBlock =
      between (blocks ++ [⟨trimmed selector, propertiesOf rest⟩]) := by
  rw [within_endProperty]
  unfold within
  cases splitAt? ':' (openPiece ';' rest) with
  | none => simp only [endBlock, trim_ofList, trimmed_skipBlanks]
  | some p => simp only [endBlock, trim_ofList, trimmed_skipBlanks]

theorem within_step_close (blocks : List Block) (selector rest : List Char) :
    (within blocks selector rest).step '}' = between (blocks ++ [⟨trimmed selector, propertiesOf rest⟩]) := by
  rw [← within_endBlock]
  rcases within_phase blocks selector rest with h | h <;> simp [step, h]

theorem within_step_semicolon (blocks : List Block) (selector rest : List Char) :
    (within blocks selector rest).step ';' = within blocks selector (rest ++ [';']) := by
  have hnext : within blocks selector (rest ++ [';']) =
      ⟨.inProperties, String.ofList (skipBlanks selector), "", "", propertiesOf rest, blocks⟩ := by
    simp only [within, openPiece_snoc, closedPieces_snoc, if_true, splitAt?]
    rw [propertiesOf_eq, named_append]
  have hend := within_endProperty blocks selector rest
  rw [hnext]
  unfold within at hend ⊢
  cases h : splitAt? ':' (openPiece ';' rest) with
  | none => rw [h] at hend; simpa [step] using hend
  | some p => rw [h] at hend; simp only at hend; simp [step, hend]

theorem within_step_other (blocks : List Block) (selector rest : List Char) {c : Char} (hs : c ≠ ';') (hb : c ≠ '}') :
    (within blocks selector rest).step c = within blocks selector (rest ++ [c]) := by
  unfold within
  simp only [openPiece_snoc, closedPieces_snoc, if_neg hs, splitAt?_snoc]
  cases h : splitAt? ':' (openPiece ';' rest) with
  | none =>
    by_cases hc : c = ':'
    · subst hc; simp [step]
    · simp [step, hc, hs, hb]
  | some p => simp [step, hs, hb]

theorem within_step (blocks : List Block) (selector rest : List Char) {c : Char} (hb : c ≠ '}') :
    (within blocks selector rest).step c = within blocks selector (rest ++ [c]) := by
  by_cases hs : c = ';'
  · subst hs; exact within_step_semicolon blocks selector rest
  · exact within_step_other blocks selector rest hs hb

theorem opened_nil (blocks : List Block) : opened blocks [] = between blocks := rfl

theorem opened_step_close (blocks : List Block) (piece : List Char) :
    (opened blocks piece).step '}' = between (blocks ++ [block piece]) := by
  unfold opened block
  cases h : splitAt? '{' piece with
  | some p => exact within_step_close blocks p.1 p.2
  | none => by_cases hb : piece.all isBlank = true <;> simp [step, hb, endBlock, trim_ofList, trimmed_skipBlanks]

theorem opened_step (blocks : List Block) (piece : List Char) {c : Char} (hb : c ≠ '}') :
    (opened blocks piece).step c = opened blocks (piece ++ [c]) := by
  unfold opened
  rw [splitAt?_snoc]
  cases h : splitAt? '{' piece with
  | some p => exact within_step blocks p.1 p.2 hb
  | none =>
    by_cases hc : c = '{'
    · subst hc
      by_cases hp : piece.all isBlank = true <;> simp [step, hp, within] <;> rfl
    -- The selector: blanks before it are passed over, everything after its first character is kept.
    simp only [if_neg hc]
    by_cases hp : ∀ d ∈ piece, isBlank d = true
    · have hnil : skipBlanks piece = [] := skipBlanks_eq_nil.mpr hp
      have hall : piece.all isBlank = true := List.all_eq_true.mpr hp
      rw [skipBlanks_append_blank hp, hnil]
      cases hd : isBlank c with
      | true => simp [step, hall, hb, hc, hd, skipBlanks]
      | false => simp [step, hall, hb, hc, hd, skipBlanks]
    · have hall : piece.all isBlank = false := by
        rw [← Bool.not_eq_true, List.all_eq_true]; exact hp
      rw [skipBlanks_append_solid hp]
      simp [step, hall, hb, hc]

/-- One more character takes the reader to where it stands after the longer text. -/
theorem after_snoc (t : List Char) (c : Char) : (after t).step c = after (t ++ [c]) := by
  unfold after
  rw [closedPieces_snoc, openPiece_snoc]
  by_cases h : c = '}'
  · subst h
    simp only [if_true, List.map_append, List.map_cons, List.map_nil, opened_nil, opened_step_close]
  · simp only [if_neg h, opened_step _ _ h]

theorem feed_after (t cs : List Char) : (after t).feed cs = after (t ++ cs) := by
  induction cs generalizing t with
  | nil => simp [feed]
  | cons c cs ih =>
    have h := ih (t ++ [c])
    rw [← after_snoc, List.append_assoc] at h
    exact h

theorem feed_start (t : List Char) : start.feed t = after t := feed_after [] t

/-- The end of the text ends a block as a closing brace does, unless the block is blank. -/
theorem opened_finish (blocks : List Block) (piece : List Char) :
    (opened blocks piece).finish =
      between (blocks ++ if piece.all isBlank then [] else [block piece]) := by
  unfold opened block
  cases h : splitAt? '{' piece with
  | some p =>
    have hp : piece.all isBlank = false := by
      obtain ⟨hs, -⟩ := splitAt?_eq_some (a := p.1) (b := p.2) h
      have hbrace : isBlank '{' = false := by decide
      simp [hs, hbrace]
    rw [hp, if_neg Bool.false_ne_true]
    rcases within_phase blocks p.1 p.2 with hw | hw <;> simp [finish, hw, within_endBlock]
  | none =>
    by_cases hp : piece.all isBlank = true
    · have hnil : skipBlanks piece = [] := skipBlanks_eq_nil.mpr (List.all_eq_true.mp hp)
      simp [finish, hp, hnil, between]
    · simp [finish, hp, endBlock, trim_ofList, trimmed_skipBlanks]

theorem finish_after (t : List Char) : (after t).finish = between ((pieces t).map block) := by
  have hlast : (t.splitOn '}').getLastD [] = openPiece '}' t := rfl
  have hinit : (t.splitOn '}').dropLast = closedPieces '}' t := rfl
  unfold after pieces
  rw [opened_finish, hlast, hinit, splitOn_eq_closed_open]
  split <;> simp

theorem read_start (text : String) : start.read text = between ((pieces text.toList).map block) := by
  rw [read, feed_start, finish_after]

end Reader

theorem ofSheet_eq_map (source : String) :
    ofSheet source = (Chained.pieces (dropFirstComment source).toList).map Chained.block := by
  rw [ofSheet, Reader.read_start]; rfl

/-- Reading a sheet character by character gives the blocks that it is cut into, all of
    them, in their order and with all that is in them. -/
theorem ofSheet_eq_chained (source : String) : ofSheet source = Chained.blocks source := by
  rw [ofSheet_eq_map, Chained.blocks]

/-- A nameless entry is dropped, blank blocks are kept but for the last, and only the
    first brace and the first colon count. -/
example : Chained.blocks "a \x7b x: 1; : 2; y \x7d \x7d #b \x7b u: \x7bv:w\x7d \x7d /* */" =
    [⟨"a", [("x", "1"), ("y", "")]⟩, ⟨"", []⟩, ⟨"#b", [("u", "\x7bv:w")]⟩, ⟨"", []⟩] := by decide

end AttributeSheet.Block
