/-
  AttributeSheet.Proofs.SheetReading — what a sheet comes to.

  The blocks of a sheet have trimmed selectors (`trim_selector`), so the selector of a
  block is refused only if it is empty, and those blocks are skipped beforehand; a
  property read from a sheet has a value; and all specificities are of the one kind
  that belongs to the mode. So nothing stops a sheet that has any text
  (`parse_sorts`), and what it comes to is known: one declaration for each block with a
  selector (`Declares`), stably sorted by specificity (`parse_reads_off`).
-/
import AttributeSheet.Sheet
import AttributeSheet.Proofs.ChainedSplit
import AttributeSheet.Proofs.MapWrites
import AttributeSheet.Proofs.SelectorTexts
import AttributeSheet.Proofs.StableOrder
import Mathlib.Data.List.Forall2

namespace AttributeSheet

/-! ## One block -/

theorem Block.Chained.trim_selector_block (piece : List Char) :
    Text.trim (block piece).selector = (block piece).selector := by
  rcases block_cases piece with ⟨selector, rest, -, -, hb⟩ | ⟨-, hb⟩
  · rw [hb]; exact trim_trimmed selector
  · rw [hb]; exact trim_trimmed piece

theorem Block.trim_selector {source : String} {b : Block} (h : b ∈ ofSheet source) :
    Text.trim b.selector = b.selector := by
  rw [ofSheet_eq_map] at h
  obtain ⟨piece, -, rfl⟩ := List.mem_map.mp h
  exact Chained.trim_selector_block piece

def Block.selecting (text : String) : List Block := (ofSheet text).filter (·.selector ≠ "")

theorem Block.mem_selecting {text : String} {b : Block} :
    b ∈ selecting text ↔ b ∈ ofSheet text ∧ b.selector ≠ "" := by
  simp [selecting]

def Block.declaration (mode : Mode) (b : Block) : Declaration :=
  ⟨⟨b.selector, mode, .ofText mode b.selector⟩, .ofList b.properties⟩

def Declaration.asBlock (d : Declaration) : Block := ⟨d.selector.text, d.properties.entries⟩

@[simp] theorem Declaration.asBlock_selector (d : Declaration) : d.asBlock.selector = d.selector.text := rfl

@[simp] theorem Declaration.asBlock_properties (d : Declaration) : d.asBlock.properties = d.properties.entries := rfl

/-- `d` has the selector of `b` as it is written there, each property name of `b` once,
    in the order of first occurrence, and the last value written to each. -/
structure Declares (mode : Mode) (b : Block) (d : Declaration) : Prop where
  text : d.selector.text = b.selector
  of_mode : d.selector.mode = mode
  specificity : d.selector.specificity = .ofText mode b.selector
  names : d.properties.keys = (b.properties.map (·.1)).eraseDups
  values : ∀ name, d.properties.get? name = OrderedMap.lastValue? name b.properties

theorem declares_iff {mode : Mode} {b : Block} {d : Declaration} : Declares mode b d ↔ b.declaration mode = d := by
  constructor
  · intro h
    obtain ⟨⟨text, m, spec⟩, properties⟩ := d
    obtain ⟨ht, hm, hs, hn, hv⟩ := h
    simp only at ht hm hs hn hv
    subst ht hm hs
    have hp : OrderedMap.ofList b.properties = properties :=
      OrderedMap.eq_of_keys_get? (by rw [OrderedMap.keys_ofList]; exact hn.symm) (OrderedMap.nodup_keys_ofList _)
        fun name => (OrderedMap.get?_ofList _ name).trans (hv name).symm
    rw [Block.declaration, hp]
  · rintro rfl
    exact ⟨rfl, rfl, rfl, OrderedMap.keys_ofList _, OrderedMap.get?_ofList _⟩

namespace Declaration

theorem run_add_each (ps : List (String × String)) (d : Declaration) :
    (ps.forM fun p => add p.1 (some p.2)).run.run d =
      (.ok (), { d with properties := d.properties.insertAll ps }) := by
  induction ps generalizing d with
  | nil => rfl
  | cons p ps ih => exact ih { d with properties := d.properties.insert p.1 p.2 }

theorem ofBlock?_eq {b : Block} (ht : Text.trim b.selector = b.selector) (hne : b.selector ≠ "") (mode : Mode) :
    ofBlock? mode b = .ok (b.declaration mode) := by
  have hsel : Selector.make? mode b.selector = .ok ⟨b.selector, mode, .ofText mode b.selector⟩ := by
    have hblank : Text.allBlank b.selector = false := by
      rw [Bool.eq_false_iff, ne_eq, ← Text.trim_eq_empty, ht]
      exact hne
    rw [Selector.make?_of_text mode hblank, ht]
  rw [ofBlock?, hsel]
  exact Attempt.result?_of_ok (run_add_each b.properties _)

end Declaration

/-! ## The whole sheet -/

namespace Sheet

def inSourceOrder (mode : Mode) (text : String) : List Declaration :=
  (Block.selecting text).map (Block.declaration mode)

theorem mapM_of_ok {α β ε : Type} {f : α → Except ε β} {g : α → β} :
    ∀ {l : List α}, (∀ x ∈ l, f x = .ok (g x)) → l.mapM f = .ok (l.map g)
  | [], _ => rfl
  | x :: l, h => by
    rw [List.mapM_cons, h x (by simp), mapM_of_ok fun y hy => h y (by simp [hy])]
    rfl

theorem declarations?_eq (mode : Mode) (text : String) :
    declarations? mode (Block.ofSheet text) = .ok (inSourceOrder mode text) := by
  have hkept : (Block.ofSheet text).filter (!·.selector.isEmpty) = Block.selecting text :=
    List.filter_congr fun b _ => by rw [Bool.eq_iff_iff]; simp
  rw [declarations?, hkept]
  refine mapM_of_ok fun b hb => ?_
  obtain ⟨hb, hne⟩ := Block.mem_selecting.mp hb
  exact Declaration.ofBlock?_eq (Block.trim_selector hb) hne mode

/-- All declarations of a sheet have the kind of specificity that belongs to the mode. -/
theorem isNumber_inSourceOrder {mode : Mode} {text : String} {d : Declaration} (h : d ∈ inSourceOrder mode text) :
    d.selector.specificity.isNumber = (mode == .legacy) := by
  obtain ⟨b, -, rfl⟩ := List.mem_map.mp h
  cases mode <;> rfl

/-- Nothing stops a sheet that has any text. -/
theorem parse_sorts (mode : Mode) {text : String} (h : text ≠ "") :
    ∃ l, parse mode (some text) = .ok l ∧ StablySorted (·.selector.specificity) (inSourceOrder mode text) l := by
  have hkinds : ∀ d ∈ inSourceOrder mode text, d.selector.specificity.isNumber = (mode == .legacy) :=
    fun d hd => isNumber_inSourceOrder hd
  obtain ⟨l, hl, hsort⟩ := sortBySpecificity?_of_oneKind hkinds false
  have hsort' : Declaration.sort? false (inSourceOrder mode text) = .ok l := hsort
  refine ⟨l, ?_, hl⟩
  simp only [parse, Option.getD_some, String.isEmpty_iff, h, if_false, declarations?_eq]
  simp [bind, Except.bind, hsort', Except.mapError]

/-- `l` holds one declaration for each block of the sheet that has a selector, in
    ascending order of specificity, those of one specificity in the order of the blocks. -/
def ReadsOff (mode : Mode) (text : String) (l : List Declaration) : Prop :=
  ∃ inOrder, List.Forall₂ (Declares mode) (Block.selecting text) inOrder ∧
    StablySorted (·.selector.specificity) inOrder l

theorem readsOff_iff {mode : Mode} {text : String} {l : List Declaration} :
    ReadsOff mode text l ↔ StablySorted (·.selector.specificity) (inSourceOrder mode text) l := by
  have hone : ∀ inOrder, List.Forall₂ (Declares mode) (Block.selecting text) inOrder ↔
      inSourceOrder mode text = inOrder := by
    intro inOrder
    have hrel : Declares mode = fun b d => b.declaration mode = d := funext₂ fun b d => propext declares_iff
    rw [inSourceOrder, ← List.forall₂_eq_eq_eq, List.forall₂_map_left_iff, hrel]
  simp only [ReadsOff, hone, exists_eq_left']

/-- A sheet is refused exactly when it has no text, and then as an empty one; any other
    comes to one list of declarations, the only one that reads it off. -/
theorem parse_reads_off (mode : Mode) (source : Option String) :
    (parse mode source = .error (.problem .noInput) ↔ source = none ∨ source = some "") ∧
    (∀ fault, parse mode source = .error fault → fault = .problem .noInput) ∧
    (∀ text, source = some text → text ≠ "" →
      ∃ l, parse mode source = .ok l ∧ ReadsOff mode text l ∧ ∀ l', ReadsOff mode text l' → l' = l) := by
  have hempty : source = none ∨ source = some "" → parse mode source = .error (.problem .noInput) := by
    rintro (rfl | rfl) <;> rfl
  have hcases : (source = none ∨ source = some "") ∨ ∃ text, source = some text ∧ text ≠ "" := by
    cases source with
    | none => exact Or.inl (Or.inl rfl)
    | some text =>
      by_cases h : text = ""
      · exact Or.inl (Or.inr (by rw [h]))
      · exact Or.inr ⟨text, rfl, h⟩
  refine ⟨⟨fun h => ?_, hempty⟩, fun fault h => ?_, fun text hs hne => ?_⟩
  · rcases hcases with hc | ⟨text, rfl, hne⟩
    · exact hc
    · obtain ⟨l, hl, -⟩ := parse_sorts mode hne
      rw [hl] at h; cases h
  · rcases hcases with hc | ⟨text, rfl, hne⟩
    · rw [hempty hc] at h; cases h; rfl
    · obtain ⟨l, hl, -⟩ := parse_sorts mode hne
      rw [hl] at h; cases h
  · subst hs
    obtain ⟨l, hl, hsorted⟩ := parse_sorts mode hne
    exact ⟨l, hl, readsOff_iff.mpr hsorted, fun l' h => (readsOff_iff.mp h).unique hsorted⟩

end Sheet

end AttributeSheet
