/-
  AttributeSheet.Proofs.ModeAgreement — when the two modes come to the same.

  As long as no selector of a sheet has ten or more classes or ten or more types, the
  legacy value orders its blocks as the tuple does (`le_narrow`). So both modes sort
  them alike (`sortedBlocks_narrow`), and reading and applying the sheet come to the
  same in both (`modes_agree`). However many ids there are does not matter.
-/
import AttributeSheet.Proofs.GluedCounts
import AttributeSheet.Proofs.SortedBlocks

namespace AttributeSheet

/-- The counts of the block's selector do not spill over. -/
def Block.Narrow (b : Block) : Prop := (Buckets.ofText b.selector).Narrow

instance : DecidablePred Block.Narrow := fun b => inferInstanceAs (Decidable (Buckets.ofText b.selector).Narrow)

theorem Block.le_narrow {b c : Block} (hb : b.Narrow) (hc : c.Narrow) :
    (b.specificity .legacy).le (c.specificity .legacy) = (b.specificity .tuple).le (c.specificity .tuple) := by
  rw [Bool.eq_iff_iff]
  exact decide_eq_true_iff.trans (Buckets.glued_le_iff hb hc)

theorem Block.asBlock_declaration (mode mode' : Mode) (b : Block) :
    (b.declaration mode).asBlock = (b.declaration mode').asBlock := rfl

namespace Sheet

variable {text : String}

theorem sortedBlocks_narrow (h : ∀ b ∈ Block.selecting text, b.Narrow) :
    sortedBlocks .legacy text = sortedBlocks .tuple text :=
  ((sortedBlocks_sorts .legacy text).rekey fun b hb c hc => Block.le_narrow (h b hb) (h c hc)).unique
    (sortedBlocks_sorts .tuple text)

/-- A sheet in which no selector spills over is read to the same declarations in the same
    order in both modes, and compiling it gives the same page, the same answer and the
    same reports, whatever the host and the handler do. The legacy value is what the
    digits of the three counts read as in a row, and while the last two have one digit
    it orders triples by the first count that differs. -/
theorem modes_agree :
    (∀ text, text ≠ "" → (∀ b ∈ Block.selecting text, b.Narrow) →
      (∃ l l', parse .legacy (some text) = .ok l ∧ parse .tuple (some text) = .ok l' ∧
        l.map Declaration.asBlock = l'.map Declaration.asBlock) ∧
      ∀ {δ ε : Type} (host : Host δ ε) (s : Session δ) (html : String),
        let legacy := { s with mode := .legacy }.compile host (some text) html
        let tuple := { s with mode := .tuple }.compile host (some text) html
        legacy.result = tuple.result ∧ legacy.events = tuple.events ∧ legacy.session.page = tuple.session.page) ∧
    (∀ x : Buckets, Nat.ofDigitChars 10 x.written.toList 0 = x.glued) ∧
    ∀ x y : Buckets, x.Narrow → y.Narrow →
      (x.glued < y.glued ↔ x.triple < y.triple) ∧ (x.glued = y.glued ↔ x.triple = y.triple) := by
  refine ⟨fun text hne hnarrow => ?_, Buckets.ofDigitChars_written, fun x y hx hy => ?_⟩
  · have hblocks := sortedBlocks_narrow hnarrow
    have hwritten : ((sortedBlocks .legacy text).map (Block.declaration .legacy)).map Declaration.asBlock =
        ((sortedBlocks .tuple text).map (Block.declaration .tuple)).map Declaration.asBlock := by
      rw [hblocks, List.map_map, List.map_map]
      exact List.map_congr_left fun b _ => b.asBlock_declaration .legacy .tuple
    refine ⟨⟨_, _, parse_eq_map .legacy hne, parse_eq_map .tuple hne, hwritten⟩, fun host s html => ?_⟩
    have hrun : Cascade.run host s.handler _ s.page s.reported html = Cascade.run host s.handler _ s.page s.reported html :=
      Cascade.run_congr hwritten s.page s.reported html
    simp only [Session.compile_sorted host _ hne, Session.apply, hrun, and_self]
  · exact ⟨Buckets.glued_lt_iff hx hy, Buckets.glued_eq_iff hx hy⟩

/-- Ten ids outrank nine of each, as numbers and as triples, wherever they are written. -/
theorem modes_agree_ten_ids :
    let text := "##########\x7bx:1\x7d a.b\x7bx:2\x7d"
    let written : List Block := [⟨"a.b", [("x", "2")]⟩, ⟨"##########", [("x", "1")]⟩]
    (∀ b ∈ Block.selecting text, b.Narrow) ∧
    (∃ l l', parse .legacy (some text) = .ok l ∧ parse .tuple (some text) = .ok l' ∧
      l.map Declaration.asBlock = written ∧ l'.map Declaration.asBlock = written) ∧
    (⟨9, 9, 9⟩ : Buckets).glued = 999 ∧ (⟨10, 0, 0⟩ : Buckets).glued = 1000 ∧
    (⟨9, 9, 9⟩ : Buckets).triple < (⟨10, 0, 0⟩ : Buckets).triple := by
  intro text written
  have hblocks : Block.selecting text = [⟨"##########", [("x", "1")]⟩, ⟨"a.b", [("x", "2")]⟩] := by decide
  have hnarrow : ∀ b ∈ Block.selecting text, b.Narrow := by
    rw [hblocks]
    decide +kernel
  obtain ⟨hsheets, -, hlaw⟩ := modes_agree
  obtain ⟨l, l', hl, hl', hsame⟩ := (hsheets text (by decide) hnarrow).1
  have htuple : l'.map Declaration.asBlock = written := by
    have hsorted : Sheet.sortedBlocks .tuple text = written := by
      rw [sortedBlocks, hblocks]
      decide +kernel
    rw [parse_eq_map .tuple (by decide), hsorted] at hl'
    cases hl'
    rfl
  have hless : (⟨9, 9, 9⟩ : Buckets).glued < (⟨10, 0, 0⟩ : Buckets).glued := by decide +kernel
  exact ⟨hnarrow, ⟨l, l', hl, hl', hsame.trans htuple, htuple⟩, by decide +kernel, by decide +kernel,
    (hlaw ⟨9, 9, 9⟩ ⟨10, 0, 0⟩ (by decide) (by decide)).1.mp hless⟩

end Sheet

end AttributeSheet
