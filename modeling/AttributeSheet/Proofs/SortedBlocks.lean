/-
  AttributeSheet.Proofs.SortedBlocks — what a sorted list depends on.

  Two lists sort to the same exactly if they agree on the items of each key
  (`StablySorted.eq_iff`), and keys that order the items of a list alike sort it alike
  (`StablySorted.rekey`). The list that a sheet is parsed to is its blocks, sorted, each
  made into a declaration (`parse_eq_map`), and of a declaration a run looks at nothing
  but the block it is written as (`run_congr`). So from the sorted blocks of a sheet
  everything is known that compiling it does (`compile_sorted`).
-/
import AttributeSheet.Proofs.CascadeLaw
import AttributeSheet.Proofs.RunPairs
import AttributeSheet.Proofs.TotalBoundary

namespace AttributeSheet

/-! ## Sorting -/

theorem Specificity.eq_iff_le {x y : Specificity} : x = y ↔ x.le y = true ∧ y.le x = true := by
  constructor
  · rintro rfl; exact ⟨le_refl x, le_refl x⟩
  · rintro ⟨h, k⟩; exact le_antisymm h k

namespace StablySorted

variable {α β : Type} {key key' : α → Specificity} {l l' s s' : List α}

/-- Two lists sort to the same exactly if they have the same items of each key, in the
    same order. -/
theorem eq_iff (h : StablySorted key l s) (h' : StablySorted key l' s') :
    s = s' ↔ ∀ level, l.filter (fun x => key x = level) = l'.filter (fun x => key x = level) := by
  constructor
  · rintro rfl level
    rw [← h.groups_kept, h'.groups_kept]
  · intro hgroups
    exact unique h ⟨h'.ascending, fun level => (h'.groups_kept level).trans (hgroups level).symm⟩

theorem rekey (h : StablySorted key l s) (hle : ∀ x ∈ l, ∀ y ∈ l, (key x).le (key y) = (key' x).le (key' y)) :
    StablySorted key' l s where
  ascending := h.ascending.imp_of_mem fun {x y} hx hy hxy => by
    rwa [← hle x (h.mem_iff.mp hx) y (h.mem_iff.mp hy)]
  groups_kept level := by
    have heq : ∀ x ∈ l, ∀ y ∈ l, key' y = key' x ↔ key y = key x := fun x hx y hy => by
      rw [Specificity.eq_iff_le, Specificity.eq_iff_le, hle x hx y hy, hle y hy x hx]
    by_cases hlevel : ∃ x ∈ l, key' x = level
    · obtain ⟨x, hx, rfl⟩ := hlevel
      have hgroup : ∀ m : List α, (∀ y ∈ m, y ∈ l) →
          m.filter (fun y => key' y = key' x) = m.filter fun y => key y = key x :=
        fun m hm => List.filter_congr fun y hy => by simp only [heq x hx y (hm y hy)]
      rw [hgroup s fun y hy => h.mem_iff.mp hy, hgroup l fun y hy => hy, h.groups_kept]
    · have hnone : ∀ m : List α, (∀ y ∈ m, y ∈ l) → m.filter (fun y => key' y = level) = [] :=
        fun m hm => List.filter_eq_nil_iff.mpr fun y hy => by
          simpa using fun e : key' y = level => hlevel ⟨y, hm y hy, e⟩
      rw [hnone s fun y hy => h.mem_iff.mp hy, hnone l fun y hy => hy]

theorem map {key : β → Specificity} (f : α → β) (h : StablySorted (fun x => key (f x)) l s) :
    StablySorted key (l.map f) (s.map f) where
  ascending := List.pairwise_map.mpr h.ascending
  groups_kept level := by
    have hg := congrArg (List.map f) (h.groups_kept level)
    rw [List.filter_map, List.filter_map]
    exact hg

end StablySorted

/-! ## The list of a sheet -/

namespace Sheet

def sortedBlocks (mode : Mode) (text : String) : List Block :=
  groupBySpecificity (Block.specificity mode) (Block.selecting text)

theorem sortedBlocks_sorts (mode : Mode) (text : String) :
    StablySorted (Block.specificity mode) (Block.selecting text) (sortedBlocks mode text) :=
  groupBySpecificity_sorts _ _

/-- A sheet is parsed to its sorted blocks, each made into a declaration. -/
theorem parse_eq_map (mode : Mode) {text : String} (h : text ≠ "") :
    parse mode (some text) = .ok ((sortedBlocks mode text).map (Block.declaration mode)) := by
  obtain ⟨l, hl, hs⟩ := parse_sorts mode h
  have hmap : StablySorted (·.selector.specificity) (inSourceOrder mode text)
      ((sortedBlocks mode text).map (Block.declaration mode)) :=
    StablySorted.map (Block.declaration mode) (sortedBlocks_sorts mode text)
  rw [hl, hs.unique hmap]

end Sheet

/-! ## Applying it -/

section

variable {δ ε : Type} {host : Host δ ε} {handler : Option Handler}

namespace Cascade

/-- Of a declaration a run looks at the selector's text and the properties. -/
theorem eq_kept {d d' : Declaration} (h : d.asBlock = d'.asBlock) :
    Keeps host handler handler (fun r r' : Run δ ε => r' = r) d d' where
  properties_eq := (congrArg Block.properties h).symm
  ask := by
    rintro r _ rfl
    have htext : d.selector.text = d'.selector.text := congrArg Block.selector h
    rw [ask, ask, htext]
    exact ⟨rfl, Or.inr rfl⟩
  write := by
    rintro r _ rfl element p -
    rfl

/-- Lists that are written alike run alike. -/
theorem run_congr {l l' : List Declaration} (h : l.map Declaration.asBlock = l'.map Declaration.asBlock) (page : δ)
    (reported : List Problem) (text : String) :
    run host handler l page reported text = run host handler l' page reported text := by
  rw [← List.forall₂_eq_eq_eq, List.forall₂_map_left_iff, List.forall₂_map_right_iff] at h
  exact (run_pairs (h.imp fun _ _ => eq_kept) rfl).symm

end Cascade

theorem Session.compile_sorted (host : Host δ ε) (s : Session δ) {text : String} (h : text ≠ "") (html : String) :
    let l := (Sheet.sortedBlocks s.mode text).map (Block.declaration s.mode)
    s.compile host (some text) html =
      { s.apply host l html with events := readingEvents text ++ (s.apply host l html).events } :=
  compile_text host (by simp only [parse, Sheet.parse_eq_map s.mode h, Option.getD_some]) html

end

end AttributeSheet
