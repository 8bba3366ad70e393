/-
  AttributeSheet.Proofs.CascadeLaw — which block gives an attribute its value.

  Applying a list leaves each name with the value of the last declaration that sets it
  (`apply_last`). In cascade order the last one is the greatest by specificity and then
  by place (`StablySorted.greatestOf`), in the turned order the least
  (`StablySorted.leastOf`). So which block counts can be told from the sheet alone
  (`cascade_law`): neither the sorted list nor the pages in between come into it.

  The law is about sheets and lists that write no id and no class, so that selectors
  find the same elements all along, and that do not break the host.
-/
import AttributeSheet.Session
import AttributeSheet.Proofs.LastWrite

namespace AttributeSheet

open Host Host.Flat

/-! ## From one list to another -/

namespace Host.Flat.Cascades

variable {α β : Type} {block : α → Block} {e e' : Element}

/-- What the last item does in ascending order, the greatest does in any. -/
theorem greatestOf {key : α → Specificity} {l s : List α} (hs : StablySorted key l s)
    (h : Cascades block LastOf s e e') : Cascades block (GreatestOf key) l e e' := by
  refine ⟨h.tag_eq, fun name hn => ?_⟩
  rcases h.value name hn with ⟨x, hx, hv⟩ | ⟨hnone, hv⟩
  · exact Or.inl ⟨x, hs.greatestOf hx, hv⟩
  · exact Or.inr ⟨fun x hx => hnone x (hs.mem_iff.mpr hx), hv⟩

theorem leastOf {key : α → Specificity} {l s : List α} (hs : StablySorted key l s)
    (h : Cascades block LastOf s.reverse e e') : Cascades block (LeastOf key) l e e' := by
  refine ⟨h.tag_eq, fun name hn => ?_⟩
  rcases h.value name hn with ⟨x, hx, hv⟩ | ⟨hnone, hv⟩
  · exact Or.inl ⟨x, hs.leastOf hx, hv⟩
  · exact Or.inr ⟨fun x hx => hnone x (List.mem_reverse.mpr (hs.mem_iff.mpr hx)), hv⟩

end Host.Flat.Cascades

theorem Block.declaration_names (mode : Mode) (b : Block) (name : String) :
    name ∈ (b.declaration mode).properties.entries.map (·.1) ↔ name ∈ b.properties.map (·.1) := by
  have hkeys : (b.declaration mode).properties.entries.map (·.1) = (b.properties.map (·.1)).eraseDups :=
    OrderedMap.keys_ofList b.properties
  rw [hkeys, List.mem_eraseDups]

theorem Block.lastValue?_declaration (mode : Mode) (b : Block) (name : String) :
    OrderedMap.lastValue? name (b.declaration mode).properties.entries = OrderedMap.lastValue? name b.properties := by
  have hnodup : ((b.declaration mode).properties.entries.map (·.1)).Nodup := OrderedMap.nodup_keys_ofList b.properties
  rw [OrderedMap.lastValue?_of_nodup hnodup]
  exact OrderedMap.get?_ofList b.properties name

theorem Host.Flat.Cascades.of_declarations {mode : Mode} {earlier later : Declaration → Declaration → Prop}
    {bs : List Block} {e e' : Element}
    (h : Cascades Declaration.asBlock (ChosenBy earlier later) (bs.map (Block.declaration mode)) e e') :
    Cascades id (ChosenBy (fun a b => earlier (a.declaration mode) (b.declaration mode))
      fun a b => later (a.declaration mode) (b.declaration mode)) bs e e' := by
  have hsets : ∀ name b, Sets name e (b.declaration mode).asBlock ↔ Sets name e b :=
    fun name b => and_congr_right fun _ => Block.declaration_names mode b name
  refine ⟨h.tag_eq, fun name hn => ?_⟩
  rcases h.value name hn with ⟨d, hd, hv⟩ | ⟨hnone, hv⟩
  · obtain ⟨b, rfl, hb⟩ := chosenBy_map hd
    simp only [hsets] at hb
    exact Or.inl ⟨b, hb, hv.trans (Block.lastValue?_declaration mode b name)⟩
  · refine Or.inr ⟨fun b hb hset => ?_, hv⟩
    exact hnone _ (List.mem_map_of_mem hb) ((hsets name b).mpr hset)

/-! ## The whole page -/

/-- The block writes no id and no class, and its selector does not break the host. -/
structure Block.Safe (b : Block) : Prop where
  id_kept : "id" ∉ b.properties.map (·.1)
  class_kept : "class" ∉ b.properties.map (·.1)
  unbroken : ¬ Breaks b.selector

instance : DecidablePred Block.Safe := fun b =>
  decidable_of_iff ("id" ∉ b.properties.map (·.1) ∧ "class" ∉ b.properties.map (·.1) ∧ ¬ Breaks b.selector)
    ⟨fun ⟨hid, hclass, hb⟩ => ⟨hid, hclass, hb⟩, fun ⟨hid, hclass, hb⟩ => ⟨hid, hclass, hb⟩⟩

/-- A step that ends with `page` in the host and its text as the answer. -/
structure Outcome.Shows (o : Outcome (List Element) Nat String) (html : String) (page : List Element) : Prop where
  held : o.session.page = page
  answered : o.result = .ok (Markup.doctype html ++ Flat.print page)

/-- The step ends with a page in which every element is what the chosen items of `l`
    make of the element that stood in its place in `old`. -/
def Outcome.Cascades {α : Type} (o : Outcome (List Element) Nat String) (html : String) (old : List Element)
    (block : α → Block) (chosen : (α → Prop) → List α → α → Prop) (l : List α) : Prop :=
  ∃ page, o.Shows html page ∧ List.Forall₂ (Flat.Cascades block chosen l) old page

theorem Outcome.Cascades.imp {α β : Type} {o : Outcome (List Element) Nat String} {html : String} {old : List Element}
    {block : α → Block} {chosen : (α → Prop) → List α → α → Prop} {l : List α}
    {block' : β → Block} {chosen' : (β → Prop) → List β → β → Prop} {l' : List β}
    (h : o.Cascades html old block chosen l)
    (himp : ∀ e e', Flat.Cascades block chosen l e e' → Flat.Cascades block' chosen' l' e e') :
    o.Cascades html old block' chosen' l' := by
  obtain ⟨page, hshows, hall⟩ := h
  exact ⟨page, hshows, hall.imp himp⟩

def Block.specificity (mode : Mode) (b : Block) : Specificity := .ofText mode b.selector

namespace Session

variable {s : Session (List Element)}

/-- Applying a list changes every element as the declarations do on its own, and answers
    with the page of these elements. -/
theorem apply_shows (hq : Quiet s.handler) {l : List Declaration} (hb : ∀ d ∈ l, ¬ Breaks d.selector.text)
    (html : String) : (s.apply flat l html).Shows html (s.page.map fun e => l.foldl Element.after e) := by
  obtain ⟨hpage, hgoing⟩ := run_at hq hb s.page s.reported html
  refine ⟨hpage, ?_⟩
  rw [apply, Cascade.result, hgoing, hpage]; rfl

theorem apply_last (hq : Quiet s.handler) {l : List Declaration} (hl : ∀ d ∈ l, d.asBlock.Safe) (html : String) :
    (s.apply flat l html).Cascades html s.page Declaration.asBlock LastOf l := by
  refine ⟨_, apply_shows hq (fun d hd => (hl d hd).unbroken) html, ?_⟩
  rw [List.forall₂_map_right_iff, List.forall₂_same]
  exact fun e _ => foldl_after_cascades e fun d hd => ⟨(hl d hd).id_kept, (hl d hd).class_kept⟩

theorem apply_sorted (hq : Quiet s.handler) {l sorted : List Declaration} (hl : ∀ d ∈ l, d.asBlock.Safe)
    (hs : StablySorted (·.selector.specificity) l sorted) (html : String) :
    (s.apply flat sorted html).Cascades html s.page Declaration.asBlock (GreatestOf (·.selector.specificity)) l := by
  have hsafe : ∀ d ∈ sorted, d.asBlock.Safe := fun d hd => hl d (hs.mem_iff.mp hd)
  exact (apply_last hq hsafe html).imp fun _ _ => Flat.Cascades.greatestOf hs

theorem apply_turned (hq : Quiet s.handler) {l sorted : List Declaration} (hl : ∀ d ∈ l, d.asBlock.Safe)
    (hs : StablySorted (·.selector.specificity) l sorted) (html : String) :
    (s.apply flat sorted.reverse html).Cascades html s.page Declaration.asBlock
      (LeastOf (·.selector.specificity)) l := by
  have hsafe : ∀ d ∈ sorted.reverse, d.asBlock.Safe := fun d hd => hl d (hs.mem_iff.mp (List.mem_reverse.mp hd))
  exact (apply_last hq hsafe html).imp fun _ _ => Flat.Cascades.leastOf hs

/-! ## From the sheet to the page -/

theorem safe_inSourceOrder {mode : Mode} {text : String} (hsafe : ∀ b ∈ Block.ofSheet text, b.Safe) :
    ∀ d ∈ Sheet.inSourceOrder mode text, d.asBlock.Safe := by
  intro d hd
  obtain ⟨b, hb, rfl⟩ := List.mem_map.mp hd
  obtain ⟨hid, hclass, hbroken⟩ := hsafe b (Block.mem_selecting.mp hb).1
  exact ⟨mt (Block.declaration_names mode b _).mp hid, mt (Block.declaration_names mode b _).mp hclass, hbroken⟩

theorem compile_shows_iff {text : String} {l : List Declaration} (hl : Sheet.parse s.mode (some text) = .ok l)
    (html : String) (page : List Element) :
    (s.compile flat (some text) html).Shows html page ↔ (s.apply flat l html).Shows html page := by
  simp only [compile, parse, hl]
  exact ⟨fun h => ⟨h.held, h.answered⟩, fun h => ⟨h.held, h.answered⟩⟩

/-- Compiling a sheet lets the greatest block count, by specificity and then by place. -/
theorem compile_greatest (hq : Quiet s.handler) {text : String} (hne : text ≠ "")
    (hsafe : ∀ b ∈ Block.ofSheet text, b.Safe) (html : String) :
    (s.compile flat (some text) html).Cascades html s.page id (GreatestOf (Block.specificity s.mode))
      (Block.selecting text) := by
  obtain ⟨l, hl, hs⟩ := Sheet.parse_sorts s.mode hne
  obtain ⟨page, hshows, hall⟩ := (apply_sorted hq (safe_inSourceOrder hsafe) hs html).imp
    fun _ _ => Flat.Cascades.of_declarations
  exact ⟨page, (compile_shows_iff hl html page).mpr hshows, hall⟩

theorem apply_turned_sheet (hq : Quiet s.handler) {text : String} (hne : text ≠ "")
    (hsafe : ∀ b ∈ Block.ofSheet text, b.Safe) (html : String) :
    ∃ l turned, Sheet.parse s.mode (some text) = .ok l ∧ Declaration.sort? true l = .ok turned ∧
      (s.apply flat turned html).Cascades html s.page id (LeastOf (Block.specificity s.mode))
        (Block.selecting text) := by
  obtain ⟨l, hl, hs⟩ := Sheet.parse_sorts s.mode hne
  have hkinds : ∀ d ∈ l, d.selector.specificity.isNumber = (s.mode == .legacy) :=
    fun d hd => Sheet.isNumber_inSourceOrder (hs.mem_iff.mp hd)
  obtain ⟨sorted, hsorted, hsort⟩ := sortBySpecificity?_of_oneKind hkinds true
  refine ⟨l, sorted.reverse, hl, hsort, ?_⟩
  exact (apply_turned hq (safe_inSourceOrder hsafe) (hs.trans hsorted) html).imp
    fun _ _ => Flat.Cascades.of_declarations

/-- While the handler does not raise: after compiling a sheet, a name has the value that
    it is given last in the greatest block that sets it, by specificity and then by place
    in the sheet, and after the turned list of the sheet in the least one. After any list,
    it is the last declaration that counts, and so after turning a list the least one. -/
theorem cascade_law (s : Session (List Element)) (hq : Quiet s.handler) (html : String) :
    (∀ text, text ≠ "" → (∀ b ∈ Block.ofSheet text, b.Safe) →
      (s.compile flat (some text) html).Cascades html s.page id (GreatestOf (Block.specificity s.mode))
        (Block.selecting text) ∧
      ∃ l turned, Sheet.parse s.mode (some text) = .ok l ∧ Declaration.sort? true l = .ok turned ∧
        (s.apply flat turned html).Cascades html s.page id (LeastOf (Block.specificity s.mode))
          (Block.selecting text)) ∧
    ∀ l : List Declaration, (∀ d ∈ l, d.asBlock.Safe) →
      (s.apply flat l html).Cascades html s.page Declaration.asBlock LastOf l ∧
      ∀ turned, Declaration.sort? true l = .ok turned →
        (s.apply flat turned html).Cascades html s.page Declaration.asBlock (LeastOf (·.selector.specificity)) l := by
  refine ⟨fun text hne hsafe => ?_, fun l hl => ?_⟩
  · exact ⟨compile_greatest hq hne hsafe html, apply_turned_sheet hq hne hsafe html⟩
  · refine ⟨apply_last hq hl html, fun turned h => ?_⟩
    obtain ⟨sorted, hs, rfl⟩ := sortBySpecificity?_sorts h
    exact apply_turned hq hl hs html

/-- An id against a tag that is written later, and a list of the two that is turned round. -/
theorem cascade_law_id_and_tag :
    let s : Session (List Element) := ⟨.legacy, some (.recording "log"), [⟨"a", ⟨[("id", "i")]⟩⟩], [], []⟩
    let l : List Declaration :=
      [⟨⟨"a", .legacy, .number 1⟩, ⟨[("x", "2")]⟩⟩, ⟨⟨"#i", .legacy, .number 100⟩, ⟨[("x", "1")]⟩⟩]
    Quiet s.handler ∧
    (s.compile flat (some "#i\x7bx:1\x7da\x7bx:2\x7d") "").Cascades "" s.page id
      (GreatestOf (Block.specificity .legacy)) [⟨"#i", [("x", "1")]⟩, ⟨"a", [("x", "2")]⟩] ∧
    (s.apply flat l "").Cascades "" s.page Declaration.asBlock LastOf l ∧
    Declaration.sort? true l = .ok l.reverse ∧
    (s.apply flat l.reverse "").Cascades "" s.page Declaration.asBlock (LeastOf (·.selector.specificity)) l := by
  intro s l
  have hq : Quiet s.handler := quiet_recording "log"
  have hblocks : Block.selecting "#i\x7bx:1\x7da\x7bx:2\x7d" = [⟨"#i", [("x", "1")]⟩, ⟨"a", [("x", "2")]⟩] := by decide
  have hsort : Declaration.sort? true l = .ok l.reverse := by rfl
  have hl : ∀ d ∈ l, d.asBlock.Safe := by decide
  obtain ⟨hsheet, hlist⟩ := cascade_law s hq ""
  refine ⟨hq, ?_, (hlist l hl).1, hsort, (hlist l hl).2 _ hsort⟩
  rw [← hblocks]
  exact (hsheet "#i\x7bx:1\x7da\x7bx:2\x7d" (by decide) (by decide)).1

end Session

end AttributeSheet
