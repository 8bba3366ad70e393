/-
  AttributeSheet.Proofs.ForestLibrary — the library of forests keeps the laws of pages.

  Only an html is opened outside of every element, and the outermost open element is the
  one that closes last, so every root is an html (`Rooted`, `Rooted.move`). A fragment is
  parsed to the row of a bare body. A write changes no tag, and of the root only what is
  written to its own, empty path. And the markup of a node ends with the bracket of a tag
  or a comment, or has no bracket at all (`closed_of_mem_nodes`). So the library keeps
  containers (`library_keepsContainer`) and documents (`library_keepsDocument`).
-/
import AttributeSheet.Host.Tree
import AttributeSheet.Proofs.FragmentContainer
import AttributeSheet.Proofs.FragmentPrinting

namespace AttributeSheet

namespace Markup

namespace Nesting

/-- Every element that stands in no other is an html. -/
structure Rooted (s : Nesting) : Prop where
  opened : ∀ tag, s.tags.getLast? = some tag → tag = "html"
  closed : ∀ root, s.roots.reverse.firstElement? = some root → root.tag = "html"

variable {s t : Nesting}

theorem add_tags (s : Nesting) (node : Forest → Forest) : (s.add node).tags = s.tags := by
  cases h : s.stack with
  | nil => simp [add, tags, h]
  | cons e rest => simp [add, tags, h]

theorem Rooted.add (h : Rooted s) (node : Forest → Forest) : Rooted (s.add node) where
  opened := add_tags s node ▸ h.opened
  closed := add_roots s node ▸ h.closed

theorem Rooted.openElement {tag : String} (hopen : s.stack = [] → tag = "html") (h : Rooted s)
    (attributes : Attributes) : Rooted (s.openElement tag attributes) where
  opened outer houter := by
    have htags : (s.openElement tag attributes).tags = tag :: s.tags := rfl
    rw [htags, List.getLast?_cons] at houter
    obtain rfl := Option.some.inj houter
    cases hlast : s.tags.getLast? with
    | none => exact hopen (List.map_eq_nil_iff.mp (List.getLast?_eq_none_iff.mp hlast))
    | some last => exact h.opened last hlast
  closed := h.closed

theorem Rooted.close (h : Rooted s) : Rooted s.close := by
  cases hstack : s.stack with
  | nil =>
    rw [Nesting.close, hstack]
    exact h
  | cons e rest =>
    cases rest with
    | nil =>
      rw [close_root hstack]
      refine ⟨fun tag htag => ?_, fun root hroot => ?_⟩
      · cases htag
      -- The first root stays the first; if there was none, it is the element that was open.
      have htag : e.tag = "html" := h.opened e.tag (by simp [tags, hstack])
      have hrow : (Forest.element e.tag e.attributes e.children.reverse s.roots).reverse =
          s.roots.reverseOnto (.element e.tag e.attributes e.children.reverse .nil) := rfl
      rw [hrow, Forest.firstElement?_reverseOnto] at hroot
      cases hfirst : s.roots.reverse.firstElement? with
      | none =>
        rw [hfirst] at hroot
        obtain rfl := Option.some.inj hroot
        exact htag
      | some first =>
        rw [hfirst] at hroot
        obtain rfl := Option.some.inj hroot
        exact h.closed first hfirst
    | cons f rest =>
      rw [close_within hstack]
      have hbelow : Rooted { s with stack := f :: rest } :=
        ⟨fun outer houter => h.opened outer (by simpa [tags, hstack] using houter), h.closed⟩
      exact hbelow.add _

theorem Rooted.move (hmove : Move s t) (h : Rooted s) : Rooted t := by
  cases hmove with
  | adds _ => exact h.add _
  | opens attributes hopen => exact h.openElement hopen attributes
  | closes => exact h.close
  | counts n => exact ⟨h.opened, h.closed⟩

theorem ofTokens_rooted (tokens : List Token) : Rooted (ofTokens tokens) :=
  (foldl_finish_moves tokens start).keeps (fun _ _ => Rooted.move) ⟨nofun, nofun⟩

end Nesting

namespace Written

theorem not_mem_escape (cs : List Char) : '<' ∉ escape cs := by
  simp only [escape, List.mem_flatMap, not_exists, not_and]
  intro c _
  unfold escapeChar
  split
  · decide
  · split
    · decide
    · split
      · decide
      · rename_i h _
        simpa using Ne.symm h

end Written

/-! ## Rows -/

namespace Forest

theorem render_nil (raw : Bool) : nil.render raw = [] := rfl

theorem render_text (raw : Bool) (s : String) (r : Forest) :
    (text s r).render raw = (if raw then s.toList else Written.escape s.toList) ++ r.render raw := rfl

theorem render_comment (raw : Bool) (s : String) (r : Forest) :
    (comment s r).render raw = "<!--".toList ++ s.toList ++ "-->".toList ++ r.render raw := rfl

theorem render_element (raw : Bool) (t : String) (a : Attributes) (c r : Forest) :
    (element t a c r).render raw =
      Written.startTag t a ++ (if isVoid t then [] else c.render (isRaw t) ++ Written.endTag t) ++ r.render raw := rfl

theorem render_nodes (f : Forest) : f.render false = f.nodes.flatMap (render false) := by
  induction f with
  | nil => rfl
  | text s r ih => simp [nodes, render_text, render_nil, ih]
  | comment s r ih => simp [nodes, render_comment, render_nil, ih]
  | element t a c r _ ih => simp [nodes, render_element, render_nil, ih]

theorem closed_element (t : String) (a : Attributes) (c : Forest) :
    Written.Closed ((element t a c nil).render false) := by
  cases h : isVoid t with
  | true =>
    have hend : (element t a c nil).render false =
        ('<' :: t.toList ++ a.entries.flatMap (Written.attributeText t)) ++ ['>'] := by
      simp [render_element, render_nil, h, Written.startTag]
    exact hend ▸ Written.Closed.of_last _
  | false =>
    have hend : (element t a c nil).render false =
        (Written.startTag t a ++ c.render (isRaw t) ++ '<' :: '/' :: t.toList) ++ ['>'] := by
      simp [render_element, render_nil, h, Written.endTag]
    exact hend ▸ Written.Closed.of_last _

theorem closed_comment (s : String) : Written.Closed ((comment s nil).render false) := by
  have hend : (comment s nil).render false = ("<!--".toList ++ s.toList ++ "--".toList) ++ ['>'] := by
    simp [render_comment, render_nil]
  exact hend ▸ Written.Closed.of_last _

theorem closed_text (s : String) : Written.Closed ((text s nil).render false) :=
  Written.Closed.of_no_opening (by simpa [render_text, render_nil] using Written.not_mem_escape s.toList)

theorem closed_of_mem_nodes {f node : Forest} (h : node ∈ f.nodes) : Written.Closed (node.render false) := by
  induction f with
  | nil => cases h
  | text s r ih => exact (List.mem_cons.mp h).elim (· ▸ closed_text s) ih
  | comment s r ih => exact (List.mem_cons.mp h).elim (· ▸ closed_comment s) ih
  | element t a c r _ ih => exact (List.mem_cons.mp h).elim (· ▸ closed_element t a c) ih

theorem find?_tag {f : Forest} {tag : String} {e : Element} (h : f.find? tag = some e) : e.tag = tag := by
  induction f with
  | nil => cases h
  | text _ r ih => exact ih h
  | comment _ r ih => exact ih h
  | element t a c r _ ih =>
    rw [find?] at h
    split at h
    next heq =>
      obtain rfl := Option.some.inj h
      exact heq
    · exact ih h

end Forest

end Markup

namespace Host.Tree

open Markup (Element Forest)

theorem set_ok {e e' : Element} {path : List Nat} {name value : String}
    (h : library.set e path name value = .ok e') : e' = e.modifyAt (·.insert name (some value)) path := by
  simp only [library, set] at h
  split at h
  · exact (Except.ok.inj h).symm
  · cases h

theorem set_tag {e e' : Element} {path : List Nat} {name value : String}
    (h : library.set e path name value = .ok e') : e'.tag = e.tag := by
  rw [set_ok h]
  cases path <;> rfl

theorem library_keepsContainer : library.KeepsContainer where
  element_tag _ := rfl
  element_attributes _ := rfl
  child_tag h := Forest.find?_tag h
  wrapped_attributes {text root body} hroot hbody := by
    obtain ⟨root', hroot', children, hbody'⟩ := Markup.ofMarkup?_wrap text
    obtain rfl : root' = root := Option.some.inj (hroot'.symm.trans hroot)
    obtain rfl : _ = body := Option.some.inj (hbody'.symm.trans hbody)
    rfl
  set_root _ := rfl
  set_tag := set_tag
  set_attributes {e e' path name value} h hpath := by
    rw [set_ok h]
    cases path with
    | nil => exact absurd rfl hpath
    | cons i path => rfl
  markup_body {e} htag hattributes := by
    obtain ⟨tag, ⟨attributes⟩, children⟩ := e
    obtain rfl : tag = "body" := htag
    obtain rfl : attributes = [] := hattributes
    have hvoid : Markup.isVoid "body" = false := by decide
    have hraw : Markup.isRaw "body" = false := by decide
    have hinside : (children.nodes.map (Forest.render false)).flatten = children.render false := by
      rw [Forest.render_nodes, List.flatMap_def]
    simp [library, Element.render, Forest.render_element, Forest.render_nil, hvoid, hraw, hinside,
      Markup.Written.startTag, Markup.Written.endTag]
  inside_closed {e} htag piece hpiece := by
    have hraw : Markup.isRaw e.tag = false := by
      have htag' : e.tag = "body" := htag
      rw [htag']
      decide
    simp only [library, hraw] at hpiece
    obtain ⟨node, hnode, rfl⟩ := List.mem_map.mp hpiece
    exact Forest.closed_of_mem_nodes hnode

theorem library_keepsDocument : library.KeepsDocument where
  document_tag hroot := (Markup.Nesting.ofTokens_rooted _).closed _ hroot
  wrapped text := by
    obtain ⟨root, hroot, children, hbody⟩ := Markup.ofMarkup?_wrap text
    exact ⟨root, _, hroot, hbody⟩
  set_tag := set_tag
  markup_html {e} htag := by
    obtain ⟨tag, attributes, children⟩ := e
    obtain rfl : tag = "html" := htag
    simp only [library, Element.render, Forest.render_element, Markup.Written.startTag, List.append_assoc]
    exact List.prefix_append _ _

end Host.Tree

end AttributeSheet
