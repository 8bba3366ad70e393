/-
  AttributeSheet.Proofs.FragmentContainer — what a fragment is put into.

  A fragment is parsed between the tags of an html and a body of no attributes. Whatever
  it holds, the first body under the first root is that one: while it is open, it stands
  at the bottom of the stack, right above the root; closed, it is the first element of
  the root's row, and rows only grow at their end (`Wrapped`, `Wrapped.move`). So a
  fragment always comes to a body without attributes (`ofMarkup?_wrap`).
-/
import AttributeSheet.Markup.Page
import AttributeSheet.Proofs.NestingMoves
import AttributeSheet.Proofs.Pieces

namespace AttributeSheet.Markup

/-! ## Rows kept turned round -/

namespace Forest

theorem find?_reverseOnto (tag : String) (f g : Forest) :
    (f.reverseOnto g).find? tag = (f.reverse.find? tag).or (g.find? tag) := by
  induction f generalizing g with
  | nil => rfl
  | text s r ih => rw [reverse, reverseOnto, reverseOnto, ih, ih (text s nil)]; simp [find?]
  | comment s r ih => rw [reverse, reverseOnto, reverseOnto, ih, ih (comment s nil)]; simp [find?]
  | element t a c r _ ih =>
    rw [reverse, reverseOnto, reverseOnto, ih, ih (element t a c nil)]
    by_cases h : t = tag <;> simp [find?, h]

theorem firstElement?_reverseOnto (f g : Forest) :
    (f.reverseOnto g).firstElement? = f.reverse.firstElement?.or g.firstElement? := by
  induction f generalizing g with
  | nil => rfl
  | text s r ih => rw [reverse, reverseOnto, reverseOnto, ih, ih (text s nil)]; simp [firstElement?]
  | comment s r ih => rw [reverse, reverseOnto, reverseOnto, ih, ih (comment s nil)]; simp [firstElement?]
  | element t a c r _ ih =>
    rw [reverse, reverseOnto, reverseOnto, ih, ih (element t a c nil)]
    simp [firstElement?]

/-- A node at the end of a row takes no element's place as the first with its tag. -/
theorem IsNode.find?_kept {node : Forest → Forest} (h : IsNode node) {f : Forest} {tag : String} {e : Element}
    (hf : f.reverse.find? tag = some e) : (node f).reverse.find? tag = some e := by
  have hnode : (node f).reverse = f.reverseOnto (node nil) := by cases h <;> rfl
  rw [hnode, find?_reverseOnto, hf, Option.some_or]

theorem IsNode.firstElement?_kept {node : Forest → Forest} (h : IsNode node) {f : Forest} {e : Element}
    (hf : f.reverse.firstElement? = some e) : (node f).reverse.firstElement? = some e := by
  have hnode : (node f).reverse = f.reverseOnto (node nil) := by cases h <;> rfl
  rw [hnode, firstElement?_reverseOnto, hf, Option.some_or]

def HoldsContainer (f : Forest) : Prop := ∃ children, f.find? "body" = some ⟨"body", .empty, children⟩

end Forest

/-! ## The container while a page is parsed -/

namespace Nesting

/-- Where the container stands: open, as the only node of the open root; in the row of the
    open root; in the row of the first root, which is closed. -/
inductive Wrapped (s : Nesting) : Prop
  | bodyOpen (inner : List OpenElement) {tag : String} {a : Attributes} {c : Forest} :
      s.stack = inner ++ [⟨"body", .empty, c⟩, ⟨tag, a, .nil⟩] → s.roots = .nil → Wrapped s
  | rootOpen (inner : List OpenElement) {root : OpenElement} :
      s.stack = inner ++ [root] → s.roots = .nil → root.children.reverse.HoldsContainer → Wrapped s
  | rootClosed {root : Element} :
      s.roots.reverse.firstElement? = some root → root.children.HoldsContainer → Wrapped s

variable {s : Nesting}

theorem add_roots (s : Nesting) (node : Forest → Forest) : (s.add node).roots = s.roots := by
  unfold add
  split <;> rfl

theorem add_stack {e : OpenElement} {rest : List OpenElement} (h : s.stack = e :: rest) (node : Forest → Forest) :
    (s.add node).stack = { e with children := node e.children } :: rest := by
  unfold add
  rw [h]

theorem Wrapped.add {node : Forest → Forest} (hnode : Forest.IsNode node) (h : Wrapped s) : Wrapped (s.add node) := by
  have hkept := add_roots s node
  cases h with
  | @bodyOpen inner tag a c hstack hroots =>
    cases inner with
    | nil => exact .bodyOpen [] (add_stack hstack node) (hkept.trans hroots)
    | cons e inner => exact .bodyOpen (_ :: inner) (add_stack hstack node) (hkept.trans hroots)
  | @rootOpen inner root hstack hroots hheld =>
    cases inner with
    | nil =>
      obtain ⟨children, hbody⟩ := hheld
      exact .rootOpen [] (add_stack hstack node) (hkept.trans hroots) ⟨children, hnode.find?_kept hbody⟩
    | cons e inner => exact .rootOpen (_ :: inner) (add_stack hstack node) (hkept.trans hroots) hheld
  | rootClosed hfirst hheld => exact .rootClosed (hkept.symm ▸ hfirst) hheld

theorem Wrapped.openElement (h : Wrapped s) (tag : String) (attributes : Attributes) :
    Wrapped (s.openElement tag attributes) := by
  cases h with
  | bodyOpen inner hstack hroots => exact .bodyOpen (_ :: inner) (congrArg _ hstack) hroots
  | rootOpen inner hstack hroots hheld => exact .rootOpen (_ :: inner) (congrArg _ hstack) hroots hheld
  | rootClosed hfirst hheld => exact .rootClosed hfirst hheld

theorem close_within {e f : OpenElement} {rest : List OpenElement} (h : s.stack = e :: f :: rest) :
    s.close = Nesting.add { s with stack := f :: rest } (.element e.tag e.attributes e.children.reverse) := by
  unfold close
  rw [h]
  rfl

theorem close_root {e : OpenElement} (h : s.stack = [e]) :
    s.close = { s with stack := [], roots := .element e.tag e.attributes e.children.reverse s.roots } := by
  unfold close
  rw [h]
  rfl

theorem Wrapped.close (h : Wrapped s) : Wrapped s.close := by
  cases h with
  | @bodyOpen inner tag a c hstack hroots =>
    cases inner with
    | nil =>
      rw [close_within hstack]
      exact .rootOpen [] rfl hroots ⟨c.reverse, rfl⟩
    | cons e inner =>
      have hbelow : Wrapped { s with stack := inner ++ [⟨"body", .empty, c⟩, ⟨tag, a, .nil⟩] } :=
        .bodyOpen inner rfl hroots
      cases inner with
      | nil => rw [close_within hstack]; exact hbelow.add (.element ..)
      | cons f inner => rw [close_within hstack]; exact hbelow.add (.element ..)
  | @rootOpen inner root hstack hroots hheld =>
    cases inner with
    | nil =>
      rw [close_root hstack, hroots]
      exact .rootClosed rfl hheld
    | cons e inner =>
      have hbelow : Wrapped { s with stack := inner ++ [root] } := .rootOpen inner rfl hroots hheld
      cases inner with
      | nil => rw [close_within hstack]; exact hbelow.add (.element ..)
      | cons f inner => rw [close_within hstack]; exact hbelow.add (.element ..)
  | rootClosed hfirst hheld =>
    cases hstack : s.stack with
    | nil => rw [Nesting.close, hstack]; exact .rootClosed hfirst hheld
    | cons e rest =>
      cases rest with
      | nil =>
        rw [close_root hstack]
        exact .rootClosed ((Forest.IsNode.element ..).firstElement?_kept hfirst) hheld
      | cons f rest =>
        rw [close_within hstack]
        exact Wrapped.add (.element ..) (.rootClosed hfirst hheld)

theorem Wrapped.move {t : Nesting} (hmove : Move s t) (h : Wrapped s) : Wrapped t := by
  cases hmove with
  | adds hnode => exact h.add hnode
  | opens attributes _ => exact h.openElement _ attributes
  | closes => exact h.close
  | counts n => cases h with
    | bodyOpen inner hstack hroots => exact .bodyOpen inner hstack hroots
    | rootOpen inner hstack hroots hheld => exact .rootOpen inner hstack hroots hheld
    | rootClosed hfirst hheld => exact .rootClosed hfirst hheld

theorem Wrapped.root (h : Wrapped s) (hempty : s.stack = []) :
    ∃ root, s.roots.reverse.firstElement? = some root ∧ root.children.HoldsContainer := by
  cases h with
  | bodyOpen _ hstack _ => simp [hempty] at hstack
  | rootOpen _ hstack _ _ => simp [hempty] at hstack
  | rootClosed hfirst hheld => exact ⟨_, hfirst, hheld⟩

/-- A page that opens with the tags of an html and a body of no attributes. -/
theorem ofTokens_wrapped (tokens : List Token) :
    ∃ root, (ofTokens (.startTag "html" .empty false :: .startTag "body" .empty false :: tokens)).roots.reverse.firstElement?
      = some root ∧ root.children.HoldsContainer := by
  have hopened : Wrapped ((start.step (.startTag "html" .empty false)).step (.startTag "body" .empty false)) :=
    .bodyOpen [] rfl rfl
  exact ((foldl_finish_moves tokens _).keeps (fun _ _ => Wrapped.move) hopened).root (finish_stack _)

end Nesting

/-! ## Taking a fragment in -/

namespace Token

theorem readStartTag_bare {name : List Char} (hall : name.all inTagName = true)
    (hraw : isRaw (lowered name) = false) (htext : isTextOnly (lowered name) = false) (rest : List Char) :
    readStartTag (name ++ '>' :: rest) = ([.startTag (lowered name) .empty false], rest) := by
  have hname := List.all_eq_true.mp hall
  have hend : inTagName '>' ≠ true := by decide
  have htake : (name ++ '>' :: rest).takeWhile inTagName = name := by
    rw [List.takeWhile_append_of_pos hname, List.takeWhile_cons_of_neg hend, List.append_nil]
  have hdrop : (name ++ '>' :: rest).dropWhile inTagName = '>' :: rest := by
    rw [List.dropWhile_append_of_pos hname, List.dropWhile_cons_of_neg hend]
  have hclose : readTagEnd? .empty ('>' :: rest) = some (.empty, false, rest) := by
    rw [readTagEnd?]
    rfl
  simp [readStartTag, htake, hdrop, hclose, hraw, htext]

theorem readAll_of_read {c : Char} {s rest : List Char} {tokens : List Token} (h : read (c :: s) = (tokens, rest))
    (hless : rest.length < (c :: s).length) : readAll (c :: s) = tokens ++ readAll rest := by
  rw [readAll, h]
  simp only [List.isEmpty_cons, Bool.false_eq_true, if_false, dif_pos hless]

theorem ofPage_wrap (fragment : String) :
    ∃ tokens, ofPage (Page.wrap fragment) = .startTag "html" .empty false :: .startTag "body" .empty false :: tokens := by
  -- Between the tags stand the characters of the fragment, with its newlines unified.
  obtain ⟨inside, hinside⟩ : ∃ inside, (Text.unifyNewlineChars (Page.wrap fragment).toList).map
      (fun c => if c = '\x00' then '\uFFFD' else c) =
        '<' :: ("html".toList ++ '>' :: '<' :: ("body".toList ++ '>' :: inside)) := by
    simp only [Page.wrap, String.toList_append, List.append_assoc]
    exact ⟨_, rfl⟩
  let body := '<' :: ("body".toList ++ '>' :: inside)
  have hbody : readAll body = [.startTag "body" .empty false] ++ readAll inside :=
    readAll_of_read (readStartTag_bare (by decide) (by decide) (by decide) inside) (by simp; omega)
  have hhtml : readAll ('<' :: ("html".toList ++ '>' :: body)) = [.startTag "html" .empty false] ++ readAll body :=
    readAll_of_read (readStartTag_bare (by decide) (by decide) (by decide) body) (by simp; omega)
  exact ⟨readAll inside, by rw [ofPage, hinside, hhtml, hbody]; rfl⟩

end Token

/-- Whatever a fragment holds, it is parsed to the row of a body without attributes. -/
theorem ofMarkup?_wrap (fragment : String) :
    ∃ root, Element.ofMarkup? (Page.wrap fragment) = some root ∧ root.children.HoldsContainer := by
  obtain ⟨tokens, htokens⟩ := Token.ofPage_wrap fragment
  obtain ⟨root, hroot, hheld⟩ := Nesting.ofTokens_wrapped tokens
  exact ⟨root, by rw [Element.ofMarkup?, htokens, hroot], hheld⟩

end AttributeSheet.Markup
