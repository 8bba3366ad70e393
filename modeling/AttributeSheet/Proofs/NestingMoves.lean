/-
  AttributeSheet.Proofs.NestingMoves — the nesting of a page as a chain of moves.

  Whatever a token does to the open elements is a chain of four moves (`Move`): a node is
  added to the innermost element, an element is opened, the innermost one is closed, or
  the count of end tags to pass over is set. While no element is open, only an html is
  opened. Closing all at the end is one too and leaves no element open (`finish_stack`).
  So what each move keeps holds at the end of a page if it holds after some of its tokens
  (`foldl_finish_moves`, `Moves.keeps`).
-/
import AttributeSheet.Markup.Nesting
import Mathlib.Logic.Relation

namespace AttributeSheet.Markup

/-- The function puts one node before a row. -/
inductive Forest.IsNode : (Forest → Forest) → Prop
  | text (s : String) : IsNode (.text s)
  | comment (s : String) : IsNode (.comment s)
  | element (tag : String) (attributes : Attributes) (children : Forest) :
      IsNode (.element tag attributes children)

namespace Nesting

inductive Move (s : Nesting) : Nesting → Prop
  | adds {node : Forest → Forest} : Forest.IsNode node → Move s (s.add node)
  | opens {tag : String} (attributes : Attributes) : (s.stack = [] → tag = "html") →
      Move s (s.openElement tag attributes)
  | closes : Move s s.close
  | counts (n : Nat) : Move s { s with surplus := n }

def Moves : Nesting → Nesting → Prop := Relation.ReflTransGen Move

variable {s t : Nesting}

theorem Moves.trans {u : Nesting} (h : Moves s t) (k : Moves t u) : Moves s u := Relation.ReflTransGen.trans h k

/-! ## Every token is a chain of moves -/

theorem moves_opens {tag : String} (h : s.stack = [] → tag = "html") (attributes : Attributes) :
    Moves s (s.openElement tag attributes) := .single (.opens attributes h)

theorem closeMany_moves (n : Nat) (s : Nesting) : Moves s (closeMany n s) := by
  induction n generalizing s with
  | zero => exact .refl
  | succ n ih => exact .head .closes (ih s.close)

theorem makeRoom_moves (s : Nesting) (tag : String) : Moves s (s.makeRoom tag) := closeMany_moves _ s

theorem imply_html_moves (s : Nesting) : Moves s (if s.stack.isEmpty then s.openElement "html" .empty else s) := by
  split
  · exact moves_opens (fun _ => rfl) .empty
  · exact .refl

theorem imply_html_stack (s : Nesting) :
    (if s.stack.isEmpty then s.openElement "html" .empty else s).stack ≠ [] := by
  split
  · exact List.cons_ne_nil _ _
  next h => exact fun hnil => h (List.isEmpty_iff.mpr hnil)

theorem imply_moves (s : Nesting) (tag : String) :
    Moves s (s.imply tag) ∧ ((s.imply tag).stack = [] → tag = "html") := by
  unfold imply
  split
  next htag => exact ⟨.refl, fun _ => htag⟩
  · have hhtml := imply_html_moves s
    have hopen := imply_html_stack s
    generalize (if s.stack.isEmpty = true then s.openElement "html" .empty else s) = t at hhtml hopen
    have hopens : ∀ inner, Moves s (t.openElement inner .empty) :=
      fun inner => hhtml.trans (moves_opens (fun hnil => absurd hnil hopen) .empty)
    have hcons : ∀ inner, (t.openElement inner .empty).stack ≠ [] := fun inner => List.cons_ne_nil _ _
    dsimp only
    split
    · exact ⟨hhtml, fun hnil => absurd hnil hopen⟩
    · split
      · split
        · exact ⟨hhtml, fun hnil => absurd hnil hopen⟩
        · exact ⟨hopens "head", fun hnil => absurd hnil (hcons "head")⟩
      · split
        · exact ⟨hhtml, fun hnil => absurd hnil hopen⟩
        · exact ⟨hopens "body", fun hnil => absurd hnil (hcons "body")⟩

theorem startTag_moves (s : Nesting) (tag : String) (attributes : Attributes) (closed : Bool) :
    Moves s (s.startTag tag attributes closed) := by
  obtain ⟨himplied, hopen⟩ := imply_moves (s.makeRoom tag) tag
  refine ((makeRoom_moves s tag).trans himplied).trans ?_
  unfold startTag
  generalize (s.makeRoom tag).imply tag = t at hopen
  dsimp only
  split
  · exact .single (.counts (t.surplus + 1))
  · refine (moves_opens hopen attributes).trans ?_
    split
    · exact .single .closes
    · exact .refl

theorem endTag_moves (s : Nesting) (tag : String) : Moves s (s.endTag tag) := by
  unfold endTag
  dsimp only
  split
  · exact .single (.counts (s.surplus - 1))
  · split
    · exact .refl
    · exact closeMany_moves _ s

theorem text_moves (s : Nesting) (t : String) : Moves s (s.text t) := by
  have hadds : ∀ (r : Nesting) (u : String), Moves r (r.add (.text u)) := fun r u => .single (.adds (.text u))
  have hblanks : ∀ blanks : List Char,
      Moves s (if blanks.isEmpty then s else s.add (.text (String.ofList blanks))) := by
    intro blanks
    split
    · exact .refl
    · exact hadds s _
  have hrest : ∀ (r : Nesting) (rest : List Char), Moves r (if rest.isEmpty then r else
      ((if r.tags.head? = some "head" then r.makeRoom "p" else r).imply "p").add (.text (String.ofList rest))) := by
    intro r rest
    split
    · exact .refl
    · split
      · exact ((makeRoom_moves r "p").trans (imply_moves _ "p").1).trans (hadds _ _)
      · exact (imply_moves r "p").1.trans (hadds _ _)
  -- Outside of the body a text is its blanks and then the rest of it.
  have houtside := (hblanks (t.toList.takeWhile Token.isSpace)).trans (hrest _ (t.toList.dropWhile Token.isSpace))
  unfold text
  split
  · exact houtside
  · exact houtside
  · exact houtside
  · exact hadds s t

theorem step_moves (s : Nesting) (token : Token) : Moves s (s.step token) := by
  cases token with
  | startTag tag attributes closed => exact startTag_moves s tag attributes closed
  | endTag tag => exact endTag_moves s tag
  | text t => exact text_moves s t
  | comment t => exact .single (.adds (.comment t))

theorem finish_moves (s : Nesting) : Moves s s.finish := closeMany_moves _ s

/-- From any of its tokens on, a page is a chain of moves. -/
theorem foldl_finish_moves (tokens : List Token) (s : Nesting) : Moves s (tokens.foldl step s).finish := by
  induction tokens generalizing s with
  | nil => exact finish_moves s
  | cons token tokens ih => exact (step_moves s token).trans (ih (s.step token))

/-- What holds at some time and is kept by every move holds at the end. -/
theorem Moves.keeps {P : Nesting → Prop} (hmove : ∀ s t, Move s t → P s → P t) (h : Moves s t) (hs : P s) : P t := by
  induction h with
  | refl => exact hs
  | tail _ hstep ih => exact hmove _ _ hstep ih

/-! ## Closing all -/

theorem add_length (s : Nesting) (node : Forest → Forest) : (s.add node).stack.length = s.stack.length := by
  unfold add
  split <;> simp_all

theorem close_length (s : Nesting) : s.close.stack.length = s.stack.length - 1 := by
  unfold close
  split
  next h => simp [h]
  next e rest h =>
    dsimp only
    split
    · simp [h]
    · rw [add_length]
      simp [h]

theorem closeMany_length (n : Nat) (s : Nesting) : (closeMany n s).stack.length = s.stack.length - n := by
  induction n generalizing s with
  | zero => rfl
  | succ n ih => rw [closeMany, ih, close_length]; omega

theorem finish_stack (s : Nesting) : s.finish.stack = [] := by
  rw [← List.length_eq_zero_iff, finish, closeMany_length]; omega

end Nesting

end AttributeSheet.Markup
