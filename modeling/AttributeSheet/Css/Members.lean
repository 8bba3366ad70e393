/-
  AttributeSheet.Css.Members — lists of selectors.

  A compound selector is a type and simple selectors without gaps. Compound selectors
  are combined by a mark or by a blank. Behind a pseudo-element a selector is over; it
  is valid but matches nothing. The members of a list are parted by commas. A forgiving
  list passes over a member that is not valid, up to the next comma; if it is the first
  one, the list is empty. The members of a relative list may start with a combining
  mark.
-/
import AttributeSheet.Css.Piece

namespace AttributeSheet.Css

open Markup (Relation)

/-- What reading comes to: a value and the pieces that follow it, or, of pieces that are
    not valid, those that were not looked at. -/
abbrev Reading (α : Type) := Except (List Piece) (α × List Piece)

structure Member where
  condition : Condition
  hasPseudoElement : Bool
  deriving DecidableEq, Repr

namespace Member

def pseudoElements : List String :=
  ["first-line", "first-letter", "prefix", "postfix", "selection", "target-text", "spelling-error", "grammar-error",
    "before", "after", "marker", "placeholder", "file-selector-button", "footnote-call", "footnote-marker", "content",
    "shadow"]

/-- The pseudo-elements that may be written with one colon. -/
def oldPseudoElements : List String := ["before", "after", "first-line", "first-letter"]

/-- States that an element on a page by itself is never in. -/
def passingStates : List String :=
  ["visited", "hover", "active", "focus", "focus-within", "focus-visible", "target", "target-within", "current",
    "past", "future", "playing", "paused", "seeking", "buffering", "stalled", "muted", "volume-locked", "user-valid",
    "user-invalid"]

def noSibling (side : Relation) (sameType : Bool) : Condition := .nth side sameType 0 1

def pseudoClass (name : String) : Condition :=
  if passingStates.contains name then .never
  else match name with
    | "link" | "any-link" => .test .link
    | "local-link" => .test .localLink
    | "enabled" => .test .enabled
    | "disabled" => .test .disabled
    | "checked" => .test .checked
    | "root" | "scope" => .test .root
    | "empty" => .test .empty
    | "first-child" => noSibling .preceding false
    | "last-child" => noSibling .following false
    | "only-child" => .both (noSibling .preceding false) (noSibling .following false)
    | "first-of-type" => noSibling .preceding true
    | "last-of-type" => noSibling .following true
    | "only-of-type" => .both (noSibling .preceding true) (noSibling .following true)
    | _ => .unknown

/-! ## Compound selectors -/

inductive Simple where
  | absent
  | invalid (rest : List Piece)
  | pseudoElement (rest : List Piece)
  | condition (c : Condition) (rest : List Piece)
  deriving Repr

def readSimple : List Piece → Simple
  | .hash name true :: r => .condition (.test (.id name)) r
  | .mark "." :: r =>
    match r with
    | .ident name :: r => .condition (.test (.hasClass name)) r
    | _ => .invalid (r.drop 1)
  | .brackets c :: r => c.elim (.invalid r) fun c => .condition c r
  | .mark ":" :: .mark ":" :: r =>
    match r with
    | .ident name :: r => if pseudoElements.contains (Text.lowerLatin name) then .pseudoElement r else .invalid r
    | _ => .invalid (r.drop 1)
  | .mark ":" :: r =>
    match r with
    | .ident name :: r =>
      let name := Text.lowerLatin name
      if oldPseudoElements.contains name then .pseudoElement r else .condition (pseudoClass name) r
    | .function c :: r => c.elim (.invalid r) fun c => .condition c r
    | _ => .invalid (r.drop 1)
  | _ => .absent

/-- The simple selectors that the pieces open with, whether a pseudo-element ends them,
    and what follows. -/
def readSimples (ps : List Piece) : Reading (List Condition × Bool) :=
  match readSimple ps with
  | .absent => .ok (([], false), ps)
  | .invalid rest => .error rest
  | .pseudoElement rest => .ok (([], true), rest)
  | .condition c rest =>
    if _h : rest.length < ps.length then
      (readSimples rest).map fun ((cs, ended), rest) => ((c :: cs, ended), rest)
    else .ok (([c], false), rest)
  termination_by ps.length

/-- The type selector that the pieces open with, if they do: what it asks, if it names a
    type or the empty namespace. -/
def readType : List Piece → Reading (Option (List Condition))
  | .ident _ :: .mark "|" :: r => .error r
  | .ident name :: r => .ok (some [.test (.tag (Text.lowerLatin name))], r)
  | .mark "*" :: .mark "|" :: .ident name :: r => .ok (some [.test (.tag (Text.lowerLatin name))], r)
  | .mark "*" :: .mark "|" :: .mark "*" :: r => .ok (some [], r)
  | .mark "*" :: .mark "|" :: r => .error (r.drop 1)
  | .mark "*" :: r => .ok (some [], r)
  | .mark "|" :: .ident name :: r => .ok (some [.test (.tag (Text.lowerLatin name)), .test .unprefixed], r)
  | .mark "|" :: .mark "*" :: r => .ok (some [.test .unprefixed], r)
  | .mark "|" :: r => .error (r.drop 1)
  | ps => .ok (none, ps)

def readCompound (ps : List Piece) : Reading Member :=
  match readType (Piece.skipBlanks ps) with
  | .error rest => .error rest
  | .ok (type, rest) =>
    match readSimples rest with
    | .error rest => .error rest
    | .ok ((simples, ended), rest) =>
      if type.isNone && simples.isEmpty && !ended then .error rest
      else .ok (⟨.all (type.getD [] ++ simples), ended⟩, rest)

/-! ## Selectors -/

def relationOf? : Piece → Option Relation
  | .mark ">" => some .parent
  | .mark "+" => some .previous
  | .mark "~" => some .preceding
  | _ => none

/-- The relation that the pieces after a selector open with, and what follows it: a
    mark, or else a blank that something other than a comma follows. -/
def readRelation (ps : List Piece) : Option (Relation × List Piece) :=
  match Piece.skipGap ps with
  | [] => none
  | p :: r =>
    if p = .mark "," then none
    else match relationOf? p with
      | some relation => some (relation, r)
      | none => if Piece.opensWithBlank ps then some (.ancestor, p :: r) else none

def readTail (left : Member) (ps : List Piece) : Reading Member :=
  if left.hasPseudoElement then .ok (left, Piece.skipGap ps)
  else match readRelation ps with
    | none => .ok (left, Piece.skipGap ps)
    | some (relation, rest) =>
      match readCompound rest with
      | .error rest => .error rest
      | .ok (right, rest) =>
        if _h : rest.length < ps.length then
          readTail ⟨.combined left.condition relation right.condition, right.hasPseudoElement⟩ rest
        else .error rest
  termination_by ps.length

/-- What a mark at the start of a relative selector says of the places it is about. -/
def leadOf? : Piece → Option Relation
  | .mark ">" => some .child
  | .mark "+" => some .next
  | .mark "~" => some .following
  | _ => none

def readWhole (ps : List Piece) : Reading Member :=
  match readCompound ps with
  | .error rest => .error rest
  | .ok (first, rest) => readTail first rest

/-- The selector as a condition on places from which a place in the relation is seen. -/
def seenFrom (relation : Relation) (m : Member) : Member := ⟨.near relation m.condition, m.hasPseudoElement⟩

def readOne (relative : Bool) (ps : List Piece) : Reading Member :=
  let ps := Piece.skipGap ps
  if relative then
    let lead := ps.head?.bind leadOf?
    let rest := if lead.isSome then Piece.skipGap (ps.drop 1) else ps
    (readWhole rest).map fun (m, rest) => (m.seenFrom (lead.getD .descendant), rest)
  else readWhole ps

/-! ## Lists -/

def readMore (forgiving relative : Bool) (ps : List Piece) : Option (List Member) :=
  match ps with
  | [] => some []
  | p :: r =>
    if p = .mark "," then
      match readOne relative r with
      | .ok (m, rest) =>
        if _h : rest.length ≤ r.length then (readMore forgiving relative rest).map (m :: ·) else none
      | .error rest =>
        if forgiving then
          if _h : rest.length ≤ r.length then readMore forgiving relative rest else none
        else none
    else if forgiving then readMore forgiving relative r
    else none
  termination_by ps.length

def readAll (forgiving relative : Bool) (ps : List Piece) : Option (List Member) :=
  match readOne relative ps with
  | .ok (m, rest) => (readMore forgiving relative rest).map (m :: ·)
  | .error _ => if forgiving then some [] else none

def conditions (ms : List Member) : List Condition := (ms.filter (!·.hasPseudoElement)).map (·.condition)

end Member

end AttributeSheet.Css
