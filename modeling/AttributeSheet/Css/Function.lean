/-
  AttributeSheet.Css.Function — pseudo-classes with arguments.

  `:is`, `:where`, `:not` and `:has` take lists of selectors, `:lang` takes languages,
  and the counting ones take a series of numbers, which may be followed by `of` and
  selectors that the counted siblings satisfy too. Any other function is unknown, and
  so is one of these whose arguments are not right, apart from the lists: a list that
  is not valid makes the whole selector so.
-/
import AttributeSheet.Css.Members
import AttributeSheet.Css.Nth

namespace AttributeSheet.Css.Condition

/-- The condition that none of the members holds. Members that every element satisfies
    do not count, unless there are no others. -/
def negation (ms : List Member) : Condition :=
  match (Member.conditions ms).filter (· ≠ always) with
  | [] => never
  | cs => neither (any cs)

/-- The languages in a list; one that is written as a word may have another word behind
    it in place of a comma. -/
def languages? : List Piece → Option (List String)
  | [] => some []
  | [.ident l] | [.string l] => some [Text.lowerLatin l]
  | .ident l :: p :: r | .string l :: p :: r =>
    match p with
    | .ident _ | .mark "," | .string "," => (languages? r).map (Text.lowerLatin l :: ·)
    | _ => none
  | _ => none

def ofLanguages (arguments : List Piece) : Condition :=
  match languages? (arguments.filter (!·.isGap)) with
  | some [] => never
  | some tags => test (.language tags)
  | none => unknown

def counting? (name : String) : Option (Markup.Relation × Bool) :=
  [("nth-child", .preceding, false), ("nth-last-child", .following, false), ("nth-of-type", .preceding, true),
    ("nth-last-of-type", .following, true)].lookup name

def splitAtOf (arguments : List Piece) : List Piece × Option (List Piece) :=
  let series := arguments.takeWhile (· ≠ .ident "of")
  (series, (arguments.drop series.length).tail?)

/-- The condition of a counting pseudo-class; an element that is counted `of` selectors
    satisfies all of them. -/
def ofCounting (side : Markup.Relation) (sameType : Bool) (arguments : List Piece) : Condition :=
  let (series, selectors) := splitAtOf arguments
  match Series.ofPieces? series, selectors with
  | none, _ => unknown
  | some s, none => nth side sameType s.step s.offset
  | some s, some ps =>
    match Member.readAll false false ps with
    | some ms => nthOf side sameType s.step s.offset (all (ms.map (·.condition)))
    | none => unknown

def ofFunction? (name : String) (arguments : List Piece) : Option Condition :=
  match Text.lowerLatin name with
  | "is" | "where" => (Member.readAll true false arguments).map fun ms => any (Member.conditions ms)
  | "not" => (Member.readAll false false arguments).map negation
  | "has" => (Member.readAll true true arguments).map fun ms => any (Member.conditions ms)
  | "lang" => some (ofLanguages arguments)
  | name =>
    match counting? name with
    | some (side, sameType) => some (ofCounting side sameType arguments)
    | none => some unknown

end AttributeSheet.Css.Condition
