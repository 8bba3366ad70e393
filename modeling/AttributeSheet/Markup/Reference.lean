/-
  AttributeSheet.Markup.Reference — character references.

  A reference stands for one character, by name or by number. A name may lack its
  semicolon, but not in a value where a letter, a digit or an equals sign follows it:
  there the ampersand is one of an address. A number that is no character stands for
  the replacement character, and one of the range left to control characters for the
  character an old code page has there.
-/
import AttributeSheet.Text.Letters

namespace AttributeSheet.Markup.Reference

def names : List (List Char × Char) :=
  [("amp".toList, '&'), ("lt".toList, '<'), ("gt".toList, '>'), ("quot".toList, '"'), ("nbsp".toList, '\u00A0')]

def codePage : List Nat :=
  [0x20AC, 0x81, 0x201A, 0x192, 0x201E, 0x2026, 0x2020, 0x2021, 0x2C6, 0x2030, 0x160, 0x2039, 0x152, 0x8D, 0x17D,
    0x8F, 0x90, 0x2018, 0x2019, 0x201C, 0x201D, 0x2022, 0x2013, 0x2014, 0x2DC, 0x2122, 0x161, 0x203A, 0x153, 0x9D,
    0x17E, 0x178]

def numbered (n : Nat) : Char :=
  let n := if 0x80 ≤ n ∧ n ≤ 0x9F then codePage.getD (n - 0x80) n else n
  if n = 0 ∨ !n.isValidChar then '\uFFFD' else Char.ofNat n

/-- How many characters a reference has, where its semicolon counts if it is there. -/
def lengthWith (r : List Char) (n : Nat) : Nat := if (r.drop n).head? = some ';' then n + 1 else n

def digitsValue (base : Nat) (ds : List Char) : Nat := ds.foldl (fun n c => n * base + (hexDigit? c).getD 0) 0

def number? (base skip : Nat) (isDigit : Char → Bool) (r : List Char) : Option (Char × Nat) :=
  let ds := (r.drop skip).takeWhile isDigit
  if ds.isEmpty then none else some (numbered (digitsValue base ds), lengthWith r (skip + ds.length))

/-- A name without its semicolon is none in a value where it may go on. -/
def goesOn (inValue : Bool) (rest : List Char) : Bool :=
  inValue && rest.head?.any fun c => c = '=' || isLatinLetter c || isDecimalDigit c

/-- The reference that `r`, the characters after an ampersand, opens with, and how many
    of them it takes. -/
def opening? (inValue : Bool) (r : List Char) : Option (Char × Nat) :=
  match r with
  | '#' :: 'x' :: _ | '#' :: 'X' :: _ => number? 16 2 (fun c => (hexDigit? c).isSome) r
  | '#' :: _ => number? 10 1 isDecimalDigit r
  | _ => names.findSome? fun (name, c) => do
    let rest ← Text.after? name r
    if goesOn inValue rest then none else some (c, lengthWith r name.length)

/-- Decodes what follows the first `skip` characters, which belong to a reference that
    is decoded already. -/
def decodeFrom (inValue : Bool) : Nat → List Char → List Char
  | _, [] => []
  | skip + 1, _ :: r => decodeFrom inValue skip r
  | 0, c :: r =>
    if c = '&' then
      match opening? inValue r with
      | some (d, length) => d :: decodeFrom inValue length r
      | none => c :: decodeFrom inValue 0 r
    else c :: decodeFrom inValue 0 r

def decode (inValue : Bool) (cs : List Char) : List Char := decodeFrom inValue 0 cs

end AttributeSheet.Markup.Reference
