/-
  AttributeSheet.Text.Quoted — texts shown between quotes, on one line.

  Messages and listings show a text quoted: between single quotes, or between double
  ones when it has a single quote and no double one (`quoteMark`). The mark in use and
  the backslash are escaped, tab, newline and carriage return have letters, and every
  other character that is not printable is written by its code point in two, four or
  eight hexadecimal digits, the fewest that hold it.
-/
import AttributeSheet.Text.Printable

namespace AttributeSheet.Text

def hexChar (n : Nat) : Char := if n < 10 then Char.ofNat (48 + n) else Char.ofNat (87 + n)

def hexDigits : Nat → Nat → List Char
  | 0, _ => []
  | width + 1, n => hexDigits width (n / 16) ++ [hexChar (n % 16)]

/-- A code point by its number, in the shortest of the three widths. -/
def escapeCode (n : Nat) : List Char :=
  if n < 0x100 then '\\' :: 'x' :: hexDigits 2 n
  else if n < 0x10000 then '\\' :: 'u' :: hexDigits 4 n
  else '\\' :: 'U' :: hexDigits 8 n

def escapeChar (mark c : Char) : List Char :=
  if c = mark ∨ c = '\\' then ['\\', c]
  else if c = '\t' then ['\\', 't']
  else if c = '\n' then ['\\', 'n']
  else if c = '\r' then ['\\', 'r']
  else if isPrintable c then [c]
  else escapeCode c.toNat

/-- The double quote for a text that has a single quote and no double one. -/
def quoteMark (cs : List Char) : Char := if '\'' ∈ cs ∧ '"' ∉ cs then '"' else '\''

def quoteChars (cs : List Char) : List Char :=
  let mark := quoteMark cs
  mark :: cs.flatMap (escapeChar mark) ++ [mark]

def quote (s : String) : String := String.ofList (quoteChars s.toList)

/-- Values between parentheses, parted by commas; a single one is followed by a comma. -/
def parenthesized : List String → String
  | [x] => "(" ++ x ++ ",)"
  | xs => "(" ++ ", ".intercalate xs ++ ")"

end AttributeSheet.Text
