/-
  AttributeSheet.Markup.Written — a forest as markup.

  The three characters of markup are written as references, everywhere but in raw
  content. Void elements are written by their start tag alone. A switch and an
  attribute without a value are written by name. An address loses the blanks before it
  and has every byte that addresses do not hold written by its number; then, like every
  value, it is put between double quotes, or between single ones if it has a double
  quote and no single one.
-/
import AttributeSheet.Markup.Forest
import AttributeSheet.Markup.Vocabulary

namespace AttributeSheet.Markup

namespace Written

def escapeChar (c : Char) : List Char :=
  if c = '&' then "&amp;".toList
  else if c = '<' then "&lt;".toList
  else if c = '>' then "&gt;".toList
  else [c]

def escape (cs : List Char) : List Char := cs.flatMap escapeChar

/-! ## Addresses -/

/-- The characters an address holds as they are, a percent sign among them. -/
def isAddressChar (c : Char) : Bool :=
  isLatinLetter c || isDecimalDigit c || "-_.!~*'()\"#$%&+,/:;<=>?@[\\]^`\x7b|\x7d".toList.contains c

def capitalHexChar (n : Nat) : Char := if n < 10 then Char.ofNat (48 + n) else Char.ofNat (55 + n)

def percentByte (b : UInt8) : List Char := ['%', capitalHexChar (b.toNat / 16), capitalHexChar (b.toNat % 16)]

def addressChar (c : Char) : List Char :=
  if isAddressChar c then [c] else (String.utf8EncodeChar c).flatMap percentByte

def isAddressBlank (c : Char) : Bool := c = ' ' || c = '\t' || c = '\n' || c = '\r'

def address (cs : List Char) : List Char := (cs.dropWhile isAddressBlank).flatMap addressChar

/-! ## Attributes -/

def quoted (cs : List Char) : List Char :=
  if '"' ∉ cs then '"' :: cs ++ ['"']
  else if '\'' ∉ cs then '\'' :: cs ++ ['\'']
  else '"' :: cs.flatMap (fun c => if c = '"' then "&quot;".toList else [c]) ++ ['"']

def value (tag name : String) (v : String) : List Char :=
  let escaped := escape v.toList
  quoted (if isAddress tag name then address escaped else escaped)

def attributeText (tag : String) (p : String × Option String) : List Char :=
  ' ' :: p.1.toList ++
    match p.2 with
    | none => []
    | some v => if isSwitch p.1 then [] else '=' :: value tag p.1 v

def startTag (tag : String) (attributes : Attributes) : List Char :=
  '<' :: tag.toList ++ attributes.entries.flatMap (attributeText tag) ++ ['>']

def endTag (tag : String) : List Char := '<' :: '/' :: tag.toList ++ ['>']

end Written

/-- The markup of a forest; in raw content, texts stay as they are. -/
def Forest.render (raw : Bool) : Forest → List Char
  | nil => []
  | text s r => (if raw then s.toList else Written.escape s.toList) ++ r.render raw
  | comment s r => "<!--".toList ++ s.toList ++ "-->".toList ++ r.render raw
  | element t a c r =>
    Written.startTag t a ++ (if isVoid t then [] else c.render (isRaw t) ++ Written.endTag t) ++ r.render raw

def Element.render (e : Element) : List Char := (Forest.element e.tag e.attributes e.children .nil).render false

end AttributeSheet.Markup
