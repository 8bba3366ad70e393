/-
  AttributeSheet.Markup.Vocabulary — what is known about tags and attributes by name.

  Which elements have no content or a content that is not markup, which attributes are
  written without their value or hold an address, and how elements may stand in one
  another: `endedBy` tells which open element a start tag ends, `rank` how far an end
  tag reaches out.
-/
import AttributeSheet.Text.Letters

namespace AttributeSheet.Markup

def isVoid (tag : String) : Bool :=
  ["area", "base", "br", "col", "embed", "frame", "hr", "img", "input", "link", "meta", "param", "source", "track",
    "wbr"].contains tag

/-- Elements whose content is taken as it is, without references. -/
def isRaw (tag : String) : Bool := ["script", "style", "xmp", "iframe", "noembed", "noframes"].contains tag

def isTextOnly (tag : String) : Bool := ["title", "textarea"].contains tag

/-- Attributes that say all by being there, so that their value is never written. -/
def isSwitch (name : String) : Bool :=
  ["checked", "compact", "declare", "defer", "disabled", "ismap", "multiple", "nohref", "noresize", "noshade",
    "nowrap", "readonly", "selected"].contains (Text.lowerLatin name)

/-- Attributes that hold an address; a name is one on a link only. -/
def isAddress (tag name : String) : Bool :=
  let n := Text.lowerLatin name
  ["href", "action", "src"].contains n || (n == "name" && tag == "a")

/-- Elements of the head of a page, which open one if none was there yet. -/
def isHeadMatter (tag : String) : Bool := ["script", "style", "meta", "link", "title", "base"].contains tag

def isFrameMatter (tag : String) : Bool := ["noframes", "frame", "frameset"].contains tag

def headings : List String := ["h1", "h2", "h3", "h4", "h5", "h6"]

def lists : List String := ["dd", "dl", "dt"]

/-- The start tags that end each open element, when it is the innermost one. -/
def endings : List (List String × List String) :=
  [(["a"], ["a", "fieldset", "table", "td", "th"]),
   (["address"], lists ++ ["form", "li", "ul"]),
   (["b"], ["center", "p", "td", "th"]),
   (["big", "s", "small", "strike", "tt"], ["p"]),
   (["caption"], ["col", "colgroup", "tbody", "tfoot", "thead", "tr"]),
   (["col"], ["col", "colgroup", "tbody", "tfoot", "thead", "tr"]),
   (["colgroup"], ["colgroup", "tbody", "tfoot", "thead", "tr"]),
   (["dd"], ["dt"]),
   (["dir"], lists ++ ["form", "ul"]),
   (["dl"], ["form", "li"]),
   (["dt"], ["dd", "dl"]),
   (["font"], ["center", "td", "th"]),
   (["form"], ["form"]),
   (headings, ["fieldset", "form", "li", "p", "table"]),
   (["head"],
    ["a", "abbr", "acronym", "address", "b", "bdo", "big", "blockquote", "body", "br", "center", "cite", "code", "dd",
      "dfn", "dir", "div", "dl", "dt", "em", "fieldset", "font", "form", "frameset", "hr", "i", "iframe", "img",
      "kbd", "li", "listing", "map", "menu", "ol", "p", "pre", "q", "s", "samp", "small", "span", "strike", "strong",
      "sub", "sup", "table", "tt", "u", "ul", "var", "xmp"] ++ headings),
   (["hr"], ["form"]),
   (["i"], ["center"]),
   (["li"], ["li"]),
   (["link", "style", "title"], ["body", "frameset"]),
   (["listing", "pre", "xmp"], lists ++ ["fieldset", "form", "li", "table", "ul"]),
   (["menu"], lists ++ ["form", "ul"]),
   (["ol"], ["form"]),
   (["option"], ["optgroup", "option"]),
   (["p"],
    ["address", "blockquote", "body", "caption", "center", "col", "colgroup", "dir", "div", "frameset", "head", "hr",
      "li", "listing", "menu", "multicol", "ol", "p", "pre", "table", "tbody", "td", "tfoot", "th", "title", "tr",
      "ul", "xmp"] ++ lists ++ headings),
   (["script"], ["noscript"]),
   (["span"], ["td", "th"]),
   (["tbody"], ["tbody", "tfoot"]),
   (["td", "th"], ["tbody", "td", "tfoot", "th", "tr"]),
   (["tfoot"], ["tbody"]),
   (["thead"], ["tbody", "tfoot"]),
   (["tr"], ["tbody", "tfoot", "tr"]),
   (["u"], ["p", "td", "th"]),
   (["ul"], ["address", "form", "menu", "pre"])]

def endedBy (openTag startTag : String) : Bool :=
  endings.any fun (tags, starts) => tags.contains openTag && starts.contains startTag

/-- How strongly an element holds together: an end tag never reaches past an open
    element of a higher rank than its own. -/
def rank (tag : String) : Nat :=
  if tag = "div" then 150
  else if tag = "td" ∨ tag = "th" then 160
  else if tag = "tr" then 170
  else if tag = "thead" ∨ tag = "tbody" ∨ tag = "tfoot" then 180
  else if tag = "table" then 190
  else if tag = "head" ∨ tag = "body" then 200
  else if tag = "html" then 220
  else 100

end AttributeSheet.Markup
