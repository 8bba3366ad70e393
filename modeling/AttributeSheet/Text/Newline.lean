/-
  AttributeSheet.Text.Newline — one kind of newline.

  A carriage return, alone or with the line feed after it, is read as a line feed.
-/

namespace AttributeSheet.Text

def unifyNewlineChars : List Char → List Char
  | [] => []
  | '\r' :: '\n' :: r => '\n' :: unifyNewlineChars r
  | c :: r => (if c = '\r' then '\n' else c) :: unifyNewlineChars r

def unifyNewlines (s : String) : String := String.ofList (unifyNewlineChars s.toList)

end AttributeSheet.Text
