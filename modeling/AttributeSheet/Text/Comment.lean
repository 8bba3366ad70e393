/-
  AttributeSheet.Text.Comment — the one comment a sheet may have.

  A comment opens with slash and star and ends at the first star and slash after
  that. Only the first comment of a text is taken out (`dropFirstComment`); one that
  never ends is no comment.
-/

namespace AttributeSheet.Text

/-- What follows the first star and slash, if there is one. -/
def afterCommentEnd? : List Char → Option (List Char)
  | '*' :: '/' :: r => some r
  | _ :: r => afterCommentEnd? r
  | [] => none

/-- Takes out the first opener that is ever ended, up to the end that is nearest. -/
def dropFirstCommentChars : List Char → List Char
  | [] => []
  | c :: r =>
    match c, r with
    | '/', '*' :: body => (afterCommentEnd? body).getD (c :: dropFirstCommentChars r)
    | _, _ => c :: dropFirstCommentChars r

def dropFirstComment (s : String) : String := String.ofList (dropFirstCommentChars s.toList)

end AttributeSheet.Text
