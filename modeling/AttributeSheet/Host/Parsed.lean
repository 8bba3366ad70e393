/-
  AttributeSheet.Host.Parsed — the host of parsed pages.

  A page is taken in when it is loaded. A selector is read for every question, and an
  element is found if one of the members of the list selects it where it stands now;
  members with a pseudo-element select nothing. What the library cannot read or write is
  rejected in its words.
-/
import AttributeSheet.Host
import AttributeSheet.Markup.Page

namespace AttributeSheet.Host

open Markup (Library Page)

namespace Parsed

variable {τ ν σ : Type} [DecidableEq ν] (lib : Library τ ν σ)

/-- The elements that are found, in document order. A container is never one of them. -/
def query (page : Page τ) (selector : String) : Except Refusal (List ν) :=
  match lib.compile selector with
  | .error words => .error (.rejected selector (some (.notASelector words)))
  | .ok members =>
    let members := members.filter fun m => !lib.hasPseudoElement m
    if members.isEmpty then .ok []
    else
      .ok ((lib.subtree page.root).filter fun n =>
        !(page.isFragment && n = lib.root page.root) && members.any fun m => lib.selects page.root m n)

def write (page : Page τ) (element : ν) (name value : String) : Except Refusal (Page τ) :=
  match lib.set page.root element name value with
  | .ok root => .ok { page with root := root }
  | .error words => .error (.rejected name (some (.stated words)))

end Parsed

def parsed {τ ν σ : Type} [DecidableEq ν] (lib : Library τ ν σ) : Host (Page τ) ν where
  doctype := Markup.doctype
  load _ text := .ofText lib text
  isVacant page := page.isVacant
  query := Parsed.query lib
  write := Parsed.write lib
  print := Page.print lib

end AttributeSheet.Host
