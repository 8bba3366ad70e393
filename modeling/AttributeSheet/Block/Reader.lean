/-
  AttributeSheet.Block.Reader — reading a sheet into blocks, character by character.

  A reader is in one of four phases. A closing brace ends the block in every phase; the
  first opening brace of a block starts its properties and later ones are text; a
  semicolon ends a property, and the first colon in one parts its name from its value.
  A property without a name is dropped. At the end of the text an open block is ended
  as by a closing brace (`finish`); blank text alone opens none.

  The first comment is taken out before reading starts (`ofSheet`).
-/
import AttributeSheet.Block
import AttributeSheet.Text.Blank
import AttributeSheet.Text.Comment

namespace AttributeSheet.Block

inductive Phase where
  | beforeSelector
  | inSelector
  | inProperties
  | inValue
  deriving DecidableEq, Repr, Inhabited

structure Reader where
  phase : Phase
  /-- The characters of the open block's selector, of its open property's name and of
      that property's value, so far. -/
  selector : String
  name : String
  value : String
  /-- The finished properties of the open block. -/
  properties : List (String × String)
  /-- The finished blocks. -/
  blocks : List Block
  deriving DecidableEq, Repr, Inhabited

namespace Reader

def between (blocks : List Block) : Reader := ⟨.beforeSelector, "", "", "", [], blocks⟩

def start : Reader := between []

/-- Ends the open property, and drops it if it has no name. -/
def endProperty (r : Reader) : Reader :=
  let name := Text.trim r.name
  { r with
    name := "", value := ""
    properties := if name.isEmpty then r.properties else r.properties ++ [(name, Text.trim r.value)] }

def endBlock (r : Reader) : Reader := between (r.blocks ++ [⟨Text.trim r.selector, r.properties⟩])

def step (r : Reader) (c : Char) : Reader :=
  match r.phase with
  | .beforeSelector =>
    if c = '}' then r.endBlock
    else if c = '{' then { r with phase := .inProperties }
    else if isBlank c then r
    else { r with phase := .inSelector, selector := r.selector.push c }
  | .inSelector =>
    if c = '{' then { r with phase := .inProperties }
    else if c = '}' then r.endBlock
    else { r with selector := r.selector.push c }
  | .inProperties =>
    if c = ':' then { r with phase := .inValue }
    else if c = ';' then r.endProperty
    else if c = '}' then r.endProperty.endBlock
    else { r with name := r.name.push c }
  | .inValue =>
    if c = ';' then { r.endProperty with phase := .inProperties }
    else if c = '}' then r.endProperty.endBlock
    else { r with value := r.value.push c }

def feed (r : Reader) (cs : List Char) : Reader := cs.foldl step r

/-- Every reader on the way, each after one more character. -/
def trace (r : Reader) : List Char → List Reader
  | [] => []
  | c :: cs => let next := r.step c; next :: next.trace cs

def finish (r : Reader) : Reader :=
  match r.phase with
  | .beforeSelector => r
  | .inSelector => r.endBlock
  | .inProperties | .inValue => r.endProperty.endBlock

def read (r : Reader) (text : String) : Reader := (r.feed text.toList).finish

/-- Reads the text `times` over, one reading going on where the last one ended. -/
def readTimes (text : String) : Nat → Reader → Reader
  | 0, r => r
  | times + 1, r => readTimes text times (r.read text)

end Reader

def ofSheet (source : String) : List Block := (Reader.start.read (Text.dropFirstComment source)).blocks

end AttributeSheet.Block
