/-
  AttributeSheet.OrderedMap — names with values, in the order the names came in.

  The properties of a declaration and the attributes of an element are both such maps.
  Writing a name that is present keeps its place; a new name goes to the end, and so
  does one that was removed and is written again.
-/

namespace AttributeSheet

structure OrderedMap (α : Type) where
  entries : List (String × α)
  deriving DecidableEq, Repr, Inhabited

namespace OrderedMap

variable {α : Type}

def empty : OrderedMap α := ⟨[]⟩

def keys (m : OrderedMap α) : List String := m.entries.map (·.1)

def get? (m : OrderedMap α) (name : String) : Option α := m.entries.lookup name

def contains (m : OrderedMap α) (name : String) : Bool := m.keys.contains name

def insertEntry (name : String) (value : α) : List (String × α) → List (String × α)
  | [] => [(name, value)]
  | (n, v) :: r => if n = name then (n, value) :: r else (n, v) :: insertEntry name value r

/-- Writes a value, in the name's place if it has one. -/
def insert (m : OrderedMap α) (name : String) (value : α) : OrderedMap α :=
  ⟨insertEntry name value m.entries⟩

def erase (m : OrderedMap α) (name : String) : OrderedMap α :=
  ⟨m.entries.filter (·.1 ≠ name)⟩

def insertAll (m : OrderedMap α) (pairs : List (String × α)) : OrderedMap α :=
  pairs.foldl (fun m p => m.insert p.1 p.2) m

/-- A repeated name has the place of its first pair and the value of its last. -/
def ofList (pairs : List (String × α)) : OrderedMap α := empty.insertAll pairs

/-- The same names with the same values, in any order. -/
def sameEntries [BEq α] (m k : OrderedMap α) : Bool :=
  m.entries.length == k.entries.length && m.entries.all fun p => k.get? p.1 == some p.2

end OrderedMap

end AttributeSheet
