/-
  AttributeSheet.CommandLine.Options — the options among the arguments of a call.

  An option is written with a hyphen and a letter, or two hyphens and a word. Letters
  may be written together behind one hyphen. A value stands in the next argument, or in
  the same one: behind an equals sign after a word, right behind a letter. Two hyphens
  alone end the options; a hyphen alone is no option. Where options may not follow
  other arguments, the first of those ends them too.
-/
import AttributeSheet.CommandLine.Usage
import AttributeSheet.Text.Letters

namespace AttributeSheet.CommandLine

inductive Name where
  | help
  | version
  | verbose
  | output
  | specificity
  | reverse
  deriving DecidableEq, Repr

structure Spelling where
  name : Name
  words : List String
  letters : List Char
  takesValue : Bool
  deriving DecidableEq, Repr

namespace Command

def spellings : Command → List Spelling
  | program =>
    [⟨.version, ["--version"], [], false⟩, ⟨.verbose, ["--verbose"], ['v'], false⟩,
      ⟨.help, ["--help"], [], false⟩]
  | compile =>
    [⟨.output, ["--output"], ['o'], true⟩, ⟨.specificity, ["--specificity"], [], true⟩,
      ⟨.help, ["--help"], [], false⟩]
  | inspect =>
    [⟨.reverse, ["--reverse"], [], false⟩, ⟨.specificity, ["--specificity"], [], true⟩,
      ⟨.help, ["--help"], [], false⟩]

def mixes : Command → Bool
  | program => false
  | compile | inspect => true

def ofName? (s : String) : Option Command :=
  [("compile", compile), ("inspect", inspect)].lookup s

end Command

structure Setting where
  name : Name
  value : Option String
  deriving DecidableEq, Repr

/-- The options of a call in the order they are written, and the other arguments. -/
structure Call where
  settings : List Setting
  arguments : List String
  deriving DecidableEq, Repr

/-- What one argument sets, and the option that still needs a value, with the way it is
    written. -/
structure Read where
  settings : List Setting
  pending : Option (Name × String)
  deriving DecidableEq, Repr

namespace Call

def readLetters (spellings : List Spelling) : List Char → Except BadCall Read
  | [] => .ok ⟨[], none⟩
  | c :: r =>
    let written := String.ofList ['-', c]
    match spellings.find? (·.letters.contains c) with
    | none => .error (.noSuchOption written)
    | some s =>
      if s.takesValue then
        if r.isEmpty then .ok ⟨[], some (s.name, written)⟩
        else .ok ⟨[⟨s.name, some (String.ofList r)⟩], none⟩
      else
        (readLetters spellings r).map fun rest =>
          { rest with settings := ⟨s.name, none⟩ :: rest.settings }

def readWord (s : Spelling) (word : String) (value : Option String) : Except BadCall Read :=
  if s.takesValue then
    match value with
    | some v => .ok ⟨[⟨s.name, some v⟩], none⟩
    | none => .ok ⟨[], some (s.name, word)⟩
  else if value.isSome then .error (.valueUnwanted word)
  else .ok ⟨[⟨s.name, none⟩], none⟩

def readOption (spellings : List Spelling) (argument : String) : Except BadCall Read :=
  let cs := argument.toList
  let (word, value) := match Text.splitAt? '=' cs with
    | some (w, v) => (String.ofList w, some (String.ofList v))
    | none => (argument, none)
  match spellings.find? (·.words.contains word) with
  | some s => readWord s word value
  | none => if cs.take 2 = ['-', '-'] then .error (.noSuchOption word) else readLetters spellings (cs.drop 1)

def isOption (argument : String) : Bool := argument.length > 1 && argument.toList.head? == some '-'

def settingThen (settings : List Setting) (c : Call) : Call := { c with settings := settings ++ c.settings }

def ofArguments (c : Command) : List String → Except BadCall Call
  | [] => .ok ⟨[], []⟩
  | "--" :: r => .ok ⟨[], r⟩
  | a :: r =>
    if isOption a then
      match readOption c.spellings a with
      | .error b => .error b
      | .ok ⟨settings, none⟩ => (ofArguments c r).map (settingThen settings)
      | .ok ⟨settings, some (name, written)⟩ =>
        match r with
        | value :: r => (ofArguments c r).map (settingThen (settings ++ [⟨name, some value⟩]))
        | [] => .error (.valueMissing written)
    else if c.mixes then (ofArguments c r).map fun call => { call with arguments := a :: call.arguments }
    else .ok ⟨[], a :: r⟩

def has (c : Call) (name : Name) : Bool := c.settings.any (·.name = name)

/-- The value of an option, the last one that is written. -/
def value? (c : Call) (name : Name) : Option String := (c.settings.reverse.find? (·.name = name)).bind (·.value)

/-- The options that are set, each where it is first written. -/
def names (c : Call) : List Name := (c.settings.map (·.name)).eraseDups

end Call

/-- How arguments are read, and what is written of how to use a command and of a call of
    it that is not right. -/
structure Reader where
  read : Command → List String → Except BadCall Call
  usage : Command → String
  report : Command → BadCall → String

def reader : Reader := ⟨Call.ofArguments, Command.usageLine, BadCall.report⟩

end AttributeSheet.CommandLine
