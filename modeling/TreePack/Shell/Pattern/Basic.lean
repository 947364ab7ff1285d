import TreePack.Shell.Pattern.Brackets

/-!
# Patterns

Which texts are patterns, that is, regular expressions.  What a pattern matches is not asked, since
nothing that the program logs is compared with one: a setting with a bad pattern is refused, and
that is all that shows.

A pattern is read from left to right.  Of a group that is open it is known how it is to be read
further and how deep its parts are nested; a pattern that is nested too deep is refused.  Counted
repetitions are refused as well: a setting cannot contain their closing brace.
-/

namespace TreePack.Pattern

/-- A part of a row: how deep it is nested, and whether it can be repeated. -/
structure Part where
  depth : Nat
  repeatable : Bool

/-- A group being read: how, the nesting of its finished alternatives, and the parts of the last,
last first. -/
structure Group where
  mode : Mode
  alternatives : List Nat
  parts : List Part

namespace Group

def start (mode : Mode) : Group := ⟨mode, [], []⟩

def rowDepth (group : Group) : Nat := rowNesting (group.parts.map Part.depth)

def depth (group : Group) : Nat := rowNesting (group.rowDepth :: group.alternatives)

def add (group : Group) (part : Part) : Group := { group with parts := part :: group.parts }

def addAlternative (group : Group) : Group :=
  { group with alternatives := group.rowDepth :: group.alternatives, parts := [] }

def repeat? (group : Group) : Option Group :=
  match group.parts with
  | ⟨depth, true⟩ :: parts => some { group with parts := ⟨depth + 1, true⟩ :: parts }
  | _ => none

end Group

/-- Reads flags up to the sign that ends them, which is given with the mode that they set.  No flag
comes twice, and a hyphen takes away the flags after it, of which there is at least one. -/
def flags? (seen : List Char) (mode : Mode) : List Char → Option (Mode × Char × List Char)
  | [] => none
  | c :: rest =>
      if c = ':' || c = ')' then
        if seen.head? = some '-' || (c = ')' && seen = []) then none else some (mode, c, rest)
      else if c ∈ seen then none
      else if c = '-' then flags? (c :: seen) mode rest
      else (mode.setFlag? ('-' ∉ seen) c).bind fun mode => flags? (c :: seen) mode rest

def groupName? (text : List Char) : Option (List Char × List Char) :=
  match text.takeWhile (· ≠ '>'), text.dropWhile (· ≠ '>') with
  | first :: later, _ :: rest =>
      let continues := fun c =>
        c = '_' || c = '.' || c = '[' || c = ']' || CharClass.isAlphanumeric c
      if (first = '_' || CharClass.isAlphabetic first) && later.all continues then
        some (first :: later, rest)
      else none
  | _, _ => none

/-- A pattern being read: the group that is open, those around it, and the names of groups so
far. -/
structure Reading where
  group : Group
  outer : List Group
  names : List (List Char)

namespace Reading

def start : Reading := ⟨.start .plain, [], []⟩

def add (reading : Reading) (part : Part) : Reading :=
  { reading with group := reading.group.add part }

def enter (reading : Reading) (mode : Mode) : Reading :=
  { reading with group := .start mode, outer := reading.group :: reading.outer }

def enterNamed? (reading : Reading) (text : List Char) : Option (Reading × List Char) :=
  (groupName? text).bind fun (name, rest) =>
    if name ∈ reading.names then none
    else some
      ({ reading.enter reading.group.mode with names := name :: reading.names }, rest)

/-- Reads what follows an opening parenthesis: the beginning of a group, or flags for the rest of
the open one. -/
def open? (reading : Reading) (text : List Char) : Option (Reading × List Char) :=
  let mode := reading.group.mode
  match mode.skip text with
  | '?' :: 'P' :: '<' :: rest | '?' :: '<' :: rest => reading.enterNamed? rest
  | '?' :: rest =>
      (flags? [] mode rest).map fun (mode, last, rest) =>
        if last = ':' then (reading.enter mode, rest)
        else ({ reading with group := { reading.group.add ⟨0, false⟩ with mode := mode } }, rest)
  | rest => some (reading.enter mode, rest)

def close? (reading : Reading) : Option Reading :=
  match reading.outer with
  | [] => none
  | group :: outer =>
      some { reading with group := group.add ⟨1 + reading.group.depth, true⟩, outer := outer }

/-- Reads the next piece of a pattern.  A question mark after a repetition belongs to it. -/
def step? (reading : Reading) : List Char → Option (Reading × List Char)
  | [] => none
  | '(' :: rest => reading.open? rest
  | ')' :: rest => reading.close?.map (·, rest)
  | '|' :: rest => some ({ reading with group := reading.group.addAlternative }, rest)
  | '[' :: rest =>
      (Brackets.read? reading.group.mode rest).map fun (depth, rest) =>
        (reading.add ⟨depth, true⟩, rest)
  | '?' :: rest | '*' :: rest | '+' :: rest =>
      reading.group.repeat?.map fun group =>
        ({ reading with group := group }, if rest.head? = some '?' then rest.tail else rest)
  | c :: rest =>
      let mode := reading.group.mode
      let sign := match c with
        | '\\' => escape? mode rest
        | '\x7b' => none
        | '.' => if mode.unicode then some (.kind, rest) else none
        | '^' | '$' => some (.place, rest)
        | c => some (.character c, rest)
      sign.bind fun (sign, rest) =>
        match sign with
        | .character _ =>
            if mode.admitsCharacters then some (reading.add ⟨0, true⟩, rest) else none
        | .kind | .place => some (reading.add ⟨0, true⟩, rest)

def depthLimit : Nat := 250

def completes : Nat → Reading → List Char → Bool
  | 0, _, _ => false
  | fuel + 1, reading, text =>
      match reading.group.mode.skip text with
      | [] => reading.outer.isEmpty && reading.group.depth ≤ depthLimit
      | text =>
          match reading.step? text with
          | none => false
          | some (reading, rest) => completes fuel reading rest

end Reading

def isDecimal (text : List Char) : Bool :=
  let whole := text.takeWhile Char.isDigit
  let rest := text.dropWhile Char.isDigit
  let point := rest.head? = some '.'
  let places := if point then rest.tail.takeWhile Char.isDigit else []
  let rest := if point then rest.tail.dropWhile Char.isDigit else rest
  !(whole ++ places).isEmpty &&
    match rest with
    | [] => true
    | e :: rest =>
        let digits := if rest.head? = some '+' || rest.head? = some '-' then rest.tail else rest
        (e = 'e' || e = 'E') && !digits.isEmpty && digits.all Char.isDigit

/-- Whether a text is a number with a plus sign.  It is no pattern, but it is taken as a number. -/
def isPositive : List Char → Bool
  | '+' :: text =>
      isDecimal text || (String.ofList text).toLower ∈ ["inf", "infinity", "nan"]
  | _ => false

def accepts (text : List Char) : Bool :=
  isPositive text || Reading.completes (text.length + 1) .start text

end TreePack.Pattern
