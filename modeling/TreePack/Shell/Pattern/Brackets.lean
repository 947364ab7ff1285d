import TreePack.Shell.Pattern.Sign

/-!
# Classes in brackets

A class of characters stands in brackets.  Its members are characters, ranges of characters, kinds
of characters and other classes, and operators stand between groups of members.  Reading a class
yields how deep it is nested: each pair of brackets, each row of members and each operator is a
level of its own.
-/

namespace TreePack.Pattern

/-- The nesting of a row of parts: a row of several is a level above them. -/
def rowNesting : List Nat → Nat
  | [] => 0
  | [depth] => depth
  | depths => 1 + depths.foldl max 0

/-- A class being read: the nesting of what stands before the last operator, and of the members
after it, last first. -/
structure Brackets where
  left : Option Nat
  members : List Nat

namespace Brackets

def nesting (brackets : Brackets) : Nat :=
  match brackets.left with
  | none => rowNesting brackets.members
  | some left => 1 + max left (rowNesting brackets.members)

def addMember (brackets : Brackets) (depth : Nat) : Brackets :=
  { brackets with members := depth :: brackets.members }

def addOperator (brackets : Brackets) : Brackets := ⟨some brackets.nesting, []⟩

def names : List String :=
  ["alnum", "alpha", "ascii", "blank", "cntrl", "digit", "graph", "lower", "print", "punct",
    "space", "upper", "word", "xdigit"]

def named? : List Char → Option (List Char)
  | ':' :: text =>
      let text := if text.head? = some '^' then text.tail else text
      match text.dropWhile (· ≠ ':') with
      | ':' :: ']' :: rest =>
          if String.ofList (text.takeWhile (· ≠ ':')) ∈ names then some rest else none
      | _ => none
  | _ => none

/-- Reads the beginning of a class after its bracket.  Hyphens stand for themselves there, and so
does a closing bracket. -/
def begin? (mode : Mode) (text : List Char) : Option (Brackets × List Char) :=
  let text := mode.skip text
  let inverted := text.head? = some '^'
  if inverted && !mode.unicode then none
  else
    let text := if inverted then mode.skip text.tail else text
    match mode.pass (· = '-') false 0 text with
    | (0, ']' :: rest) =>
        let rest := mode.skip rest
        if rest = [] then none else some (⟨none, [0]⟩, rest)
    | (hyphens, rest) =>
        if rest = [] then none else some (⟨none, List.replicate hyphens 0⟩, rest)

def member? (mode : Mode) (text : List Char) : Option (Sign × List Char) :=
  let read := match text with
    | [] => none
    | '\\' :: rest => escape? mode rest
    | c :: rest => some (.character c, rest)
  read.filter fun (sign, _) =>
    match sign with
    | .character c => mode.unicode || c.toNat < 0x80
    | .kind => true
    | .place => false

def range? (mode : Mode) (text : List Char) : Option (List Char) :=
  (member? mode text).bind fun (first, rest) =>
    let rest := mode.skip rest
    let last := mode.skip rest.tail
    if rest.head? = some '-' && last.head? ≠ some ']' && last.head? ≠ some '-' then
      match first, member? mode last with
      | .character low, some (.character high, rest) => if low ≤ high then some rest else none
      | _, _ => none
    else some rest

def close? (mode : Mode) : Nat → Brackets → List Brackets → List Char → Option (Nat × List Char)
  | 0, _, _, _ => none
  | fuel + 1, brackets, outer, text =>
      match mode.skip text with
      | [] => none
      | ']' :: rest =>
          let depth := 1 + brackets.nesting
          match outer with
          | [] => some (depth, rest)
          | enclosing :: outer => close? mode fuel (enclosing.addMember depth) outer rest
      | '[' :: rest =>
          match named? rest with
          | some rest => close? mode fuel (brackets.addMember 0) outer rest
          | none => (begin? mode rest).bind fun (inner, rest) =>
              close? mode fuel inner (brackets :: outer) rest
      | '&' :: '&' :: rest | '-' :: '-' :: rest | '~' :: '~' :: rest =>
          close? mode fuel brackets.addOperator outer rest
      | text => (range? mode text).bind (close? mode fuel (brackets.addMember 0) outer)

def read? (mode : Mode) (text : List Char) : Option (Nat × List Char) :=
  if mode.admitsCharacters then
    (begin? mode text).bind fun (brackets, rest) =>
      close? mode (rest.length + 1) brackets [] rest
  else none

end Brackets

end TreePack.Pattern
