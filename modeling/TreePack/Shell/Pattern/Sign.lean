import TreePack.Shell.Pattern.Mode

/-!
# Signs of patterns

A sign is a character that stands for itself, a kind of characters, or a place such as the end of a
word.  What a character stands for can depend on a backslash before it.  Kinds of characters and
the ends of words are known for ASCII only, that is, where bytes are matched.
-/

namespace TreePack.Pattern

inductive Sign where
  | character (c : Char)
  | kind
  | place

def hexValue? (c : Char) : Option Nat :=
  if '0' ≤ c && c ≤ '9' then some (c.toNat - 0x30)
  else if 'a' ≤ c && c ≤ 'f' then some (c.toNat - 0x61 + 10)
  else if 'A' ≤ c && c ≤ 'F' then some (c.toNat - 0x41 + 10)
  else none

def number? (mode : Mode) : Nat → Nat → List Char → Option (Nat × List Char)
  | 0, value, text => some (value, text)
  | digits + 1, value, text =>
      match mode.skip text with
      | [] => none
      | c :: rest => (hexValue? c).bind fun digit =>
          number? mode digits (16 * value + digit) rest

/-- Reads a character that is given by its number.  A byte that is given so is one of ASCII. -/
def numbered? (mode : Mode) (digits : Nat) (text : List Char) : Option (Sign × List Char) :=
  (number? mode digits 0 text).bind fun (value, rest) =>
    if !value.isValidChar then none
    else if digits = 2 && !mode.unicode && 0x80 ≤ value then none
    else some (.character (Char.ofNat value), rest)

def escape? (mode : Mode) : List Char → Option (Sign × List Char)
  | [] => none
  | 'x' :: rest => numbered? mode 2 rest
  | 'u' :: rest => numbered? mode 4 rest
  | 'U' :: rest => numbered? mode 8 rest
  | 'a' :: rest => some (.character '\x07', rest)
  | 'f' :: rest => some (.character '\x0c', rest)
  | 't' :: rest => some (.character '\t', rest)
  | 'n' :: rest => some (.character '\n', rest)
  | 'r' :: rest => some (.character '\r', rest)
  | 'v' :: rest => some (.character '\x0b', rest)
  | 'A' :: rest | 'z' :: rest => some (.place, rest)
  | 'b' :: rest | 'B' :: rest | '<' :: rest | '>' :: rest =>
      if mode.unicode then none else some (.place, rest)
  | 'd' :: rest | 's' :: rest | 'w' :: rest =>
      if mode.unicode then none else some (.kind, rest)
  | c :: rest =>
      if c.isAlphanum || 0x80 ≤ c.toNat then none else some (.character c, rest)

end TreePack.Pattern
