import TreePack.Text.Alphabet

/-!
# How a pattern is read

The flags of a pattern change how the rest of a group is read.  Three of them decide what can
stand there at all: whether letters stand for either case, whether characters or bytes are matched,
and whether blanks and comments are passed over.
-/

namespace TreePack.Pattern

structure Mode where
  foldsCase : Bool
  unicode : Bool
  spaced : Bool

namespace Mode

def plain : Mode := ⟨false, true, false⟩

/-- Whether characters can stand for themselves.  No pairs of cases are known beyond ASCII. -/
def admitsCharacters (mode : Mode) : Bool := !(mode.foldsCase && mode.unicode)

def setFlag? (mode : Mode) (value : Bool) : Char → Option Mode
  | 'i' => some { mode with foldsCase := value }
  | 'u' => some { mode with unicode := value }
  | 'x' => some { mode with spaced := value }
  | 's' | 'm' | 'U' | 'R' => some mode
  | _ => none

/-- Passes over blanks and comments, and over the characters that `also` holds of.  The latter are
counted. -/
def pass (mode : Mode) (also : Char → Bool) : Bool → Nat → List Char → Nat × List Char
  | _, count, [] => (count, [])
  | true, count, c :: rest => mode.pass also (c ≠ '\n') count rest
  | false, count, c :: rest =>
      if also c then mode.pass also false (count + 1) rest
      else if mode.spaced && c = '#' then mode.pass also true count rest
      else if mode.spaced && CharClass.isBlank c then mode.pass also false count rest
      else (count, c :: rest)

def skip (mode : Mode) (text : List Char) : List Char :=
  if mode.spaced then (mode.pass (fun _ => false) false 0 text).2 else text

end Mode

end TreePack.Pattern
