import TreePack.Text.Utf8

/-!
# Text for terminals

A terminal takes some characters of a text as commands.  A text that is not meant to command is
made harmless in one of two ways: `Terminal.strip` leaves control characters and control sequences
out, and `Terminal.guard` writes the characters by which a sequence can begin as escapes.

Stripping follows a text byte by byte through the states of a terminal.  Blanks are shown also
inside a sequence; what follows such a blank is shown up to the next control character, and there
the sequence goes on.
-/

namespace TreePack.Terminal

inductive State where
  -- Text to be shown.
  | ground
  -- The rest of a character, of this many bytes.
  | character (rest : Nat)
  -- What follows ESC.
  | escape
  -- The end of an escape sequence that has begun with other signs.
  | escapeEnd
  -- The parameters and the end of a control sequence.
  | control
  -- A device control string from its beginning.
  | deviceStart
  -- The parameters of a device control string.
  | deviceParameter
  -- The end of the head of a device control string.
  | deviceEnd
  -- A string up to its terminator; a device control string with a bad head is one.
  | string
  -- An operating system command, up to BEL.
  | command
  deriving DecidableEq, Repr

def isBlank (b : UInt8) : Bool :=
  b = 0x09 || b = 0x0A || b = 0x0C || b = 0x0D

def continuations (b : UInt8) : Nat := Utf8.lengthFrom b - 1

namespace State

def shows : State → UInt8 → Bool
  | ground, b => isBlank b || (0x20 ≤ b && b ≤ 0x7E) || 0 < continuations b
  | character _, _ => true
  | escape, b | escapeEnd, b | control, b => isBlank b
  | deviceStart, _ | deviceParameter, _ | deviceEnd, _ | string, _ | command, _ => false

def next (state : State) (b : UInt8) : State :=
  if b = 0x1B then escape
  else if b = 0x18 || b = 0x1A then ground
  else match state with
    | ground => ground
    | character rest => character rest
    | escape =>
        if 0x20 ≤ b && b ≤ 0x2F then escapeEnd
        else if b = 0x50 then deviceStart
        else if b = 0x5B then control
        else if b = 0x5D then command
        else if b = 0x58 || b = 0x5E || b = 0x5F then string
        else if 0x30 ≤ b && b ≤ 0x7E then ground
        else escape
    | escapeEnd => if 0x30 ≤ b && b ≤ 0x7E then ground else escapeEnd
    | control => if 0x40 ≤ b && b ≤ 0x7E then ground else control
    | deviceStart =>
        if 0x20 ≤ b && b ≤ 0x2F then deviceEnd
        else if 0x30 ≤ b && b ≤ 0x3F then deviceParameter
        else if 0x40 ≤ b && b ≤ 0x7E then string
        else deviceStart
    | deviceParameter =>
        if 0x20 ≤ b && b ≤ 0x2F then deviceEnd
        else if 0x30 ≤ b && b ≤ 0x3B then deviceParameter
        else if 0x3C ≤ b && b ≤ 0x7E then string
        else deviceParameter
    | deviceEnd => if 0x30 ≤ b && b ≤ 0x7E then string else deviceEnd
    | string => if b = 0x9C then ground else string
    | command => if b = 0x07 then ground else command

end State

/-- A text being stripped: the state, whether the last byte was shown, and the bytes shown so far,
last first. -/
structure Strip where
  state : State
  showing : Bool
  shown : Bytes

def Strip.start : Strip := ⟨.ground, false, []⟩

/-- Takes the next byte.  While bytes are being shown, they are judged as text. -/
def Strip.feed (strip : Strip) (b : UInt8) : Strip :=
  match strip.state with
  | .character (rest + 1) =>
      ⟨if rest = 0 then .ground else .character rest, true, b :: strip.shown⟩
  | state =>
      if (if strip.showing then State.ground else state).shows b then
        match continuations b with
        | 0 => ⟨state, true, b :: strip.shown⟩
        | rest => ⟨.character rest, true, b :: strip.shown⟩
      else ⟨state.next b, false, strip.shown⟩

/-- A text without control characters, other than blanks, and without control sequences. -/
def strip (text : String) : String :=
  Utf8.lossy ((Bytes.ofText text).foldl Strip.feed Strip.start).shown.reverse

def guardChar (c : Char) : String :=
  if c = '\x07' then "\\x07"
  else if c = '\x08' then "\\x08"
  else if c = '\x0c' then "\\x0c"
  else if c = '\x1b' then "\\x1b"
  else if c = '\x7f' then "\\x7f"
  else if 0x80 ≤ c.toNat && c.toNat ≤ 0x9F then
    "\\u\x7b" ++ String.ofList (Nat.toDigits 16 c.toNat) ++ "\x7d"
  else String.singleton c

def guard (text : String) : String :=
  String.join (text.toList.map guardChar)

end TreePack.Terminal
