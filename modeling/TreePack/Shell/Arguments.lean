import TreePack.Shell.Similarity
import TreePack.Shell.Terminal

/-!
# Command line arguments

The program takes no arguments but the flags `--help` and `--version`, so the first argument
decides: it is a request, or it is refused.  The mark `--` is itself accepted, and whatever follows
it is refused.  The refusal of a misspelt flag names the flag that is most like it.  What a refusal
repeats of the arguments is stripped of everything that commands a terminal.
-/

namespace TreePack

inductive Flag where
  | help
  | version
  deriving DecidableEq, Repr

namespace Flag

def all : List Flag := [help, version]

def name : Flag → String
  | help => "help"
  | version => "version"

def letter : Flag → Char
  | help => 'h'
  | version => 'V'

def ofName? (name : String) : Option Flag := all.find? fun flag => flag.name = name

def ofLetter? (c : Char) : Option Flag := all.find? fun flag => flag.letter = c

def nearest? (name : String) : Option Flag :=
  let likenesses := all.map fun flag =>
    (flag, Similarity.likeness name.toList flag.name.toList)
  (likenesses.foldl (fun best (flag, x) =>
    if x > 0.7 && (match best with
      | some (_, y) => x ≥ y
      | none => true) then some (flag, x)
    else best) none).map Prod.fst

end Flag

inductive Refusal where
  | unexpectedArgument (shown : String) (similar : Option Flag)
  | unexpectedValue (flag : Flag) (value : String)
  deriving DecidableEq

inductive Invocation where
  | pack
  | show (flag : Flag)
  | refuse (refusal : Refusal)
  deriving DecidableEq

namespace Refusal

/-- The flag that the usage line of a refusal recalls. -/
def flag? : Refusal → Option Flag
  | unexpectedArgument _ similar => similar
  | unexpectedValue flag _ => some flag

def message : Refusal → String
  | unexpectedArgument shown none =>
      "unexpected argument '" ++ Terminal.strip shown ++ "' found\n"
  | unexpectedArgument shown (some flag) =>
      "unexpected argument '" ++ Terminal.strip shown
        ++ "' found\n\n  tip: a similar argument exists: '--" ++ flag.name ++ "'\n"
  | unexpectedValue flag value =>
      "unexpected value '" ++ Terminal.strip value ++ "' for '--" ++ flag.name
        ++ "' found; no more were expected\n"

end Refusal

namespace Invocation

def hyphen : UInt8 := 0x2D

def ofLong (body : Bytes) : Invocation :=
  let name := Utf8.lossy (body.takeWhile (· ≠ 0x3D))
  match Flag.ofName? name, body.dropWhile (· ≠ 0x3D) with
  | some flag, [] => .show flag
  | some flag, _ :: value => .refuse (.unexpectedValue flag (Utf8.lossy value))
  | none, _ => .refuse (.unexpectedArgument ("--" ++ name) (Flag.nearest? name))

/-- The reading of an argument that begins with one hyphen.  Its first letter decides. -/
def ofShort (body : Bytes) : Invocation :=
  match Utf8.pieces body with
  | .char c :: _ =>
      match Flag.ofLetter? c with
      | some flag => .show flag
      | none => .refuse (.unexpectedArgument ("-" ++ String.singleton c) none)
  | _ => .refuse (.unexpectedArgument ("-" ++ Utf8.lossy body) none)

def ofArguments : List Bytes → Invocation
  | [] => .pack
  | first :: rest =>
      let plain (arg : Bytes) := refuse (.unexpectedArgument (Utf8.lossy arg) none)
      match first with
      | [] => plain first
      | a :: body =>
          if a ≠ hyphen ∨ body = [] then plain first
          else if body = [hyphen] then
            match rest with
            | [] => .pack
            | next :: _ => plain next
          else if body.head? = some hyphen then ofLong body.tail
          else ofShort body

end Invocation

end TreePack
