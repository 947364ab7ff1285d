import TreePack.Survey
import TreePack.Text.CharClass

/-!
# Events

What a run reports about itself, beside the progress that it prints.  An event has a level, an
origin and a message.  A survey reports the entries it leaves out, and the problems it meets.

In a message a byte string may stand between quotation marks.  What would not be seen in print is
then written as an escape: a few characters by a letter, other unprintable ones by their number,
and bytes that are no text by two hexadecimal digits.
-/

namespace TreePack

namespace Quoted

def hexDigit (n : Nat) : Char :=
  if n < 10 then Char.ofNat (0x30 + n) else Char.ofNat (0x61 + n - 10)

def hexText (n : Nat) : String :=
  String.ofList (Nat.toDigits 16 n)

def escapeChar (c : Char) : String :=
  if c = '\x00' then "\\0"
  else if c = '\t' then "\\t"
  else if c = '\r' then "\\r"
  else if c = '\n' then "\\n"
  else if c = '\\' then "\\\\"
  else if c = '"' then "\\\""
  else if CharClass.extendsGrapheme c || !CharClass.isPrintable c then
    "\\u\x7b" ++ hexText c.toNat ++ "\x7d"
  else String.singleton c

def escapeByte (b : UInt8) : String :=
  String.ofList ['\\', 'x', (hexDigit (b.toNat / 16)).toUpper, (hexDigit (b.toNat % 16)).toUpper]

def escapePiece : Utf8.Piece → String
  | .char c => escapeChar c
  | .broken bytes => String.join (bytes.map escapeByte)

def quote (bytes : Bytes) : String :=
  "\"" ++ String.join ((Utf8.pieces bytes).map escapePiece) ++ "\""

end Quoted

inductive Level where
  | error
  | warn
  | info
  | debug
  | trace
  deriving DecidableEq, Repr

namespace Level

/-- The rank of a level; a filter that lets a level pass lets every lower rank pass. -/
def rank : Level → Nat
  | error => 1
  | warn => 2
  | info => 3
  | debug => 4
  | trace => 5

def name : Level → String
  | error => "ERROR"
  | warn => "WARN"
  | info => "INFO"
  | debug => "DEBUG"
  | trace => "TRACE"

end Level

inductive Event where
  | packing (root output : Path)
  | prunedDir (path : Path)
  | notPackable (path : Path)
  | walkProblem (root path : Path) (error : IoError)
  | skipping (display : String) (reason : SkipReason)
  | packed (files skips : Nat)
  deriving DecidableEq

namespace Event

def level : Event → Level
  | packing _ _ => .info
  | prunedDir _ => .debug
  | notPackable _ => .debug
  | walkProblem _ _ _ => .warn
  | skipping _ _ => .warn
  | packed _ _ => .info

def origin : Event → String
  | packing _ _ | skipping _ _ | packed _ _ => "project_packer::pipeline"
  | prunedDir _ | notPackable _ | walkProblem _ _ _ => "project_packer::context::gather"

def message : Event → String
  | packing root output => "packing " ++ root.display ++ " into " ++ output.display
  | prunedDir path => "pruned directory: " ++ path.display
  | notPackable path => "not packable: " ++ path.display
  | walkProblem root path error =>
      "Could not process entry in " ++ Quoted.quote root.bytes ++ ": " ++ path.display
        ++ ": IO error for operation on " ++ path.display ++ ": " ++ error.message
  | skipping display reason => "skipping " ++ display ++ ": " ++ reason.message
  | packed files skips =>
      "packed " ++ toString files ++ " files, skipped " ++ toString skips

end Event

def Visit.event? (root : Path) (visit : Visit) : Option Event :=
  match visit.verdict with
  | .pruned => some (.prunedDir (root.descend visit.trail))
  | .rejected => some (.notPackable (root.descend visit.trail))
  | .unlistable e => some (.walkProblem root (root.descend visit.trail) e)
  | .entered | .candidate | .passedOver => none

def FileSystem.surveyEvents (fs : FileSystem) (rules : Rules) (root : Path) : List Event :=
  match fs.survey rules root with
  | .ok visits => visits.filterMap (Visit.event? root)
  | .error e => [.walkProblem root root e]

end TreePack
