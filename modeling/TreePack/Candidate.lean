import TreePack.IoError
import TreePack.Path
import TreePack.Text.Newline

/-!
# Candidates and records

A candidate is a file chosen for packing, and what becomes of it is either its record or the reason
why it has none.  A file is taken only as a whole: its bytes must be well-formed UTF-8, and its
line ends are normalised.

An artifact is an introduction followed by one record per packed file: a header line with the
file's shown path, the contents between two fence lines, and an empty line.
-/

namespace TreePack

structure PackedFile where
  display : String
  contents : String
  deriving DecidableEq

def promptLine : String :=
  "Below is the entire codebase context. Please analyze it based on the user's request."

def introduction : String := promptLine ++ "\n\n"

def headerLine (display : String) : String :=
  "='='=' File: " ++ display ++ " '='='='"

def fence : String := "```"

def PackedFile.record (file : PackedFile) : String :=
  headerLine file.display ++ "\n" ++ fence ++ "\n" ++ file.contents ++ "\n" ++ fence ++ "\n\n"

structure Candidate where
  path : Path
  display : String
  deriving DecidableEq

inductive SkipReason where
  | io (error : IoError)
  | invalidUtf8 (offset : Nat)
  deriving DecidableEq, Repr

namespace SkipReason

def message : SkipReason → String
  | io error => error.message
  | invalidUtf8 offset =>
      "'utf-8' codec can't decode byte at position " ++ toString offset

def cause? : SkipReason → Option IoError
  | io error => some error
  | invalidUtf8 _ => none

end SkipReason

def PackedFile.ofBytes (display : String) (bytes : Bytes) : Except SkipReason PackedFile :=
  match Utf8.decode bytes with
  | .ok text => .ok ⟨display, Newline.normalize text⟩
  | .error offset => .error (.invalidUtf8 offset)

end TreePack
