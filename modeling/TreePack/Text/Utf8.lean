import TreePack.Bytes

/-!
# Reading bytes as UTF-8

A byte string is cut from left to right into pieces.  A piece is either one encoded character or a
run of bytes that belongs to none: the longest beginning of some encoding found at that point, or a
single byte with which no encoding begins.  The two readings of a byte string are views of its
pieces: the strict one gives the text, or the offset of the first bad piece, and the lossy one
writes U+FFFD for each bad piece.

The cutting is a left fold over the bytes, so what is known about a part of the input is not
revised when more bytes arrive.
-/

namespace TreePack.Utf8

/-- What a short, non-empty byte string is with respect to the encodings of single characters. -/
inductive Sequence where
  | whole (c : Char)
  | opening
  | broken

def isContinuation (b : UInt8) : Bool :=
  0x80 ≤ b && b ≤ 0xBF

/-- Whether `b` can be the second byte after the lead `a` of three or four bytes.  Shorter
encodings of the same character, surrogates and values above U+10FFFF are excluded here. -/
def isSecond (a b : UInt8) : Bool :=
  if a = 0xE0 then 0xA0 ≤ b && b ≤ 0xBF
  else if a = 0xED then 0x80 ≤ b && b ≤ 0x9F
  else if a = 0xF0 then 0x90 ≤ b && b ≤ 0xBF
  else if a = 0xF4 then 0x80 ≤ b && b ≤ 0x8F
  else isContinuation b

/-- The number of bytes that an encoding beginning with `a` has, and zero if there is none. -/
def lengthFrom (a : UInt8) : Nat :=
  if a ≤ 0x7F then 1
  else if 0xC2 ≤ a && a ≤ 0xDF then 2
  else if 0xE0 ≤ a && a ≤ 0xEF then 3
  else if 0xF0 ≤ a && a ≤ 0xF4 then 4
  else 0

/-- Classifies a byte string whose proper beginnings are all `opening`. -/
def classify : Bytes → Sequence
  | [a] =>
      match lengthFrom a with
      | 0 => .broken
      | 1 => .whole (Char.ofNat a.toNat)
      | _ => .opening
  | [a, b] =>
      match lengthFrom a with
      | 2 =>
          if isContinuation b then
            .whole (Char.ofNat ((a.toNat - 0xC0) * 64 + (b.toNat - 0x80)))
          else .broken
      | 0 | 1 => .broken
      | _ => if isSecond a b then .opening else .broken
  | [a, b, c] =>
      match lengthFrom a with
      | 3 =>
          if isContinuation c then
            .whole (Char.ofNat
              ((a.toNat - 0xE0) * 4096 + (b.toNat - 0x80) * 64 + (c.toNat - 0x80)))
          else .broken
      | 4 => if isContinuation c then .opening else .broken
      | _ => .broken
  | [a, b, c, d] =>
      if isContinuation d then
        .whole (Char.ofNat
          ((a.toNat - 0xF0) * 262144 + (b.toNat - 0x80) * 4096
            + (c.toNat - 0x80) * 64 + (d.toNat - 0x80)))
      else .broken
  | _ => .broken

inductive Piece where
  | char (c : Char)
  | broken (bytes : Bytes)
  deriving DecidableEq

namespace Piece

def size : Piece → Nat
  | char c => c.utf8Size
  | broken bytes => bytes.length

def char? : Piece → Option Char
  | char c => some c
  | broken _ => none

def shown : Piece → Char
  | char c => c
  | broken _ => '\uFFFD'

end Piece

/-- A cut in progress: the finished pieces, last first, and the bytes of an encoding that has begun
and is not complete. -/
structure Cut where
  finished : List Piece
  pending : Bytes

namespace Cut

def start : Cut := ⟨[], []⟩

def begin (cut : Cut) (b : UInt8) : Cut :=
  match classify [b] with
  | .whole c => ⟨.char c :: cut.finished, []⟩
  | .opening => ⟨cut.finished, [b]⟩
  | .broken => ⟨.broken [b] :: cut.finished, []⟩

/-- Takes the next byte.  A byte that cannot continue the pending bytes ends them as a bad piece
and begins anew. -/
def feed (cut : Cut) (b : UInt8) : Cut :=
  match cut.pending with
  | [] => cut.begin b
  | pending@(_ :: _) =>
      match classify (pending ++ [b]) with
      | .whole c => ⟨.char c :: cut.finished, []⟩
      | .opening => ⟨cut.finished, pending ++ [b]⟩
      | .broken => begin ⟨.broken pending :: cut.finished, []⟩ b

/-- The pieces once the input has ended; an unfinished encoding is a bad piece. -/
def finish (cut : Cut) : List Piece :=
  match cut.pending with
  | [] => cut.finished.reverse
  | pending@(_ :: _) => (.broken pending :: cut.finished).reverse

end Cut

def pieces (bytes : Bytes) : List Piece :=
  (bytes.foldl Cut.feed Cut.start).finish

/-- Strict reading: the whole text, or the number of well-formed bytes before the first bad
piece. -/
def decode (bytes : Bytes) : Except Nat String :=
  let all := pieces bytes
  let good := all.takeWhile (·.char?.isSome)
  if good.length = all.length then
    .ok (String.ofList (good.filterMap Piece.char?))
  else
    .error (good.foldr (fun piece rest => piece.size + rest) 0)

def lossy (bytes : Bytes) : String :=
  String.ofList ((pieces bytes).map Piece.shown)

end TreePack.Utf8
