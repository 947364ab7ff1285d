import Mathlib.Tactic
import TreePack.Proofs.Encoding

/-!
# The pieces of a byte string

Cutting a byte string loses nothing: its pieces, written one after the other, are the bytes again.
Where a text has been written, its characters are cut off, whatever comes behind it, since a cut
that ends with no bytes pending begins anew.  A byte that goes on with no encoding also makes the
cut begin anew, so in front of such a byte the pieces of the two parts do not depend on each other,
even if the first part breaks off within an encoding.
-/

namespace TreePack.Utf8

def Piece.bytes : Piece → Bytes
  | .char c => String.utf8EncodeChar c
  | .broken bytes => bytes

theorem Piece.size_eq_length (piece : Piece) : piece.size = piece.bytes.length := by
  cases piece with
  | char c => exact (String.length_utf8EncodeChar c).symm
  | broken bytes => rfl

namespace Cut

/-! ## One byte -/

theorem feed_of_whole {cut : Cut} {b : UInt8} {c : Char}
    (hwhole : classify (cut.pending ++ [b]) = .whole c) :
    cut.feed b = ⟨.char c :: cut.finished, []⟩ := by
  obtain ⟨finished, pending⟩ := cut
  cases pending with
  | nil =>
      rw [List.nil_append] at hwhole
      simp only [feed, begin, hwhole]
  | cons a rest => simp only [feed, hwhole]

theorem feed_of_opening {cut : Cut} {b : UInt8}
    (hopening : classify (cut.pending ++ [b]) = .opening) :
    cut.feed b = ⟨cut.finished, cut.pending ++ [b]⟩ := by
  obtain ⟨finished, pending⟩ := cut
  cases pending with
  | nil =>
      rw [List.nil_append] at hopening
      simp only [feed, begin, hopening, List.nil_append]
  | cons a rest => simp only [feed, hopening]

theorem feed_of_broken {cut : Cut} {b : UInt8} (hne : cut.pending ≠ [])
    (hbroken : classify (cut.pending ++ [b]) = .broken) :
    cut.feed b = feed ⟨cut.finish.reverse, []⟩ b := by
  obtain ⟨finished, pending⟩ := cut
  cases pending with
  | nil => contradiction
  | cons a rest => simp only [feed, hbroken, finish, List.reverse_reverse]

theorem feed_of_not_continuation (cut : Cut) {b : UInt8} (hb : isContinuation b = false) :
    cut.feed b = feed ⟨cut.finish.reverse, []⟩ b := by
  by_cases hne : cut.pending = []
  · obtain ⟨finished, pending⟩ := cut
    cases hne
    simp only [finish, List.reverse_reverse]
  · exact feed_of_broken hne (classify_concat_eq_broken hne hb)

/-- Pieces that are finished are carried along. -/
theorem feed_carry (cut : Cut) (earlier : List Piece) (b : UInt8) :
    feed ⟨cut.finished ++ earlier, cut.pending⟩ b =
      ⟨(cut.feed b).finished ++ earlier, (cut.feed b).pending⟩ := by
  have hbegin : ∀ (finished : List Piece) (pending : Bytes),
      begin ⟨finished ++ earlier, pending⟩ b =
        ⟨(begin ⟨finished, pending⟩ b).finished ++ earlier,
          (begin ⟨finished, pending⟩ b).pending⟩ := by
    intro finished pending
    unfold begin
    cases classify [b] <;> rfl
  obtain ⟨finished, pending⟩ := cut
  cases pending with
  | nil => exact hbegin finished []
  | cons a rest =>
      simp only [feed]
      cases classify (a :: rest ++ [b]) with
      | whole c => rfl
      | opening => rfl
      | broken => exact hbegin (.broken (a :: rest) :: finished) _

/-! ## Nothing is lost -/

/-- What has been cut off so far and what is pending are the bytes that have been fed. -/
structure Reads (cut : Cut) (bytes : Bytes) : Prop where
  unfinished : Unfinished cut.pending
  bytes_eq : cut.finished.reverse.flatMap Piece.bytes ++ cut.pending = bytes

theorem reads_start : start.Reads [] := ⟨trivial, rfl⟩

theorem Reads.of_finish {cut : Cut} {bytes : Bytes} (hreads : cut.Reads bytes) :
    Reads ⟨cut.finish.reverse, []⟩ bytes := by
  obtain ⟨finished, pending⟩ := cut
  refine ⟨trivial, ?_⟩
  rw [← hreads.bytes_eq]
  cases pending <;> simp [finish, Piece.bytes]

theorem Reads.feed_of_ne_broken {cut : Cut} {bytes : Bytes} {b : UInt8}
    (hreads : cut.Reads bytes) (hgoesOn : classify (cut.pending ++ [b]) ≠ .broken) :
    (cut.feed b).Reads (bytes ++ [b]) := by
  have hclassify := hreads.unfinished.classify_concat b
  cases hb : classify (cut.pending ++ [b]) with
  | whole c =>
      rw [hb] at hclassify
      obtain ⟨v, hencodes, rfl⟩ := hclassify
      rw [feed_of_whole hb]
      refine ⟨trivial, ?_⟩
      simp [Piece.bytes, hencodes.utf8EncodeChar_eq, ← hreads.bytes_eq]
  | opening =>
      rw [hb] at hclassify
      rw [feed_of_opening hb]
      exact ⟨hclassify, by simp [← hreads.bytes_eq]⟩
  | broken => contradiction

theorem Reads.feed_begun {finished : List Piece} {bytes : Bytes}
    (hreads : Reads ⟨finished, []⟩ bytes) (b : UInt8) :
    (feed ⟨finished, []⟩ b).Reads (bytes ++ [b]) := by
  by_cases hbroken : classify [b] = .broken
  · have hfeed : feed ⟨finished, []⟩ b = ⟨.broken [b] :: finished, []⟩ := by
      simp only [feed, begin, hbroken]
    rw [hfeed]
    exact ⟨trivial, by simp [Piece.bytes, ← hreads.bytes_eq]⟩
  · exact hreads.feed_of_ne_broken hbroken

theorem Reads.feed {cut : Cut} {bytes : Bytes} (hreads : cut.Reads bytes) (b : UInt8) :
    (cut.feed b).Reads (bytes ++ [b]) := by
  by_cases hbroken : classify (cut.pending ++ [b]) = .broken
  · by_cases hne : cut.pending = []
    · obtain ⟨finished, pending⟩ := cut
      cases hne
      exact hreads.feed_begun b
    · rw [feed_of_broken hne hbroken]
      exact hreads.of_finish.feed_begun b
  · exact hreads.feed_of_ne_broken hbroken

theorem Reads.foldl_feed {cut : Cut} {front : Bytes} (hreads : cut.Reads front) (bytes : Bytes) :
    (bytes.foldl Cut.feed cut).Reads (front ++ bytes) := by
  induction bytes generalizing cut front with
  | nil => simpa using hreads
  | cons b bytes ih =>
      rw [List.foldl_cons, List.append_cons]
      exact ih (hreads.feed b)

theorem Reads.flatMap_finish {cut : Cut} {bytes : Bytes} (hreads : cut.Reads bytes) :
    cut.finish.flatMap Piece.bytes = bytes := by
  simpa using hreads.of_finish.bytes_eq

/-! ## Encodings -/

theorem foldl_feed_of_unfinished {pending : Bytes} (hpending : Unfinished pending)
    (finished : List Piece) :
    pending.foldl feed ⟨finished, []⟩ = ⟨finished, pending⟩ := by
  induction pending using List.reverseRecOn with
  | nil => rfl
  | append_singleton pending b ih =>
      have hopening := hpending.classify_eq (List.append_ne_nil_of_right_ne_nil _ (by simp))
      rw [List.foldl_append, ih hpending.of_concat]
      exact feed_of_opening hopening

theorem foldl_feed_of_encodes {bytes : Bytes} {v : ℕ} (hencodes : Encodes bytes v)
    (finished : List Piece) :
    bytes.foldl feed ⟨finished, []⟩ = ⟨.char (Char.ofNat v) :: finished, []⟩ := by
  rcases List.eq_nil_or_concat bytes with rfl | ⟨front, last, rfl⟩
  · exact hencodes.elim
  · rw [List.concat_eq_append] at *
    rw [List.foldl_append, foldl_feed_of_unfinished hencodes.unfinished]
    exact feed_of_whole hencodes.classify_eq

theorem foldl_feed_encoded (chars : List Char) (finished : List Piece) :
    (chars.flatMap String.utf8EncodeChar).foldl feed ⟨finished, []⟩ =
      ⟨(chars.map Piece.char).reverse ++ finished, []⟩ := by
  induction chars generalizing finished with
  | nil => rfl
  | cons c chars ih =>
      have hencodes := (utf8EncodeChar_eq_iff c _).1 rfl
      rw [List.flatMap_cons, List.foldl_append, foldl_feed_of_encodes hencodes, ih,
        Char.ofNat_toNat]
      simp

theorem foldl_feed_carry (bytes : Bytes) (cut : Cut) (earlier : List Piece) :
    bytes.foldl feed ⟨cut.finished ++ earlier, cut.pending⟩ =
      ⟨(bytes.foldl feed cut).finished ++ earlier, (bytes.foldl feed cut).pending⟩ := by
  induction bytes generalizing cut with
  | nil => rfl
  | cons b bytes ih => rw [List.foldl_cons, List.foldl_cons, feed_carry, ih]

theorem finish_carry (cut : Cut) (earlier : List Piece) :
    finish ⟨cut.finished ++ earlier, cut.pending⟩ = earlier.reverse ++ cut.finish := by
  obtain ⟨finished, pending⟩ := cut
  cases pending <;> simp [finish]

/-- Behind finished pieces the rest is cut by itself. -/
theorem finish_foldl_feed (finished : List Piece) (bytes : Bytes) :
    (bytes.foldl feed ⟨finished, []⟩).finish = finished.reverse ++ pieces bytes := by
  have hcarry := foldl_feed_carry bytes start finished
  simp only [start, List.nil_append] at hcarry
  rw [hcarry, finish_carry]
  rfl

end Cut

theorem flatMap_bytes_pieces (bytes : Bytes) : (pieces bytes).flatMap Piece.bytes = bytes :=
  (Cut.reads_start.foldl_feed bytes).flatMap_finish

theorem pieces_ofText_append (text : String) (rest : Bytes) :
    pieces (Bytes.ofText text ++ rest) = text.toList.map Piece.char ++ pieces rest := by
  unfold Bytes.ofText
  rw [pieces, List.foldl_append, Cut.start, Cut.foldl_feed_encoded, Cut.finish_foldl_feed]
  simp

theorem pieces_ofText (text : String) :
    pieces (Bytes.ofText text) = text.toList.map Piece.char := by
  simpa [pieces, Cut.start, Cut.finish] using pieces_ofText_append text []

/-- In front of a byte that goes on with no encoding the pieces come to an end. -/
theorem pieces_append_cons (front : Bytes) {b : UInt8} (hb : isContinuation b = false)
    (rest : Bytes) :
    pieces (front ++ b :: rest) = pieces front ++ pieces (b :: rest) := by
  rw [pieces, List.foldl_append, List.foldl_cons, Cut.feed_of_not_continuation _ hb,
    ← List.foldl_cons, Cut.finish_foldl_feed, List.reverse_reverse]
  rfl

theorem isContinuation_head_ofText {text : String} {b : UInt8} {rest : Bytes}
    (hbytes : Bytes.ofText text = b :: rest) : isContinuation b = false := by
  unfold Bytes.ofText at hbytes
  cases htext : text.toList with
  | nil => simp [htext] at hbytes
  | cons c chars =>
      have hencodes := (utf8EncodeChar_eq_iff c _).1 rfl
      rw [htext, List.flatMap_cons] at hbytes
      cases hfirst : String.utf8EncodeChar c with
      | nil =>
          rw [hfirst] at hencodes
          exact hencodes.elim
      | cons a tail =>
          rw [hfirst, List.cons_append, List.cons.injEq] at hbytes
          rw [hfirst] at hencodes
          rw [← hbytes.1]
          exact hencodes.isContinuation_head

theorem pieces_append_ofText (front : Bytes) (text : String) :
    pieces (front ++ Bytes.ofText text) = pieces front ++ text.toList.map Piece.char := by
  rw [← pieces_ofText]
  cases hbytes : Bytes.ofText text with
  | nil => simp [pieces, Cut.start, Cut.finish]
  | cons b rest => exact pieces_append_cons front (isContinuation_head_ofText hbytes) rest

end TreePack.Utf8
