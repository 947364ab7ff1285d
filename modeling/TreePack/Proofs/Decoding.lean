import Mathlib.Data.List.TakeWhile
import Mathlib.Tactic
import TreePack.Proofs.OwnPath
import TreePack.Proofs.Pieces

/-!
# Reading a file as text

A byte string is well-formed if it is nothing but encodings of characters, one after the other.
Strict reading accepts exactly these and gives the one text whose encoding the bytes are.  Of any
other byte string it gives the length of the longest well-formed beginning: a text that was written
at the front is cut off as its characters, so no such beginning reaches past the first bad piece.

A candidate that leads to a file becomes what this reading makes of the bytes of the file.
-/

namespace TreePack

namespace Utf8

inductive WellFormed : Bytes → Prop
  | nil : WellFormed []
  | append {bytes rest : Bytes} {v : ℕ} :
      Encodes bytes v → WellFormed rest → WellFormed (bytes ++ rest)

theorem wellFormed_ofText (text : String) : WellFormed (Bytes.ofText text) := by
  unfold Bytes.ofText
  induction text.toList with
  | nil => exact .nil
  | cons c chars ih => exact .append ((utf8EncodeChar_eq_iff c _).1 rfl) ih

theorem WellFormed.exists_text {bytes : Bytes} (hwf : WellFormed bytes) :
    ∃ text, Bytes.ofText text = bytes := by
  induction hwf with
  | nil => exact ⟨"", rfl⟩
  | @append bytes rest v hencodes _ ih =>
      obtain ⟨text, rfl⟩ := ih
      refine ⟨String.ofList (Char.ofNat v :: text.toList), ?_⟩
      rw [Bytes.ofText, String.toList_ofList, List.flatMap_cons, hencodes.utf8EncodeChar_eq]
      rfl

/-! ## The text at the front -/

theorem eq_map_char {good : List Piece} (hgood : ∀ piece ∈ good, piece.char?.isSome = true) :
    good = (good.filterMap Piece.char?).map Piece.char := by
  induction good with
  | nil => rfl
  | cons piece good ih =>
      have hrest := ih fun other hother => hgood other (List.mem_cons_of_mem piece hother)
      cases piece with
      | char c =>
          have hread : (Piece.char c).char? = some c := rfl
          rw [List.filterMap_cons_some hread, List.map_cons, ← hrest]
      | broken bytes => simpa [Piece.char?] using hgood (.broken bytes) List.mem_cons_self

theorem flatMap_bytes_map_char (text : String) :
    (text.toList.map Piece.char).flatMap Piece.bytes = Bytes.ofText text := by
  rw [List.flatMap_map]
  rfl

theorem foldr_size (good : List Piece) :
    good.foldr (fun piece rest => piece.size + rest) 0 = (good.flatMap Piece.bytes).length := by
  induction good with
  | nil => rfl
  | cons piece good ih =>
      rw [List.foldr_cons, ih, List.flatMap_cons, List.length_append, piece.size_eq_length]

/-- The text that is read before the first bad piece. -/
def frontText (bytes : Bytes) : String :=
  String.ofList (((pieces bytes).takeWhile (·.char?.isSome)).filterMap Piece.char?)

theorem takeWhile_pieces (bytes : Bytes) :
    (pieces bytes).takeWhile (·.char?.isSome) = (frontText bytes).toList.map Piece.char := by
  rw [frontText, String.toList_ofList]
  apply eq_map_char
  intro piece hpiece
  exact List.mem_takeWhile_imp (p := fun piece : Piece => piece.char?.isSome) hpiece

theorem isPrefix_frontText (bytes : Bytes) : Bytes.ofText (frontText bytes) <+: bytes := by
  have hall := List.takeWhile_append_dropWhile (p := (·.char?.isSome)) (l := pieces bytes)
  refine ⟨((pieces bytes).dropWhile (·.char?.isSome)).flatMap Piece.bytes, ?_⟩
  conv_rhs => rw [← flatMap_bytes_pieces bytes, ← hall]
  rw [List.flatMap_append, takeWhile_pieces, flatMap_bytes_map_char]

/-- No text that is written at the front is longer. -/
theorem length_le_frontText (text : String) (rest : Bytes) :
    (Bytes.ofText text).length ≤ (Bytes.ofText (frontText (Bytes.ofText text ++ rest))).length := by
  have hgood : ∀ piece ∈ text.toList.map Piece.char, piece.char?.isSome = true := by
    intro piece hpiece
    obtain ⟨c, _, rfl⟩ := List.mem_map.1 hpiece
    rfl
  have hfront := takeWhile_pieces (Bytes.ofText text ++ rest)
  rw [pieces_ofText_append, List.takeWhile_append_of_pos hgood] at hfront
  have hbytes := congrArg (List.flatMap Piece.bytes) hfront
  rw [List.flatMap_append, flatMap_bytes_map_char, flatMap_bytes_map_char] at hbytes
  rw [← hbytes, List.length_append]
  omega

theorem length_takeWhile_pieces_iff (bytes : Bytes) :
    ((pieces bytes).takeWhile (·.char?.isSome)).length = (pieces bytes).length ↔
      Bytes.ofText (frontText bytes) = bytes := by
  have hfront := takeWhile_pieces bytes
  constructor
  · intro hlength
    have hall := (List.takeWhile_prefix _).eq_of_length hlength
    have hbytes := flatMap_bytes_pieces bytes
    rwa [← hall, hfront, flatMap_bytes_map_char] at hbytes
  · intro hbytes
    have hall := pieces_ofText (frontText bytes)
    rw [hbytes] at hall
    rw [hfront, hall]

/-- Strict reading gives the text at the front, if there is nothing behind it, and its length in
bytes otherwise. -/
theorem decode_eq (bytes : Bytes) :
    decode bytes = if Bytes.ofText (frontText bytes) = bytes then .ok (frontText bytes)
      else .error (Bytes.ofText (frontText bytes)).length := by
  unfold decode
  simp only [length_takeWhile_pieces_iff]
  split
  next => rfl
  next =>
    rw [foldr_size, takeWhile_pieces, flatMap_bytes_map_char]

theorem decode_ofText (text : String) : decode (Bytes.ofText text) = .ok text := by
  have hfront := isPrefix_frontText (Bytes.ofText text)
  have hlength := length_le_frontText text []
  rw [List.append_nil] at hlength
  have hbytes := hfront.eq_of_length_le hlength
  rw [decode_eq, if_pos hbytes, Bytes.ofText_injective hbytes]

theorem wellFormed_iff (bytes : Bytes) :
    WellFormed bytes ↔ Bytes.ofText (frontText bytes) = bytes := by
  constructor
  · intro hwf
    obtain ⟨text, rfl⟩ := hwf.exists_text
    have hlength := length_le_frontText text []
    rw [List.append_nil] at hlength
    exact (isPrefix_frontText _).eq_of_length_le hlength
  · intro hbytes
    rw [← hbytes]
    exact wellFormed_ofText _

instance (bytes : Bytes) : Decidable (WellFormed bytes) :=
  decidable_of_iff (Bytes.ofText (frontText bytes) = bytes) (wellFormed_iff bytes).symm

/-- The offset of the first bad piece ends the longest well-formed beginning. -/
theorem isGreatest_frontText (bytes : Bytes) :
    IsGreatest {k | k ≤ bytes.length ∧ WellFormed (bytes.take k)}
      (Bytes.ofText (frontText bytes)).length := by
  have hfront := isPrefix_frontText bytes
  refine ⟨⟨hfront.length_le, ?_⟩, ?_⟩
  · rw [← List.prefix_iff_eq_take.1 hfront]
    exact wellFormed_ofText _
  · rintro k ⟨hk, hwf⟩
    obtain ⟨text, htext⟩ := hwf.exists_text
    have hwhole : Bytes.ofText text ++ bytes.drop k = bytes := by
      rw [htext, List.take_append_drop]
    calc
      k = (Bytes.ofText text).length := by rw [htext, List.length_take_of_le hk]
      _ ≤ (Bytes.ofText (frontText bytes)).length := by
        have hlength := length_le_frontText text (bytes.drop k)
        rwa [hwhole] at hlength

end Utf8

namespace FileSystem

/-- A candidate that leads to a readable file is packed exactly if the bytes of the file are
well-formed, with the text that they encode.  Otherwise it is skipped, and the offset that is told
is the length of the longest beginning that is well-formed. -/
theorem readCandidate_reads_text {fs : FileSystem} {c : Candidate} {location : Location}
    {mode : Mode} {data : Bytes} (hlocate : fs.locate .use c.path = .ok location)
    (hfile : fs.node? location = some (.file mode data)) (hread : mode.mayRead = true) :
    ((∃ file, fs.readCandidate c = .ok file) ↔ Utf8.WellFormed data) ∧
      (Utf8.WellFormed data → ∃ text, Bytes.ofText text = data ∧
        fs.readCandidate c = .ok ⟨c.display, Newline.normalize text⟩) ∧
      (¬Utf8.WellFormed data → ∃ offset,
        fs.readCandidate c = .error (.invalidUtf8 offset) ∧
          IsGreatest {k | k ≤ data.length ∧ Utf8.WellFormed (data.take k)} offset ∧
          offset < data.length) := by
  have hdecode := Utf8.decode_eq data
  rw [readCandidate_of_file hlocate hfile hread, PackedFile.ofBytes]
  by_cases hwf : Utf8.WellFormed data
  · have hbytes := (Utf8.wellFormed_iff data).1 hwf
    rw [if_pos hbytes] at hdecode
    simp only [hdecode]
    refine ⟨⟨fun _ => hwf, fun _ => ⟨_, rfl⟩⟩, fun _ => ⟨_, hbytes, rfl⟩, ?_⟩
    intro hnot
    contradiction
  · have hbytes : Bytes.ofText (Utf8.frontText data) ≠ data := fun h =>
      hwf ((Utf8.wellFormed_iff data).2 h)
    have hgreatest := Utf8.isGreatest_frontText data
    have hshort : (Bytes.ofText (Utf8.frontText data)).length < data.length := by
      apply lt_of_le_of_ne hgreatest.1.1
      intro hlength
      exact hbytes ((Utf8.isPrefix_frontText data).eq_of_length hlength)
    rw [if_neg hbytes] at hdecode
    simp only [hdecode]
    refine ⟨⟨?_, fun h => absurd h hwf⟩, fun h => absurd h hwf, fun _ =>
      ⟨_, rfl, hgreatest, hshort⟩⟩
    rintro ⟨file, hok⟩
    contradiction

def tornName : Name := ⟨Bytes.ofText "torn.c", by decide +kernel⟩

def wholeName : Name := ⟨Bytes.ofText "whole.c", by decide +kernel⟩

/-- A mark of the byte order, a zero byte and a line end, and then what would be a surrogate. -/
def tornBytes : Bytes := Bytes.ofText "\uFEFF\x00é\r\n" ++ [0xED, 0xA0, 0x80, 0x78]

def tornProject : FileSystem :=
  built
    [(·.putFile (Path.ofText "/proj/whole.c") (tornBytes.take 8)),
      (·.putFile (Path.ofText "/proj/torn.c") tornBytes)]

theorem readCandidate_reads_text_of_tornProject :
    let whole : Candidate := ⟨Path.ofText "/proj/whole.c", "./whole.c"⟩
    let torn : Candidate := ⟨Path.ofText "/proj/torn.c", "./torn.c"⟩
    tornProject.locate .use whole.path = .ok [projName, wholeName] ∧
      tornProject.node? [projName, wholeName] = some (.file .ordinaryFile (tornBytes.take 8)) ∧
      tornProject.locate .use torn.path = .ok [projName, tornName] ∧
      tornProject.node? [projName, tornName] = some (.file .ordinaryFile tornBytes) ∧
      Mode.ordinaryFile.mayRead = true ∧
      Utf8.WellFormed (tornBytes.take 8) ∧ ¬Utf8.WellFormed tornBytes ∧
      tornProject.readCandidate whole = .ok ⟨"./whole.c", "\uFEFF\x00é\n"⟩ ∧
      tornProject.readCandidate torn = .error (.invalidUtf8 8) ∧
      IsGreatest {k | k ≤ tornBytes.length ∧ Utf8.WellFormed (tornBytes.take k)} 8 := by
  intro whole torn
  have hlocateWhole : tornProject.locate .use whole.path = .ok [projName, wholeName] := by
    decide +kernel
  have hlocateTorn : tornProject.locate .use torn.path = .ok [projName, tornName] := by
    decide +kernel
  have hwholeFile : tornProject.node? [projName, wholeName] =
      some (.file .ordinaryFile (tornBytes.take 8)) := by
    rfl
  have htornFile : tornProject.node? [projName, tornName] =
      some (.file .ordinaryFile tornBytes) := by
    rfl
  have hread : Mode.ordinaryFile.mayRead = true := by decide
  have hwhole : Utf8.WellFormed (tornBytes.take 8) := by decide +kernel
  have htorn : ¬Utf8.WellFormed tornBytes := by decide +kernel
  obtain ⟨text, htext, hpacked⟩ :=
    (readCandidate_reads_text hlocateWhole hwholeFile hread).2.1 hwhole
  obtain ⟨offset, hskipped, hgreatest, -⟩ :=
    (readCandidate_reads_text hlocateTorn htornFile hread).2.2 htorn
  have htextEq : text = "\uFEFF\x00é\r\n" := by
    apply Bytes.ofText_injective
    rw [htext]
    decide +kernel
  have hoffset : offset = 8 := by
    have hsame : tornProject.readCandidate torn = .error (.invalidUtf8 8) := by decide +kernel
    rw [hskipped] at hsame
    simpa using hsame
  have hcontents : Newline.normalize "\uFEFF\x00é\r\n" = "\uFEFF\x00é\n" := by decide +kernel
  rw [htextEq, hcontents] at hpacked
  rw [hoffset] at hskipped hgreatest
  exact ⟨hlocateWhole, hwholeFile, hlocateTorn, htornFile, hread, hwhole, htorn, hpacked, hskipped,
    hgreatest⟩

end FileSystem

end TreePack
