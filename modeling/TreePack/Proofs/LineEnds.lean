import TreePack.Proofs.Decoding
import TreePack.Proofs.Reading

/-!
# Lines that end in three ways

A line ends at CR LF, at a CR that no LF follows, or at an LF.  One scan from left to right cuts a
text at these places, and there is no other way to cut it.  The two passes of `normalize` give what
the scan gives when its lines are joined by LF, whatever mixture of CR and LF the text has: where
the first pass leaves a CR in place, the scan ends a line at this CR alone.

Since no line has a CR or LF inside, the normalised text falls into the same lines again.
-/

namespace TreePack

namespace Newline

structure Unbroken (line : List Char) : Prop where
  carriageReturn : '\r' ∉ line
  lineFeed : '\n' ∉ line

theorem unbroken_nil : Unbroken [] := ⟨List.not_mem_nil, List.not_mem_nil⟩

theorem unbroken_cons_iff (c : Char) (line : List Char) :
    Unbroken (c :: line) ↔ c ≠ '\r' ∧ c ≠ '\n' ∧ Unbroken line := by
  constructor
  · rintro ⟨hreturn, hfeed⟩
    rw [List.mem_cons, not_or] at hreturn hfeed
    exact ⟨Ne.symm hreturn.1, Ne.symm hfeed.1, hreturn.2, hfeed.2⟩
  · rintro ⟨hreturn, hfeed, hline⟩
    constructor
    · simp [Ne.symm hreturn, hline.carriageReturn]
    · simp [Ne.symm hfeed, hline.lineFeed]

/-- The ways to cut a text into lines, where a line end is taken as long as it can be. -/
inductive Cut : List Char → List (List Char) → Prop
  | last {line : List Char} : Unbroken line → Cut line [line]
  | pair {line rest : List Char} {lines : List (List Char)} :
      Unbroken line → Cut rest lines → Cut (line ++ '\r' :: '\n' :: rest) (line :: lines)
  | loneReturn {line rest : List Char} {lines : List (List Char)} :
      Unbroken line → rest.head? ≠ some '\n' → Cut rest lines →
      Cut (line ++ '\r' :: rest) (line :: lines)
  | loneFeed {line rest : List Char} {lines : List (List Char)} :
      Unbroken line → Cut rest lines → Cut (line ++ '\n' :: rest) (line :: lines)

/-- Cuts a text in one scan. -/
def cutLines : List Char → List (List Char)
  | [] => [[]]
  | '\r' :: '\n' :: rest => [] :: cutLines rest
  | '\r' :: rest => [] :: cutLines rest
  | '\n' :: rest => [] :: cutLines rest
  | c :: rest => (cutLines rest).modifyHead (c :: ·)

theorem cutLines_ne_nil (chars : List Char) : cutLines chars ≠ [] := by
  fun_induction cutLines chars with
  | case1 | case2 | case3 | case4 => simp
  | case5 c rest _ _ _ ih => simpa using ih

theorem cutLines_loneReturn {rest : List Char} (hrest : rest.head? ≠ some '\n') :
    cutLines ('\r' :: rest) = [] :: cutLines rest := by
  rw [cutLines.eq_3]
  rintro tail rfl
  exact hrest rfl

theorem cutLines_cons {c : Char} (hreturn : c ≠ '\r') (hfeed : c ≠ '\n') (rest : List Char) :
    cutLines (c :: rest) = (cutLines rest).modifyHead (c :: ·) := by
  rw [cutLines.eq_5] <;> simp_all

theorem cutLines_append {line : List Char} (hline : Unbroken line) (rest : List Char) :
    cutLines (line ++ rest) = (cutLines rest).modifyHead (line ++ ·) := by
  induction line with
  | nil =>
      rw [List.nil_append]
      cases cutLines rest <;> rfl
  | cons c line ih =>
      obtain ⟨hreturn, hfeed, hline⟩ := (unbroken_cons_iff c line).1 hline
      rw [List.cons_append, cutLines_cons hreturn hfeed, ih hline]
      cases cutLines rest <;> rfl

theorem Cut.cons {c : Char} {rest : List Char} {lines : List (List Char)} (hreturn : c ≠ '\r')
    (hfeed : c ≠ '\n') (hcut : Cut rest lines) :
    Cut (c :: rest) (lines.modifyHead (c :: ·)) := by
  have hlonger {line : List Char} (hline : Unbroken line) : Unbroken (c :: line) :=
    (unbroken_cons_iff c line).2 ⟨hreturn, hfeed, hline⟩
  cases hcut with
  | last hline => exact .last (hlonger hline)
  | pair hline hrest => exact .pair (hlonger hline) hrest
  | loneReturn hline hhead hrest => exact .loneReturn (hlonger hline) hhead hrest
  | loneFeed hline hrest => exact .loneFeed (hlonger hline) hrest

theorem cut_cutLines (chars : List Char) : Cut chars (cutLines chars) := by
  fun_induction cutLines chars with
  | case1 => exact .last unbroken_nil
  | case2 rest ih => exact .pair unbroken_nil ih
  | case3 rest hlone ih =>
      apply Cut.loneReturn unbroken_nil _ ih
      intro hhead
      obtain ⟨tail, htail⟩ := List.head?_eq_some_iff.1 hhead
      exact hlone tail htail
  | case4 rest ih => exact .loneFeed unbroken_nil ih
  | case5 c rest _ hreturn hfeed ih => exact ih.cons hreturn hfeed

theorem cut_iff (chars : List Char) (lines : List (List Char)) :
    Cut chars lines ↔ lines = cutLines chars := by
  constructor
  · intro hcut
    induction hcut with
    | @last line hline =>
        have hcut := cutLines_append hline []
        rw [List.append_nil] at hcut
        rw [hcut]
        simp [cutLines]
    | pair hline _ ih =>
        rw [cutLines_append hline, cutLines, ← ih]
        simp
    | loneReturn hline hhead _ ih =>
        rw [cutLines_append hline, cutLines_loneReturn hhead, ← ih]
        simp
    | loneFeed hline _ ih =>
        rw [cutLines_append hline, cutLines, ← ih]
        simp
  · rintro rfl
    exact cut_cutLines chars

theorem Cut.unbroken {chars : List Char} {lines : List (List Char)} (hcut : Cut chars lines) :
    ∀ line ∈ lines, Unbroken line := by
  induction hcut with
  | last hline => simpa using hline
  | pair hline _ ih | loneReturn hline _ _ ih | loneFeed hline _ ih =>
      exact List.forall_mem_cons.2 ⟨hline, ih⟩

/-! ## Two passes and one scan -/

theorem intercalate_modifyHead_cons (c : Char) {lines : List (List Char)} (hne : lines ≠ []) :
    ['\n'].intercalate (lines.modifyHead (c :: ·)) = c :: ['\n'].intercalate lines := by
  obtain ⟨first, others, rfl⟩ := List.exists_cons_of_ne_nil hne
  cases others <;> simp

theorem intercalate_cutLines (chars : List Char) :
    ['\n'].intercalate (cutLines chars) = replaceReturns (joinPairs chars) := by
  have hnext (rest : List Char) :
      ['\n'].intercalate ([] :: cutLines rest) = '\n' :: ['\n'].intercalate (cutLines rest) := by
    rw [List.intercalate_cons_of_ne_nil (cutLines_ne_nil rest)]
    rfl
  fun_induction cutLines chars with
  | case1 => rfl
  | case2 rest ih =>
      rw [hnext, ih, joinPairs_pair]
      rfl
  | case3 rest hlone ih =>
      rw [hnext, ih, joinPairs_cons '\r' rest fun tail _ htail => hlone tail htail]
      rfl
  | case4 rest ih =>
      rw [hnext, ih, joinPairs_cons '\n' rest fun _ hreturn _ => absurd hreturn (by decide)]
      rfl
  | case5 c rest _ hreturn hfeed ih =>
      rw [intercalate_modifyHead_cons c (cutLines_ne_nil rest), ih,
        joinPairs_cons c rest fun _ hc _ => hreturn hc]
      rw [replaceReturns, replaceReturns, List.map_cons, if_neg hreturn]

theorem isNormal_iff (text : String) : isNormal text = true ↔ '\r' ∉ text.toList := by
  simp [isNormal]

theorem cutLines_eq_splitOn {chars : List Char} (hreturn : '\r' ∉ chars) :
    cutLines chars = chars.splitOn '\n' := by
  induction chars with
  | nil => rfl
  | cons c chars ih =>
      rw [List.mem_cons, not_or] at hreturn
      rw [List.splitOn_cons_eq_if_modifyHead, ← ih hreturn.2]
      split
      next hfeed =>
        rw [beq_iff_eq] at hfeed
        rw [hfeed, cutLines]
      next hfeed =>
        rw [beq_iff_eq] at hfeed
        exact cutLines_cons (Ne.symm hreturn.1) hfeed chars

/-- The passes give back a text without CR, so that it may be kept as it is. -/
theorem normalize_eq_passes (text : String) :
    normalize text = String.ofList (replaceReturns (joinPairs text.toList)) := by
  unfold normalize
  split
  next hnormal =>
    rw [← intercalate_cutLines, cutLines_eq_splitOn ((isNormal_iff text).1 hnormal),
      List.intercalate_splitOn, String.ofList_toList]
  next => rfl

theorem normalize_eq_joinLines (text : String) :
    normalize text = joinLines (cutLines text.toList) := by
  rw [normalize_eq_passes, joinLines, intercalate_cutLines]

theorem linesOf_normalize (text : String) : linesOf (normalize text) = cutLines text.toList := by
  rw [normalize_eq_joinLines]
  apply linesOf_joinLines (cutLines_ne_nil _)
  intro line hline
  exact ((cut_cutLines _).unbroken line hline).lineFeed

theorem return_not_mem_normalize (text : String) : '\r' ∉ (normalize text).toList := by
  rw [normalize_eq_passes, String.toList_ofList, replaceReturns]
  intro hmem
  obtain ⟨c, _, hc⟩ := List.mem_map.1 hmem
  split at hc
  next => exact absurd hc (by decide)
  next hne => exact hne hc

theorem normalize_eq_self_iff (text : String) : normalize text = text ↔ '\r' ∉ text.toList := by
  constructor
  · intro hsame
    rw [← hsame]
    exact return_not_mem_normalize text
  · intro hreturn
    rw [normalize, if_pos ((isNormal_iff text).2 hreturn)]

/-- Normalising joins by LF the lines into which one scan cuts a text, and the text can be cut in
no other way.  The result has no CR, falls into the same lines and is not changed again.  The two
passes agree with the scan on every text; the texts that they leave as they are, those without CR,
are the ones that are kept without running them. -/
theorem normalize_joins_lines (text : String) :
    (∀ lines, Cut text.toList lines ↔ lines = cutLines text.toList) ∧
      String.ofList (replaceReturns (joinPairs text.toList)) = joinLines (cutLines text.toList) ∧
      normalize text = joinLines (cutLines text.toList) ∧
      '\r' ∉ (normalize text).toList ∧
      linesOf (normalize text) = cutLines text.toList ∧
      normalize (normalize text) = normalize text ∧
      (normalize text = text ↔ '\r' ∉ text.toList) ∧
      (isNormal text = true ↔ '\r' ∉ text.toList) ∧
      ∀ display, PackedFile.ofBytes display (Bytes.ofText text) =
        .ok ⟨display, joinLines (cutLines text.toList)⟩ := by
  refine ⟨cut_iff text.toList, ?_, normalize_eq_joinLines text, return_not_mem_normalize text,
    linesOf_normalize text, ?_, normalize_eq_self_iff text, isNormal_iff text, ?_⟩
  · rw [← normalize_eq_passes, normalize_eq_joinLines]
  · exact (normalize_eq_self_iff _).2 (return_not_mem_normalize text)
  · intro display
    rw [PackedFile.ofBytes, Utf8.decode_ofText, ← normalize_eq_joinLines]

example : (cutLines "a\r\r\nb\n\rc\r\n\rd".toList).map String.ofList =
    ["a", "", "b", "", "c", "", "d"] := by
  decide

end Newline

end TreePack
