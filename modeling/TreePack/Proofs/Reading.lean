import Mathlib.Data.List.TakeWhile
import Mathlib.Tactic
import TreePack.Proofs.Writing

/-!
# Reading an artifact back

An artifact is read line by line.  Behind the introduction a record is a header line, a fence, the
lines up to the next fence and one empty line; the lines between the fences, joined again, are its
contents.  The reader goes on in this way until nothing is left.

Nothing in a record is escaped.  A display path of several lines and a contents line that is a fence
are therefore never read back as they were written.  They are the only obstacles: other records,
however much they look like headers and fences inside, are read back exactly.
-/

namespace TreePack

def linesOf (text : String) : List (List Char) := text.toList.splitOn '\n'

def joinLines (lines : List (List Char)) : String := String.ofList (['\n'].intercalate lines)

@[simp] theorem joinLines_linesOf (text : String) : joinLines (linesOf text) = text := by
  simp [joinLines, linesOf, List.intercalate_splitOn]

theorem linesOf_joinLines {lines : List (List Char)} (hne : lines ≠ [])
    (hlines : ∀ line ∈ lines, '\n' ∉ line) :
    linesOf (joinLines lines) = lines := by
  simpa [linesOf, joinLines] using List.splitOn_intercalate '\n' hlines hne

theorem newline_not_mem_of_mem_splitOn {text line : List Char} (hline : line ∈ text.splitOn '\n') :
    '\n' ∉ line := by
  induction text generalizing line with
  | nil =>
      rw [List.splitOn_nil, List.mem_singleton] at hline
      simp [hline]
  | cons c text ih =>
      rw [List.splitOn_cons_eq_if_modifyHead] at hline
      split at hline
      next =>
        rcases List.mem_cons.1 hline with rfl | hline
        · simp
        · exact ih hline
      next hc =>
        obtain ⟨first, others, hsplit⟩ :=
          List.exists_cons_of_ne_nil (List.splitOn_ne_nil '\n' text)
        rw [hsplit, List.modifyHead_cons] at hline
        rcases List.mem_cons.1 hline with rfl | hline
        · have hfirst : '\n' ∉ first := ih (by simp [hsplit])
          have hne : '\n' ≠ c := by
            rintro rfl
            exact hc (by simp)
          simp [hfirst, hne]
        · exact ih (by simp [hsplit, hline])

/-! ## One record -/

def headerOpening : String := "='='=' File: "

def headerClosing : String := " '='='='"

theorem headerLine_eq (display : String) :
    headerLine display = headerOpening ++ display ++ headerClosing := rfl

/-- The display path in a header line. -/
def displayIn? (line : List Char) : Option String :=
  ((line.dropPrefix? headerOpening.toList).bind (·.dropSuffix? headerClosing.toList)).map
    String.ofList

theorem displayIn?_eq_some_iff (line : List Char) (display : String) :
    displayIn? line = some display ↔ line = (headerLine display).toList := by
  unfold displayIn?
  rw [headerLine_eq, String.toList_append, String.toList_append, List.append_assoc]
  simp only [Option.map_eq_some_iff, Option.bind_eq_some_iff, List.dropPrefix?_eq_some_iff,
    List.dropSuffix?_eq_some_iff, beq_iff_eq]
  constructor
  · rintro ⟨middle, ⟨back, ⟨front, rfl, rfl⟩, ending, rfl, rfl⟩, rfl⟩
    simp
  · rintro rfl
    exact ⟨display.toList, ⟨_, ⟨_, rfl, rfl⟩, _, rfl, rfl⟩, by simp⟩

def isFence (line : List Char) : Bool := line = fence.toList

/-- Takes a record from the front of the lines. -/
def takeRecord? : List (List Char) → Option (PackedFile × List (List Char))
  | header :: opening :: body =>
      match displayIn? header, body.dropWhile (!isFence ·) with
      | some display, _ :: [] :: rest =>
          if isFence opening then some (⟨display, joinLines (body.takeWhile (!isFence ·))⟩, rest)
          else none
      | _, _ => none
  | _ => none

theorem takeRecord?_eq_some_iff (lines rest : List (List Char)) (file : PackedFile) :
    takeRecord? lines = some (file, rest) ↔
      ∃ body, fence.toList ∉ body ∧ file.contents = joinLines body ∧
        lines = (headerLine file.display).toList :: fence.toList ::
          (body ++ fence.toList :: [] :: rest) := by
  constructor
  · intro htake
    unfold takeRecord? at htake
    split at htake
    next header opening body =>
      split at htake
      next display closing rest' hdisplay hdrop =>
        split at htake
        next hopening =>
          cases htake
          have hbody := List.takeWhile_append_dropWhile (p := (!isFence ·)) (l := body)
          have hclosing : isFence closing = true := by
            have hhead := List.head?_dropWhile_not (!isFence ·) body
            simpa [hdrop] using hhead
          simp only [isFence, decide_eq_true_eq] at hopening hclosing
          refine ⟨body.takeWhile (!isFence ·), ?_, rfl, ?_⟩
          · intro hmem
            have hpasses := List.mem_takeWhile_imp hmem
            simp [isFence] at hpasses
          · rw [(displayIn?_eq_some_iff header display).1 hdisplay, hopening, ← hclosing, ← hdrop,
              hbody]
        next => contradiction
      next => contradiction
    next => contradiction
  · rintro ⟨body, hbody, hcontents, rfl⟩
    have hpasses : ∀ line ∈ body, (!isFence line) = true := by
      intro line hline
      have hne : line ≠ fence.toList := by
        rintro rfl
        exact hbody hline
      simpa [isFence] using hne
    have hheader := (displayIn?_eq_some_iff _ file.display).2 rfl
    have hfence : isFence fence.toList = true := by simp [isFence]
    have hdrop : (body ++ fence.toList :: [] :: rest).dropWhile (!isFence ·) =
        fence.toList :: [] :: rest := by
      rw [List.dropWhile_append_of_pos hpasses, List.dropWhile_cons_of_neg (by simp [hfence])]
    have htake : (body ++ fence.toList :: [] :: rest).takeWhile (!isFence ·) = body := by
      rw [List.takeWhile_append_of_pos hpasses, List.takeWhile_cons_of_neg (by simp [hfence]),
        List.append_nil]
    simp only [takeRecord?, hheader, hdrop, htake, hfence, if_true, ← hcontents]

theorem length_lt_of_takeRecord? {lines rest : List (List Char)} {file : PackedFile}
    (htake : takeRecord? lines = some (file, rest)) : rest.length < lines.length := by
  obtain ⟨body, _, _, rfl⟩ := (takeRecord?_eq_some_iff lines rest file).1 htake
  simp only [List.length_cons, List.length_append]
  omega

/-- The records in these lines, if they are nothing but records.  The last line of a text that ends
in a line end is empty. -/
def readRecords? (lines : List (List Char)) : Option (List PackedFile) :=
  if lines = [[]] then some []
  else
    match _ : takeRecord? lines with
    | none => none
    | some (file, rest) => (readRecords? rest).map (file :: ·)
termination_by lines.length
decreasing_by exact length_lt_of_takeRecord? ‹_›

theorem readRecords?_of_takeRecord? {lines rest : List (List Char)} {file : PackedFile}
    (hne : lines ≠ [[]]) (htake : takeRecord? lines = some (file, rest)) :
    readRecords? lines = (readRecords? rest).map (file :: ·) := by
  rw [readRecords?.eq_def, if_neg hne]
  split
  next hnone =>
    rw [htake] at hnone
    contradiction
  next file' rest' hsome =>
    rw [htake] at hsome
    cases hsome
    rfl

def readArtifact? (text : String) : Option (List PackedFile) :=
  (text.toList.dropPrefix? introduction.toList).bind fun records =>
    readRecords? (records.splitOn '\n')

def artifactText (files : List PackedFile) : String :=
  introduction ++ String.join (files.map PackedFile.record)

/-! ## Records that are read back -/

structure PackedFile.IsPlain (file : PackedFile) : Prop where
  display : '\n' ∉ file.display.toList
  contents : fence.toList ∉ linesOf file.contents

instance (file : PackedFile) : Decidable file.IsPlain :=
  decidable_of_iff ('\n' ∉ file.display.toList ∧ ∀ line ∈ linesOf file.contents, line ≠ fence.toList)
    ⟨fun h => ⟨h.1, fun hfence => h.2 _ hfence rfl⟩,
      fun h => ⟨h.display, fun _ hline heq => h.contents (heq ▸ hline)⟩⟩

theorem splitOn_record {file : PackedFile} (hdisplay : '\n' ∉ file.display.toList)
    (rest : List Char) :
    (file.record.toList ++ rest).splitOn '\n' =
      (headerLine file.display).toList :: fence.toList ::
        (linesOf file.contents ++ fence.toList :: [] :: rest.splitOn '\n') := by
  have hheader : '\n' ∉ (headerLine file.display).toList := by
    rw [headerLine_eq, String.toList_append, String.toList_append]
    simp only [List.mem_append, not_or]
    exact ⟨⟨by decide, hdisplay⟩, by decide⟩
  have hfence : '\n' ∉ fence.toList := by decide
  have hends : file.record.toList ++ rest = (headerLine file.display).toList ++ '\n' ::
      (fence.toList ++ '\n' :: (file.contents.toList ++ '\n' ::
        (fence.toList ++ '\n' :: ([] ++ '\n' :: rest)))) := by
    simp [PackedFile.record]
  rw [hends]
  simp only [List.splitOn_append_cons_self, List.splitOn_eq_singleton hheader,
    List.splitOn_eq_singleton hfence, List.cons_append, List.nil_append]
  rfl

theorem PackedFile.IsPlain.takeRecord?_eq {file : PackedFile} (hplain : file.IsPlain)
    (rest : List Char) :
    takeRecord? ((file.record.toList ++ rest).splitOn '\n') =
      some (file, rest.splitOn '\n') := by
  rw [takeRecord?_eq_some_iff]
  exact ⟨linesOf file.contents, hplain.contents, by simp, splitOn_record hplain.display rest⟩

theorem readRecords?_of_isPlain {files : List PackedFile} (hplain : ∀ file ∈ files, file.IsPlain) :
    readRecords? ((files.flatMap fun file => file.record.toList).splitOn '\n') = some files := by
  induction files with
  | nil =>
      unfold readRecords?
      rfl
  | cons file files ih =>
      have htake := (hplain file (by simp)).takeRecord?_eq
        (files.flatMap fun file => file.record.toList)
      have hrest := ih fun other hother => hplain other (by simp [hother])
      have hne : (file.record.toList ++ files.flatMap fun file => file.record.toList).splitOn '\n' ≠
          [[]] := by
        rw [splitOn_record (hplain file (by simp)).display]
        simp
      rw [List.flatMap_cons, readRecords?_of_takeRecord? hne htake, hrest]
      rfl

theorem toList_artifactText (files : List PackedFile) :
    (artifactText files).toList =
      introduction.toList ++ files.flatMap fun file => file.record.toList := by
  simp [artifactText, String.toList_append, String.toList_join, List.flatMap_map]

theorem readArtifact?_artifactText (files : List PackedFile) :
    readArtifact? (artifactText files) =
      readRecords? ((files.flatMap fun file => file.record.toList).splitOn '\n') := by
  have hdrop : (artifactText files).toList.dropPrefix? introduction.toList =
      some (files.flatMap fun file => file.record.toList) := by
    rw [List.dropPrefix?_eq_some_iff]
    exact ⟨_, toList_artifactText files, by simp⟩
  simp [readArtifact?, hdrop]

/-! ## Whatever is read is plain -/

theorem isPlain_of_takeRecord? {lines rest : List (List Char)} {file : PackedFile}
    (hlines : ∀ line ∈ lines, '\n' ∉ line) (htake : takeRecord? lines = some (file, rest)) :
    file.IsPlain := by
  obtain ⟨body, hbody, hcontents, rfl⟩ := (takeRecord?_eq_some_iff lines rest file).1 htake
  constructor
  · have hheader := hlines _ (by simp : (headerLine file.display).toList ∈ _)
    simp only [headerLine_eq, String.toList_append, List.mem_append, not_or] at hheader
    exact hheader.1.2
  · rw [hcontents]
    cases body with
    | nil => decide
    | cons first others =>
        have hbodyLines : ∀ line ∈ first :: others, '\n' ∉ line := by
          intro line hline
          apply hlines
          exact List.mem_cons_of_mem _ (List.mem_cons_of_mem _ (List.mem_append_left _ hline))
        rw [linesOf_joinLines (by simp) hbodyLines]
        exact hbody

theorem isPlain_of_readRecords? {lines : List (List Char)} {files : List PackedFile}
    (hlines : ∀ line ∈ lines, '\n' ∉ line) (hread : readRecords? lines = some files) :
    ∀ file ∈ files, file.IsPlain := by
  fun_induction readRecords? lines generalizing files with
  | case1 => simp_all
  | case2 => contradiction
  | case3 lines hne file rest htake ih =>
      obtain ⟨others, hothers, rfl⟩ := Option.map_eq_some_iff.1 hread
      have hrest : ∀ line ∈ rest, '\n' ∉ line := by
        obtain ⟨body, _, _, rfl⟩ := (takeRecord?_eq_some_iff lines rest file).1 htake
        intro line hline
        exact hlines line (by simp [hline])
      intro other hother
      rcases List.mem_cons.1 hother with rfl | hother
      · exact isPlain_of_takeRecord? hlines htake
      · exact ih hrest hothers other hother

/-! ## Artifacts as bytes -/

theorem artifactBytes_eq (files : List PackedFile) :
    artifactBytes files = Bytes.ofText (artifactText files) := by
  rw [artifactBytes, artifactText, Bytes.ofText_append]
  congr 1
  induction files with
  | nil => rfl
  | cons file files ih =>
      have hjoin : String.join ((file :: files).map PackedFile.record) =
          file.record ++ String.join (files.map PackedFile.record) := by
        rw [← String.toList_inj]
        simp [String.toList_join]
      rw [recordBytes_cons, hjoin, Bytes.ofText_append, ih]

theorem readArtifact?_of_isPlain {files : List PackedFile}
    (hplain : ∀ file ∈ files, file.IsPlain) :
    readArtifact? (artifactText files) = some files := by
  rw [readArtifact?_artifactText]
  exact readRecords?_of_isPlain hplain

/-- The records of an artifact can be read back exactly if every display path is one line and no
line of any contents is a fence.  Among such records the artifact determines its records. -/
theorem artifact_read_back_iff (files : List PackedFile) :
    (readArtifact? (artifactText files) = some files ↔ ∀ file ∈ files, file.IsPlain) ∧
      ∀ others : List PackedFile, (∀ file ∈ files ++ others, file.IsPlain) →
        artifactBytes files = artifactBytes others → files = others := by
  refine ⟨⟨?_, readArtifact?_of_isPlain⟩, ?_⟩
  · intro hread
    rw [readArtifact?_artifactText] at hread
    exact isPlain_of_readRecords? (fun _ => newline_not_mem_of_mem_splitOn) hread
  · intro others hplain hbytes
    rw [artifactBytes_eq, artifactBytes_eq] at hbytes
    have hfiles : readArtifact? (artifactText files) = some files := by
      apply readArtifact?_of_isPlain
      intro file hfile
      exact hplain file (List.mem_append_left others hfile)
    have hothers : readArtifact? (artifactText others) = some others := by
      apply readArtifact?_of_isPlain
      intro file hfile
      exact hplain file (List.mem_append_right files hfile)
    rw [Bytes.ofText_injective hbytes, hothers] at hfiles
    exact (Option.some.inj hfiles).symm

/-- Files whose contents are empty, end in a line end, or hold what looks like a record. -/
def quotingFiles : List PackedFile :=
  [⟨"./empty.c", ""⟩, ⟨"./ends.c", "int a;\n"⟩,
    ⟨"./``` '='='='.md", "='='=' File: ./a.c '='='='\n````\n ```\n```c"⟩]

theorem artifact_read_back_of_quotingFiles :
    (∀ file ∈ quotingFiles ++ quotingFiles.reverse, file.IsPlain) ∧
      readArtifact? (artifactText quotingFiles) = some quotingFiles ∧
      artifactBytes quotingFiles ≠ artifactBytes quotingFiles.reverse := by
  have hplain : ∀ file ∈ quotingFiles ++ quotingFiles.reverse, file.IsPlain := by
    decide +kernel
  have hboth := artifact_read_back_iff quotingFiles
  have hread := hboth.1.2 fun file hfile => hplain file (List.mem_append_left _ hfile)
  refine ⟨hplain, hread, ?_⟩
  intro hbytes
  have hsame := hboth.2 quotingFiles.reverse hplain hbytes
  revert hsame
  decide +kernel

end TreePack
