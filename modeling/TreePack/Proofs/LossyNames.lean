import TreePack.Proofs.Decoding
import TreePack.Proofs.Meeting

/-!
# Names that are judged by their text

A name is any byte string, and it is judged by its lossy reading, where each bad piece of the name
has become U+FFFD.  Every other character of the reading stands for its own encoding in the name.  A
text without U+FFFD is therefore the reading of its encoding and of nothing else, and a reading ends
in such a text exactly if the bytes end in its encoding, whatever stands in front of it.

So rules whose strings have no U+FFFD say the same of a name as bytes and of its reading.
-/

namespace TreePack

namespace Utf8

theorem Piece.shown_eq_iff {c : Char} (hc : c ≠ '\uFFFD') (piece : Piece) :
    piece.shown = c ↔ piece = .char c := by
  cases piece with
  | char d => exact (Piece.char.injEq d c ▸ Iff.rfl)
  | broken bytes => simpa [shown] using Ne.symm hc

theorem map_shown_eq_iff {chars : List Char} (havoids : '\uFFFD' ∉ chars) (all : List Piece) :
    all.map Piece.shown = chars ↔ all = chars.map Piece.char := by
  induction chars generalizing all with
  | nil => simp
  | cons c chars ih =>
      rw [List.mem_cons, not_or] at havoids
      cases all with
      | nil => simp
      | cons piece all =>
          rw [List.map_cons, List.map_cons, List.cons.injEq, List.cons.injEq,
            Piece.shown_eq_iff (Ne.symm havoids.1), ih havoids.2]

theorem toList_lossy (bytes : Bytes) :
    (lossy bytes).toList = (pieces bytes).map Piece.shown :=
  String.toList_ofList

theorem lossy_ofText (text : String) : lossy (Bytes.ofText text) = text := by
  rw [← String.toList_inj, toList_lossy, pieces_ofText, List.map_map]
  exact List.map_id _

theorem ofText_lossy {bytes : Bytes} (hwf : WellFormed bytes) :
    Bytes.ofText (lossy bytes) = bytes := by
  obtain ⟨text, rfl⟩ := hwf.exists_text
  rw [lossy_ofText]

theorem lossy_eq_iff {text : String} (havoids : '\uFFFD' ∉ text.toList) (bytes : Bytes) :
    lossy bytes = text ↔ Bytes.ofText text = bytes := by
  constructor
  · intro hlossy
    have hpieces : pieces bytes = text.toList.map Piece.char := by
      rw [← map_shown_eq_iff havoids, ← toList_lossy, hlossy]
    rw [← flatMap_bytes_map_char, ← hpieces, flatMap_bytes_pieces]
  · rintro rfl
    exact lossy_ofText text

theorem suffix_lossy_iff {text : String} (havoids : '\uFFFD' ∉ text.toList) (bytes : Bytes) :
    text.toList <:+ (lossy bytes).toList ↔ Bytes.ofText text <:+ bytes := by
  constructor
  · rintro ⟨before, hends⟩
    rw [toList_lossy] at hends
    obtain ⟨front, back, hsplit, -, hback⟩ := List.map_eq_append_iff.1 hends.symm
    rw [map_shown_eq_iff havoids] at hback
    refine ⟨front.flatMap Piece.bytes, ?_⟩
    rw [← flatMap_bytes_map_char, ← hback, ← List.flatMap_append, ← hsplit, flatMap_bytes_pieces]
  · rintro ⟨front, rfl⟩
    refine ⟨(pieces front).map Piece.shown, ?_⟩
    rw [toList_lossy, pieces_append_ofText, ← pieces_ofText, List.map_append, ← toList_lossy,
      ← toList_lossy, lossy_ofText]

/-- A character of a reading that is not U+FFFD has been read. -/
theorem mem_of_mem_lossy {c : Char} (hc : c ≠ '\uFFFD') {bytes : Bytes}
    (hmem : c ∈ (lossy bytes).toList) :
    ∀ b ∈ String.utf8EncodeChar c, b ∈ bytes := by
  rw [toList_lossy] at hmem
  obtain ⟨piece, hpiece, hshown⟩ := List.mem_map.1 hmem
  obtain rfl := (piece.shown_eq_iff hc).1 hshown
  intro b hb
  rw [← flatMap_bytes_pieces bytes]
  exact List.mem_flatMap_of_mem hpiece hb

theorem wellFormed_append {front back : Bytes} (hfront : WellFormed front)
    (hback : WellFormed back) : WellFormed (front ++ back) := by
  obtain ⟨before, rfl⟩ := hfront.exists_text
  obtain ⟨after, rfl⟩ := hback.exists_text
  rw [← Bytes.ofText_append]
  exact wellFormed_ofText _

theorem wellFormed_append_ofText_iff (front : Bytes) (text : String) :
    WellFormed (front ++ Bytes.ofText text) ↔ WellFormed front := by
  constructor
  · intro hwf
    obtain ⟨whole, hwhole⟩ := hwf.exists_text
    have hpieces := pieces_append_ofText front text
    rw [← hwhole, pieces_ofText] at hpieces
    obtain ⟨before, after, -, hfront, -⟩ := List.map_eq_append_iff.1 hpieces
    rw [← flatMap_bytes_pieces front, ← hfront, ← String.toList_ofList (l := before),
      flatMap_bytes_map_char]
    exact wellFormed_ofText _
  · intro hwf
    exact wellFormed_append hwf (wellFormed_ofText text)

end Utf8

/-! ## Rules for bytes -/

namespace Rules

/-- No string of the rules has the character that stands for bad pieces. -/
structure AvoidsReplacement (rules : Rules) : Prop where
  extensions : ∀ s ∈ rules.extensions, '\uFFFD' ∉ s.toList
  includedFiles : ∀ s ∈ rules.includedFiles, '\uFFFD' ∉ s.toList
  ignoredDirs : ∀ s ∈ rules.ignoredDirs, '\uFFFD' ∉ s.toList
  excludedNames : ∀ s ∈ rules.excludedNames, '\uFFFD' ∉ s.toList

theorem standard_avoidsReplacement : standard.AvoidsReplacement := by
  constructor <;> decide

/-- What `accepts` says of a text, said of bytes. -/
def AcceptsBytes (rules : Rules) (name : Bytes) : Prop :=
  (∀ s ∈ rules.excludedNames, Bytes.ofText s ≠ name) ∧
    ((∃ s ∈ rules.extensions, Bytes.ofText s <:+ name) ∨
      ∃ s ∈ rules.includedFiles, Bytes.ofText s = name)

instance (rules : Rules) (name : Bytes) : Decidable (rules.AcceptsBytes name) :=
  inferInstanceAs (Decidable (_ ∧ (_ ∨ _)))

/-- What `prunes` says of a text, said of bytes. -/
def PrunesBytes (rules : Rules) (name : Bytes) : Prop :=
  ∃ s ∈ rules.ignoredDirs, Bytes.ofText s = name

instance (rules : Rules) (name : Bytes) : Decidable (rules.PrunesBytes name) :=
  inferInstanceAs (Decidable (∃ s ∈ rules.ignoredDirs, Bytes.ofText s = name))

variable {rules : Rules}

theorem prunes_eq_true_iff (name : String) :
    rules.prunes name = true ↔ name ∈ rules.ignoredDirs := by
  simp [prunes]

theorem accepts_eq_true_iff (name : String) :
    rules.accepts name = true ↔ name ∉ rules.excludedNames ∧
      ((∃ s ∈ rules.extensions, s.toList <:+ name.toList) ∨ name ∈ rules.includedFiles) := by
  simp [accepts]

/-- Listed texts find the same names, whether they are compared as texts or as bytes. -/
theorem lossy_mem_iff {listed : List String} (havoids : ∀ s ∈ listed, '\uFFFD' ∉ s.toList)
    (name : Bytes) :
    Utf8.lossy name ∈ listed ↔ ∃ s ∈ listed, Bytes.ofText s = name := by
  constructor
  · intro hmem
    exact ⟨_, hmem, (Utf8.lossy_eq_iff (havoids _ hmem) name).1 rfl⟩
  · rintro ⟨s, hs, hname⟩
    rwa [(Utf8.lossy_eq_iff (havoids s hs) name).2 hname]

theorem AvoidsReplacement.prunes_lossy_iff (havoids : rules.AvoidsReplacement) (name : Bytes) :
    rules.prunes (Utf8.lossy name) = true ↔ rules.PrunesBytes name := by
  rw [prunes_eq_true_iff]
  exact lossy_mem_iff havoids.ignoredDirs name

theorem AvoidsReplacement.accepts_lossy_iff (havoids : rules.AvoidsReplacement) (name : Bytes) :
    rules.accepts (Utf8.lossy name) = true ↔ rules.AcceptsBytes name := by
  have hexcluded : Utf8.lossy name ∉ rules.excludedNames ↔
      ∀ s ∈ rules.excludedNames, Bytes.ofText s ≠ name := by
    simp [lossy_mem_iff havoids.excludedNames]
  have hends : (∃ s ∈ rules.extensions, s.toList <:+ (Utf8.lossy name).toList) ↔
      ∃ s ∈ rules.extensions, Bytes.ofText s <:+ name := by
    refine exists_congr fun s => and_congr_right fun hs => ?_
    exact Utf8.suffix_lossy_iff (havoids.extensions s hs) name
  rw [accepts_eq_true_iff, hexcluded, lossy_mem_iff havoids.includedFiles, hends, AcceptsBytes]

/-- A name that is not well-formed is no listed name. -/
theorem ofText_ne_of_not_wellFormed {name : Bytes} (hwf : ¬Utf8.WellFormed name) (s : String) :
    Bytes.ofText s ≠ name := by
  rintro rfl
  exact hwf (Utf8.wellFormed_ofText s)

theorem not_prunesBytes_of_not_wellFormed {name : Bytes} (hwf : ¬Utf8.WellFormed name) :
    ¬rules.PrunesBytes name := by
  rintro ⟨s, -, hname⟩
  exact ofText_ne_of_not_wellFormed hwf s hname

theorem acceptsBytes_iff_of_not_wellFormed {name : Bytes} (hwf : ¬Utf8.WellFormed name) :
    rules.AcceptsBytes name ↔ ∃ s ∈ rules.extensions, Bytes.ofText s <:+ name := by
  simp [AcceptsBytes, ofText_ne_of_not_wellFormed hwf]

end Rules

/-! ## Decisions of a survey -/

/-- What a verdict on an entry below the root says of its name as bytes. -/
def Verdict.FitsBytes (rules : Rules) (name : Bytes) : Verdict → Prop
  | .candidate => rules.AcceptsBytes name
  | .rejected => ¬rules.AcceptsBytes name
  | .pruned => rules.PrunesBytes name
  | .entered | .unlistable _ => ¬rules.PrunesBytes name
  | .passedOver => True

namespace Rules.AvoidsReplacement

variable {rules : Rules}

theorem fitsBytes_judge (havoids : rules.AvoidsReplacement) (name : Bytes) :
    (rules.judge name).FitsBytes rules name := by
  have haccepts := havoids.accepts_lossy_iff name
  unfold judge
  split
  next h => exact haccepts.1 h
  next h => exact fun hbytes => h (haccepts.2 hbytes)

theorem fitsBytes_verdict (havoids : rules.AvoidsReplacement) (fs : FileSystem) (path : Path)
    (n : Name) (node : Node) :
    (node.verdict fs rules path n).FitsBytes rules n.bytes := by
  cases node with
  | file mode data => exact havoids.fitsBytes_judge n.bytes
  | link target =>
      simp only [Node.verdict]
      split
      next => trivial
      next => exact havoids.fitsBytes_judge n.bytes
  | fifo mode => trivial
  | device kind => trivial
  | dir mode entries =>
      have hprunes := havoids.prunes_lossy_iff n.bytes
      simp only [Node.verdict]
      split
      next h => exact hprunes.1 h
      next h =>
        have hkept : ¬rules.PrunesBytes n.bytes := fun hbytes => h (hprunes.2 hbytes)
        cases fs.list path <;> exact hkept

theorem fitsBytes_of_visit (havoids : rules.AvoidsReplacement) {fs : FileSystem} {root : Path}
    {visits : List Visit} (hdir : fs.isDir root = true)
    (hsurvey : fs.survey rules root = .ok visits) {trail : List Name} {n : Name}
    {verdict : Verdict} (hvisit : ⟨trail ++ [n], verdict⟩ ∈ visits) :
    verdict.FitsBytes rules n.bytes := by
  cases hinput : root.isStandardInput with
  | true =>
      rw [FileSystem.survey, if_pos hinput, Except.ok.injEq] at hsurvey
      rw [← hsurvey] at hvisit
      contradiction
  | false =>
      obtain ⟨mode, entries, htop⟩ := (FileSystem.isDir_eq_true_iff fs root).1 hdir
      obtain ⟨here, _, hnode⟩ := (FileSystem.stat_eq_ok_iff fs root _).1 htop
      rw [FileSystem.survey_eq_visits hinput htop rfl, Except.ok.injEq] at hsurvey
      rw [← hsurvey, FileSystem.mem_visits_concat_iff (fs.wellFormed.get hnode)] at hvisit
      obtain ⟨node, _, rfl⟩ := hvisit
      exact havoids.fitsBytes_verdict fs _ n node

/-- Rules without U+FFFD decide on the reading of a name as they decide on its bytes.  A name that
is not well-formed is never a listed one, but it can end in a listed extension, and a survey decides
in this way on every entry that it visits. -/
theorem decides_by_bytes (havoids : rules.AvoidsReplacement) (name : Bytes) :
    (rules.accepts (Utf8.lossy name) = true ↔ rules.AcceptsBytes name) ∧
      (rules.prunes (Utf8.lossy name) = true ↔ rules.PrunesBytes name) ∧
      (¬Utf8.WellFormed name →
        rules.prunes (Utf8.lossy name) = false ∧
        (rules.accepts (Utf8.lossy name) = true ↔
          ∃ s ∈ rules.extensions, Bytes.ofText s <:+ name) ∧
        ∀ s ∈ rules.extensions, rules.accepts (Utf8.lossy (name ++ Bytes.ofText s)) = true) ∧
      (∀ (fs : FileSystem) (root : Path) (visits : List Visit), fs.isDir root = true →
        fs.survey rules root = .ok visits → ∀ (trail : List Name) (n : Name) (verdict : Verdict),
          ⟨trail ++ [n], verdict⟩ ∈ visits → verdict.FitsBytes rules n.bytes) ∧
      standard.AvoidsReplacement := by
  refine ⟨havoids.accepts_lossy_iff name, havoids.prunes_lossy_iff name, ?_, ?_,
    standard_avoidsReplacement⟩
  · intro hwf
    refine ⟨?_, ?_, ?_⟩
    · rw [← Bool.not_eq_true, havoids.prunes_lossy_iff]
      exact not_prunesBytes_of_not_wellFormed hwf
    · rw [havoids.accepts_lossy_iff, acceptsBytes_iff_of_not_wellFormed hwf]
    · intro s hs
      have hlonger : ¬Utf8.WellFormed (name ++ Bytes.ofText s) := by
        rwa [Utf8.wellFormed_append_ofText_iff]
      rw [havoids.accepts_lossy_iff, acceptsBytes_iff_of_not_wellFormed hlonger]
      exact ⟨s, hs, List.suffix_append name _⟩
  · intro fs root visits hdir hsurvey trail n verdict hvisit
    exact havoids.fitsBytes_of_visit hdir hsurvey hvisit

def markRules : Rules := ⟨[], ["\uFFFD"], ["\uFFFD"], []⟩

/-- Without the assumption a bad name can be taken for a listed one. -/
example :
    markRules.accepts (Utf8.lossy [0xFF]) = true ∧ ¬markRules.AcceptsBytes [0xFF] ∧
      markRules.prunes (Utf8.lossy [0xFF]) = true ∧ ¬markRules.PrunesBytes [0xFF] := by
  decide +kernel

end Rules.AvoidsReplacement

namespace FileSystem

def accentedRules : Rules where
  extensions := [".c", "é"]
  includedFiles := ["Ürün"]
  ignoredDirs := ["büild"]
  excludedNames := ["x.c"]

/-- Two bytes of a character of three. -/
def brokenOff : Bytes := [0xE2, 0x82]

def brokenOffName : Name := ⟨brokenOff, by decide +kernel⟩

def accentedName : Name := ⟨brokenOff ++ Bytes.ofText "é", by decide +kernel⟩

def ignoredName : Name := ⟨Bytes.ofText "büild", by decide +kernel⟩

/-- An ignored directory beside one whose name breaks off and cannot be read. -/
def accentedProject : FileSystem :=
  built
    [(·.putFile (Path.ofText "/proj/büild/a.c") []),
      (·.putFile ((Path.ofText "/proj").descend [brokenOffName, accentedName]) [])]

theorem decides_by_bytes_of_accentedProject :
    let visits : List Visit :=
      [⟨[], .entered⟩, ⟨[ignoredName], .pruned⟩, ⟨[brokenOffName], .entered⟩,
        ⟨[brokenOffName, accentedName], .candidate⟩]
    accentedRules.AvoidsReplacement ∧ ¬Utf8.WellFormed brokenOff ∧
      accentedRules.prunes (Utf8.lossy brokenOff) = false ∧
      accentedRules.accepts (Utf8.lossy (brokenOff ++ Bytes.ofText "é")) = true ∧
      accentedProject.isDir (Path.ofText "/proj") = true ∧
      accentedProject.survey accentedRules (Path.ofText "/proj") = .ok visits ∧
      accentedRules.PrunesBytes ignoredName.bytes ∧
      accentedRules.AcceptsBytes accentedName.bytes := by
  intro visits
  have havoids : accentedRules.AvoidsReplacement := by constructor <;> decide
  have hbroken : ¬Utf8.WellFormed brokenOff := by decide +kernel
  have hdir : accentedProject.isDir (Path.ofText "/proj") = true := by decide +kernel
  have hsurvey : accentedProject.survey accentedRules (Path.ofText "/proj") = .ok visits := by
    decide +kernel
  obtain ⟨-, -, hname, hvisits, -⟩ := havoids.decides_by_bytes brokenOff
  obtain ⟨hprunes, -, haccepts⟩ := hname hbroken
  have hignored := hvisits _ _ visits hdir hsurvey [] ignoredName .pruned (by simp [visits])
  have haccented := hvisits _ _ visits hdir hsurvey [brokenOffName] accentedName .candidate
    (by simp [visits])
  exact ⟨havoids, hbroken, hprunes, haccepts "é" (by decide), hdir, hsurvey, hignored, haccented⟩

end FileSystem

end TreePack
