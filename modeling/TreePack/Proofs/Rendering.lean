import Mathlib.Tactic
import TreePack.Path
import TreePack.Proofs.Descent

/-!
# Paths as they are shown below a root

The path of an entry is made by joining the root with names, as text, and what is shown of it is
what is left when the components of the root have been taken away again.  These two fit together for
every spelling of the root, whatever slashes and segments `.` it holds: only the names of the trail
are left, so the spelling does not show.
-/

namespace TreePack

theorem Path.slash_not_mem_of_mem_split {bytes segment : Bytes} (hmem : segment ∈ split bytes) :
    Bytes.slash ∉ segment := by
  induction bytes generalizing segment with
  | nil =>
      rw [split, List.mem_singleton] at hmem
      simp [hmem]
  | cons b rest ih =>
      by_cases hb : b = Bytes.slash
      · simp only [split, hb, if_true, List.mem_cons] at hmem
        rcases hmem with rfl | hrest
        · simp
        · exact ih hrest
      · obtain ⟨first, others, hsplit⟩ := List.exists_cons_of_ne_nil (split_ne_nil rest)
        simp only [split, hb, if_false, hsplit, List.modifyHead_cons, List.mem_cons] at hmem
        rcases hmem with rfl | hother
        · have hfirst : Bytes.slash ∉ first := ih (by simp [hsplit])
          simp [Ne.symm hb, hfirst]
        · exact ih (by simp [hsplit, hother])

theorem Path.isSilent_name (n : Name) : isSilent n.bytes = false := by
  simp [isSilent, Component.ofSegment?_name]

theorem Component.ofSegment?_isSome {segment : Bytes} (hempty : segment ≠ [])
    (hdot : segment ≠ [Bytes.dot]) (hslash : Bytes.slash ∉ segment) :
    ∃ c, ofSegment? segment = some c := by
  unfold ofSegment?
  by_cases hparent : segment = [Bytes.dot, Bytes.dot]
  · rw [dif_neg (by simp [hparent]), if_pos hparent]
    exact ⟨_, rfl⟩
  · rw [dif_pos ⟨hempty, hdot, hparent, hslash⟩]
    exact ⟨_, rfl⟩

namespace Path

/-! ## The path of a trail -/

/-- The path that leads along a trail from wherever the trail begins. -/
def ofTrail (trail : List Name) : Path := ofSegments (trail.map Name.bytes)

theorem ofTrail_singleton (n : Name) : ofTrail [n] = ofName n := by
  simp [ofTrail, ofSegments, ofName]

theorem bytes_ofTrail_cons (n : Name) {trail : List Name} (htrail : trail ≠ []) :
    (ofTrail (n :: trail)).bytes = n.bytes ++ Bytes.slash :: (ofTrail trail).bytes := by
  obtain ⟨m, rest, rfl⟩ := List.exists_cons_of_ne_nil htrail
  simp [ofTrail, ofSegments, List.intercalate_cons_cons]

theorem segments_ofTrail {trail : List Name} (htrail : trail ≠ []) :
    (ofTrail trail).segments = trail.map Name.bytes := by
  have hname : ∀ n : Name, split n.bytes = [n.bytes] := fun n => split_of_not_mem n.valid.2.2.2
  induction trail with
  | nil => contradiction
  | cons n trail ih =>
      by_cases hlast : trail = []
      · subst trail
        rw [ofTrail_singleton]
        exact hname n
      · unfold segments at ih ⊢
        rw [bytes_ofTrail_cons n hlast, split_append_slash, hname, ih hlast]
        rfl

theorem bytes_ofTrail_ne_nil {trail : List Name} (htrail : trail ≠ []) :
    (ofTrail trail).bytes ≠ [] := by
  intro hempty
  have hsegments := segments_ofTrail htrail
  unfold segments at hsegments
  rw [hempty] at hsegments
  cases trail with
  | nil => contradiction
  | cons n trail => exact n.valid.1 (List.cons.inj hsegments).1.symm

theorem isAbsolute_ofName_append (n : Name) (bytes : Bytes) :
    (Path.mk (n.bytes ++ bytes)).isAbsolute = false := by
  have hname := isAbsolute_ofName n
  unfold isAbsolute ofName at hname
  unfold isAbsolute
  rw [List.head?_append_of_ne_nil _ n.valid.1]
  exact hname

theorem isAbsolute_ofTrail {trail : List Name} (htrail : trail ≠ []) :
    (ofTrail trail).isAbsolute = false := by
  obtain ⟨n, rest, rfl⟩ := List.exists_cons_of_ne_nil htrail
  by_cases hlast : rest = []
  · rw [hlast, ofTrail_singleton]
    exact isAbsolute_ofName n
  · have hwhole : ofTrail (n :: rest) = ⟨n.bytes ++ Bytes.slash :: (ofTrail rest).bytes⟩ := by
      rw [← bytes_ofTrail_cons n hlast]
    rw [hwhole]
    exact isAbsolute_ofName_append n _

theorem exists_join_eq (base : Path) :
    ∃ front, ∀ p : Path, p.isAbsolute = false → base.join p = ⟨front ++ p.bytes⟩ := by
  by_cases hbase : base.bytes = [] ∨ base.bytes.getLast? = some Bytes.slash
  · refine ⟨base.bytes, fun p hrelative => ?_⟩
    simp [join, hrelative, hbase]
  · refine ⟨base.bytes ++ [Bytes.slash], fun p hrelative => ?_⟩
    simp [join, hrelative, hbase]

theorem join_join (base : Path) (n : Name) {p : Path} (hrelative : p.isAbsolute = false) :
    (base.join (ofName n)).join p = base.join ⟨n.bytes ++ Bytes.slash :: p.bytes⟩ := by
  obtain ⟨front, hjoin⟩ := exists_join_eq base
  have hlast : n.bytes.getLast? ≠ some Bytes.slash := by
    intro hslash
    exact n.valid.2.2.2 (List.mem_of_getLast? hslash)
  rw [hjoin _ (isAbsolute_ofName n), hjoin _ (isAbsolute_ofName_append n _)]
  simp [join, hrelative, ofName, n.valid.1, hlast]

/-- Joining the names of a trail one by one is joining the path of the trail. -/
theorem descend_eq_join (root : Path) {trail : List Name} (htrail : trail ≠ []) :
    root.descend trail = root.join (ofTrail trail) := by
  induction trail generalizing root with
  | nil => contradiction
  | cons n trail ih =>
      rw [descend_cons]
      by_cases hlast : trail = []
      · rw [hlast, ofTrail_singleton]
        rfl
      · rw [ih _ hlast, join_join root n (isAbsolute_ofTrail hlast)]
        rw [← bytes_ofTrail_cons n hlast]

/-! ## The segments of a path below a root -/

/-- The names of the trail come after the segments of the root, of which a last empty one is
dropped. -/
theorem segments_descend {root : Path} (hroot : root.bytes ≠ []) {trail : List Name}
    (htrail : trail ≠ []) :
    ∃ front, front ≠ [] ∧ (root.segments = front ∨ root.segments = front ++ [[]]) ∧
      (root.descend trail).segments = front ++ trail.map Name.bytes := by
  obtain ⟨stem, hjoin, hstem⟩ := exists_stem_join hroot (isAbsolute_ofTrail htrail)
  refine ⟨split stem, split_ne_nil stem, ?_, ?_⟩
  · unfold segments
    rcases hstem with heq | heq
    · exact .inl (by rw [heq])
    · exact .inr (by rw [heq, split_append_slash]; rfl)
  · rw [← segments_ofTrail htrail, descend_eq_join root htrail]
    unfold segments
    rw [hjoin, split_append_slash]

theorem segments_ne_singleton_nil {p : Path} (hp : p.bytes ≠ []) : p.segments ≠ [[]] := by
  unfold segments
  obtain ⟨b, rest, hbytes⟩ := List.exists_cons_of_ne_nil hp
  rw [hbytes]
  by_cases hb : b = Bytes.slash
  · simp [split, hb, split_ne_nil]
  · obtain ⟨first, others, hsplit⟩ := List.exists_cons_of_ne_nil (split_ne_nil rest)
    simp [split, hb, hsplit]

theorem head_of_segments {p : Path} {segment : Bytes} {rest : List Bytes}
    (hsegments : p.segments = segment :: rest) (hne : p.segments ≠ [[]]) :
    p.head =
      if segment = [] then (some .root, rest)
      else if segment = [Bytes.dot] then (some .here, rest)
      else (none, segment :: rest) := by
  rw [hsegments] at hne
  unfold head
  rw [hsegments]
  cases segment with
  | nil =>
      cases rest with
      | nil => contradiction
      | cons s rest => rfl
  | cons b segment => rfl

/-- The path below the root begins with the component that only a beginning can hold, if the root
does, and goes on with segments that stand for the other components of the root. -/
theorem head_descend {root : Path} (hroot : root.bytes ≠ []) {trail : List Name}
    (htrail : trail ≠ []) :
    ∃ first segments, (root.descend trail).head = (first, segments ++ trail.map Name.bytes) ∧
      root.components = first.toList ++ segments.filterMap Component.ofSegment? ∧
      root.components ≠ [] := by
  obtain ⟨front, hne, hfront, hsegments⟩ := segments_descend hroot htrail
  obtain ⟨segment, rest, rfl⟩ := List.exists_cons_of_ne_nil hne
  have hrootSegments : ∃ rest', root.segments = segment :: rest' ∧
      rest'.filterMap Component.ofSegment? = rest.filterMap Component.ofSegment? := by
    have hempty : Component.ofSegment? [] = none := by decide
    rcases hfront with heq | heq
    · exact ⟨rest, heq, rfl⟩
    · exact ⟨rest ++ [[]], by simp [heq], by simp [List.filterMap_append, hempty]⟩
  obtain ⟨rest', hrootEq, hsame⟩ := hrootSegments
  have hhead := head_of_segments hsegments (by simp [hsegments, htrail])
  have hrootHead := head_of_segments hrootEq (segments_ne_singleton_nil hroot)
  unfold components
  rw [hhead, hrootHead]
  by_cases hempty : segment = []
  · simp only [hempty, if_true]
    exact ⟨some .root, rest, rfl, by simp [hsame], by simp⟩
  · by_cases hdot : segment = [Bytes.dot]
    · have hdotNe : [Bytes.dot] ≠ [] := by simp
      simp only [hdot, hdotNe, if_false, if_true]
      exact ⟨some .here, rest, rfl, by simp [hsame], by simp⟩
    · have hmem : segment ∈ split root.bytes := by
        rw [show split root.bytes = segment :: rest' from hrootEq]
        exact List.mem_cons_self
      have hslash := slash_not_mem_of_mem_split hmem
      obtain ⟨c, hc⟩ := Component.ofSegment?_isSome hempty hdot hslash
      simp only [hempty, hdot, if_false]
      exact ⟨none, segment :: rest, rfl, by simp [hc, hsame], by simp [hc]⟩

/-! ## Taking the root away -/

/-- Segments after those of the components that are taken away stay, and so may silent ones before
them. -/
theorem afterComponents?_append (segments more : List Bytes) :
    ∃ silent, (∀ segment ∈ silent, isSilent segment = true) ∧
      afterComponents? (segments.filterMap Component.ofSegment?) (segments ++ more) =
        some (silent ++ more) := by
  induction segments with
  | nil => exact ⟨[], by simp, by simp [afterComponents?]⟩
  | cons segment rest ih =>
      obtain ⟨silent, hsilent, hrest⟩ := ih
      cases hsegment : Component.ofSegment? segment with
      | some c =>
          refine ⟨silent, hsilent, ?_⟩
          simpa [List.filterMap_cons, hsegment, afterComponents?] using hrest
      | none =>
          rw [List.filterMap_cons, hsegment]
          cases hcomponents : rest.filterMap Component.ofSegment? with
          | nil =>
              refine ⟨segment :: rest, ?_, by simp [afterComponents?]⟩
              intro other hother
              rcases List.mem_cons.1 hother with rfl | hother
              · simp [isSilent, hsegment]
              · have hnone := List.filterMap_eq_nil_iff.1 hcomponents other hother
                simp [isSilent, hnone]
          | cons c cs =>
              rw [hcomponents] at hrest
              exact ⟨silent, hsilent, by simpa [afterComponents?, hsegment] using hrest⟩

theorem dropWhile_isSilent_names (trail : List Name) :
    (trail.map Name.bytes).dropWhile isSilent = trail.map Name.bytes := by
  cases trail with
  | nil => rfl
  | cons n trail => simp [isSilent_name]

theorem dropSilentEnd_names (trail : List Name) :
    dropSilentEnd (trail.map Name.bytes) = trail.map Name.bytes := by
  unfold dropSilentEnd
  rw [← List.map_reverse, dropWhile_isSilent_names, ← List.map_reverse, List.reverse_reverse]

/-- Below a root only the names of the trail are left, whatever the spelling of the root. -/
theorem stripPrefix?_descend {root : Path} (hroot : root.bytes ≠ []) {trail : List Name}
    (htrail : trail ≠ []) :
    stripPrefix? root (root.descend trail) = some (ofTrail trail) := by
  obtain ⟨first, segments, hhead, hcomponents, hne⟩ := head_descend hroot htrail
  obtain ⟨silent, hsilent, hafter⟩ := afterComponents?_append segments (trail.map Name.bytes)
  have hrest : dropSilentEnd ((silent ++ trail.map Name.bytes).dropWhile isSilent) =
      trail.map Name.bytes := by
    rw [List.dropWhile_append_of_pos hsilent, dropWhile_isSilent_names, dropSilentEnd_names]
  unfold stripPrefix?
  rw [hhead, hcomponents]
  cases first with
  | some c => simp [hafter, hrest, ofTrail]
  | none =>
      rw [hcomponents] at hne
      cases hall : segments.filterMap Component.ofSegment? with
      | nil => simp [hall] at hne
      | cons c cs =>
          rw [hall] at hafter
          simp [hafter, hrest, ofTrail]

/-- What is shown of an entry does not depend on the spelling of the root. -/
theorem displayBelow_descend {root : Path} (hroot : root.bytes ≠ []) {trail : List Name}
    (htrail : trail ≠ []) :
    displayBelow root (root.descend trail) =
      ((Path.mk [Bytes.dot]).join (ofTrail trail)).display := by
  unfold displayBelow
  rw [stripPrefix?_descend hroot htrail]
  rfl

end Path

end TreePack
