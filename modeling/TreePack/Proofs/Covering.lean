import Mathlib.Tactic
import TreePack.Proofs.Rendering
import TreePack.Proofs.TrailOrder

/-!
# Paths beneath a path

Whether a path lies beneath another is a question of their components: those of the one have to be
the first ones of the other.  This is exactly when something is left of the path after the other has
been taken away from its front.  Below a root the components are those of the root and the names of
the trail, so there the question is one of trails.
-/

namespace TreePack

namespace Path

/-- The components of `dir` are the first ones of `p`. -/
def covers (dir p : Path) : Bool := (stripPrefix? dir p).isSome

theorem isSome_afterComponents?_iff (cs : List Component) (segments : List Bytes) :
    (afterComponents? cs segments).isSome = true ↔
      cs <+: segments.filterMap Component.ofSegment? := by
  fun_induction afterComponents? cs segments with
  | case1 segments => simp
  | case2 c cs => simp
  | case3 c cs segment segments hsilent ih => rw [ih, List.filterMap_cons_none hsilent]
  | case4 cs segment segments d hsegment ih =>
      rw [ih, List.filterMap_cons_some hsegment, List.prefix_cons_inj]
  | case5 c cs segment segments d hsegment hne =>
      simp [List.filterMap_cons_some hsegment, List.cons_prefix_cons, hne]

theorem covers_iff (dir p : Path) :
    dir.covers p = true ↔ dir.components <+: p.components := by
  have hcomponents : p.components = p.head.1.toList ++ p.head.2.filterMap Component.ofSegment? :=
    rfl
  unfold covers stripPrefix?
  rw [hcomponents]
  cases dir.components with
  | nil => simp
  | cons c cs =>
      cases p.head.1 with
      | none => simp [isSome_afterComponents?_iff]
      | some d =>
          by_cases hcd : c = d <;> simp [hcd, isSome_afterComponents?_iff, List.cons_prefix_cons]

theorem components_descend {root : Path} (hroot : root.bytes ≠ []) (trail : List Name) :
    (root.descend trail).components = root.components ++ trail.map Component.name := by
  by_cases htrail : trail = []
  · simp [htrail]
  · obtain ⟨first, segments, hhead, hcomponents, -⟩ := head_descend hroot htrail
    have hnames : (trail.map Name.bytes).filterMap Component.ofSegment? =
        trail.map Component.name := by
      rw [List.filterMap_map]
      have hname : Component.ofSegment? ∘ Name.bytes = some ∘ Component.name :=
        funext Component.ofSegment?_name
      rw [hname, List.filterMap_eq_map]
    unfold components at hcomponents ⊢
    rw [hhead, hcomponents, List.filterMap_append, hnames, List.append_assoc]

theorem covers_descend_iff {root : Path} (hroot : root.bytes ≠ []) (trail other : List Name) :
    (root.descend trail).covers (root.descend other) = true ↔ trail <+: other := by
  have hname : Function.Injective Component.name := by
    intro n m h
    exact Component.name.inj h
  rw [covers_iff, components_descend hroot, components_descend hroot,
    List.prefix_append_right_inj, List.prefix_map_iff_of_injective hname]

/-- Only one name by itself stands for the standard input, and a path below a root is longer. -/
theorem isStandardInput_descend {root : Path} (hroot : root.bytes ≠ []) {trail : List Name}
    (htrail : trail ≠ []) :
    (root.descend trail).isStandardInput = false := by
  obtain ⟨_, _, _, _, hne⟩ := head_descend hroot htrail
  have hlength : (ofText "-").components.length = 1 := by decide +kernel
  unfold isStandardInput
  rw [decide_eq_false_iff_not, components_descend hroot]
  intro heq
  have hcount := congrArg List.length heq
  rw [hlength, List.length_append, List.length_map] at hcount
  have hfirst := List.length_pos_of_ne_nil hne
  have hsecond := List.length_pos_of_ne_nil htrail
  omega

end Path

/-! ## Candidates beneath a path -/

theorem Visit.path_of_candidate? {root : Path} {visit : Visit} {c : Candidate}
    (hcandidate : visit.candidate? root = some c) :
    c.path = root.descend visit.trail := by
  unfold Visit.candidate? at hcandidate
  split at hcandidate
  next =>
    cases hcandidate
    rfl
  next => contradiction

/-- To choose candidates by whether they lie beneath an entry is to choose visits by their trails. -/
theorem filter_covers_candidates {root : Path} (hroot : root.bytes ≠ []) (trail : List Name)
    (keep : Bool → Bool) (visits : List Visit) :
    (visits.filterMap (Visit.candidate? root)).filter
        (fun c => keep ((root.descend trail).covers c.path)) =
      (visits.filter fun visit => keep (visit.isWithin trail)).filterMap
        (Visit.candidate? root) := by
  rw [List.filter_filterMap, List.filterMap_filter]
  apply List.filterMap_congr
  intro visit _
  cases hcandidate : visit.candidate? root with
  | none => simp
  | some c =>
      have hcovers : (root.descend trail).covers c.path = visit.isWithin trail := by
        rw [Visit.path_of_candidate? hcandidate, Bool.eq_iff_iff, Visit.isWithin_iff]
        exact Path.covers_descend_iff hroot trail visit.trail
      rw [Option.filter_some, hcovers]

end TreePack
