import Mathlib.Tactic
import TreePack.Proofs.Pieces
import TreePack.Proofs.Rendering

/-!
# Trails as text

A slash is never part of a longer encoding.  So where a path is read lossily, each segment is read
by itself, and what is broken in one segment ends with it.  What is shown of an entry below a root
is therefore made of the names on its trail, each as it is shown alone.
-/

namespace TreePack

namespace Utf8

theorem pieces_append_slash (front back : Bytes) :
    pieces (front ++ Bytes.slash :: back) = pieces front ++ .char '/' :: pieces back := by
  have hslash : Bytes.slash :: back = Bytes.ofText "/" ++ back := rfl
  have hcontinues : isContinuation Bytes.slash = false := by decide
  rw [pieces_append_cons front hcontinues, hslash, pieces_ofText_append]
  rfl

theorem lossy_append_slash (front back : Bytes) :
    lossy (front ++ Bytes.slash :: back) = lossy front ++ "/" ++ lossy back := by
  have hslash : String.ofList ['/'] = "/" := by decide
  unfold lossy
  rw [pieces_append_slash, List.map_append, List.map_cons, ← List.singleton_append,
    String.ofList_append, String.ofList_append, String.append_assoc]
  rw [← hslash]
  rfl

end Utf8

namespace Path

theorem display_ofTrail (trail : List Name) :
    (ofTrail trail).display = String.intercalate "/" (trail.map Name.display) := by
  induction trail with
  | nil => rfl
  | cons n trail ih =>
      by_cases hlast : trail = []
      · rw [hlast, ofTrail_singleton]
        simp [display, Name.display, ofName]
      · rw [List.map_cons, String.intercalate_cons_of_ne_nil (by simpa using hlast), ← ih]
        unfold display
        rw [bytes_ofTrail_cons n hlast, Utf8.lossy_append_slash]
        rfl

/-- What is shown of an entry are the names on its trail. -/
theorem displayBelow_eq_names {root : Path} (hroot : root.bytes ≠ []) {trail : List Name}
    (htrail : trail ≠ []) :
    displayBelow root (root.descend trail) =
      "./" ++ String.intercalate "/" (trail.map Name.display) := by
  have hdot : Utf8.lossy [Bytes.dot] ++ "/" = "./" := by decide +kernel
  have hjoin : ((Path.mk [Bytes.dot]).join (ofTrail trail)).bytes =
      [Bytes.dot] ++ Bytes.slash :: (ofTrail trail).bytes := by
    simp [join, isAbsolute_ofTrail htrail, Bytes.dot, Bytes.slash]
  rw [displayBelow_descend hroot htrail, ← display_ofTrail]
  unfold display
  rw [hjoin, Utf8.lossy_append_slash, hdot]

end Path

end TreePack
