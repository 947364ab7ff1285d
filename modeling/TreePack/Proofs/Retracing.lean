import Mathlib.Tactic
import TreePack.Proofs.CanonicalPath
import TreePack.Proofs.LinkFree
import TreePack.Run

/-!
# What it takes to retrace a path

An entry that a path comes by was reached through directories that may be searched, and the names to
it are not too long.  So if the place where the path starts can be approached from the root of the
tree, as the root itself always can, only the lengths of the own paths can be in the way.

A path that leads to a file comes by this file last.  So if the path can be retraced, the file can be
looked up by its own path, and this is what a run reports of its artifact.  Whatever a run reports
leads to where its output path leads.
-/

namespace TreePack

namespace FileSystem

/-- The directories above the place may be searched, and none of the names that lead to it is too
long. -/
structure Approachable (fs : FileSystem) (location : Location) : Prop where
  searchable : ∀ before after, location = before ++ after → after ≠ [] → fs.Searchable before
  namesFit : ∀ n ∈ location, n.bytes.length ≤ nameLimit

variable {fs : FileSystem} {here location : Location}

theorem openWay_iff : fs.OpenWay location ↔
    Usable (Path.ofLocation location) ∧ fs.Approachable location := by
  constructor
  · rintro ⟨husable, hsearch, hfits⟩
    exact ⟨husable, hsearch, hfits⟩
  · rintro ⟨husable, hsearch, hfits⟩
    exact ⟨husable, hsearch, hfits⟩

theorem approachable_root (fs : FileSystem) : fs.Approachable [] := by
  refine ⟨?_, by simp⟩
  intro before after hsplit hafter
  exact absurd (List.append_eq_nil_iff.1 hsplit.symm).2 hafter

theorem openWay_root (fs : FileSystem) : fs.OpenWay [] :=
  openWay_iff.2 ⟨⟨by decide +kernel, by decide +kernel, by decide +kernel⟩, fs.approachable_root⟩

theorem Approachable.dropLast (hhere : fs.Approachable here) : fs.Approachable here.dropLast := by
  constructor
  · intro before after hsplit hafter
    obtain ⟨rest, hrest⟩ := here.dropLast_prefix
    apply hhere.searchable before (after ++ rest) _ (List.append_ne_nil_of_left_ne_nil hafter rest)
    rw [← List.append_assoc, ← hsplit, hrest]
  · intro n hn
    exact hhere.namesFit n (List.dropLast_subset here hn)

/-- A journey that ends at no directory comes by the entry at which it ends. -/
theorem Travels.passes_last (hnotDir : (fs.node? location).any Node.isDir = false) {links : ℕ}
    {intoDir : Bool} {steps : List Step}
    (htravels : Travels fs .use links intoDir here steps (.found location)) (hsteps : steps ≠ []) :
    fs.Passes links here steps location := by
  -- A journey that is over has ended at a directory, if it was at one.
  have hover : ∀ {links : ℕ} {intoDir : Bool} {here : Location} {steps : List Step},
      Travels fs .use links intoDir here steps (.found location) →
      (fs.node? here).any Node.isDir = true → steps ≠ [] := by
    rintro links intoDir here steps hon hhere rfl
    cases hon
    rw [hhere] at hnotDir
    contradiction
  generalize hplace : Place.found location = place at htravels
  induction htravels with
  | arrive => contradiction
  | stay hdir hon ih =>
      subst hplace
      exact .stay hdir (ih (hover hon hdir.any_isDir) rfl)
  | up hdir hon ih =>
      subst hplace
      exact .up hdir (ih (hover hon hdir.any_isDir_parent) rfl)
  | miss => contradiction
  | keep hpurpose => contradiction
  | @follow links intoDir here n target rest place _ hmay hlink hon ih =>
      subst hplace
      refine .follow hmay.searchable hlink (ih (hover hon ?_) rfl)
      split
      next =>
        have hbelow : fs.Searchable ([] ++ here) := hmay.searchable
        exact hbelow.any_isDir_above
      next => exact hmay.searchable.any_isDir
  | @enter links intoDir here n node rest place hmay _ _ _ hon ih =>
      subst hplace
      by_cases hrest : rest = []
      · subst hrest
        cases hon
        exact .entry hmay.searchable
      · exact .enter hmay.searchable (ih hrest rfl)

theorem Retraceable.openWay {p : Path} (hretraced : fs.Retraceable p)
    (hlocate : fs.locate .use p = .ok location)
    (hnotDir : (fs.node? location).any Node.isDir = false) :
    fs.OpenWay location := by
  rw [locate_eq_ok_iff, resolve_eq_ok_iff] at hlocate
  obtain ⟨husable, htravels⟩ := hlocate
  by_cases hsteps : (Route.ofPath p).steps = []
  · rw [hsteps, fs.start_of_no_steps husable hsteps] at htravels
    cases htravels.eq_of_nil
    exact fs.openWay_root
  · exact hretraced.entries location (htravels.passes_last hnotDir hsteps)

end FileSystem

/-! ## The path that a run reports -/

namespace Job

variable {job : Job} {fs other : FileSystem} {artifact : Location}

theorem reported_congr (hsight : other.sight = fs.sight) (hdir : other.workingDir = fs.workingDir) :
    job.reported other = job.reported fs := by
  unfold reported
  rw [FileSystem.canonical?_congr hsight hdir]

theorem reported_of_retraceable (hlocate : fs.locate .use job.outputPath = .ok artifact)
    (hretraced : fs.Retraceable job.outputPath) :
    job.reported fs = Path.ofLocation artifact := by
  unfold reported
  rw [(FileSystem.canonical?_eq_some_iff hlocate).2 ⟨hretraced, rfl⟩]
  rfl

theorem reported_of_lost (hlocate : fs.locate .use job.outputPath = .ok artifact)
    (hlost : ¬ fs.Retraceable job.outputPath) : job.reported fs = job.outputPath := by
  unfold reported
  rw [FileSystem.canonical?_eq_none hlocate hlost]
  rfl

/-- Whatever path is reported, it leads to the artifact. -/
theorem locate_reported (hlocate : fs.locate .use job.outputPath = .ok artifact) {node : Node}
    (hnode : fs.node? artifact = some node) (hnotDir : node.isDir = false)
    (hnotLink : ∀ target, node ≠ .link target) :
    fs.locate .use (job.reported fs) = .ok artifact := by
  by_cases hretraced : fs.Retraceable job.outputPath
  · have hway := hretraced.openWay hlocate (by simp [hnode, hnotDir])
    rw [reported_of_retraceable hlocate hretraced]
    exact hway.locate_eq hnode hnotLink
  · rw [reported_of_lost hlocate hretraced, hlocate]

end Job

end TreePack
