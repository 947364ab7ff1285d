import Mathlib.Tactic
import TreePack.Proofs.Creation
import TreePack.Proofs.TrailOrder

/-!
# Links that a survey visits

The path of an entry, followed up to its last name, leads to the entry itself.  So whether a visited
entry is a link can be seen in the tree, and what is said of a link depends only on whether it leads
to a directory and, if not, on its name.  Nothing is ever visited beneath a link.

A root that is no directory is visited alone.  It may be a link as well, and is judged by its own
name then.
-/

namespace TreePack.FileSystem

/-- The name by which the entry at the trail is judged if it counts as a file. -/
def entryName (root : Path) (trail : List Name) : Bytes :=
  match trail.getLast? with
  | some n => n.bytes
  | none => rootName root

variable {fs made : FileSystem} {rules : Rules} {root : Path} {here artifact : Location}
  {top node : Node} {trail : List Name} {target : Path} {visits : List Visit} {visit : Visit}

/-! ## Where the path of an entry leads -/

/-- What the path of an entry below the root names is the entry. -/
theorem eq_of_linkStat_descend (hroot : fs.locate .use root = .ok here)
    (htop : fs.node? here = some top) (htrail : trail ≠ []) (hnode : top.get? trail = some node)
    {named : Node} (hnamed : fs.linkStat (root.descend trail) = .ok named) :
    named = node := by
  obtain ⟨location, hlocate, hthere⟩ := (linkStat_eq_ok_iff fs _ named).1 hnamed
  rw [locate_eq_ok_iff, resolve_eq_ok_iff] at hroot hlocate
  obtain ⟨husable, hbase⟩ := hroot
  obtain ⟨-, hpath⟩ := hlocate
  rw [start_descend fs husable.notEmpty, (Route.ofPath_descend husable.notEmpty trail).2,
    Route.intoDir_descend husable.notEmpty htrail] at hpath
  obtain ⟨spare, hspare⟩ := hbase.travel_append
  have hon := (hspare .entry 0 false _ (by simpa using htrail)).symm.trans (travel_of_travels hpath)
  have harrive := (travels_of_travel hon).down_through htop hnode fun _ _ => ⟨rfl, rfl⟩
  cases harrive
  rw [node?_append, htop] at hthere
  exact Option.some.inj (hthere.symm.trans hnode)

/-! ## Roots that are no directories -/

theorem survey_of_link (hinput : root.isStandardInput = false)
    (hlink : fs.linkStat root = .ok (.link target)) (hstat : fs.stat root = .ok node)
    (hnotDir : node.isDir = false) :
    fs.survey rules root = .ok [⟨[], rules.judge (rootName root)⟩] := by
  unfold survey
  rw [if_neg (by simp [hinput]), hlink]
  simp only [hstat]
  cases node <;> simp only [Node.isDir, Bool.true_eq_false] at hnotDir <;> rfl

/-- A root that leads to no directory is visited alone, if at all. -/
theorem survey_of_not_isDir (hdir : fs.isDir root = false)
    (hsurvey : fs.survey rules root = .ok visits) (hvisit : visit ∈ visits) :
    visits = [visit] ∧ visit.trail = [] := by
  have hsingle : visits = [] ∨ ∃ verdict, visits = [⟨[], verdict⟩] := by
    unfold survey at hsurvey
    split at hsurvey
    next =>
      cases hsurvey
      exact .inl rfl
    next =>
      split at hsurvey
      next => contradiction
      next =>
        split at hsurvey
        next => contradiction
        next mode entries hstat => simp [isDir, hstat, Node.isDir] at hdir
        next =>
          cases hsurvey
          exact .inr ⟨_, rfl⟩
      next top _ _ =>
        cases hsurvey
        cases top with
        | dir mode entries =>
            cases hlist : fs.list root with
            | error e => exact .inr ⟨_, by rw [Node.visits_dir, hlist]⟩
            | ok listed =>
                obtain ⟨mode', hstat, -⟩ := (list_eq_ok_iff fs root listed).1 hlist
                simp [isDir, hstat, Node.isDir] at hdir
        | _ => exact .inr ⟨_, rfl⟩
  rcases hsingle with rfl | ⟨verdict, rfl⟩
  · contradiction
  · rw [List.mem_singleton] at hvisit
    subst hvisit
    exact ⟨rfl, rfl⟩

theorem survey_of_isDir (hdir : fs.isDir root = true)
    (hsurvey : fs.survey rules root = .ok visits) (hvisit : visit ∈ visits) :
    root.isStandardInput = false ∧ ∃ here top, fs.locate .use root = .ok here ∧
      fs.node? here = some top ∧ top.isDir = true ∧
        visits = top.visits fs rules root (rootName root) := by
  have hinput : root.isStandardInput = false := by
    cases hinput : root.isStandardInput with
    | false => rfl
    | true =>
        rw [survey, if_pos hinput] at hsurvey
        cases hsurvey
        contradiction
  obtain ⟨mode, entries, htop⟩ := (isDir_eq_true_iff fs root).1 hdir
  obtain ⟨here, hroot, hnode⟩ := (stat_eq_ok_iff fs root _).1 htop
  rw [survey_eq_visits hinput htop rfl] at hsurvey
  exact ⟨hinput, here, _, hroot, hnode, rfl, (Except.ok.inj hsurvey).symm⟩

theorem ne_nil_of_survey (hsurvey : fs.survey rules root = .ok visits) (hvisit : visit ∈ visits) :
    root.bytes ≠ [] := by
  intro hempty
  have hmissing : fs.linkStat root = .error .notFound := by
    unfold linkStat lookUp locate resolve
    rw [hempty]
    rfl
  unfold survey at hsurvey
  rw [hmissing] at hsurvey
  split at hsurvey
  next =>
    cases hsurvey
    contradiction
  next => contradiction

/-- The survey of a link begins only if the link leads somewhere. -/
theorem exists_stat_of_survey (hlink : fs.linkStat root = .ok (.link target))
    (hsurvey : fs.survey rules root = .ok visits) (hvisit : visit ∈ visits) :
    root.isStandardInput = false ∧ ∃ node, fs.stat root = .ok node := by
  unfold survey at hsurvey
  cases hinput : root.isStandardInput with
  | true =>
      rw [if_pos hinput] at hsurvey
      cases hsurvey
      contradiction
  | false =>
      cases hstat : fs.stat root with
      | error e => simp [hinput, hlink, hstat] at hsurvey
      | ok node => exact ⟨rfl, node, rfl⟩

/-! ## What is said of a link -/

/-- Whatever is visited at a link or beneath it is the link itself. -/
theorem visit_of_link (hsurvey : fs.survey rules root = .ok visits) (hvisit : visit ∈ visits)
    {init : List Name} {n : Name} (hlink : fs.linkStat (root.descend (init ++ [n])) = .ok (.link target))
    (hwithin : init ++ [n] <+: visit.trail) :
    visit = ⟨init ++ [n], (Node.link target).verdict fs rules (root.descend (init ++ [n])) n⟩ := by
  cases hdir : fs.isDir root with
  | false =>
      obtain ⟨-, htrail⟩ := survey_of_not_isDir hdir hsurvey hvisit
      rw [htrail, List.prefix_nil] at hwithin
      simp at hwithin
  | true =>
      obtain ⟨-, here, top, hroot, htop, -, rfl⟩ := survey_of_isDir hdir hsurvey hvisit
      have hwf : top.WellFormed := fs.wellFormed.get htop
      have hmet : ∀ node, fs.Meets rules root top (init ++ [n]) node → node = .link target := by
        intro node hmeets
        exact (eq_of_linkStat_descend hroot htop (by simp) hmeets.get? hlink).symm
      obtain ⟨trail, verdict⟩ := visit
      obtain ⟨more, rfl⟩ := hwithin
      cases more with
      | nil =>
          rw [List.append_nil] at hvisit ⊢
          obtain ⟨node, hmeets, rfl⟩ := (mem_visits_concat_iff hwf _ init n verdict).1 hvisit
          rw [hmet node hmeets]
      | cons m more =>
          obtain ⟨node, hmeets, henters⟩ := meets_of_mem_visits hwf _ (by simp) hvisit
          obtain ⟨-, child, hchild, -⟩ :=
            (mem_visits_iff_of_meets hwf _ hmeets henters m more verdict).1 hvisit
          rw [hmet node hmeets] at hchild
          contradiction

/-- A link that leads to no directory is judged by its name. -/
theorem verdict_of_link (hsurvey : fs.survey rules root = .ok visits) (hvisit : visit ∈ visits)
    (hlink : fs.linkStat (root.descend visit.trail) = .ok (.link target))
    (hdir : fs.isDir (root.descend visit.trail) = false) :
    visit.verdict = rules.judge (entryName root visit.trail) := by
  obtain ⟨trail, verdict⟩ := visit
  rcases List.eq_nil_or_concat trail with rfl | ⟨init, n, rfl⟩
  · have hlink : fs.linkStat root = .ok (.link target) := hlink
    obtain ⟨hinput, node, hstat⟩ := exists_stat_of_survey hlink hsurvey hvisit
    have hnotDir : node.isDir = false := by
      unfold isDir at hdir
      rw [Path.descend_nil, hstat] at hdir
      exact hdir
    rw [survey_of_link hinput hlink hstat hnotDir] at hsurvey
    cases hsurvey
    rw [List.mem_singleton.1 hvisit]
    rfl
  · rw [List.concat_eq_append] at *
    have hlast : entryName root (init ++ [n]) = n.bytes := by simp [entryName]
    have hverdict := congrArg Visit.verdict (visit_of_link hsurvey hvisit hlink List.prefix_rfl)
    rw [hlast, hverdict]
    simp [Node.verdict, hdir]

/-! ## Links once an artifact is open -/

section MadeAt

variable (hmade : fs.MadeAt made artifact)

include hmade

theorem MadeAt.meets_made {top' : Node} (htop : fs.node? here = some top)
    (htop' : made.node? here = some top') (hmeets : fs.Meets rules root top trail node) :
    ∃ node', made.Meets rules root top' trail node' ∧ node'.outline = node.outline := by
  induction hmeets with
  | start =>
      obtain ⟨node', hnode', houtline⟩ := hmade.within here top htop
      rw [show made.root.get? here = some top' from htop'] at hnode'
      cases hnode'
      exact ⟨top', .start, houtline⟩
  | @entry trail mode entries n child hparent henters hlist hlookup ih =>
      obtain ⟨parent, hparent', houtline⟩ := ih
      cases parent <;> simp only [Node.outline, Node.dir.injEq, reduceCtorEq] at houtline
      case dir mode' entries' =>
        have hdir : fs.node? (here ++ trail) = some (.dir mode entries) := hparent.node?_eq htop
        have hdir' : made.node? (here ++ trail) = some (.dir mode' entries') := hparent'.node?_eq htop'
        have hchild : fs.node? (here ++ trail ++ [n]) = some child := by
          rw [node?_entry hdir, hlookup]
        obtain ⟨child', hchild', hsame⟩ := hmade.within _ child hchild
        have hlookup' : entries'.lookup n = some child' := by
          rw [← node?_entry hdir' n]
          exact hchild'
        exact ⟨child', hparent'.entry henters ((hmade.listable_iff _).2 hlist) hlookup', hsame⟩

theorem MadeAt.exists_lookUp {purpose : Purpose} {p : Path}
    (hnode : (fs.lookUp purpose p).map Prod.snd = .ok node) :
    ∃ node', (made.lookUp purpose p).map Prod.snd = .ok node' ∧ node'.outline = node.outline := by
  obtain ⟨location, hlocate, hthere⟩ := (node_of_lookUp_iff fs purpose p node).1 hnode
  obtain ⟨node', hthere', houtline⟩ := hmade.within location node hthere
  have hlocate' := hmade.locate_made hlocate
  exact ⟨node', (node_of_lookUp_iff made purpose p node').2 ⟨location, hlocate', hthere'⟩, houtline⟩

theorem MadeAt.linkStat_link {p : Path} (hlink : fs.linkStat p = .ok (.link target)) :
    made.linkStat p = .ok (.link target) := by
  obtain ⟨node', hnode', houtline⟩ := hmade.exists_lookUp hlink
  rw [Node.eq_link_of_outline_eq houtline] at hnode'
  exact hnode'

/-- A root that is a link to no directory is still judged by its name. -/
theorem MadeAt.survey_of_link (hlink : fs.linkStat root = .ok (.link target))
    (hdir : fs.isDir root = false) (hsurvey : fs.survey rules root = .ok visits)
    (hvisit : visit ∈ visits) :
    made.survey rules root = .ok [⟨[], rules.judge (rootName root)⟩] := by
  obtain ⟨hinput, node, hstat⟩ := exists_stat_of_survey hlink hsurvey hvisit
  obtain ⟨node', hlook, -⟩ := hmade.exists_lookUp hstat
  have hstat' : made.stat root = .ok node' := hlook
  have hnotDir : node'.isDir = false := by
    rw [← hmade.isDir_eq root] at hdir
    unfold isDir at hdir
    rwa [hstat'] at hdir
  exact FileSystem.survey_of_link hinput (hmade.linkStat_link hlink) hstat' hnotDir

/-- A link to no directory that is visited is also visited once an artifact is open. -/
theorem MadeAt.exists_visit (hsurvey : fs.survey rules root = .ok visits) (hvisit : visit ∈ visits)
    (hlink : fs.linkStat (root.descend visit.trail) = .ok (.link target))
    (hdir : fs.isDir (root.descend visit.trail) = false) :
    ∃ visits', made.survey rules root = .ok visits' ∧ visit ∈ visits' := by
  have hverdict := verdict_of_link hsurvey hvisit hlink hdir
  obtain ⟨trail, verdict⟩ := visit
  rcases List.eq_nil_or_concat trail with rfl | ⟨init, n, rfl⟩
  · refine ⟨_, hmade.survey_of_link hlink hdir hsurvey hvisit, ?_⟩
    rw [List.mem_singleton, Visit.mk.injEq]
    exact ⟨rfl, hverdict⟩
  · rw [List.concat_eq_append] at *
    have hrootDir : fs.isDir root = true := by
      by_contra hroot
      have halone := (survey_of_not_isDir (Bool.eq_false_iff.2 hroot) hsurvey hvisit).2
      simp at halone
    obtain ⟨hinput, here, top, hlocate, htop, htopDir, rfl⟩ :=
      survey_of_isDir hrootDir hsurvey hvisit
    obtain ⟨top', htop', htopDir'⟩ := hmade.exists_top htop htopDir
    have hstat' : made.stat root = .ok top' :=
      (stat_eq_ok_iff made root top').2 ⟨here, hmade.locate_made hlocate, htop'⟩
    obtain ⟨node, hmeets, rfl⟩ :=
      (mem_visits_concat_iff (fs.wellFormed.get htop) _ init n _).1 hvisit
    obtain ⟨node', hmeets', houtline⟩ := hmade.meets_made htop htop' hmeets
    cases eq_of_linkStat_descend hlocate htop (by simp) hmeets.get? hlink
    cases Node.eq_link_of_outline_eq houtline
    refine ⟨_, survey_eq_visits hinput hstat' htopDir', ?_⟩
    rw [mem_visits_concat_iff (made.wellFormed.get htop')]
    exact ⟨_, hmeets', by simp only [Node.verdict, hmade.isDir_eq]⟩

end MadeAt

end TreePack.FileSystem
