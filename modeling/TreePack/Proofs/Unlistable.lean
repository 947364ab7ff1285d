import Mathlib.Tactic
import TreePack.FileSystem.Edit
import TreePack.Proofs.Covering
import TreePack.Proofs.Meeting
import TreePack.Proofs.Passage
import TreePack.Proofs.Pruning
import TreePack.Proofs.Subdirectory
import TreePack.Proofs.Success
import TreePack.Proofs.TrailOrder

/-!
# A directory that can no longer be listed

A directory that is entered in one tree, and may not be read in a second tree that is otherwise the
same, takes with it what lies beneath it and nothing else.  All other entries are met in both trees
and are judged alike, since paths lead to the same places in both.

The visits beneath a directory stand together, right behind its own visit.  So the visits in the
second tree are those before the directory, one that says that it cannot be listed, and those after
everything beneath it.  A run does not mind: what it needs for its artifact is where it was.
-/

namespace TreePack.FileSystem

theorem listable_of_list_eq {fs other : FileSystem} {p : Path}
    (hlist : (other.list p).map (fun _ => ()) = (fs.list p).map (fun _ => ()))
    (hlistable : fs.Listable p) :
    other.Listable p := by
  obtain ⟨entries, hentries⟩ := hlistable
  rw [hentries] at hlist
  cases hother : other.list p with
  | ok entries' => exact ⟨entries', hother⟩
  | error e => simp [hother, Except.map] at hlist

variable {fs other : FileSystem} {rules : Rules} {root : Path} {here : Location}
  {top top' : Node} {trail : List Name}

/-! ## What is met and how it is judged -/

theorem SameButReading.verdict_eq (hsame : SameButReading (here ++ trail) fs other) {p : Path}
    {n : Name} {node node' : Node} (hview : node'.passage = node.passage)
    (hlist : node.isDir = true →
      (other.list p).map (fun _ => ()) = (fs.list p).map (fun _ => ())) :
    node'.verdict other rules p n = node.verdict fs rules p n := by
  cases node <;> cases node' <;> simp only [Node.passage, reduceCtorEq] at hview
  case link.link => simp only [Node.verdict, hsame.isDir_eq]
  case dir.dir =>
    have hlist := hlist rfl
    simp only [Node.verdict]
    cases hfs : fs.list p <;> cases hother : other.list p <;> simp_all [Except.map]
  all_goals rfl

/-- A path to a directory that is met leads to the place that its trail has in the tree, so it can
be listed as before, unless it is the directory in question. -/
theorem SameButReading.list_met (hsame : SameButReading (here ++ trail) fs other)
    (hroot : fs.locate .use root = .ok here) (htop : fs.node? here = some top)
    {met : List Name} {node : Node} (hnode : top.get? met = some node) (hdir : node.isDir = true)
    (hne : met ≠ trail) :
    (other.list (root.descend met)).map (fun _ => ()) =
      (fs.list (root.descend met)).map (fun _ => ()) := by
  apply hsame.list_eq
  intro hlocate
  have hnotLink : ∀ target, node ≠ .link target := by
    rintro target rfl
    simp [Node.isDir] at hdir
  have hwhere := locate_descend hroot htop hnode hnotLink hlocate
  exact hne (List.append_cancel_left hwhere).symm

/-- What is met in one of the trees, and not beneath the directory, is met in the other. -/
theorem SameButReading.meets (hsame : SameButReading (here ++ trail) fs other)
    (hroot : fs.locate .use root = .ok here) (htop : fs.node? here = some top)
    (htop' : other.node? here = some top') {met : List Name} {node : Node}
    (hmeets : fs.Meets rules root top met node) (hout : ¬ Beneath trail met) :
    ∃ node', other.Meets rules root top' met node' ∧ node'.passage = node.passage := by
  induction hmeets with
  | start =>
      have hview := hsame.passage here
      rw [htop, htop'] at hview
      exact ⟨top', .start, Option.some.inj hview⟩
  | @entry met mode entries n child hparent henters hlist hlookup ih =>
      rw [beneath_concat_iff, not_or] at hout
      obtain ⟨node', hmeets', hview⟩ := ih hout.2
      have hdir : node'.isDir = true := Node.isDir_eq_of_passage_eq hview
      cases node' <;> simp only [Node.isDir, Bool.false_eq_true] at hdir
      case dir mode' entries' =>
        have hlist' := listable_of_list_eq
          (hsame.list_met hroot htop hparent.get? rfl hout.1) hlist
        have hnode : fs.node? (here ++ met) = some (.dir mode entries) := hparent.node?_eq htop
        have hnode' : other.node? (here ++ met) = some (.dir mode' entries') := hmeets'.node?_eq htop'
        have hchild := hsame.passage (here ++ met ++ [n])
        rw [node?_entry hnode, node?_entry hnode', hlookup] at hchild
        obtain ⟨child', hlookup', hsameChild⟩ := Option.map_eq_some_iff.1 hchild
        exact ⟨child', hmeets'.entry henters hlist' hlookup', hsameChild⟩

/-! ## The visits -/

section Visits

variable (hsame : SameButReading (here ++ trail) fs other) (hroot : fs.locate .use root = .ok here)
  (htop : fs.node? here = some top) (htop' : other.node? here = some top')

include hsame hroot htop htop'

/-- An entry that is not the directory in question and not beneath it is visited in both trees or in
neither, with the same verdict. -/
theorem SameButReading.mem_visits_concat {init : List Name} {n : Name}
    (hne : init ++ [n] ≠ trail) (hout : ¬ Beneath trail (init ++ [n])) (name : Bytes)
    {verdict : Verdict} (hvisit : ⟨init ++ [n], verdict⟩ ∈ top.visits fs rules root name) :
    ⟨init ++ [n], verdict⟩ ∈ top'.visits other rules root name := by
  rw [mem_visits_concat_iff (fs.wellFormed.get htop)] at hvisit
  obtain ⟨node, hmeets, rfl⟩ := hvisit
  obtain ⟨node', hmeets', hview⟩ := hsame.meets hroot htop htop' hmeets hout
  rw [mem_visits_concat_iff (other.wellFormed.get htop')]
  refine ⟨node', hmeets', (hsame.verdict_eq hview ?_).symm⟩
  intro hdir
  exact hsame.list_met hroot htop hmeets.get? hdir hne

variable (htrail : trail ≠ []) {mode : Mode} {entries : List (Name × Node)}
  (hmeets : fs.Meets rules root top trail (.dir mode entries)) (henters : rules.Enters trail)
  (hshut : other.list (root.descend trail) = .error .accessDenied)

include htrail hmeets henters hshut

theorem SameButReading.mem_visits_shut_iff (name : Bytes) (verdict : Verdict) :
    ⟨trail, verdict⟩ ∈ top'.visits other rules root name ↔
      verdict = .unlistable .accessDenied := by
  obtain ⟨init, n, rfl⟩ := (List.eq_nil_or_concat trail).resolve_left htrail
  rw [List.concat_eq_append] at *
  have hout : ¬ Beneath (init ++ [n]) (init ++ [n]) := fun hbeneath => hbeneath.ne rfl
  obtain ⟨node', hmeets', hview⟩ := hsame.meets hroot htop htop' hmeets hout
  have hdir : node'.isDir = true := Node.isDir_eq_of_passage_eq hview
  have hkept : rules.prunes n.display = false := (rules.enters_concat init n).1 henters
  have hverdict : node'.verdict other rules (root.descend (init ++ [n])) n =
      .unlistable .accessDenied := by
    cases node' <;> simp only [Node.isDir, Bool.false_eq_true] at hdir
    simp [Node.verdict, hkept, hshut]
  rw [mem_visits_concat_iff (other.wellFormed.get htop')]
  constructor
  · rintro ⟨node, hnode, rfl⟩
    rw [hnode.unique hmeets', hverdict]
  · rintro rfl
    exact ⟨node', hmeets', hverdict.symm⟩

omit htrail in
theorem SameButReading.not_mem_visits_beneath {visit : Visit}
    (hbeneath : Beneath trail visit.trail) (name : Bytes) :
    visit ∉ top'.visits other rules root name := by
  obtain ⟨below, verdict⟩ := visit
  obtain ⟨more, hmore, rfl⟩ := hbeneath
  obtain ⟨n, rest, rfl⟩ := List.exists_cons_of_ne_nil hmore
  obtain ⟨node', hmeets', -⟩ :=
    hsame.meets hroot htop htop' hmeets fun hbeneath => hbeneath.ne rfl
  rw [mem_visits_iff_of_meets (other.wellFormed.get htop') name hmeets' henters]
  rintro ⟨⟨listed, hlisted⟩, _⟩
  rw [hshut] at hlisted
  contradiction

theorem SameButReading.mem_visits_iff (name : Bytes) (visit : Visit) :
    visit ∈ top'.visits other rules root name ↔
      visit = ⟨trail, .unlistable .accessDenied⟩ ∨
        visit.trail ≠ trail ∧ ¬ Beneath trail visit.trail ∧
          visit ∈ top.visits fs rules root name := by
  obtain ⟨met, verdict⟩ := visit
  by_cases hbeneath : Beneath trail met
  · have hnone : ⟨met, verdict⟩ ∉ top'.visits other rules root name :=
      hsame.not_mem_visits_beneath hroot htop htop' hmeets henters hshut hbeneath name
    simp [hbeneath, hbeneath.ne, hnone]
  · by_cases heq : met = trail
    · subst met
      rw [hsame.mem_visits_shut_iff hroot htop htop' htrail hmeets henters hshut]
      simp
    · simp only [Visit.mk.injEq, heq, false_and, false_or, ne_eq, not_false_eq_true, hbeneath,
        true_and]
      have hroot' : other.locate .use root = .ok here := (hsame.locate_eq .use root).trans hroot
      rcases List.eq_nil_or_concat met with rfl | ⟨init, n, rfl⟩
      · obtain ⟨mode₀, entries₀, rfl⟩ := Node.exists_eq_dir_of_get? htrail hmeets.get?
        obtain ⟨mode₀', entries₀', htopDir'⟩ := hsame.exists_dir htop
        rw [htop'] at htopDir'
        cases htopDir'
        have hlist := hsame.list_met hroot htop rfl rfl (Ne.symm htrail)
        rw [Node.nil_mem_visits_dir_iff, Node.nil_mem_visits_dir_iff]
        rw [Path.descend_nil] at hlist
        cases hfs : fs.list root <;> cases hother : other.list root <;>
          simp_all [Except.map]
      · rw [List.concat_eq_append] at *
        constructor
        · exact hsame.symm.mem_visits_concat hroot' htop' htop heq hbeneath name
        · exact hsame.mem_visits_concat hroot htop htop' heq hbeneath name

/-- The visits beneath the directory are gone, and its own visit says that it cannot be listed. -/
theorem SameButReading.exists_visits (hlist : fs.Listable (root.descend trail)) (name : Bytes) :
    ∃ before within after,
      top.visits fs rules root name = before ++ ⟨trail, .entered⟩ :: (within ++ after) ∧
      top'.visits other rules root name =
        before ++ ⟨trail, .unlistable .accessDenied⟩ :: after ∧
      (∀ visit ∈ before, TrailBefore visit.trail trail) ∧
      (∀ visit ∈ within, Beneath trail visit.trail) ∧
      ∀ visit ∈ after, TrailBefore trail visit.trail ∧ ¬ Beneath trail visit.trail := by
  have hwf : top.WellFormed := fs.wellFormed.get htop
  have horder : InOrder (top.visits fs rules root name) := Node.inOrder_visits hwf root name
  have hentered : ⟨trail, .entered⟩ ∈ top.visits fs rules root name := by
    obtain ⟨init, n, rfl⟩ := (List.eq_nil_or_concat trail).resolve_left htrail
    rw [List.concat_eq_append] at *
    have hkept : rules.prunes n.display = false := (rules.enters_concat init n).1 henters
    obtain ⟨listed, hlisted⟩ := hlist
    rw [mem_visits_concat_iff hwf]
    exact ⟨_, hmeets, by simp [Node.verdict, hkept, hlisted]⟩
  obtain ⟨before, within, after, hvisits, hbefore, hwithin, hafter⟩ := horder.exists_split hentered
  refine ⟨before, within, after, hvisits, ?_, hbefore, hwithin, hafter⟩
  apply InOrder.eq_of_mem_iff
  · exact Node.inOrder_visits (other.wellFormed.get htop') root name
  · rw [hvisits] at horder
    apply horder.of_sublist
    simp only [List.map_append, List.map_cons]
    exact (List.Sublist.refl _).append ((List.sublist_append_right _ _).cons_cons trail)
  intro visit
  rw [hsame.mem_visits_iff hroot htop htop' htrail hmeets henters hshut, hvisits]
  simp only [List.mem_append, List.mem_cons]
  constructor
  · rintro (rfl | ⟨hne, hout, hvisit | rfl | hvisit | hvisit⟩)
    · exact .inr (.inl rfl)
    · exact .inl hvisit
    · exact absurd rfl hne
    · exact absurd (hwithin visit hvisit) hout
    · exact .inr (.inr hvisit)
  · rintro (hvisit | rfl | hvisit)
    · have hwhere := hbefore visit hvisit
      exact .inr ⟨hwhere.ne, hwhere.not_beneath, .inl hvisit⟩
    · exact .inl rfl
    · obtain ⟨hwhere, hout⟩ := hafter visit hvisit
      exact .inr ⟨hwhere.ne.symm, hout, .inr (.inr (.inr hvisit))⟩

end Visits

/-! ## The artifact -/

theorem SameButReading.node?_eq {dir location : Location} {node : Node}
    (hsame : SameButReading dir fs other) (hne : location ≠ dir)
    (hnode : fs.node? location = some node) (hnotDir : node.isDir = false) :
    other.node? location = some node := by
  rw [← hnode]
  exact node?_eq_of_surface (hsame.elsewhere location hne) (by simp [hnode, hnotDir])

theorem SameButReading.exists_create_vacant {dir parent : Location} {n : Name} {p : Path}
    {mode : Mode} {entries : List (Name × Node)} (hsame : SameButReading dir fs other)
    (hplace : fs.resolve .make p = .ok (.vacant parent n))
    (hdir : fs.node? parent = some (.dir mode entries)) (hfree : entries.lookup n = none)
    (hwrite : mode.mayWrite = true) (hne : parent ≠ dir) :
    ∃ made', other.create p = .ok (made', parent ++ [n]) ∧
      made'.node? (parent ++ [n]) = some (.file .ordinaryFile []) := by
  have hsurface := hsame.elsewhere parent hne
  rw [hdir] at hsurface
  obtain ⟨node, hdir', hview⟩ := Option.map_eq_some_iff.1 hsurface
  cases node <;> simp only [Node.surface, Node.dir.injEq, and_true, reduceCtorEq] at hview
  case dir mode' entries' =>
    subst mode'
    have hfree' : entries'.lookup n = none := by
      have hentry := hsame.passage (parent ++ [n])
      rw [node?_entry hdir, node?_entry hdir', hfree] at hentry
      exact Option.map_eq_none_iff.1 hentry
    refine ⟨other.insert parent n (.file .ordinaryFile []) (.file _ _), ?_,
      node?_insert_new hdir' hfree' _ _⟩
    unfold create
    simp [hsame.resolve_eq .make p, hplace, hdir', hwrite]

/-- A place that has a node, other than the directory, is opened with the same success. -/
theorem SameButReading.exists_create_found {dir artifact : Location} {made : FileSystem} {p : Path}
    {node : Node} (hsame : SameButReading dir fs other)
    (hcreate : fs.create p = .ok (made, artifact))
    (hplace : fs.resolve .make p = .ok (.found artifact)) (hnode : fs.node? artifact = some node)
    (hnotDir : node.isDir = false) (hne : artifact ≠ dir) :
    ∃ made', other.create p = .ok (made', artifact) ∧
      made'.node? artifact = made.node? artifact := by
  have hnode' := hsame.node?_eq hne hnode hnotDir
  have hplace' := (hsame.resolve_eq .make p).trans hplace
  unfold create at hcreate ⊢
  simp only [hplace, hnode] at hcreate
  simp only [hplace', hnode']
  cases node with
  | file mode data =>
      cases hwrite : mode.mayWrite with
      | false => simp [hwrite] at hcreate
      | true =>
          simp only [hwrite, if_true, Except.ok.injEq, Prod.mk.injEq, and_true] at hcreate
          subst hcreate
          refine ⟨other.setData artifact [], by simp [hwrite], ?_⟩
          rw [node?_setData_self hnode, node?_setData_self hnode']
  | fifo mode =>
      cases hwrite : mode.mayWrite with
      | false => simp [hwrite] at hcreate
      | true =>
          simp only [hwrite, if_true, Except.ok.injEq, Prod.mk.injEq, and_true] at hcreate
          subst hcreate
          exact ⟨other, by simp [hwrite], hnode'.trans hnode.symm⟩
  | device kind =>
      simp only [Except.ok.injEq, Prod.mk.injEq, and_true] at hcreate
      subst hcreate
      exact ⟨other, rfl, hnode'.trans hnode.symm⟩
  | dir mode entries => simp [Node.isDir] at hnotDir
  | link target => simp at hcreate

/-- What can be opened for writing, and does not lie beneath the directory, can still be opened. -/
theorem SameButReading.exists_create {dir artifact : Location} {made : FileSystem} {p : Path}
    (hsame : SameButReading dir fs other) (hcreate : fs.create p = .ok (made, artifact))
    (hout : ¬ dir <+: artifact) :
    ∃ made', other.create p = .ok (made', artifact) ∧
      made'.node? artifact = made.node? artifact := by
  have hne : artifact ≠ dir := by
    rintro rfl
    exact hout List.prefix_rfl
  cases creates_of_create hcreate with
  | @makes parent n mode entries hplace hdir hfree =>
      have hparent : parent ≠ dir := by
        rintro rfl
        exact hout (List.prefix_append _ _)
      have hwrite : mode.mayWrite = true := by
        unfold create at hcreate
        by_contra hwrite
        simp [hplace, hdir, hwrite] at hcreate
      rw [node?_insert_new hdir hfree]
      exact hsame.exists_create_vacant hplace hdir hfree hwrite hparent
  | empties hplace hfile _ => exact hsame.exists_create_found hcreate hplace hfile rfl hne
  | opens hplace hnode hnotDir _ _ =>
      exact hsame.exists_create_found hcreate hplace hnode hnotDir hne

theorem SameButReading.run_ok {dir artifact : Location} {made : FileSystem} {job : Job}
    (hsame : SameButReading dir fs other)
    (hcreate : fs.create job.outputPath = .ok (made, artifact)) (hout : ¬ dir <+: artifact)
    (hcompletes : ∃ summary, (job.run fs).result = .ok summary) :
    ∃ summary, (job.run other).result = .ok summary := by
  rw [Job.run_ok_iff] at hcompletes ⊢
  obtain ⟨made₁, artifact₁, hcreate₁, hroom⟩ := hcompletes
  rw [hcreate] at hcreate₁
  cases hcreate₁
  obtain ⟨made', hcreate', hnode⟩ := hsame.exists_create hcreate hout
  refine ⟨made', artifact, hcreate', ?_⟩
  unfold HasRoom
  rw [hnode]
  exact hroom

/-! ## Losing a subtree -/

/-- The events are about entries at such trails. -/
def Reports (root : Path) (events : List Event) (at? : List Name → Prop) : Prop :=
  ∀ event ∈ events, ∃ trail, at? trail ∧ event.subject? = some (root.descend trail)

theorem reports_of_visits {visits : List Visit} {at? : List Name → Prop}
    (hat : ∀ visit ∈ visits, at? visit.trail) :
    Reports root (visits.filterMap (Visit.event? root)) at? := by
  intro event hevent
  obtain ⟨visit, hvisit, hsome⟩ := List.mem_filterMap.1 hevent
  exact ⟨visit.trail, hat visit hvisit, Visit.subject_of_event? hsome⟩

theorem filter_not_isWithin {before within behind : List Visit} {verdict : Verdict}
    (hbefore : ∀ visit ∈ before, TrailBefore visit.trail trail)
    (hwithin : ∀ visit ∈ within, Beneath trail visit.trail)
    (hbehind : ∀ visit ∈ behind, TrailBefore trail visit.trail ∧ ¬ Beneath trail visit.trail) :
    (before ++ ⟨trail, verdict⟩ :: (within ++ behind)).filter
        (fun visit => !visit.isWithin trail) = before ++ behind := by
  have hhere : Visit.isWithin trail ⟨trail, verdict⟩ = true :=
    (Visit.isWithin_iff trail _).2 List.prefix_rfl
  have hnone : within.filter (fun visit => !visit.isWithin trail) = [] := by
    rw [List.filter_eq_nil_iff]
    intro visit hvisit
    simp [Visit.isWithin_of_beneath (hwithin visit hvisit)]
  have hfirst : before.filter (fun visit => !visit.isWithin trail) = before := by
    rw [List.filter_eq_self]
    intro visit hvisit
    have hwhere := hbefore visit hvisit
    simp [Visit.isWithin_eq_false hwhere.ne hwhere.not_beneath]
  have hlast : behind.filter (fun visit => !visit.isWithin trail) = behind := by
    rw [List.filter_eq_self]
    intro visit hvisit
    obtain ⟨hwhere, hout⟩ := hbehind visit hvisit
    simp [Visit.isWithin_eq_false hwhere.ne.symm hout]
  rw [List.filter_append, List.filter_cons_of_neg (by simp [hhere]), List.filter_append, hfirst,
    hnone, hlast, List.nil_append]

theorem SameButReading.list_shut (hsame : SameButReading (here ++ trail) fs other)
    (hroot : fs.locate .use root = .ok here) (htop : fs.node? here = some top) {mode shut : Mode}
    {entries entries' : List (Name × Node)} (hdir : top.get? trail = some (.dir mode entries))
    (hlist : fs.Listable (root.descend trail))
    (hdir' : other.node? (here ++ trail) = some (.dir shut entries'))
    (hread : shut.mayRead = false) :
    other.list (root.descend trail) = .error .accessDenied := by
  obtain ⟨listed, hlisted⟩ := hlist
  obtain ⟨_, hstat, _⟩ := (list_eq_ok_iff fs _ listed).1 hlisted
  obtain ⟨location, hlocate, _⟩ := (stat_eq_ok_iff fs _ _).1 hstat
  obtain rfl := locate_descend hroot htop hdir (by simp) hlocate
  have hstat' : other.stat (root.descend trail) = .ok (.dir shut entries') :=
    (stat_eq_ok_iff other _ _).2 ⟨here ++ trail, (hsame.locate_eq .use _).trans hlocate, hdir'⟩
  unfold list
  simp [hstat', hread]

/-- If a directory that is entered may no longer be read, but names may be looked up in it as
before, a survey loses the candidates beneath it and the events of the entries beneath it.  In their
place it warns that the directory cannot be listed.  All else stays as it was, and so does the
success of every run whose artifact does not lie beneath the directory. -/
theorem loses_only_subtree (hinput : root.isStandardInput = false)
    (hroot : fs.locate .use root = .ok here) (htop : fs.node? here = some top)
    (htrail : trail ≠ []) {mode : Mode} {entries : List (Name × Node)}
    (hmeets : fs.Meets rules root top trail (.dir mode entries)) (henters : rules.Enters trail)
    (hlist : fs.Listable (root.descend trail)) {shut : Mode} (hread : shut.mayRead = false)
    (hsearch : shut.maySearch = mode.maySearch) :
    let after := fs.setMode (here ++ trail) shut
    after.candidates rules root =
        (fs.candidates rules root).filter (fun c => !(root.descend trail).covers c.path) ∧
      (∃ earlier beneath later,
        fs.surveyEvents rules root = earlier ++ (beneath ++ later) ∧
        after.surveyEvents rules root =
          earlier ++ .walkProblem root (root.descend trail) .accessDenied :: later ∧
        Reports root earlier (fun at_ => TrailBefore at_ trail) ∧
        Reports root beneath (Beneath trail) ∧
        Reports root later (fun at_ => TrailBefore trail at_ ∧ ¬ Beneath trail at_)) ∧
      ∀ (job : Job) (made : FileSystem) (artifact : Location),
        fs.create job.outputPath = .ok (made, artifact) → ¬ here ++ trail <+: artifact →
        (∃ summary, (job.run fs).result = .ok summary) →
        ∃ summary, (job.run after).result = .ok summary := by
  intro after
  have hne : root.bytes ≠ [] := (usable_of_locate hroot).notEmpty
  have hdir : fs.node? (here ++ trail) = some (.dir mode entries) := hmeets.node?_eq htop
  obtain ⟨hsame, hshutDir⟩ := sameButReading_setMode hdir hsearch
  have hroot' : after.locate .use root = .ok here := (hsame.locate_eq .use root).trans hroot
  obtain ⟨mode₀, entries₀, rfl⟩ := Node.exists_eq_dir_of_get? htrail hmeets.get?
  obtain ⟨mode₀', entries₀', htop'⟩ := hsame.exists_dir htop
  have hshut := hsame.list_shut hroot htop hmeets.get? hlist hshutDir hread
  obtain ⟨before, within, behind, hvisits, hvisits', hbefore, hwithin, hbehind⟩ :=
    hsame.exists_visits hroot htop htop' htrail hmeets henters hshut hlist (rootName root)
  have hsurvey : fs.survey rules root = .ok (before ++ ⟨trail, .entered⟩ :: (within ++ behind)) := by
    rw [← hvisits]
    exact survey_eq_visits hinput ((stat_eq_ok_iff fs root _).2 ⟨here, hroot, htop⟩) rfl
  have hsurvey' : after.survey rules root =
      .ok (before ++ ⟨trail, .unlistable .accessDenied⟩ :: behind) := by
    rw [← hvisits']
    exact survey_eq_visits hinput ((stat_eq_ok_iff after root _).2 ⟨here, hroot', htop'⟩) rfl
  refine ⟨?_, ⟨before.filterMap (Visit.event? root), within.filterMap (Visit.event? root),
    behind.filterMap (Visit.event? root), ?_, ?_, reports_of_visits hbefore,
    reports_of_visits hwithin, reports_of_visits hbehind⟩, ?_⟩
  · simp only [candidates, hsurvey, hsurvey', filter_covers_candidates hne trail not,
      filter_not_isWithin hbefore hwithin hbehind]
    simp [List.filterMap_append, List.filterMap_cons, Visit.candidate?]
  · simp only [surveyEvents, hsurvey]
    simp [List.filterMap_append, List.filterMap_cons, Visit.event?]
  · simp only [surveyEvents, hsurvey']
    simp [List.filterMap_append, Visit.event?]
  · intro job made artifact hcreate hout hcompletes
    exact hsame.run_ok hcreate hout hcompletes

def unreadableDir : Mode := ⟨0o355⟩

/-- The directory that loses its permission to be read holds three candidates and a pruned directory.
The survey reports the directory itself in its place, and what comes after it as before. -/
theorem loses_only_subtree_of_nestedProject :
    let root := Path.ofText "proj/"
    let job := Job.standard root
    let after := nestedProject.setMode ([projName] ++ nestedTrail) unreadableDir
    root.isStandardInput = false ∧ nestedProject.locate .use root = .ok [projName] ∧
      (∃ top mode entries, nestedProject.node? [projName] = some top ∧
        nestedProject.Meets Rules.standard root top nestedTrail (.dir mode entries) ∧
        unreadableDir.mayRead = false ∧ unreadableDir.maySearch = mode.maySearch) ∧
      Rules.standard.Enters nestedTrail ∧ nestedProject.Listable (root.descend nestedTrail) ∧
      after.candidates Rules.standard root =
        (nestedProject.candidates Rules.standard root).filter
          (fun c => !(root.descend nestedTrail).covers c.path) ∧
      (after.candidates Rules.standard root).map Candidate.display =
        ["./a.c", "./lib/y.txt", "./z.sql"] ∧
      (nestedProject.surveyEvents Rules.standard root).map Event.message =
        ["pruned directory: proj/lib/\uFFFDv/build", "not packable: proj/notes.bin"] ∧
      (∃ earlier later, after.surveyEvents Rules.standard root =
        earlier ++ .walkProblem root (root.descend nestedTrail) .accessDenied :: later) ∧
      (after.surveyEvents Rules.standard root).map Event.message =
        ["Could not process entry in \"proj/\": proj/lib/\uFFFDv: IO error for operation on "
            ++ "proj/lib/\uFFFDv: Permission denied (os error 13)",
          "not packable: proj/notes.bin"] ∧
      ∃ summary, (job.run after).result = .ok summary := by
  intro root job after
  have hinput : root.isStandardInput = false := by decide +kernel
  obtain ⟨top, mode, entries, htop, hbase, hsearch⟩ := exists_dir_nestedProject
  have hkept : ∀ n ∈ nestedTrail, Rules.standard.prunes n.display = false := by decide +kernel
  have hmeets : nestedProject.Meets Rules.standard root top nestedTrail (.dir mode entries) :=
    meets_of_listable hbase
      (fun before after hsplit _ => listable_nestedProject ⟨after, hsplit.symm⟩) hkept
  have henters : Rules.standard.Enters nestedTrail :=
    fun n hn => hkept n (List.mem_of_getLast? hn)
  have hlist := listable_nestedProject (List.prefix_refl nestedTrail)
  have hread : unreadableDir.mayRead = false := by decide
  have hsame : unreadableDir.maySearch = mode.maySearch := by
    rw [hsearch]
    decide
  have hlose := loses_only_subtree hinput locate_nestedProject htop (by simp [nestedTrail]) hmeets
    henters hlist hread hsame
  obtain ⟨hcandidates, ⟨earlier, _, later, _, hevents, _⟩, hruns⟩ := hlose
  have hopened : ∃ opened, nestedProject.create job.outputPath = .ok opened ∧
      ¬ [projName] ++ nestedTrail <+: opened.2 := by
    decide +kernel
  obtain ⟨⟨made, artifact⟩, hcreate, hout⟩ := hopened
  have hcompletes : ∃ summary, (job.run nestedProject).result = .ok summary := by decide +kernel
  exact ⟨hinput, locate_nestedProject, ⟨top, mode, entries, htop, hmeets, hread, hsame⟩, henters,
    hlist, hcandidates, by decide +kernel, by decide +kernel, ⟨earlier, later, hevents⟩,
    by decide +kernel, hruns job made artifact hcreate hout hcompletes⟩

end TreePack.FileSystem
