import TreePack.Proofs.Covering
import TreePack.Proofs.LossyNames
import TreePack.Proofs.Outcome
import TreePack.Proofs.Spelling
import TreePack.Proofs.TrailDisplay

/-!
# The names in a display path

What is shown of an entry below a root is `.` and the names on its trail, separated by slashes, for
every text that the root may have, the empty one included.  No name has a slash in its reading, so
the display path can be taken apart again: its segments are the strings that the rules were asked
about, the last one as the name of a file and those before as names of directories.

Names that are well-formed are shown without loss.  Their display paths tell the entries apart, and
each of them, put behind the root once more, leads to where the entry is: all that comes in between
is a step that stays.
-/

namespace TreePack

namespace Path

/-! ## Every spelling of the root -/

theorem trimEnd_ofTrail {trail : List Name} (htrail : trail ≠ []) :
    (ofTrail trail).trimEnd = ofTrail trail := by
  obtain ⟨n, rest, rfl⟩ := List.exists_cons_of_ne_nil htrail
  have hsegments : (ofTrail (n :: rest)).segments = n.bytes :: rest.map Name.bytes :=
    segments_ofTrail htrail
  have hhead := head_of_segments hsegments
    (segments_ne_singleton_nil (bytes_ofTrail_ne_nil htrail))
  rw [if_neg n.valid.1, if_neg n.valid.2.1] at hhead
  unfold trimEnd
  rw [hhead]
  show ofSegments (dropSilentEnd ((n :: rest).map Name.bytes)) = _
  rw [dropSilentEnd_names]
  rfl

/-- Nothing is taken away for an empty root, which has no components. -/
theorem stripPrefix?_descend_eq_ofTrail (root : Path) {trail : List Name} (htrail : trail ≠ []) :
    stripPrefix? root (root.descend trail) = some (ofTrail trail) := by
  by_cases hroot : root.bytes = []
  · obtain rfl : root = ⟨[]⟩ := by rw [← hroot]
    have hjoin : (Path.mk []).join (ofTrail trail) = ofTrail trail := by
      simp [join, isAbsolute_ofTrail htrail]
    have hstrip : stripPrefix? ⟨[]⟩ (ofTrail trail) = some (ofTrail trail).trimEnd := rfl
    rw [descend_eq_join _ htrail, hjoin, hstrip, trimEnd_ofTrail htrail]
  · exact stripPrefix?_descend hroot htrail

theorem displayBelow_descend_eq_names (root : Path) {trail : List Name} (htrail : trail ≠ []) :
    displayBelow root (root.descend trail) =
      "./" ++ String.intercalate "/" (trail.map Name.display) := by
  have hdot : (Path.mk [Bytes.dot]).bytes ≠ [] := by simp
  rw [← displayBelow_eq_names hdot htrail]
  unfold displayBelow
  rw [stripPrefix?_descend_eq_ofTrail root htrail, stripPrefix?_descend_eq_ofTrail _ htrail]
  rfl

end Path

/-! ## Taking a display path apart -/

theorem Name.slash_not_mem_display (n : Name) : '/' ∉ n.display.toList := by
  intro hmem
  apply n.valid.2.2.2
  exact Utf8.mem_of_mem_lossy (by decide) hmem Bytes.slash (by decide)

def Candidate.segments (c : Candidate) : List String :=
  (c.display.toList.splitOn '/').map String.ofList

theorem Candidate.segments_below (root : Path) {trail : List Name} (htrail : trail ≠ []) :
    (Candidate.below root trail).segments = "." :: trail.map Name.display := by
  have hnames : trail.map Name.display ≠ [] := by simpa using htrail
  have hshown : (Candidate.below root trail).display =
      String.intercalate "/" ("." :: trail.map Name.display) := by
    rw [String.intercalate_cons_of_ne_nil hnames]
    exact Path.displayBelow_descend_eq_names root htrail
  have hslash : ∀ segment ∈ ("." :: trail.map Name.display).map String.toList, '/' ∉ segment := by
    intro segment hsegment
    simp only [List.map_cons, List.map_map, List.mem_cons, List.mem_map] at hsegment
    rcases hsegment with rfl | ⟨n, _, rfl⟩
    · decide
    · exact n.slash_not_mem_display
  have hsplit := List.splitOn_intercalate '/' hslash (by simp)
  have hsep : "/".toList = ['/'] := by decide
  unfold segments
  rw [hshown, String.toList_intercalate, hsep, hsplit, List.map_map]
  simp [Function.comp_def]

/-! ## What the rules were asked -/

namespace FileSystem

variable {fs : FileSystem} {rules : Rules} {root : Path}

theorem exists_visit_of_mem_candidates {c : Candidate} (hmem : c ∈ fs.candidates rules root) :
    ∃ visits visit, fs.survey rules root = .ok visits ∧ visit ∈ visits ∧
      c = Candidate.below root visit.trail := by
  unfold candidates at hmem
  split at hmem
  next visits hsurvey =>
    obtain ⟨visit, hvisit, hcandidate⟩ := List.mem_filterMap.1 hmem
    refine ⟨visits, visit, hsurvey, hvisit, ?_⟩
    unfold Visit.candidate? at hcandidate
    split at hcandidate
    next => exact (Option.some.inj hcandidate).symm
    next => contradiction
  next => contradiction

/-- Only a directory has candidates below it. -/
theorem exists_top_of_mem_candidates {trail : List Name} (htrail : trail ≠ [])
    (hmem : Candidate.below root trail ∈ fs.candidates rules root) :
    root.isStandardInput = false ∧ ∃ here top, fs.locate .use root = .ok here ∧
      fs.node? here = some top ∧ top.isDir = true := by
  obtain ⟨visits, visit, hsurvey, hvisit, hbelow⟩ := exists_visit_of_mem_candidates hmem
  have hroot := ne_nil_of_survey hsurvey hvisit
  cases hdir : fs.isDir root with
  | true =>
      obtain ⟨hinput, here, top, hlocate, hnode, htop, -⟩ := survey_of_isDir hdir hsurvey hvisit
      exact ⟨hinput, here, top, hlocate, hnode, htop⟩
  | false =>
      have halone := (survey_of_not_isDir hdir hsurvey hvisit).2
      rw [halone] at hbelow
      exact absurd (Candidate.below_injective hroot hbelow) htrail

theorem below_mem_candidates_iff {here : Location} {top : Node}
    (hinput : root.isStandardInput = false) (hroot : fs.locate .use root = .ok here)
    (htop : fs.node? here = some top) (hdir : top.isDir = true) (rules : Rules)
    {trail : List Name} (htrail : trail ≠ []) :
    Candidate.below root trail ∈ fs.candidates rules root ↔ fs.Packs rules root top trail := by
  have hstat := (stat_eq_ok_iff fs root top).2 ⟨here, hroot, htop⟩
  have hinjective := Candidate.below_injective (usable_of_locate hroot).notEmpty
  rw [candidates_eq_map hinput hstat hdir, List.mem_map_of_injective hinjective,
    mem_packedTrails, candidate_mem_visits_iff (fs.wellFormed.get htop) _ _ htrail]

theorem Packs.packs_iff {top : Node} {init : List Name} {n : Name}
    (hpacks : fs.Packs rules root top (init ++ [n])) (rules' : Rules) :
    fs.Packs rules' root top (init ++ [n]) ↔
      rules'.accepts n.display = true ∧ ∀ m ∈ init, rules'.prunes m.display = false := by
  constructor
  · intro hother
    obtain ⟨last, hlast, haccepts⟩ := hother.accepted
    obtain rfl : n = last := by simpa using hlast
    refine ⟨haccepts, ?_⟩
    intro m hm
    obtain ⟨before, after, rfl⟩ := List.append_of_mem hm
    exact hother.unpruned before m (after ++ [n]) (by simp) (by simp)
  · rintro ⟨haccepts, hkept⟩
    refine ⟨hpacks.below, hpacks.listed, ?_, hpacks.fileLike, ⟨n, by simp, haccepts⟩⟩
    intro before m after hsplit hafter
    obtain ⟨between, last, rfl⟩ := (List.eq_nil_or_concat after).resolve_left hafter
    rw [List.concat_eq_append, ← List.cons_append, ← List.append_assoc] at hsplit
    obtain ⟨hinit, -⟩ := List.append_inj' hsplit rfl
    exact hkept m (by simp [hinit])

/-- Whether an entry below a root is packed depends, as far as the rules are concerned, on what they
say of the strings that its display path is made of. -/
theorem mem_candidates_iff_of_mem {init : List Name} {n : Name}
    (hmem : Candidate.below root (init ++ [n]) ∈ fs.candidates rules root) (rules' : Rules) :
    Candidate.below root (init ++ [n]) ∈ fs.candidates rules' root ↔
      rules'.accepts n.display = true ∧ ∀ m ∈ init, rules'.prunes m.display = false := by
  have htrail : init ++ [n] ≠ [] := by simp
  obtain ⟨hinput, here, top, hroot, htop, hdir⟩ := exists_top_of_mem_candidates htrail hmem
  have hmemIff := below_mem_candidates_iff hinput hroot htop hdir
  rw [hmemIff rules htrail] at hmem
  rw [hmemIff rules' htrail]
  exact hmem.packs_iff rules'

end FileSystem

/-! ## Well-formed names -/

/-- The candidate lies below the root, and all names on the way to it are well-formed. -/
def Candidate.Legible (root : Path) (c : Candidate) : Prop :=
  ∃ trail, trail ≠ [] ∧ (∀ n ∈ trail, Utf8.WellFormed n.bytes) ∧ c = Candidate.below root trail

namespace Path

theorem wellFormed_ofTrail {trail : List Name} (hnames : ∀ n ∈ trail, Utf8.WellFormed n.bytes) :
    Utf8.WellFormed (ofTrail trail).bytes := by
  have hslash : Utf8.WellFormed [Bytes.slash] := Utf8.wellFormed_ofText "/"
  induction trail with
  | nil => exact .nil
  | cons n trail ih =>
      have hname := hnames n List.mem_cons_self
      by_cases hlast : trail = []
      · rwa [hlast, ofTrail_singleton]
      · have hrest := ih fun m hm => hnames m (List.mem_cons_of_mem n hm)
        rw [bytes_ofTrail_cons n hlast]
        exact Utf8.wellFormed_append hname (Utf8.wellFormed_append hslash hrest)

/-- A display path of well-formed names is, as a path, `.` and the names. -/
theorem ofText_displayBelow (root : Path) {trail : List Name} (htrail : trail ≠ [])
    (hnames : ∀ n ∈ trail, Utf8.WellFormed n.bytes) :
    ofText (displayBelow root (root.descend trail)) = (Path.mk [Bytes.dot]).descend trail := by
  have hdot : Bytes.ofText "./" = [Bytes.dot, Bytes.slash] := by decide
  have hdotNotSlash : Bytes.dot ≠ Bytes.slash := by decide
  rw [displayBelow_descend_eq_names root htrail, ← display_ofTrail, ofText, Bytes.ofText_append,
    hdot, display, Utf8.ofText_lossy (wellFormed_ofTrail hnames), descend_eq_join _ htrail, join,
    isAbsolute_ofTrail htrail]
  simp [hdotNotSlash]

end Path

theorem Candidate.Legible.eq_of_display_eq {root : Path} {c d : Candidate} (hc : c.Legible root)
    (hd : d.Legible root) (hdisplay : c.display = d.display) : c = d := by
  obtain ⟨trail, htrail, hnames, rfl⟩ := hc
  obtain ⟨other, hother, hnames', rfl⟩ := hd
  have hpaths := congrArg Path.ofText hdisplay
  unfold Candidate.below at hpaths
  rw [Path.ofText_displayBelow root htrail hnames, Path.ofText_displayBelow root hother hnames']
    at hpaths
  have hdot : (Path.mk [Bytes.dot]).bytes ≠ [] := by simp
  rw [Path.descend_injective hdot hpaths]

/-! ## Back to the entry -/

namespace Path

/-- Silent segments at the end do not count. -/
theorem components_eq_of_segments {p q : Path} {front tail tail' : List Bytes} (hfront : front ≠ [])
    (hp : p.segments = front ++ tail) (hq : q.segments = front ++ tail')
    (htail : ∀ segment ∈ tail, Component.ofSegment? segment = none)
    (htail' : ∀ segment ∈ tail', Component.ofSegment? segment = none)
    (hpne : p.bytes ≠ []) (hqne : q.bytes ≠ []) :
    p.components = q.components := by
  obtain ⟨segment, rest, rfl⟩ := List.exists_cons_of_ne_nil hfront
  have hnone := List.filterMap_eq_nil_iff.2 htail
  have hnone' := List.filterMap_eq_nil_iff.2 htail'
  rw [List.cons_append] at hp hq
  have hhead := head_of_segments hp (segments_ne_singleton_nil hpne)
  have hhead' := head_of_segments hq (segments_ne_singleton_nil hqne)
  unfold components
  rw [hhead, hhead']
  split
  next => simp [hnone, hnone']
  next =>
    split
    next => simp [hnone, hnone']
    next => simp [List.filterMap_cons, hnone, hnone']

theorem components_join_dot {root : Path} (hroot : root.bytes ≠ []) :
    (root.join ⟨[Bytes.dot]⟩).components = root.components := by
  have hrelative : (Path.mk [Bytes.dot]).isAbsolute = false := by decide
  obtain ⟨stem, hjoin, hstem⟩ := exists_stem_join hroot hrelative
  have hsegments : (root.join ⟨[Bytes.dot]⟩).segments = split stem ++ [[Bytes.dot]] := by
    unfold segments
    rw [hjoin, split_append_slash]
    rfl
  have hrootSegments : ∃ tail, root.segments = split stem ++ tail ∧
      ∀ segment ∈ tail, Component.ofSegment? segment = none := by
    rcases hstem with heq | heq
    · exact ⟨[], by simp [segments, heq], by simp⟩
    · refine ⟨[[]], ?_, by decide⟩
      unfold segments
      rw [heq, split_append_slash]
      rfl
  obtain ⟨tail, hsame, hsilent⟩ := hrootSegments
  exact components_eq_of_segments (split_ne_nil stem) hsegments hsame (by decide) hsilent
    (join_ne_nil hroot hrelative) hroot

theorem join_dot_descend (root : Path) {trail : List Name} (htrail : trail ≠ []) :
    root.join ((Path.mk [Bytes.dot]).descend trail) =
      (root.join ⟨[Bytes.dot]⟩).descend trail := by
  obtain ⟨front, hfront⟩ := exists_join_eq root
  have hdotNotSlash : Bytes.dot ≠ Bytes.slash := by decide
  have hrelative : (Path.mk [Bytes.dot]).isAbsolute = false := by decide
  have hdotJoin : (Path.mk [Bytes.dot]).join (ofTrail trail) =
      ⟨Bytes.dot :: Bytes.slash :: (ofTrail trail).bytes⟩ := by
    simp [join, isAbsolute_ofTrail htrail, hdotNotSlash]
  have hwhole : (Path.mk (Bytes.dot :: Bytes.slash :: (ofTrail trail).bytes)).isAbsolute = false :=
    rfl
  rw [descend_eq_join _ htrail, descend_eq_join _ htrail, hdotJoin, hfront _ hwhole,
    hfront _ hrelative]
  simp [join, isAbsolute_ofTrail htrail, hdotNotSlash]

end Path

namespace FileSystem

/-- The paths have the same components and resolve alike, whatever they are resolved for, unless one
of them is too long. -/
structure LeadAlike (fs : FileSystem) (p q : Path) : Prop where
  components : p.components = q.components
  travel : ∀ purpose,
    fs.travel purpose linkLimit (Route.ofPath p).intoDir (fs.start p) (Route.ofPath p).steps =
      fs.travel purpose linkLimit (Route.ofPath q).intoDir (fs.start q) (Route.ofPath q).steps
  resolve : ∀ purpose, p.bytes.length ≤ pathLimit → q.bytes.length ≤ pathLimit →
    fs.resolve purpose p = fs.resolve purpose q

theorem travel_stay_of_ne_nil (fs : FileSystem) (purpose : Purpose) (links : ℕ) (intoDir : Bool)
    (here : Location) {rest : List Step} (hrest : rest ≠ []) :
    fs.travel purpose links intoDir here (.stay :: rest) =
      fs.travel purpose links intoDir here rest := by
  by_cases hdir : fs.Searchable here
  · exact travel_stay hdir purpose links intoDir rest
  · obtain ⟨step, more, rfl⟩ := List.exists_cons_of_ne_nil hrest
    rw [travel_eq_advance, advance_of_not_searchable hdir, advance_of_not_searchable hdir]

theorem resolve_eq_of_travel_eq {fs : FileSystem} {p q : Path} {purpose : Purpose}
    (hnul : p.bytes.contains 0 = q.bytes.contains 0) (hp : p.bytes ≠ []) (hq : q.bytes ≠ [])
    (hpshort : p.bytes.length ≤ pathLimit) (hqshort : q.bytes.length ≤ pathLimit)
    (htravel :
      fs.travel purpose linkLimit (Route.ofPath p).intoDir (fs.start p) (Route.ofPath p).steps =
        fs.travel purpose linkLimit (Route.ofPath q).intoDir (fs.start q) (Route.ofPath q).steps) :
    fs.resolve purpose p = fs.resolve purpose q := by
  cases hcontains : q.bytes.contains 0 with
  | true =>
      rw [hcontains] at hnul
      unfold resolve
      rw [if_pos hnul, if_pos hcontains]
  | false =>
      rw [hcontains] at hnul
      rw [resolve_eq_travel fs purpose ⟨hnul, hp, hpshort⟩,
        resolve_eq_travel fs purpose ⟨hcontains, hq, hqshort⟩, htravel]

/-- A path with `.` between the root and the names names the entry that the names lead to. -/
theorem leadAlike_join_dot {fs : FileSystem} {root : Path} {here : Location}
    (hroot : fs.locate .use root = .ok here) {trail : List Name} (htrail : trail ≠ []) :
    fs.LeadAlike ((root.join ⟨[Bytes.dot]⟩).descend trail) (root.descend trail) := by
  rw [locate_eq_ok_iff, resolve_eq_ok_iff] at hroot
  obtain ⟨husable, htravels⟩ := hroot
  have hne := husable.notEmpty
  have hrelative : (Path.mk [Bytes.dot]).isAbsolute = false := by decide
  have hdot : Route.ofPath (root.join ⟨[Bytes.dot]⟩) =
      ⟨(Route.ofPath root).fromRoot, (Route.ofPath root).steps ++ [.stay], false⟩ :=
    Route.ofPath_join_of_ne_nil hne hrelative (by simp)
  have hdotNe := Path.join_ne_nil hne hrelative
  have hdotStart : fs.start (root.join ⟨[Bytes.dot]⟩) = fs.start root := by
    unfold start
    rw [hdot]
  have hdotNul : (root.join ⟨[Bytes.dot]⟩).bytes.contains 0 = false := by
    rw [Path.contains_zero_join hne husable.noNul hrelative]
    decide
  have hnul : ((root.join ⟨[Bytes.dot]⟩).descend trail).bytes.contains 0 =
      (root.descend trail).bytes.contains 0 := by
    rw [Path.descend_eq_join _ htrail, Path.descend_eq_join _ htrail,
      Path.contains_zero_join hdotNe hdotNul (Path.isAbsolute_ofTrail htrail),
      Path.contains_zero_join hne husable.noNul (Path.isAbsolute_ofTrail htrail)]
  have htravel : ∀ purpose,
      fs.travel purpose linkLimit (Route.ofPath ((root.join ⟨[Bytes.dot]⟩).descend trail)).intoDir
          (fs.start ((root.join ⟨[Bytes.dot]⟩).descend trail))
          (Route.ofPath ((root.join ⟨[Bytes.dot]⟩).descend trail)).steps =
        fs.travel purpose linkLimit (Route.ofPath (root.descend trail)).intoDir
          (fs.start (root.descend trail)) (Route.ofPath (root.descend trail)).steps := by
    intro purpose
    obtain ⟨spare, hspare⟩ := htravels.travel_append
    have hdowns : trail.map Step.down ≠ [] := by simpa using htrail
    have hlong := hspare purpose 0 false (.stay :: trail.map Step.down) (by simp)
    have hshort := hspare purpose 0 false _ hdowns
    rw [travel_stay_of_ne_nil fs purpose _ _ _ hdowns, ← hshort] at hlong
    rw [start_descend fs hdotNe, start_descend fs hne, Route.intoDir_descend hdotNe htrail,
      Route.intoDir_descend hne htrail, (Route.ofPath_descend hdotNe trail).2,
      (Route.ofPath_descend hne trail).2, hdotStart, hdot, List.append_assoc]
    exact hlong
  refine ⟨?_, htravel, fun purpose hlong hshort => ?_⟩
  · rw [Path.components_descend hdotNe, Path.components_descend hne,
      Path.components_join_dot hne]
  · exact resolve_eq_of_travel_eq hnul (Path.descend_ne_nil hdotNe trail)
      (Path.descend_ne_nil hne trail) hlong hshort (htravel purpose)

theorem leadAlike_display {fs : FileSystem} {rules : Rules} {root : Path} {c : Candidate}
    (hmem : c ∈ fs.candidates rules root) (hlegible : c.Legible root) :
    fs.LeadAlike (root.join (Path.ofText c.display)) c.path := by
  obtain ⟨trail, htrail, hnames, rfl⟩ := hlegible
  obtain ⟨-, here, -, hroot, -⟩ := exists_top_of_mem_candidates htrail hmem
  have hshown : Path.ofText (Candidate.below root trail).display =
      (Path.mk [Bytes.dot]).descend trail :=
    Path.ofText_displayBelow root htrail hnames
  rw [hshown, Path.join_dot_descend root htrail]
  exact leadAlike_join_dot hroot htrail

theorem candidates_pairwise_display (fs : FileSystem) (rules : Rules) (root : Path) :
    (fs.candidates rules root).Pairwise fun c d =>
      c.Legible root → d.Legible root → c.display ≠ d.display := by
  apply (fs.nodup_candidates rules root).imp
  intro c d hne hc hd hdisplay
  exact hne (hc.eq_of_display_eq hd hdisplay)

theorem exists_below_of_mem_candidates {fs : FileSystem} {rules : Rules} {root : Path}
    {c : Candidate} (hmem : c ∈ fs.candidates rules root) :
    (fs.isDir root = false ∧ c.path = root) ∨ ∃ init n, c = Candidate.below root (init ++ [n]) := by
  obtain ⟨visits, visit, hsurvey, hvisit, rfl⟩ := exists_visit_of_mem_candidates hmem
  cases hdir : fs.isDir root with
  | false =>
      left
      rw [(survey_of_not_isDir hdir hsurvey hvisit).2]
      exact ⟨rfl, rfl⟩
  | true =>
      right
      obtain ⟨hinput, here, top, hroot, htop, htopDir, -⟩ := survey_of_isDir hdir hsurvey hvisit
      have hstat := (stat_eq_ok_iff fs root top).2 ⟨here, hroot, htop⟩
      obtain ⟨init, n, -, heq, -⟩ := (mem_candidates_iff hinput hstat htopDir _).1 hmem
      exact ⟨init, n, heq⟩

/-- Whatever the text of the root, what is shown of an entry below it are the names on its trail.
So the display path of a candidate has as its segments the strings that the rules decided on: with
other rules the candidate is still one exactly if they accept the last segment and prune none of
those before.  Candidates with well-formed names are told apart by their display paths, and each
display path, joined to the root again, names the entry that the candidate was made of. -/
theorem candidates_show_names (fs : FileSystem) (rules : Rules) (root : Path) :
    (∀ init n, Path.displayBelow root (root.descend (init ++ [n])) =
        "./" ++ String.intercalate "/" ((init ++ [n]).map Name.display)) ∧
      (∀ c ∈ fs.candidates rules root, (fs.isDir root = false ∧ c.path = root) ∨
        ∃ init n, c = Candidate.below root (init ++ [n]) ∧
          c.segments = "." :: (init.map Name.display ++ [n.display]) ∧
          ∀ rules', c ∈ fs.candidates rules' root ↔
            rules'.accepts n.display = true ∧ ∀ m ∈ init, rules'.prunes m.display = false) ∧
      ((fs.candidates rules root).Pairwise fun c d =>
        c.Legible root → d.Legible root → c.display ≠ d.display) ∧
      ∀ c ∈ fs.candidates rules root, c.Legible root →
        fs.LeadAlike (root.join (Path.ofText c.display)) c.path := by
  refine ⟨fun init n => Path.displayBelow_descend_eq_names root (by simp), ?_,
    fs.candidates_pairwise_display rules root, fun c hmem => leadAlike_display hmem⟩
  intro c hmem
  rcases exists_below_of_mem_candidates hmem with hroot | ⟨init, n, rfl⟩
  · exact .inl hroot
  · refine .inr ⟨init, n, rfl, ?_, mem_candidates_iff_of_mem hmem⟩
    simpa using Candidate.segments_below root (show init ++ [n] ≠ [] by simp)

def acuteName : Name := ⟨Bytes.ofText "é", by decide +kernel⟩

/-- The first half of `acuteName`. -/
def halfName : Name := ⟨[0xC3], by decide +kernel⟩

def leafName : Name := ⟨Bytes.ofText "leaf.c", by decide +kernel⟩

/-- Two directories, one of whose names is no text, with a file of the same name in each. -/
def halvedProject : FileSystem :=
  built
    [(·.putFile ((Path.ofText "/proj").descend [acuteName, leafName]) []),
      (·.putFile ((Path.ofText "/proj").descend [halfName, leafName]) [])]

theorem candidates_show_names_of_halvedProject :
    let root := Path.ofText "proj//./"
    let whole := Candidate.below root [acuteName, leafName]
    let half := Candidate.below root [halfName, leafName]
    halvedProject.candidates Rules.standard root = [half, whole] ∧
      whole.display = "./é/leaf.c" ∧ half.display = "./\uFFFD/leaf.c" ∧
      whole.Legible root ∧ half.segments = [".", "\uFFFD", "leaf.c"] ∧
      half ∉ halvedProject.candidates ⟨[".c"], [], ["\uFFFD"], []⟩ root ∧
      halvedProject.LeadAlike (root.join (Path.ofText "./é/leaf.c")) whole.path := by
  intro root whole half
  have hcandidates : halvedProject.candidates Rules.standard root = [half, whole] := by
    decide +kernel
  have hdir : halvedProject.isDir root = true := by decide +kernel
  obtain ⟨hshown, hmade, -, hsame⟩ := candidates_show_names halvedProject Rules.standard root
  have hwhole : whole.display = "./é/leaf.c" :=
    (hshown [acuteName] leafName).trans (by decide +kernel)
  have hhalf : half.display = "./\uFFFD/leaf.c" :=
    (hshown [halfName] leafName).trans (by decide +kernel)
  have hlegible : whole.Legible root := ⟨_, by simp, by decide +kernel, rfl⟩
  have hback := hsame whole (by simp [hcandidates]) hlegible
  rw [hwhole] at hback
  have hroot : root.bytes ≠ [] := by decide +kernel
  rcases hmade half (by simp [hcandidates]) with ⟨hnotDir, -⟩ | ⟨init, n, heq, hsegments, hasked⟩
  · exact absurd (hdir.symm.trans hnotDir) (by simp)
  · have htrail : [halfName, leafName] = init ++ [n] := Candidate.below_injective hroot heq
    rw [← List.singleton_append] at htrail
    obtain ⟨rfl, hlast⟩ := List.append_inj' htrail rfl
    obtain rfl : leafName = n := List.head_eq_of_cons_eq hlast
    have hpruned : half ∉ halvedProject.candidates ⟨[".c"], [], ["\uFFFD"], []⟩ root := by
      rw [hasked]
      decide +kernel
    have hparts : half.segments = [".", "\uFFFD", "leaf.c"] := hsegments.trans (by decide +kernel)
    exact ⟨hcandidates, hwhole, hhalf, hlegible, hparts, hpruned, hback⟩

end FileSystem

end TreePack
