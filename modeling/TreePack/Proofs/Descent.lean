import Mathlib.Tactic
import TreePack.Proofs.Access

/-!
# Paths below a root

The path of an entry is the root joined with one name after the other.  Whatever the spelling of
the root, such a path takes the steps of the root and then one step down for each name.  So two
entries have different paths, and a path that can be followed leads to the place that its names
have in the tree, as long as they go through real directories.
-/

namespace TreePack

theorem Component.ofSegment?_name (n : Name) :
    ofSegment? n.bytes = some (.name n) := by
  unfold ofSegment?
  rw [dif_pos n.valid]

namespace Path

theorem split_ne_nil (bytes : Bytes) : split bytes ≠ [] := by
  induction bytes with
  | nil => simp [split]
  | cons b rest ih =>
      by_cases hb : b = Bytes.slash
      · simp [split, hb]
      · simp [split, hb, ih]

theorem split_of_not_mem {bytes : Bytes} (hslash : Bytes.slash ∉ bytes) :
    split bytes = [bytes] := by
  induction bytes with
  | nil => rfl
  | cons b rest ih =>
      simp only [List.mem_cons, not_or] at hslash
      simp [split, Ne.symm hslash.1, ih hslash.2]

theorem split_append_slash (front back : Bytes) :
    split (front ++ Bytes.slash :: back) = split front ++ split back := by
  induction front with
  | nil => simp [split]
  | cons b rest ih =>
      by_cases hb : b = Bytes.slash
      · simp [split, hb, ih]
      · obtain ⟨first, others, hsplit⟩ := List.exists_cons_of_ne_nil (split_ne_nil rest)
        simp [split, hb, ih, hsplit]

theorem isAbsolute_ofName (n : Name) : (ofName n).isAbsolute = false := by
  rcases n with ⟨bytes, hempty, _, _, hslash⟩
  cases bytes with
  | nil => contradiction
  | cons b rest =>
      simp only [List.mem_cons, not_or] at hslash
      simp [isAbsolute, ofName, Ne.symm hslash.1]

/-- A relative path is joined behind a slash, which the base may end in already. -/
theorem exists_stem_join {base p : Path} (hbase : base.bytes ≠ [])
    (hrelative : p.isAbsolute = false) :
    ∃ stem, (base.join p).bytes = stem ++ Bytes.slash :: p.bytes ∧
      (base.bytes = stem ∨ base.bytes = stem ++ [Bytes.slash]) := by
  unfold join
  rw [hrelative, if_neg (by simp)]
  by_cases hlast : base.bytes.getLast? = some Bytes.slash
  · obtain ⟨stem, hstem⟩ := List.getLast?_eq_some_iff.1 hlast
    rw [if_pos (Or.inr hlast)]
    exact ⟨stem, by simp [hstem], .inr hstem⟩
  · rw [if_neg (by simp [hbase, hlast])]
    exact ⟨base.bytes, rfl, .inl rfl⟩

theorem join_ne_nil {base p : Path} (hbase : base.bytes ≠ []) (hrelative : p.isAbsolute = false) :
    (base.join p).bytes ≠ [] := by
  obtain ⟨stem, hjoin, _⟩ := exists_stem_join hbase hrelative
  simp [hjoin]

@[simp] theorem descend_nil (root : Path) : root.descend [] = root := rfl

theorem descend_cons (root : Path) (n : Name) (trail : List Name) :
    root.descend (n :: trail) = (root.join (ofName n)).descend trail := rfl

theorem descend_ne_nil {root : Path} (hroot : root.bytes ≠ []) (trail : List Name) :
    (root.descend trail).bytes ≠ [] := by
  induction trail generalizing root with
  | nil => exact hroot
  | cons n trail ih => exact ih (join_ne_nil hroot (isAbsolute_ofName n))

end Path

namespace Route

theorem step?_name (n : Name) : step? n.bytes = some (.down n) := by
  simp [step?, n.valid.1, Component.ofSegment?_name]

theorem steps_ne_nil {p : Path} (hrelative : p.isAbsolute = false) (hp : p.bytes ≠ []) :
    (ofPath p).steps ≠ [] := by
  obtain ⟨b, rest, hbytes⟩ := List.exists_cons_of_ne_nil hp
  have hb : b ≠ Bytes.slash := by
    rintro rfl
    simp [Path.isAbsolute, hbytes] at hrelative
  obtain ⟨first, others, hsplit⟩ := List.exists_cons_of_ne_nil (Path.split_ne_nil rest)
  have hstep : ∃ step, step? (b :: first) = some step := by
    unfold step?
    rw [if_neg (by simp)]
    split
    all_goals exact ⟨_, rfl⟩
  obtain ⟨step, hstep⟩ := hstep
  simp [ofPath, Path.segments, hbytes, Path.split, hb, hsplit, hstep]

/-- A path behind a base takes the steps of the base and then its own.  It ends in a slash also if
nothing comes behind the one between the two. -/
theorem ofPath_join {base p : Path} (hbase : base.bytes ≠ []) (hrelative : p.isAbsolute = false) :
    ofPath (base.join p) =
      ⟨(ofPath base).fromRoot, (ofPath base).steps ++ (ofPath p).steps,
        (Bytes.slash :: p.bytes).getLast? = some Bytes.slash⟩ := by
  obtain ⟨stem, hjoin, hstem⟩ := Path.exists_stem_join hbase hrelative
  have hsteps : (Path.split base.bytes).filterMap step? = (Path.split stem).filterMap step? := by
    rcases hstem with heq | heq
    · rw [heq]
    · rw [heq, Path.split_append_slash]
      simp [Path.split, step?]
  have hfirst : (stem ++ Bytes.slash :: p.bytes).head? = base.bytes.head? := by
    rcases hstem with heq | heq
    · rw [← heq]
      cases hbytes : base.bytes with
      | nil => contradiction
      | cons b rest => rfl
    · rw [heq]
      cases stem <;> rfl
  unfold ofPath Path.isAbsolute Path.segments
  rw [hjoin, hfirst, List.getLast?_append_of_ne_nil _ (by simp), Path.split_append_slash,
    List.filterMap_append, ← hsteps]

theorem ofPath_join_of_ne_nil {base p : Path} (hbase : base.bytes ≠ [])
    (hrelative : p.isAbsolute = false) (hp : p.bytes ≠ []) :
    ofPath (base.join p) =
      ⟨(ofPath base).fromRoot, (ofPath base).steps ++ (ofPath p).steps, (ofPath p).intoDir⟩ := by
  rw [ofPath_join hbase hrelative, ← List.singleton_append, List.getLast?_append_of_ne_nil _ hp]
  rfl

theorem ofPath_join_nil {base : Path} (hbase : base.bytes ≠ []) :
    ofPath (base.join ⟨[]⟩) = ⟨(ofPath base).fromRoot, (ofPath base).steps, true⟩ := by
  rw [ofPath_join hbase rfl]
  simp [ofPath, Path.segments, Path.split, step?]

theorem ofPath_ofName (n : Name) : ofPath (Path.ofName n) = ⟨false, [.down n], false⟩ := by
  have hname : Path.split n.bytes = [n.bytes] := Path.split_of_not_mem n.valid.2.2.2
  have hlast : n.bytes.getLast? ≠ some Bytes.slash := by
    intro hslash
    exact n.valid.2.2.2 (List.mem_of_getLast? hslash)
  unfold ofPath
  rw [Path.isAbsolute_ofName]
  simp [Path.segments, Path.ofName, hname, step?_name, hlast]

theorem ofPath_join_ofName {base : Path} (hbase : base.bytes ≠ []) (n : Name) :
    ofPath (base.join (Path.ofName n)) =
      ⟨(ofPath base).fromRoot, (ofPath base).steps ++ [.down n], false⟩ := by
  rw [ofPath_join_of_ne_nil hbase (Path.isAbsolute_ofName n) n.valid.1, ofPath_ofName]

theorem ofPath_descend {root : Path} (hroot : root.bytes ≠ []) (trail : List Name) :
    (ofPath (root.descend trail)).fromRoot = (ofPath root).fromRoot ∧
      (ofPath (root.descend trail)).steps =
        (ofPath root).steps ++ trail.map Step.down := by
  induction trail generalizing root with
  | nil => simp
  | cons n trail ih =>
      rw [Path.descend_cons]
      rcases ih (Path.join_ne_nil hroot (Path.isAbsolute_ofName n)) with ⟨hfrom, hsteps⟩
      rw [hfrom, hsteps, ofPath_join_ofName hroot n]
      simp

theorem intoDir_descend {root : Path} (hroot : root.bytes ≠ []) {trail : List Name}
    (htrail : trail ≠ []) :
    (ofPath (root.descend trail)).intoDir = false := by
  obtain ⟨init, n, rfl⟩ := (List.eq_nil_or_concat trail).resolve_left htrail
  have hconcat : root.descend (init ++ [n]) = (root.descend init).join (Path.ofName n) := by
    simp [Path.descend, List.foldl_append]
  rw [List.concat_eq_append, hconcat, ofPath_join_ofName (Path.descend_ne_nil hroot init)]

end Route

theorem Path.descend_injective {root : Path} (hroot : root.bytes ≠ []) :
    Function.Injective root.descend := by
  intro trail other heq
  have hsteps := (Route.ofPath_descend hroot trail).2
  rw [heq, (Route.ofPath_descend hroot other).2] at hsteps
  have hmap : other.map Step.down = trail.map Step.down := List.append_cancel_left hsteps
  have hdown : Function.Injective Step.down := by
    intro n m h
    exact Step.down.inj h
  exact (List.map_injective_iff.2 hdown hmap).symm

namespace FileSystem

theorem start_descend (fs : FileSystem) {root : Path} (hroot : root.bytes ≠ [])
    (trail : List Name) :
    fs.start (root.descend trail) = fs.start root := by
  unfold start
  rw [(Route.ofPath_descend hroot trail).1]

/-- Steps down through real directories lead to the place that the names have in the tree, unless
they end in a link and go on. -/
theorem Travels.down_through {fs : FileSystem} {purpose : Purpose} {links : ℕ} {intoDir : Bool}
    {here : Location} {trail : List Name} {place : Place} {top node : Node}
    (htop : fs.node? here = some top) (hnode : top.get? trail = some node)
    (hstops : ∀ target, node = .link target → purpose = .entry ∧ intoDir = false)
    (hon : Travels fs purpose links intoDir here (trail.map Step.down) place) :
    place = .found (here ++ trail) := by
  induction trail generalizing here top with
  | nil =>
      cases hon
      simp
  | cons n trail ih =>
      obtain ⟨child, hchild, hrest⟩ := Option.bind_eq_some_iff.1 hnode
      have hnext : fs.node? (here ++ [n]) = some child := by
        rw [node?_append, htop]
        exact (Node.get?_singleton top n).trans hchild
      rw [List.map_cons] at hon
      generalize htail : trail.map Step.down = tail at hon
      cases hon with
      | miss _ hnone =>
          rw [hnext] at hnone
          contradiction
      | keep => rw [List.map_eq_nil_iff.1 htail]
      | follow hgoesOn _ hlink _ =>
          rw [hnext] at hlink
          cases hlink
          cases trail with
          | nil =>
              cases hrest
              obtain ⟨hpurpose, hopen⟩ := hstops _ rfl
              exact absurd ⟨htail.symm, hopen, hpurpose⟩ hgoesOn
          | cons m trail => simp [Node.get?, Node.entry?] at hrest
      | enter _ _ _ _ hfurther =>
          rw [← htail] at hfurther
          have harrive := ih hnext hrest hfurther
          simpa using harrive

/-- Where a path below a root leads, if it leads anywhere and does not end in a link. -/
theorem locate_descend {fs : FileSystem} {root : Path} {trail : List Name}
    {here location : Location} {top node : Node}
    (hroot : fs.locate .use root = .ok here) (htop : fs.node? here = some top)
    (hnode : top.get? trail = some node) (hnotLink : ∀ target, node ≠ .link target)
    (hlocate : fs.locate .use (root.descend trail) = .ok location) :
    location = here ++ trail := by
  rw [locate_eq_ok_iff, resolve_eq_ok_iff] at hroot hlocate
  rcases hroot with ⟨husable, hbase⟩
  rcases hlocate with ⟨_, hpath⟩
  rw [start_descend fs husable.notEmpty, (Route.ofPath_descend husable.notEmpty trail).2] at hpath
  cases trail with
  | nil =>
      have hfirst := travel_of_travels hbase
      have hsecond := travel_of_travels hpath
      simp only [Path.descend_nil, List.map_nil, List.append_nil] at hsecond
      rw [hfirst] at hsecond
      cases hsecond
      simp
  | cons n trail =>
      rcases hbase.go_on (by simp) hpath with ⟨links, hon⟩
      have harrive := hon.down_through htop hnode fun target hlink => absurd hlink (hnotLink target)
      cases harrive
      rfl

theorem list_descend {fs : FileSystem} {root : Path} {trail : List Name} {here : Location}
    {top : Node} {mode : Mode} {entries listed : List (Name × Node)}
    (hroot : fs.locate .use root = .ok here) (htop : fs.node? here = some top)
    (hdir : top.get? trail = some (.dir mode entries))
    (hlist : fs.list (root.descend trail) = .ok listed) :
    listed = entries := by
  obtain ⟨mode', hstat, _⟩ := (list_eq_ok_iff fs _ listed).1 hlist
  obtain ⟨location, hlocate, hnode⟩ := (stat_eq_ok_iff fs _ _).1 hstat
  have hwhere := locate_descend hroot htop hdir (by simp) hlocate
  rw [hwhere, node?_append, htop, Option.bind_some, hdir] at hnode
  cases hnode
  rfl

end FileSystem

end TreePack
