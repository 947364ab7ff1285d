import Mathlib.Data.List.TakeWhile
import Mathlib.Tactic
import TreePack.Proofs.Visits

/-!
# Trails in their order

Trails are ordered like the words of a dictionary.  What stands between a trail and one of its
extensions is an extension itself.  So wherever visits are in order, those beneath a directory stand
together, right behind the visit of the directory.

Visits in order are determined by which visits they are.
-/

namespace TreePack

theorem TrailBefore.asymm {trail other : List Name} (hbefore : TrailBefore trail other) :
    ¬ TrailBefore other trail := by
  apply List.lex_asymm _ hbefore
  intro n m hnm hmn
  exact Name.before_irrefl n (hnm.trans hmn)

theorem TrailBefore.ne {trail other : List Name} (hbefore : TrailBefore trail other) :
    trail ≠ other := by
  rintro rfl
  exact trailBefore_irrefl _ hbefore

theorem TrailBefore.append_left {trail other : List Name} (hbefore : TrailBefore trail other)
    (common : List Name) :
    TrailBefore (common ++ trail) (common ++ other) :=
  List.Lex.append_left Name.Before hbefore common

theorem trailBefore_append (trail : List Name) {more : List Name} (hmore : more ≠ []) :
    TrailBefore trail (trail ++ more) := by
  obtain ⟨n, rest, rfl⟩ := List.exists_cons_of_ne_nil hmore
  have hnil : TrailBefore [] (n :: rest) := List.Lex.nil
  simpa using hnil.append_left trail

theorem TrailBefore.isPrefix_of_between {trail between more : List Name}
    (hafter : TrailBefore trail between) (hbefore : TrailBefore between (trail ++ more)) :
    trail <+: between := by
  induction trail generalizing between with
  | nil => exact List.nil_prefix
  | cons n trail ih =>
      rw [List.cons_append] at hbefore
      cases hafter with
      | rel hnm =>
          cases hbefore with
          | rel hmn => exact absurd (hnm.trans hmn) (Name.before_irrefl n)
          | cons _ => exact absurd hnm (Name.before_irrefl n)
      | cons hrest =>
          cases hbefore with
          | rel hnn => exact absurd hnn (Name.before_irrefl n)
          | cons hmore => exact (List.prefix_cons_inj n).2 (ih hrest hmore)

/-- The second trail leads to a place beneath the place of the first. -/
def Beneath (trail other : List Name) : Prop :=
  ∃ more, more ≠ [] ∧ other = trail ++ more

theorem Beneath.isPrefix {trail other : List Name} (hbeneath : Beneath trail other) :
    trail <+: other := by
  obtain ⟨more, -, rfl⟩ := hbeneath
  exact List.prefix_append trail more

theorem Beneath.before {trail other : List Name} (hbeneath : Beneath trail other) :
    TrailBefore trail other := by
  obtain ⟨more, hmore, rfl⟩ := hbeneath
  exact trailBefore_append trail hmore

theorem Beneath.ne {trail other : List Name} (hbeneath : Beneath trail other) : other ≠ trail :=
  hbeneath.before.ne.symm

theorem TrailBefore.not_beneath {trail other : List Name} (hbefore : TrailBefore other trail) :
    ¬ Beneath trail other :=
  fun hbeneath => hbefore.asymm hbeneath.before

theorem beneath_of_isPrefix {trail other : List Name} (hstart : trail <+: other)
    (hne : other ≠ trail) :
    Beneath trail other := by
  obtain ⟨more, rfl⟩ := hstart
  exact ⟨more, by simpa using hne, rfl⟩

theorem beneath_concat_iff {trail other : List Name} {n : Name} :
    Beneath trail (other ++ [n]) ↔ other = trail ∨ Beneath trail other := by
  constructor
  · rintro ⟨more, hmore, heq⟩
    obtain ⟨init, m, rfl⟩ := (List.eq_nil_or_concat more).resolve_left hmore
    rw [List.concat_eq_append, ← List.append_assoc] at heq
    obtain ⟨rfl, -⟩ := List.append_inj' heq rfl
    by_cases hinit : init = []
    · exact .inl (by simp [hinit])
    · exact .inr ⟨init, hinit, rfl⟩
  · rintro (rfl | ⟨more, -, rfl⟩)
    · exact ⟨[n], by simp, rfl⟩
    · exact ⟨more ++ [n], by simp, by simp⟩

/-! ## Visits in order -/

def InOrder (visits : List Visit) : Prop :=
  visits.Pairwise fun visit later => TrailBefore visit.trail later.trail

theorem Node.inOrder_visits {fs : FileSystem} {rules : Rules} {node : Node}
    (hwf : node.WellFormed) (path : Path) (name : Bytes) :
    InOrder (node.visits fs rules path name) :=
  List.pairwise_map.1 (visits_pairwise hwf path name)

theorem InOrder.of_sublist {visits others : List Visit} (horder : InOrder visits)
    (hsub : (others.map Visit.trail).Sublist (visits.map Visit.trail)) :
    InOrder others :=
  List.pairwise_map.1 ((List.pairwise_map.2 horder).sublist hsub)

theorem Node.nil_mem_visits_dir_iff {fs : FileSystem} {rules : Rules} {path : Path} {name : Bytes}
    {mode : Mode} {entries : List (Name × Node)} {verdict : Verdict} :
    ⟨[], verdict⟩ ∈ (dir mode entries).visits fs rules path name ↔
      verdict = match fs.list path with
        | .error e => .unlistable e
        | .ok _ => .entered := by
  rw [visits_dir]
  cases fs.list path with
  | error e => simp
  | ok listed => simp [mem_inNameOrder, Visit.under]

theorem InOrder.eq_of_mem_iff {visits others : List Visit} (hvisits : InOrder visits)
    (hothers : InOrder others) (hmem : ∀ visit, visit ∈ visits ↔ visit ∈ others) :
    visits = others := by
  have hirrefl : Std.Irrefl fun visit later : Visit => TrailBefore visit.trail later.trail :=
    ⟨fun visit => trailBefore_irrefl visit.trail⟩
  have hantisymm : Std.Antisymm fun visit later : Visit => TrailBefore visit.trail later.trail :=
    ⟨fun _ _ hbefore hback => absurd hback hbefore.asymm⟩
  exact List.Pairwise.eq_of_mem_iff hvisits hothers hmem

theorem eq_false_of_mem_dropWhile {α : Type} {p : α → Bool} {l : List α}
    (hclosed : l.Pairwise fun a b => p b = true → p a = true) {a : α}
    (hmem : a ∈ l.dropWhile p) :
    p a = false := by
  induction l with
  | nil => simp at hmem
  | cons first rest ih =>
      obtain ⟨hfirst, hrest⟩ := List.pairwise_cons.1 hclosed
      cases hp : p first with
      | true =>
          rw [List.dropWhile_cons_of_pos hp] at hmem
          exact ih hrest hmem
      | false =>
          rw [List.dropWhile_cons_of_neg (by simp [hp])] at hmem
          rcases List.mem_cons.1 hmem with rfl | hlater
          · exact hp
          · exact Bool.eq_false_iff.2 fun hpa => by simp [hfirst a hlater hpa] at hp

/-- The visit is that of the place to which the trail leads, or lies beneath it. -/
def Visit.isWithin (trail : List Name) (visit : Visit) : Bool :=
  trail.isPrefixOf visit.trail

theorem Visit.isWithin_iff (trail : List Name) (visit : Visit) :
    visit.isWithin trail = true ↔ trail <+: visit.trail :=
  List.isPrefixOf_iff_prefix

theorem Visit.isWithin_of_beneath {trail : List Name} {visit : Visit}
    (hbeneath : Beneath trail visit.trail) :
    visit.isWithin trail = true :=
  (visit.isWithin_iff trail).2 hbeneath.isPrefix

theorem Visit.isWithin_eq_false {trail : List Name} {visit : Visit} (hne : visit.trail ≠ trail)
    (hout : ¬ Beneath trail visit.trail) :
    visit.isWithin trail = false := by
  rw [Bool.eq_false_iff, ne_eq, Visit.isWithin_iff]
  intro hstart
  exact hout (beneath_of_isPrefix hstart hne)

/-- Visits in order are those before a given one, this one, those beneath it and those after
them. -/
theorem InOrder.exists_split {visits : List Visit} (horder : InOrder visits) {visit : Visit}
    (hmem : visit ∈ visits) :
    ∃ before within after, visits = before ++ visit :: (within ++ after) ∧
      (∀ other ∈ before, TrailBefore other.trail visit.trail) ∧
      (∀ other ∈ within, Beneath visit.trail other.trail) ∧
      ∀ other ∈ after, TrailBefore visit.trail other.trail ∧ ¬ Beneath visit.trail other.trail := by
  obtain ⟨before, rest, rfl⟩ := List.append_of_mem hmem
  obtain ⟨-, hlater, hbefore⟩ := List.pairwise_append.1 horder
  obtain ⟨hrest, hsorted⟩ := List.pairwise_cons.1 hlater
  have hclosed : rest.Pairwise fun other later =>
      later.isWithin visit.trail = true → other.isWithin visit.trail = true := by
    apply hsorted.imp_of_mem
    intro other later hother _ hafter hlater'
    obtain ⟨more, hmore⟩ := (later.isWithin_iff _).1 hlater'
    rw [← hmore] at hafter
    exact (other.isWithin_iff _).2 ((hrest other hother).isPrefix_of_between hafter)
  refine ⟨before, rest.takeWhile (·.isWithin visit.trail),
    rest.dropWhile (·.isWithin visit.trail), ?_, ?_, ?_, ?_⟩
  · rw [List.takeWhile_append_dropWhile]
  · intro other hother
    exact hbefore other hother visit List.mem_cons_self
  · intro other hother
    have hwhere := hrest other ((List.takeWhile_prefix _).subset hother)
    have hwithin := (other.isWithin_iff _).1 (List.mem_takeWhile_imp hother)
    exact beneath_of_isPrefix hwithin hwhere.ne.symm
  · intro other hother
    refine ⟨hrest other ((List.dropWhile_suffix _).subset hother), ?_⟩
    intro hbeneath
    have hwithin := Visit.isWithin_of_beneath hbeneath
    rw [eq_false_of_mem_dropWhile hclosed hother] at hwithin
    contradiction

end TreePack
