import Apex.Core.Check
import Apex.Persistence.MigrationLineage
import Mathlib.Data.Finset.Max

/-!
# What An Accepted Lineage Says

The search stops at a revision that is not registered and at one that is on its own path, so
it finishes exactly where every ancestor is registered and none is its own ancestor. While it
runs, the finished revisions are closed under parents and none of them is on the path. This is
what each call keeps, and why a revision that is met on the path lies on a cycle.

Acceptance is then a statement about ancestors alone. Edges that agree on the packaged
revisions carry the packaged ancestors into the database, and ancestors of ancestors are
ancestors, which is why acceptance composes.

## Main definitions

* `RevisionGraph.HasParent`, `RevisionGraph.Below`: One edge, and ancestors or the same.
* `RevisionGraph.Sound`: Every ancestor is registered and none is its own ancestor.
* `Descends`: What acceptance requires.

## Theorems

* `visit_spec`: What the search finds, or why it fails.
* `ancestorClosure_iff`: When the search finishes.
* `accepted_iff`: When a package may run.
* `lineage_accepted`: And what follows for its revisions, and for older packages.
* `rollback_accepted`: What an older package accepts of a database that a newer one migrated.
-/

namespace Apex.Persistence

open List
open Option hiding or_assoc
open Relation

namespace RevisionGraph

variable (graph : RevisionGraph)

def HasParent (revision parent : String) : Prop :=
  ∃ parents, graph.get? revision = some parents ∧ parent ∈ parents

/-- The second revision is the first one or an ancestor of it. -/
abbrev Below : String → String → Prop := ReflTransGen graph.HasParent

/-- A revision is registered and not its own ancestor. -/
def IsProper (revision : String) : Prop :=
  graph.get? revision ≠ none ∧ ¬ TransGen graph.HasParent revision revision

/-- Every revision that is reached is registered and on no cycle. -/
def Sound (head : String) : Prop :=
  ∀ revision, graph.Below head revision → graph.IsProper revision

/-- The finished revisions: closed under parents, and none on a cycle. -/
def Settled (visited : List String) : Prop :=
  ∀ revision ∈ visited, graph.IsProper revision ∧
    ∀ parent, graph.HasParent revision parent → parent ∈ visited

theorem Settled.below {graph : RevisionGraph} {visited : List String} {revision ancestor : String}
    (h : graph.Settled visited) (hmem : revision ∈ visited)
    (hbelow : graph.Below revision ancestor) : ancestor ∈ visited := by
  induction hbelow with
  | refl => exact hmem
  | tail _ hparent ih => exact (h _ ih).2 _ hparent

end RevisionGraph

variable {graph : RevisionGraph}

/-- What a search that began at some revisions has found, or why it failed. -/
def Found (graph : RevisionGraph) (active starts visited : List String) :
    Except LineageError (List String) → Prop
  | .ok found => graph.Settled found ∧ (∀ r ∈ found, r ∉ active) ∧
      ∀ r, r ∈ found ↔ r ∈ visited ∨ ∃ start ∈ starts, graph.Below start r
  | .error _ => ∃ start ∈ starts, ∃ r, graph.Below start r ∧ (r ∈ active ∨ ¬ graph.IsProper r)

theorem visitAll_spec {active : List String}
    (hvisit : ∀ revision visited, graph.Settled visited → (∀ r ∈ visited, r ∉ active) →
      Found graph active [revision] visited (visit graph active revision visited))
    (parents visited : List String) (hsettled : graph.Settled visited)
    (hactive : ∀ r ∈ visited, r ∉ active) :
    Found graph active parents visited (visitAll graph active parents visited) := by
  induction parents generalizing visited with
  | nil =>
    rw [visitAll]
    exact ⟨hsettled, hactive, fun r => by simp⟩
  | cons parent parents ih =>
    have hone := hvisit parent visited hsettled hactive
    rw [visitAll]
    cases hfirst : visit graph active parent visited with
    | error e =>
      rw [hfirst] at hone
      rcases hone with ⟨start, hstart, r, hr⟩
      exact ⟨parent, mem_cons_self, r, mem_singleton.mp hstart ▸ hr⟩
    | ok next =>
      rw [hfirst] at hone
      rcases hone with ⟨hnext, hfresh, hmem⟩
      have hrest := ih next hnext hfresh
      show Found graph active (parent :: parents) visited (visitAll graph active parents next)
      cases hlast : visitAll graph active parents next with
      | error e =>
        rw [hlast] at hrest
        rcases hrest with ⟨start, hstart, hr⟩
        exact ⟨start, mem_cons_of_mem _ hstart, hr⟩
      | ok found =>
        rw [hlast] at hrest
        refine ⟨hrest.1, hrest.2.1, fun r => ?_⟩
        rw [hrest.2.2, hmem]
        simp only [mem_cons, exists_eq_or_imp, not_mem_nil, false_and,
          exists_false, false_or, or_assoc]

theorem visit_spec (graph : RevisionGraph) (active : List String) :
    ∀ revision visited, graph.Settled visited → (∀ r ∈ visited, r ∉ active) →
      Found graph active [revision] visited (visit graph active revision visited) := by
  -- Each level of the search has one more registered revision on its path.
  induction hsize : (graph.aside active).length using Nat.strong_induction_on
    generalizing active with
  | _ size ih =>
  intro revision visited hsettled hfresh
  subst hsize
  rw [visit]
  by_cases hactive : revision ∈ active
  · rw [dif_pos hactive]
    exact ⟨revision, mem_singleton_self _, revision, .refl, Or.inl hactive⟩
  rw [dif_neg hactive]
  by_cases hvisited : revision ∈ visited
  · rw [if_pos hvisited]
    refine ⟨hsettled, hfresh, fun r => ⟨Or.inl, ?_⟩⟩
    rintro (hr | ⟨start, hstart, hbelow⟩)
    · exact hr
    · exact hsettled.below (mem_singleton.mp hstart ▸ hvisited) hbelow
  rw [if_neg hvisited]
  split
  · rename_i hmissing
    exact ⟨revision, mem_singleton_self _, revision, .refl, Or.inr fun h => h.1 hmissing⟩
  rename_i parents hparents
  have hall := visitAll_spec (ih _ (graph.aside_lt hparents hactive) _ rfl) parents visited
    hsettled fun r hr hpath => (mem_cons.mp hpath).elim
      (fun heq => hvisited (heq ▸ hr)) (hfresh r hr)
  have hparent : ∀ p ∈ parents, graph.HasParent revision p := fun p hp => ⟨parents, hparents, hp⟩
  cases hrest : visitAll graph (revision :: active) parents visited with
  | error e =>
    rw [hrest] at hall
    rcases hall with ⟨start, hstart, r, hbelow, hr⟩
    refine ⟨revision, mem_singleton_self _, ?_⟩
    have hr' : r = revision ∨ r ∈ active ∨ ¬ graph.IsProper r := by
      rw [List.mem_cons, or_assoc] at hr
      exact hr
    rcases hr' with rfl | hr
    · -- The revision is met again below one of its parents.
      exact ⟨r, .refl, Or.inr fun h =>
        h.2 (TransGen.head' (hparent start hstart) hbelow)⟩
    · exact ⟨r, .head (hparent start hstart) hbelow, hr⟩
  | ok found =>
    rw [hrest] at hall
    rcases hall with ⟨hfound, hpath, hmem⟩
    have hnew : revision ∉ found := fun h => hpath _ h mem_cons_self
    have hin : ∀ p, graph.HasParent revision p → p ∈ found := by
      rintro p ⟨parents', hget, hp⟩
      rw [hparents, some.injEq] at hget
      exact (hmem p).mpr (Or.inr ⟨p, hget ▸ hp, .refl⟩)
    have hproper : graph.IsProper revision := by
      refine ⟨by rw [hparents]; simp, fun hcycle => ?_⟩
      rcases TransGen.head'_iff.mp hcycle with ⟨p, hp, hback⟩
      exact hnew (hfound.below (hin p hp) hback)
    refine ⟨fun r hr => ?_, fun r hr => ?_, fun r => ?_⟩
    · rcases mem_cons.mp hr with rfl | hr
      · exact ⟨hproper, fun p hp => mem_cons_of_mem _ (hin p hp)⟩
      · exact ⟨(hfound r hr).1, fun p hp => mem_cons_of_mem _ ((hfound r hr).2 p hp)⟩
    · rcases mem_cons.mp hr with rfl | hr
      · exact hactive
      · exact fun h => hpath r hr (mem_cons_of_mem _ h)
    · rw [mem_cons, hmem]
      simp only [mem_singleton, exists_eq_left]
      constructor
      · rintro (rfl | hr | ⟨p, hp, hbelow⟩)
        · exact Or.inr .refl
        · exact Or.inl hr
        · exact Or.inr (.head (hparent p hp) hbelow)
      · rintro (hr | hbelow)
        · exact Or.inr (Or.inl hr)
        · rcases ReflTransGen.cases_head hbelow with heq | ⟨p, ⟨ps, hget, hp⟩, hrest⟩
          · exact Or.inl heq.symm
          · rw [hparents, some.injEq] at hget
            exact Or.inr (Or.inr ⟨p, hget ▸ hp, hrest⟩)

theorem ancestorClosure_iff (graph : RevisionGraph) (head : String) :
    (∃ found, ancestorClosure head graph = .ok found ∧ ∀ r, r ∈ found ↔ graph.Below head r) ∧
        graph.Sound head ∨
      (∃ e, ancestorClosure head graph = .error e) ∧ ¬ graph.Sound head := by
  rw [ancestorClosure]
  cases hhead : graph.get? head with
  | none => exact Or.inr ⟨⟨_, rfl⟩, fun h => (h head .refl).1 hhead⟩
  | some parents =>
    have hspec := visit_spec graph [] head [] (fun _ h => absurd h not_mem_nil)
      fun _ h => absurd h not_mem_nil
    rw [isNone_some, if_neg Bool.false_ne_true]
    cases hvisit : visit graph [] head [] with
    | error e =>
      rw [hvisit] at hspec
      rcases hspec with ⟨start, hstart, r, hbelow, hr⟩
      rw [mem_singleton.mp hstart] at hbelow
      exact Or.inr ⟨⟨e, rfl⟩, fun h => hr.elim not_mem_nil fun hr => hr (h r hbelow)⟩
    | ok found =>
      rw [hvisit] at hspec
      rcases hspec with ⟨hsettled, -, hmem⟩
      have hall : ∀ r, r ∈ found ↔ graph.Below head r := fun r => by
        rw [hmem]
        simp only [not_mem_nil, mem_singleton, exists_eq_left, false_or]
      exact Or.inl ⟨⟨found, rfl, hall⟩, fun r hr => (hsettled r ((hall r).mpr hr)).1⟩

/-- The database has exactly the packaged parents for every packaged revision. -/
def AgreesOn (databaseGraph packagedGraph : RevisionGraph) : Prop :=
  ∀ revision parents, packagedGraph.get? revision = some parents →
    ∃ stored, databaseGraph.get? revision = some stored ∧ ∀ p, p ∈ stored ↔ p ∈ parents

structure Descends (currentHeads packagedHeads : List String)
    (databaseGraph packagedGraph : RevisionGraph) : Prop where
  current : currentHeads ≠ []
  packaged : packagedHeads ≠ []
  agrees : AgreesOn databaseGraph packagedGraph
  sound : ∀ head ∈ currentHeads, databaseGraph.Sound head
  apart : ∀ head ∈ currentHeads, ∀ other ∈ currentHeads, other ≠ head →
    ¬ databaseGraph.Below head other
  ahead : ∀ head ∈ currentHeads, ∃ expected ∈ packagedHeads, databaseGraph.Below head expected
  kept : ∀ expected ∈ packagedHeads, ∃ head ∈ currentHeads, databaseGraph.Below head expected

theorem agrees_iff {databaseGraph packagedGraph : RevisionGraph} :
    (packagedGraph.items.any fun item =>
        !((databaseGraph.get? item.1).any (sameSet · item.2))) = false ↔
      AgreesOn databaseGraph packagedGraph := by
  simp only [List.any_eq_false, Bool.not_eq_true', Bool.not_eq_false, Option.any_eq_true,
    sameSet_iff, AgreesOn, ← Dict.mem_items_iff, Prod.forall]

theorem closures_ok {heads : List String} {entries : List (String × List String)}
    (h : (heads.mapM fun head => (head, ·) <$> ancestorClosure head graph) = .ok entries) :
    heads = entries.map Prod.fst ∧ ∀ entry ∈ entries,
      graph.Sound entry.1 ∧ ∀ r, r ∈ entry.2 ↔ graph.Below entry.1 r := by
  have hone : ∀ {head : String} {entry : String × List String},
      (head, ·) <$> ancestorClosure head graph = .ok entry →
      head = entry.1 ∧ ancestorClosure entry.1 graph = .ok entry.2 := by
    intro head entry hmap
    rcases map_ok.mp hmap with ⟨ancestors, hok, rfl⟩
    exact ⟨rfl, hok⟩
  constructor
  · rw [← forall₂_eq_eq_eq, forall₂_map_right_iff]
    exact (mapM_ok.mp h).imp fun _ _ hmap => (hone hmap).1
  · intro entry hentry
    rcases mapM_mem h hentry with ⟨head, -, hmap⟩
    have hok := (hone hmap).2
    rcases ancestorClosure_iff graph entry.1 with ⟨⟨found, hfound, hall⟩, hsound⟩ | ⟨⟨e, he⟩, -⟩
    · rw [hok, Except.ok.injEq] at hfound
      exact ⟨hsound, fun r => hfound ▸ hall r⟩
    · rw [hok] at he
      exact absurd he (by simp)

theorem closures_exist {heads : List String} (h : ∀ head ∈ heads, graph.Sound head) :
    ∃ entries, (heads.mapM fun head => (head, ·) <$> ancestorClosure head graph) =
      .ok entries := by
  refine mapM_exists fun head hhead => ?_
  rcases ancestorClosure_iff graph head with ⟨⟨found, hfound, -⟩, -⟩ | ⟨-, hunsound⟩
  · exact ⟨(head, found), by rw [hfound]; rfl⟩
  · exact absurd (h head hhead) hunsound

theorem accepted_iff (currentHeads packagedHeads : List String)
    (databaseGraph packagedGraph : RevisionGraph) :
    databaseHeadsDescendFromPackagedHeads currentHeads packagedHeads databaseGraph packagedGraph
        = true ↔ Descends currentHeads packagedHeads databaseGraph packagedGraph := by
  rw [databaseHeadsDescendFromPackagedHeads]
  by_cases hempty : (currentHeads.isEmpty || packagedHeads.isEmpty) = true
  · rw [if_pos hempty]
    refine ⟨fun h => absurd h Bool.false_ne_true, fun h => ?_⟩
    rw [Bool.or_eq_true, List.isEmpty_iff, List.isEmpty_iff] at hempty
    exact hempty.elim (absurd · h.current) (absurd · h.packaged)
  rw [if_neg hempty]
  rw [Bool.or_eq_true, List.isEmpty_iff, List.isEmpty_iff, not_or] at hempty
  by_cases hagrees : AgreesOn databaseGraph packagedGraph
  swap
  · rw [if_pos (Bool.not_eq_false _ ▸ fun h => hagrees (agrees_iff.mp h))]
    exact ⟨fun h => absurd h Bool.false_ne_true, fun h => absurd h.agrees hagrees⟩
  rw [if_neg (Bool.not_eq_true _ ▸ agrees_iff.mpr hagrees)]
  split
  · rename_i e herror
    refine ⟨fun h => absurd h Bool.false_ne_true, fun h => ?_⟩
    rcases closures_exist h.sound with ⟨entries, hok⟩
    rw [hok] at herror
    exact absurd herror (by simp)
  · rename_i entries hok
    rcases closures_ok hok with ⟨rfl, hentries⟩
    have hmem : ∀ entry ∈ entries, ∀ r, entry.2.contains r = true ↔
        databaseGraph.Below entry.1 r := fun entry hentry r => by
      rw [contains_iff_mem, (hentries entry hentry).2]
    have happart : (entries.any fun entry => (entries.map Prod.fst).any fun other =>
        other != entry.1 && entry.2.contains other) = false ↔
          ∀ head ∈ entries.map Prod.fst, ∀ other ∈ entries.map Prod.fst, other ≠ head →
            ¬ databaseGraph.Below head other := by
      rw [List.any_eq_false, List.forall_mem_map]
      refine forall₂_congr fun entry hentry => ?_
      simp only [List.any_eq_true, Bool.and_eq_true, bne_iff_ne, not_exists, not_and,
        hmem entry hentry]
    have hahead : (entries.all fun entry => packagedHeads.any entry.2.contains) = true ↔
        ∀ head ∈ entries.map Prod.fst, ∃ expected ∈ packagedHeads,
          databaseGraph.Below head expected := by
      rw [List.all_eq_true, List.forall_mem_map]
      refine forall₂_congr fun entry hentry => ?_
      simp only [List.any_eq_true, hmem entry hentry]
    have hkept : (packagedHeads.all fun expected =>
          entries.any fun entry => entry.2.contains expected) = true ↔
        ∀ expected ∈ packagedHeads, ∃ head ∈ entries.map Prod.fst,
          databaseGraph.Below head expected := by
      rw [List.all_eq_true]
      refine forall₂_congr fun expected _ => ?_
      simp only [List.any_eq_true, List.mem_map, exists_exists_and_eq_and]
      exact exists_congr fun entry => and_congr_right fun hentry => hmem entry hentry expected
    have hsound : ∀ head ∈ entries.map Prod.fst, databaseGraph.Sound head :=
      List.forall_mem_map.mpr fun entry hentry => (hentries entry hentry).1
    constructor
    · intro h
      rw [Bool.if_false_left, Bool.and_eq_true, Bool.and_eq_true, Bool.not_eq_true',
        decide_eq_false_iff_not, Bool.not_eq_true] at h
      exact ⟨hempty.1, hempty.2, hagrees, hsound, happart.mp h.1, hahead.mp h.2.1, hkept.mp h.2.2⟩
    · intro h
      rw [happart.mpr h.apart, hahead.mpr h.ahead, hkept.mpr h.kept]
      rfl

/-- A packaged graph is closed and acyclic, and its heads are its revisions without children. -/
structure IsRelease (heads : List String) (graph : RevisionGraph) : Prop where
  closed : ∀ revision parent, graph.HasParent revision parent → graph.get? parent ≠ none
  acyclic : ∀ revision, ¬ TransGen graph.HasParent revision revision
  heads : ∀ revision, revision ∈ heads ↔
    graph.get? revision ≠ none ∧ ∀ child, ¬ graph.HasParent child revision

theorem IsRelease.covered {heads : List String} (h : IsRelease heads graph) {revision : String}
    (hregistered : graph.get? revision ≠ none) :
    ∃ head ∈ heads, graph.Below head revision := by
  classical
  -- Among the descendants, one that has most ancestors has no child.
  let descendants := graph.keys.toFinset.filter (graph.Below · revision)
  let ancestors := fun r => graph.keys.toFinset.filter (graph.Below r)
  have hkey : ∀ r, r ∈ graph.keys.toFinset ↔ graph.get? r ≠ none := fun r => by
    rw [List.mem_toFinset, Ne, Dict.get?_eq_none_iff, not_not]
  have hself : revision ∈ descendants :=
    Finset.mem_filter.mpr ⟨(hkey revision).mpr hregistered, .refl⟩
  rcases Finset.exists_max_image descendants (fun r => (ancestors r).card) ⟨revision, hself⟩
    with ⟨head, hhead, hmax⟩
  rcases Finset.mem_filter.mp hhead with ⟨hkeyed, hbelow⟩
  refine ⟨head, (h.heads head).mpr ⟨(hkey head).mp hkeyed, fun child hchild => ?_⟩, hbelow⟩
  have hchildKey : child ∈ graph.keys.toFinset := (hkey child).mpr fun hnone => by
    rcases hchild with ⟨parents, hget, -⟩
    rw [hnone] at hget
    exact absurd hget (by simp)
  have hmore : ancestors head ⊂ ancestors child := by
    refine Finset.ssubset_iff_subset_ne.mpr ⟨fun r hr => ?_, fun heq => ?_⟩
    · rcases Finset.mem_filter.mp hr with ⟨hr, hrbelow⟩
      exact Finset.mem_filter.mpr ⟨hr, .head hchild hrbelow⟩
    · have hback : child ∈ ancestors head :=
        heq ▸ Finset.mem_filter.mpr ⟨hchildKey, .refl⟩
      exact h.acyclic child (TransGen.head' hchild (Finset.mem_filter.mp hback).2)
  have hle := hmax child (Finset.mem_filter.mpr ⟨hchildKey, .head hchild hbelow⟩)
  exact absurd (Finset.card_lt_card hmore) (Nat.not_lt.mpr hle)

section

variable {databaseGraph packagedGraph olderGraph : RevisionGraph}
  {currentHeads packagedHeads olderHeads : List String} {revision ancestor : String}

theorem AgreesOn.hasParent (h : AgreesOn databaseGraph packagedGraph)
    (hparent : packagedGraph.HasParent revision ancestor) :
    databaseGraph.HasParent revision ancestor := by
  rcases hparent with ⟨parents, hget, hmem⟩
  rcases h revision parents hget with ⟨stored, hstored, hsame⟩
  exact ⟨stored, hstored, (hsame ancestor).mpr hmem⟩

theorem AgreesOn.below (h : AgreesOn databaseGraph packagedGraph)
    (hbelow : packagedGraph.Below revision ancestor) : databaseGraph.Below revision ancestor :=
  ReflTransGen.mono (fun _ _ => h.hasParent) _ _ hbelow

theorem AgreesOn.trans (h : AgreesOn databaseGraph packagedGraph)
    (holder : AgreesOn packagedGraph olderGraph) : AgreesOn databaseGraph olderGraph := by
  intro revision parents hget
  rcases holder revision parents hget with ⟨packaged, hpackaged, hsame⟩
  rcases h revision packaged hpackaged with ⟨stored, hstored, hequal⟩
  exact ⟨stored, hstored, fun p => (hequal p).trans (hsame p)⟩

theorem Descends.covers (h : Descends currentHeads packagedHeads databaseGraph packagedGraph)
    (hrelease : IsRelease packagedHeads packagedGraph)
    (hregistered : packagedGraph.get? revision ≠ none) :
    ∃ head ∈ currentHeads, databaseGraph.Below head revision := by
  rcases hrelease.covered hregistered with ⟨expected, hexpected, hbelow⟩
  rcases h.kept expected hexpected with ⟨head, hhead, habove⟩
  exact ⟨head, hhead, habove.trans (h.agrees.below hbelow)⟩

theorem Descends.trans (h : Descends currentHeads packagedHeads databaseGraph packagedGraph)
    (holder : Descends packagedHeads olderHeads packagedGraph olderGraph) :
    Descends currentHeads olderHeads databaseGraph olderGraph where
  current := h.current
  packaged := holder.packaged
  agrees := h.agrees.trans holder.agrees
  sound := h.sound
  apart := h.apart
  ahead := by
    intro head hhead
    rcases h.ahead head hhead with ⟨expected, hexpected, hbelow⟩
    rcases holder.ahead expected hexpected with ⟨older, holder', hrest⟩
    exact ⟨older, holder', hbelow.trans (h.agrees.below hrest)⟩
  kept := by
    intro older hmem
    rcases holder.kept older hmem with ⟨expected, hexpected, hbelow⟩
    rcases h.kept expected hexpected with ⟨head, hhead, hrest⟩
    exact ⟨head, hhead, hrest.trans (h.agrees.below hbelow)⟩

end

/-- The check decides what acceptance requires. An accepted database holds every revision of a
    release below its heads, and what is accepted for a newer package, accepted in its turn
    for an older one, is accepted for the older one. -/
theorem lineage_accepted (currentHeads packagedHeads : List String)
    (databaseGraph packagedGraph : RevisionGraph) :
    (databaseHeadsDescendFromPackagedHeads currentHeads packagedHeads databaseGraph packagedGraph
        = true ↔ Descends currentHeads packagedHeads databaseGraph packagedGraph) ∧
    (databaseHeadsDescendFromPackagedHeads currentHeads packagedHeads databaseGraph packagedGraph
        = true → IsRelease packagedHeads packagedGraph →
      ∀ revision, packagedGraph.get? revision ≠ none →
        ∃ head ∈ currentHeads, databaseGraph.Below head revision) ∧
    ∀ (olderHeads : List String) (olderGraph : RevisionGraph),
      databaseHeadsDescendFromPackagedHeads currentHeads packagedHeads databaseGraph packagedGraph
        = true →
      databaseHeadsDescendFromPackagedHeads packagedHeads olderHeads packagedGraph olderGraph
        = true →
      databaseHeadsDescendFromPackagedHeads currentHeads olderHeads databaseGraph olderGraph
        = true := by
  refine ⟨accepted_iff .., fun haccepted hrelease _ hregistered => ?_,
    fun olderHeads olderGraph haccepted holder => ?_⟩
  · exact ((accepted_iff ..).mp haccepted).covers hrelease hregistered
  · exact (accepted_iff ..).mpr
      (((accepted_iff ..).mp haccepted).trans ((accepted_iff ..).mp holder))

/-- Packages that know a revision agree on its parents. -/
def Immutable (packages : List (List (String × String))) : Prop :=
  ∀ rows ∈ packages, ∀ others ∈ packages, ∀ revision parent known,
    (revision, parent) ∈ rows → (revision, known) ∈ others → (revision, parent) ∈ others

theorem Immutable.agreesOn {packages : List (List (String × String))} (h : Immutable packages)
    {rows : List (String × String)} (hrows : rows ∈ packages) :
    AgreesOn (revisionGraph (packages.foldl registerPackagedLineage [])) (revisionGraph rows) := by
  intro revision parents hget
  rcases revisionGraph_registered.mp (hget ▸ some_ne_none parents) with ⟨known, hknown⟩
  have hsame : ∀ parent, (revision, parent) ∈ packages.foldl registerPackagedLineage [] ↔
      (revision, parent) ∈ rows := fun parent => by
    rw [mem_registered]
    refine ⟨?_, fun hmem => Or.inr ⟨rows, hrows, hmem⟩⟩
    rintro (hnone | ⟨others, hothers, hmem⟩)
    · exact absurd hnone not_mem_nil
    · exact h others hothers rows hrows revision parent known hmem hknown
  rcases ne_none_iff_exists'.mp (revisionGraph_registered.mpr ⟨known, (hsame known).mpr hknown⟩)
    with ⟨stored, hstored⟩
  refine ⟨stored, hstored, fun parent => ?_⟩
  have hleft := mem_revisionGraph (packages.foldl registerPackagedLineage []) revision parent
  have hright := mem_revisionGraph rows revision parent
  rw [hsame, hstored] at hleft
  rw [hget] at hright
  simpa using hleft.trans hright.symm

variable {databaseGraph packagedGraph olderGraph : RevisionGraph}
  {currentHeads packagedHeads olderHeads : List String} {revision ancestor : String}

theorem AgreesOn.parent (h : AgreesOn databaseGraph packagedGraph)
    (hregistered : packagedGraph.get? revision ≠ none)
    (hparent : databaseGraph.HasParent revision ancestor) :
    packagedGraph.HasParent revision ancestor := by
  rcases ne_none_iff_exists'.mp hregistered with ⟨parents, hget⟩
  rcases h revision parents hget with ⟨stored, hstored, hsame⟩
  rcases hparent with ⟨stored', hstored', hmem⟩
  rw [hstored, some.injEq] at hstored'
  exact ⟨parents, hget, (hsame ancestor).mp (hstored' ▸ hmem)⟩

/-- What is reached from a revision of a release belongs to the release. -/
theorem AgreesOn.within (h : AgreesOn databaseGraph packagedGraph)
    (hrelease : IsRelease packagedHeads packagedGraph)
    (hregistered : packagedGraph.get? revision ≠ none)
    (hbelow : databaseGraph.Below revision ancestor) :
    packagedGraph.get? ancestor ≠ none ∧ packagedGraph.Below revision ancestor := by
  induction hbelow with
  | refl => exact ⟨hregistered, .refl⟩
  | tail _ hparent ih =>
    have hpackaged := h.parent ih.1 hparent
    exact ⟨hrelease.closed _ _ hpackaged, ih.2.tail hpackaged⟩

/-- A database that a release has migrated is accepted by a package that shares its history
    exactly when the release knows what the package knows and continues heads of it. -/
theorem Descends.of_releases (hnewer : AgreesOn databaseGraph packagedGraph)
    (holder : AgreesOn databaseGraph olderGraph) (hrelease : IsRelease packagedHeads packagedGraph)
    (hprevious : IsRelease olderHeads olderGraph) (hheads : olderHeads ≠ []) :
    Descends packagedHeads olderHeads databaseGraph olderGraph ↔
      (∀ revision, olderGraph.get? revision ≠ none → packagedGraph.get? revision ≠ none) ∧
        ∀ head ∈ packagedHeads, ∃ expected ∈ olderHeads, packagedGraph.Below head expected := by
  have hwithin : ∀ head ∈ packagedHeads, ∀ {ancestor}, databaseGraph.Below head ancestor →
      packagedGraph.get? ancestor ≠ none ∧ packagedGraph.Below head ancestor :=
    fun head hhead _ => hnewer.within hrelease ((hrelease.heads head).mp hhead).1
  constructor
  · intro h
    refine ⟨fun revision hregistered => ?_, fun head hhead => ?_⟩
    · rcases h.covers hprevious hregistered with ⟨head, hhead, hbelow⟩
      exact (hwithin head hhead hbelow).1
    · rcases h.ahead head hhead with ⟨expected, hexpected, hbelow⟩
      exact ⟨expected, hexpected, (hwithin head hhead hbelow).2⟩
  · rintro ⟨hknown, hahead⟩
    have hkept : ∀ expected ∈ olderHeads, ∃ head ∈ packagedHeads,
        databaseGraph.Below head expected := fun expected hexpected => by
      rcases hrelease.covered (hknown expected ((hprevious.heads expected).mp hexpected).1)
        with ⟨head, hhead, hbelow⟩
      exact ⟨head, hhead, hnewer.below hbelow⟩
    refine ⟨?_, hheads, holder, fun head hhead revision hbelow => ⟨?_, fun hcycle => ?_⟩,
      fun head hhead other hother hne hbelow => ?_, fun head hhead => ?_, hkept⟩
    · rcases exists_mem_of_ne_nil olderHeads hheads with ⟨expected, hexpected⟩
      rcases hkept expected hexpected with ⟨head, hhead, -⟩
      exact ne_nil_of_mem hhead
    · rcases Option.ne_none_iff_exists'.mp (hwithin head hhead hbelow).1 with ⟨parents, hget⟩
      rcases hnewer _ parents hget with ⟨stored, hstored, -⟩
      rw [hstored]
      exact some_ne_none stored
    · rcases TransGen.head'_iff.mp hcycle with ⟨parent, hparent, hback⟩
      have hpackaged := hnewer.parent (hwithin head hhead hbelow).1 hparent
      exact hrelease.acyclic revision (TransGen.head' hpackaged
        (hnewer.within hrelease (hrelease.closed _ _ hpackaged) hback).2)
    · rcases ReflTransGen.cases_tail (hwithin head hhead hbelow).2 with rfl | ⟨child, -, hchild⟩
      · exact hne rfl
      · exact ((hrelease.heads other).mp hother).2 child hchild
    · rcases hahead head hhead with ⟨expected, hexpected, hbelow⟩
      exact ⟨expected, hexpected, hnewer.below hbelow⟩

/-- Whatever packages migrated a database, in whatever order, and as long as they agree on the
    revisions they share, one of them accepts what another one has upgraded exactly when that
    one knows every revision of its own and continues its heads. -/
theorem rollback_accepted {packages : List (List (String × String))}
    {newer older : List (String × String)} (hpackages : Immutable packages)
    (hnewer : newer ∈ packages) (holder : older ∈ packages)
    (hrelease : IsRelease currentHeads (revisionGraph newer))
    (hprevious : IsRelease packagedHeads (revisionGraph older)) (hheads : packagedHeads ≠ []) :
    databaseHeadsDescendFromPackagedHeads currentHeads packagedHeads
        (revisionGraph (packages.foldl registerPackagedLineage [])) (revisionGraph older) = true ↔
      (∀ revision, (revisionGraph older).get? revision ≠ none →
        (revisionGraph newer).get? revision ≠ none) ∧
      ∀ head ∈ currentHeads, ∃ expected ∈ packagedHeads,
        (revisionGraph newer).Below head expected :=
  (accepted_iff ..).trans (Descends.of_releases (hpackages.agreesOn hnewer) (hpackages.agreesOn holder)
    hrelease hprevious hheads)

theorem rollback_accepted_next :
    databaseHeadsDescendFromPackagedHeads ["b"] ["a"] (revisionGraph
      ([[("a", "")], [("a", ""), ("b", "a")]].foldl registerPackagedLineage []))
      (revisionGraph [("a", "")]) = true := by
  have hfirst : ∀ child parent, ¬ (revisionGraph [("a", "")]).HasParent child parent :=
    fun child parent h => by
      have hmem := (mem_revisionGraph ..).mp h
      grind [baseRevisionSentinel]
  have hsecond : ∀ child parent, (revisionGraph [("a", ""), ("b", "a")]).HasParent child parent ↔
      child = "b" ∧ parent = "a" := fun child parent => by
    refine (mem_revisionGraph ..).trans ?_
    grind [baseRevisionSentinel]
  have hknown : ∀ revision, (revisionGraph [("a", "")]).get? revision ≠ none ↔ revision = "a" :=
    fun revision => by simp [revisionGraph_registered]
  have hnewer : ∀ revision, (revisionGraph [("a", ""), ("b", "a")]).get? revision ≠ none ↔
      revision = "a" ∨ revision = "b" := fun revision => by
    simp [revisionGraph_registered, exists_or]
  refine (rollback_accepted (by simp [Immutable]; grind)
    (mem_cons_of_mem _ mem_cons_self) mem_cons_self ⟨?_, ?_, ?_⟩ ⟨?_, ?_, ?_⟩
    (cons_ne_nil _ _)).mpr ⟨?_, ?_⟩
  · intro child parent h
    exact (hnewer parent).mpr (Or.inl ((hsecond child parent).mp h).2)
  · intro revision hcycle
    rcases TransGen.head'_iff.mp hcycle with ⟨parent, hparent, hback⟩
    rcases ReflTransGen.cases_tail hback with heq | ⟨child, -, hchild⟩
    · grind
    · grind
  · intro revision
    simp only [hnewer, hsecond]
    grind
  · exact fun child parent h => absurd h (hfirst child parent)
  · intro revision hcycle
    rcases TransGen.head'_iff.mp hcycle with ⟨parent, hparent, -⟩
    exact hfirst _ _ hparent
  · intro revision
    simp only [hknown, hfirst]
    grind
  · exact fun revision h => (hnewer revision).mpr (Or.inl ((hknown revision).mp h))
  · intro head hhead
    rw [mem_singleton.mp hhead]
    exact ⟨"a", mem_singleton_self _, .single ((hsecond "b" "a").mpr ⟨rfl, rfl⟩)⟩

end Apex.Persistence
