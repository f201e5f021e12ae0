import Apex.Core.Dict

/-!
# The Lineage Of A Schema

The database stores the parents of every revision it was ever migrated through, and a package
brings the revisions it knows. An older package may run against a newer database as long as
the heads of the database descend from the heads of the package, on edges that agree.

A frozen set is the list of its items in the order in which it is iterated over. Two such
lists are the same set when each holds what the other holds.

## Main definitions

* `RevisionGraph`: The real parents of each registered revision.
* `visit`: The depth-first search, with the revisions on the path and the finished ones.
* `ancestorClosure`: What is reached from a head, or why this is not known.
* `databaseHeadsDescendFromPackagedHeads`: Whether the package may run.
* `registerPackagedLineage`: What is stored before a package migrates the database.

## Theorems

* `mem_revisionGraph`: The graph holds the stored edges.
-/

namespace Apex.Persistence

open List

abbrev RevisionGraph := Dict (List String)

def baseRevisionSentinel : String := ""

def sameSet (xs ys : List String) : Bool := xs.all (· ∈ ys) && ys.all (· ∈ xs)

theorem sameSet_iff {xs ys : List String} : sameSet xs ys = true ↔ ∀ x, x ∈ xs ↔ x ∈ ys := by
  simp only [sameSet, Bool.and_eq_true, List.all_eq_true, decide_eq_true_eq]
  exact ⟨fun h x => ⟨h.1 x, h.2 x⟩, fun h => ⟨fun x => (h x).mp, fun x => (h x).mpr⟩⟩

def addEdge (graph : RevisionGraph) (edge : String × String) : RevisionGraph :=
  graph.set edge.1 (((graph.get? edge.1).getD []).insert edge.2)

/-- Normalize stored edges into revision -> real parent revisions. -/
def revisionGraph (edges : List (String × String)) : RevisionGraph :=
  (edges.foldl addEdge ∅).map fun _ parents => parents.filter (· ≠ baseRevisionSentinel)

theorem get?_addEdges (edges : List (String × String)) (graph : RevisionGraph)
    (revision parent : String) :
    (∃ parents, (edges.foldl addEdge graph).get? revision = some parents ∧ parent ∈ parents) ↔
      (∃ parents, graph.get? revision = some parents ∧ parent ∈ parents) ∨
        (revision, parent) ∈ edges := by
  induction edges generalizing graph with
  | nil => simp only [foldl_nil, not_mem_nil, or_false]
  | cons edge edges ih =>
    rw [foldl_cons, ih, mem_cons, ← or_assoc]
    refine or_congr ?_ Iff.rfl
    rcases edge with ⟨child, added⟩
    rw [addEdge, Dict.get?_set, Prod.mk.injEq]
    by_cases hchild : revision = child
    · subst hchild
      cases hget : graph.get? revision <;> simp [or_comm]
    · simp [hchild]

theorem mem_revisionGraph (edges : List (String × String)) (revision parent : String) :
    (∃ parents, (revisionGraph edges).get? revision = some parents ∧ parent ∈ parents) ↔
      (revision, parent) ∈ edges ∧ parent ≠ baseRevisionSentinel := by
  have hstored := get?_addEdges edges ∅ revision parent
  rw [Dict.get?_empty] at hstored
  rw [revisionGraph, Dict.get?_map]
  cases hget : (edges.foldl addEdge ∅).get? revision <;> simp_all

theorem get?_addEdges_none (edges : List (String × String)) (graph : RevisionGraph)
    (revision : String) :
    (edges.foldl addEdge graph).get? revision = none ↔
      graph.get? revision = none ∧ ∀ parent, (revision, parent) ∉ edges := by
  induction edges generalizing graph with
  | nil => simp
  | cons edge edges ih =>
    rw [foldl_cons, ih, addEdge, Dict.get?_set]
    by_cases hchild : revision = edge.1
    · simp only [if_pos hchild, reduceCtorEq, false_and, false_iff, not_and, not_forall, not_not]
      exact fun _ => ⟨edge.2, hchild ▸ mem_cons_self⟩
    · simp [Prod.ext_iff, hchild]

theorem revisionGraph_registered {edges : List (String × String)} {revision : String} :
    (revisionGraph edges).get? revision ≠ none ↔ ∃ parent, (revision, parent) ∈ edges := by
  rw [Ne, revisionGraph, Dict.get?_map, Option.map_eq_none_iff, get?_addEdges_none, Dict.get?_empty]
  simp

/-- `_register_packaged_lineage`: rows are inserted `ON CONFLICT DO NOTHING`. -/
def registerPackagedLineage (stored rows : List (String × String)) : List (String × String) :=
  rows.foldl (·.insert) stored

theorem mem_registered (packages : List (List (String × String))) (stored : List (String × String))
    (edge : String × String) :
    edge ∈ packages.foldl registerPackagedLineage stored ↔
      edge ∈ stored ∨ ∃ rows ∈ packages, edge ∈ rows := by
  have hone : ∀ rows stored, edge ∈ registerPackagedLineage stored rows ↔
      edge ∈ stored ∨ edge ∈ rows := by
    intro rows
    induction rows with
    | nil => simp [registerPackagedLineage]
    | cons row rows ih =>
      intro stored
      rw [registerPackagedLineage, foldl_cons, ← registerPackagedLineage, ih, mem_insert_iff,
        mem_cons, or_comm (a := edge = row), or_assoc]
  induction packages generalizing stored with
  | nil => simp
  | cons rows packages ih =>
    refine (ih (registerPackagedLineage stored rows)).trans ?_
    rw [hone, or_assoc, exists_mem_cons_iff]

namespace RevisionGraph

/-- The registered revisions that are not on the path. -/
def aside (graph : RevisionGraph) (active : List String) : List String :=
  graph.keys.filter (· ∉ active)

theorem aside_lt (graph : RevisionGraph) {active : List String} {revision : String}
    {parents : List String} (hregistered : graph.get? revision = some parents)
    (hactive : revision ∉ active) :
    (graph.aside (revision :: active)).length < (graph.aside active).length := by
  have hfewer : graph.aside (revision :: active) = (graph.aside active).filter (· ≠ revision) := by
    rw [aside, aside, List.filter_filter]
    refine filter_congr fun key _ => ?_
    simp only [mem_cons, not_or, Bool.decide_and]
  rw [hfewer, length_filter_lt_length_iff_exists]
  exact ⟨revision, mem_filter.mpr ⟨Dict.get?_keys hregistered, decide_eq_true hactive⟩,
    by simp⟩

end RevisionGraph

/-- The `ValueError`s of the search. -/
inductive LineageError where
  | unregistered
  | cyclic
  | incomplete
  deriving DecidableEq, Repr

mutual

/-- `visit`: what is finished after a revision, `active` being the path to it. -/
def visit (graph : RevisionGraph) (active : List String) (revision : String)
    (visited : List String) : Except LineageError (List String) :=
  if _ : revision ∈ active then .error .cyclic
  else if revision ∈ visited then .ok visited
  else
    match _ : graph.get? revision with
    | none => .error .incomplete
    | some parents => (visitAll graph (revision :: active) parents visited).map (revision :: ·)
termination_by ((graph.aside active).length, 0)
decreasing_by exact .left _ _ (graph.aside_lt ‹_› ‹_›)

def visitAll (graph : RevisionGraph) (active parents visited : List String) :
    Except LineageError (List String) :=
  match parents with
  | [] => .ok visited
  | parent :: parents => do
      let visited ← visit graph active parent visited
      visitAll graph active parents visited
termination_by ((graph.aside active).length, parents.length + 1)

end

def ancestorClosure (head : String) (graph : RevisionGraph) :
    Except LineageError (List String) :=
  if (graph.get? head).isNone then .error .unregistered else visit graph [] head []

def databaseHeadsDescendFromPackagedHeads (currentHeads packagedHeads : List String)
    (databaseGraph packagedGraph : RevisionGraph) : Bool :=
  if currentHeads.isEmpty || packagedHeads.isEmpty then false
  else if packagedGraph.items.any fun item =>
      !((databaseGraph.get? item.1).any (sameSet · item.2)) then false
  else
    match currentHeads.mapM fun head => (head, ·) <$> ancestorClosure head databaseGraph with
    | .error _ => false
    | .ok ancestorsByHead =>
      if ancestorsByHead.any fun entry =>
          currentHeads.any fun other => other != entry.1 && entry.2.contains other then false
      else
        (ancestorsByHead.all fun entry => packagedHeads.any entry.2.contains) &&
          packagedHeads.all fun expected =>
            ancestorsByHead.any fun entry => entry.2.contains expected

end Apex.Persistence
