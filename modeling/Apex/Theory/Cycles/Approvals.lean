import Apex.Core.Search
import Apex.Domain.Cycles

/-!
# Standing Approvals

Whether an approval still stands is a question about everything a version rests on:
each must be approved, untouched since, neither archived nor replaced, and none may
rest on itself. The code answers it by a search that remembers what it has seen; here
the answer is read off the search of the library.

## Main definitions

* `dependenciesOf`, `DependsOn`: What an id rests on.
* `Approvable`: What an approval asks of a version by itself.

## Theorems

* `approvalCurrent_eq_search`: The code's search is the library's.
* `approvalCurrent_least`: It decides the least fixed point of approval.
-/

namespace Apex.Domain

open List Option

variable {env : CyclesEnv} {versions : List Version}

def dependenciesOf (versions : List Version) (id : String) : List String :=
  ((byId versions id).map Version.dependencies).getD []

/-- The version of an id rests on that of another. -/
def DependsOn (versions : List Version) (id dependency : String) : Prop :=
  ∃ v, byId versions id = some v ∧ dependency ∈ v.dependencies

/-- There is a version of an id, approved, not archived, not replaced, intact and without
    issues. -/
def Approvable (env : CyclesEnv) (versions : List Version) (id : String) : Prop :=
  ∃ v, byId versions id = some v ∧ v.status = .approved ∧ v.archived = false ∧
    (∀ other ∈ versions, other.replaces ≠ some id) ∧
    versionDigest env v.content = v.checksum ∧ contentIssues env v.kind v.content = []

/-- The test of `current` of `approval_current`, before it looks at dependencies. -/
def approvableAlone (env : CyclesEnv) (versions : List Version) (id : String) : Bool :=
  (byId versions id).any fun v => !(v.status != .approved || v.archived || superseded versions id
    || !contentIntegrity env v || !(contentIssues env v.kind v.content).isEmpty)

theorem mem_dependenciesOf {id dependency : String} :
    dependency ∈ dependenciesOf versions id ↔ DependsOn versions id dependency := by
  unfold dependenciesOf DependsOn
  cases byId versions id with
  | none => simp
  | some v => simp

theorem child_dependenciesOf :
    Search.Child (dependenciesOf versions) = DependsOn versions := by
  funext id dependency
  exact propext mem_dependenciesOf

theorem superseded_eq_false {id : String} :
    superseded versions id = false ↔ ∀ other ∈ versions, other.replaces ≠ some id := by
  simp [superseded]

theorem approvableAlone_eq_true {id : String} :
    approvableAlone env versions id = true ↔ Approvable env versions id := by
  unfold approvableAlone Approvable
  cases byId versions id with
  | none => simp
  | some v => simp [← superseded_eq_false, contentIntegrity, and_assoc]

theorem approvableAlone_mem {id : String} (h : approvableAlone env versions id = true) :
    id ∈ versions.map Version.id := by
  rcases approvableAlone_eq_true.mp h with ⟨v, hv, _⟩
  have hmem : v ∈ versions := mem_reverse.mp (mem_of_find?_eq_some hv)
  have hid : v.id = id := by simpa using find?_some hv
  exact hid ▸ List.mem_map_of_mem hmem

theorem allRemembering_eq_searchAll {σ : Type} (test : σ → String → Bool × σ) :
    ∀ (keys : List String) (memo : σ),
      allRemembering test memo keys = Search.searchAll test memo keys
  | [], _ => rfl
  | key :: keys, memo => by
    simp only [allRemembering, Search.searchAll, allRemembering_eq_searchAll test keys]

/-- The code's search is the library's, with the code's test. -/
theorem currentFrom_eq_search :
    ∀ (fuel : Nat), currentFrom env versions fuel =
      Search.search (approvableAlone env versions) (dependenciesOf versions) fuel
  | 0 => rfl
  | fuel + 1 => by
    funext memo key
    rw [currentFrom, Search.search, currentFrom_eq_search fuel]
    cases memo.lookup key with
    | some known => rfl
    | none =>
      cases hid : byId versions key with
      | none => simp [approvableAlone, hid]
      | some v =>
        simp only [approvableAlone, dependenciesOf, hid, any_some, map_some,
          getD_some, Bool.not_eq_true', allRemembering_eq_searchAll]
        split
        next h => rw [if_neg (by rw [h]; exact Bool.noConfusion)]
        next h => rw [if_pos (Bool.eq_false_iff.mpr h)]

theorem approvalCurrent_eq_search (id : String) : approvalCurrent env versions id =
    (Search.search (approvableAlone env versions) (dependenciesOf versions)
      ((versions.map Version.id).length + 1) [] id).1 := by
  rw [approvalCurrent, currentFrom_eq_search, List.length_map]

theorem approvalCurrent_eq_true_iff (id : String) : approvalCurrent env versions id = true ↔
    Search.Holds (Approvable env versions) (dependenciesOf versions) id := by
  have htest : (fun key => approvableAlone env versions key = true) = Approvable env versions :=
    funext fun _ => propext approvableAlone_eq_true
  rw [approvalCurrent_eq_search, ← htest]
  exact Search.search_eq_true_iff (fun _ => approvableAlone_mem) id

/-- The approvals that stand are the least fixed point of approval: they are those of the ids
    below which every version stands by itself and none rests on itself. -/
theorem approvalCurrent_least (env : CyclesEnv) (versions : List Version) :
    { id | approvalCurrent env versions id = true } =
        (Search.resting (Approvable env versions) (dependenciesOf versions)).lfp ∧
      ∀ id, approvalCurrent env versions id = true ↔
        ∀ key, Relation.ReflTransGen (DependsOn versions) id key →
          Approvable env versions key ∧ ¬ Relation.TransGen (DependsOn versions) key key := by
  have hknown : ∀ key, Approvable env versions key → key ∈ versions.map Version.id :=
    fun _ h => approvableAlone_mem (approvableAlone_eq_true.mpr h)
  constructor
  · rw [← Search.setOf_holds_eq_lfp]
    exact Set.ext approvalCurrent_eq_true_iff
  · intro id
    rw [approvalCurrent_eq_true_iff, Search.holds_iff hknown, child_dependenciesOf]

end Apex.Domain
