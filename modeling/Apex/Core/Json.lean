import Apex.Core.Dict
import Mathlib.Algebra.BigOperators.Group.List.Basic
import Mathlib.Algebra.GroupWithZero.Nat
import Mathlib.Data.Nat.Size

/-!
# JSON Values

The values a JSON document decodes to: `None`, booleans, unbounded integers,
doubles, strings, lists and string-keyed dictionaries. A double is kept as its
bit pattern, which is what decides whether it is finite; no arithmetic is done
on one here.

Nested objects are plain item lists, because an inductive type cannot nest in
a structure whose fields speak about it. `dict?` is the door to the proper
`Dict`: it refuses an item list that names a key twice, so everything that
goes through it is the image of a real dictionary.

`nodes` and `chars` are the two sizes every bound on a document is stated in,
and `everyAt` is the shape of a check that looks at one node and its depth.

## Main definitions

* `Json.dict?`: The dictionary a value is, if it is one.
* `Json.children`: The values directly below a value.
* `Json.nodes`, `Json.chars`: Sizes.
* `Json.everyAt`: A test of every node together with its depth.
* `Json.every`: The same without the depth.

## Theorems

* `Json.inductionOn`: Induction over a value and the values below it.
* `nodes_eq`, `everyAt_eq`: The two recursions in terms of `children`.
-/

namespace Apex

open List
open Bool (false_eq_true and_eq_true)

structure PyFloat where
  bits : BitVec 64
  deriving DecidableEq, Repr

/-- `math.isfinite`: the exponent bits are not all set. -/
def PyFloat.isFinite (x : PyFloat) : Bool := x.bits.extractLsb' 52 11 != BitVec.allOnes 11

def bitLength (n : Int) : Nat := Nat.size n.natAbs

/-- Whether a string holds the character U+0000. -/
def hasNul (s : String) : Bool := s.toList.any (· == Char.ofNat 0)

inductive Json where
  | null
  | bool (b : Bool)
  | int (n : Int)
  | float (x : PyFloat)
  | str (s : String)
  | list (xs : List Json)
  | dict (items : List (String × Json))
  deriving Repr

namespace Json

theorem inductionOn {P : Json → Prop} (null : P .null) (bool : ∀ b, P (.bool b))
    (int : ∀ n, P (.int n)) (float : ∀ x, P (.float x)) (str : ∀ s, P (.str s))
    (list : ∀ xs, (∀ x ∈ xs, P x) → P (.list xs))
    (dict : ∀ items, (∀ kv ∈ items, P kv.2) → P (.dict items)) (v : Json) : P v := by
  refine Json.rec (motive_1 := P) (motive_2 := fun xs => ∀ x ∈ xs, P x)
    (motive_3 := fun items => ∀ kv ∈ items, P kv.2) (motive_4 := fun kv => P kv.2)
    null bool int float str list dict ?_ ?_ ?_ ?_ ?_ v
  · intro x hx
    exact absurd hx not_mem_nil
  · intro x xs hx hxs y hy
    rcases mem_cons.mp hy with rfl | hy'
    · exact hx
    · exact hxs y hy'
  · intro kv hkv
    exact absurd hkv not_mem_nil
  · intro kv items hkv hitems kw hkw
    rcases mem_cons.mp hkw with rfl | hkw'
    · exact hkv
    · exact hitems kw hkw'
  · intro k v hv
    exact hv

mutual

def same : Json → Json → Bool
  | .null, .null => true
  | .bool a, .bool b => a == b
  | .int a, .int b => a == b
  | .float a, .float b => decide (a = b)
  | .str a, .str b => a == b
  | .list xs, .list ys => sameList xs ys
  | .dict c, .dict d => sameItems c d
  | _, _ => false

def sameList : List Json → List Json → Bool
  | [], [] => true
  | x :: xs, y :: ys => same x y && sameList xs ys
  | _, _ => false

def sameItems : List (String × Json) → List (String × Json) → Bool
  | [], [] => true
  | (k, v) :: c, (k', v') :: d => k == k' && same v v' && sameItems c d
  | _, _ => false

end

theorem sameList_iff : ∀ (xs ys : List Json),
    (∀ x ∈ xs, ∀ y, same x y = true ↔ x = y) → (sameList xs ys = true ↔ xs = ys)
  | [], [], _ => by simp only [sameList]
  | [], _ :: _, _ => by simp only [sameList, false_eq_true, reduceCtorEq]
  | _ :: _, [], _ => by simp only [sameList, false_eq_true, reduceCtorEq]
  | x :: xs, y :: ys, h => by
    have htail := sameList_iff xs ys (fun z hz => h z (mem_cons_of_mem _ hz))
    rw [sameList, and_eq_true, h x mem_cons_self y, htail, cons.injEq]

theorem sameItems_iff : ∀ (c d : List (String × Json)),
    (∀ kv ∈ c, ∀ y, same kv.2 y = true ↔ kv.2 = y) → (sameItems c d = true ↔ c = d)
  | [], [], _ => by simp only [sameItems]
  | [], _ :: _, _ => by simp only [sameItems, false_eq_true, reduceCtorEq]
  | _ :: _, [], _ => by simp only [sameItems, false_eq_true, reduceCtorEq]
  | (k, v) :: c, (k', v') :: d, h => by
    have htail := sameItems_iff c d (fun kv hkv => h kv (mem_cons_of_mem _ hkv))
    rw [sameItems, and_eq_true, and_eq_true, beq_iff_eq,
      h (k, v) mem_cons_self v', htail, cons.injEq, Prod.mk.injEq]

theorem same_iff (v w : Json) : same v w = true ↔ v = w := by
  revert w
  refine inductionOn (P := fun v => ∀ w, same v w = true ↔ v = w) ?_ ?_ ?_ ?_ ?_ ?_ ?_ v
  · intro w; cases w <;> simp only [same, false_eq_true, reduceCtorEq]
  · intro b w
    cases w <;> simp only [same, beq_iff_eq, false_eq_true, reduceCtorEq, Json.bool.injEq]
  · intro n w
    cases w <;> simp only [same, beq_iff_eq, false_eq_true, reduceCtorEq, Json.int.injEq]
  · intro x w
    cases w <;> simp only [same, decide_eq_true_eq, false_eq_true, reduceCtorEq,
      Json.float.injEq]
  · intro s w
    cases w <;> simp only [same, beq_iff_eq, false_eq_true, reduceCtorEq, Json.str.injEq]
  · intro xs ih w
    cases w <;> simp only [same, false_eq_true, reduceCtorEq, Json.list.injEq]
    exact sameList_iff xs _ ih
  · intro items ih w
    cases w <;> simp only [same, false_eq_true, reduceCtorEq, Json.dict.injEq]
    exact sameItems_iff items _ ih

instance : DecidableEq Json := fun v w => decidable_of_iff (same v w = true) (same_iff v w)

instance : Inhabited Json := ⟨.null⟩

def dict? : Json → Option (Dict Json)
  | .dict items => Dict.ofItems? items
  | _ => none

def ofDict (d : Dict Json) : Json := .dict d.items

@[simp] theorem dict?_ofDict (d : Dict Json) : (ofDict d).dict? = some d := Dict.ofItems?_items d

theorem dict?_eq_some {v : Json} {d : Dict Json} (h : v.dict? = some d) : v = ofDict d := by
  cases v <;> simp only [dict?, reduceCtorEq] at h
  rw [ofDict, Dict.ofItems?_eq_some h]

/-- The values directly below a value, in order. -/
def children : Json → List Json
  | .list xs => xs
  | .dict items => items.map Prod.snd
  | _ => []

mutual

/-- The number of values in a value, itself included. -/
def nodes : Json → Nat
  | .list xs => 1 + nodesList xs
  | .dict items => 1 + nodesItems items
  | _ => 1

def nodesList : List Json → Nat
  | [] => 0
  | x :: xs => nodes x + nodesList xs

def nodesItems : List (String × Json) → Nat
  | [] => 0
  | (_, v) :: items => nodes v + nodesItems items

end

mutual

/-- The number of characters in the strings and keys of a value. -/
def chars : Json → Nat
  | .str s => s.length
  | .list xs => charsList xs
  | .dict items => charsItems items
  | _ => 0

def charsList : List Json → Nat
  | [] => 0
  | x :: xs => chars x + charsList xs

def charsItems : List (String × Json) → Nat
  | [] => 0
  | (k, v) :: items => k.length + chars v + charsItems items

end

mutual

/-- Whether a test holds of every node and its depth. -/
def everyAt (p : Nat → Json → Bool) (depth : Nat) : Json → Bool
  | .list xs => p depth (.list xs) && everyAtList p (depth + 1) xs
  | .dict items => p depth (.dict items) && everyAtItems p (depth + 1) items
  | .null => p depth .null
  | .bool b => p depth (.bool b)
  | .int n => p depth (.int n)
  | .float x => p depth (.float x)
  | .str s => p depth (.str s)

def everyAtList (p : Nat → Json → Bool) (depth : Nat) : List Json → Bool
  | [] => true
  | x :: xs => everyAt p depth x && everyAtList p depth xs

def everyAtItems (p : Nat → Json → Bool) (depth : Nat) : List (String × Json) → Bool
  | [] => true
  | (_, v) :: items => everyAt p depth v && everyAtItems p depth items

end

theorem nodesList_eq : ∀ (xs : List Json), nodesList xs = (xs.map nodes).sum
  | [] => rfl
  | x :: xs => by rw [nodesList, nodesList_eq xs, map_cons, sum_cons]

theorem nodesItems_eq : ∀ (items : List (String × Json)),
    nodesItems items = (items.map (fun kv => nodes kv.2)).sum
  | [] => rfl
  | (k, v) :: items => by rw [nodesItems, nodesItems_eq items, map_cons, sum_cons]

theorem charsList_eq : ∀ (xs : List Json), charsList xs = (xs.map chars).sum
  | [] => rfl
  | x :: xs => by rw [charsList, charsList_eq xs, map_cons, sum_cons]

theorem charsItems_eq : ∀ (items : List (String × Json)),
    charsItems items = (items.map (fun kv => kv.1.length + chars kv.2)).sum
  | [] => rfl
  | (k, v) :: items => by rw [charsItems, charsItems_eq items, map_cons, sum_cons]

theorem nodesItems_append (c d : List (String × Json)) :
    nodesItems (c ++ d) = nodesItems c + nodesItems d := by
  rw [nodesItems_eq, nodesItems_eq, nodesItems_eq, map_append, sum_append]

theorem charsItems_append (c d : List (String × Json)) :
    charsItems (c ++ d) = charsItems c + charsItems d := by
  rw [charsItems_eq, charsItems_eq, charsItems_eq, map_append, sum_append]

theorem everyAtList_iff (p : Nat → Json → Bool) (d : Nat) : ∀ (xs : List Json),
    everyAtList p d xs = true ↔ ∀ x ∈ xs, everyAt p d x = true
  | [] => by simp only [everyAtList, not_mem_nil, false_implies, implies_true]
  | x :: xs => by
    rw [everyAtList, and_eq_true, everyAtList_iff p d xs, forall_mem_cons]

theorem everyAtItems_iff (p : Nat → Json → Bool) (d : Nat) : ∀ (items : List (String × Json)),
    everyAtItems p d items = true ↔ ∀ kv ∈ items, everyAt p d kv.2 = true
  | [] => by simp only [everyAtItems, not_mem_nil, false_implies, implies_true]
  | (k, v) :: items => by
    rw [everyAtItems, and_eq_true, everyAtItems_iff p d items, forall_mem_cons]

theorem nodes_eq (v : Json) : v.nodes = 1 + (v.children.map nodes).sum := by
  cases v with
  | list xs => rw [nodes, nodesList_eq]; rfl
  | dict items =>
    rw [nodes, nodesItems_eq, children, List.map_map]
    rfl
  | _ => rfl

theorem nodes_pos (v : Json) : 0 < v.nodes := by
  rw [nodes_eq]
  omega

theorem everyAt_eq (p : Nat → Json → Bool) (d : Nat) (v : Json) :
    v.everyAt p d = true ↔ p d v = true ∧ ∀ c ∈ v.children, c.everyAt p (d + 1) = true := by
  cases v with
  | list xs => rw [everyAt, and_eq_true, everyAtList_iff]; rfl
  | dict items =>
    rw [everyAt, and_eq_true, everyAtItems_iff, children]
    simp only [List.forall_mem_map]
  | _ => simp only [everyAt, children, not_mem_nil, false_implies, implies_true, and_true]

/-- A test of every value that does not look at the depth. -/
def every (p : Json → Bool) (v : Json) : Bool := v.everyAt (fun _ w => p w) 0

theorem everyAt_depth (p : Json → Bool) (v : Json) : ∀ (d : Nat),
    v.everyAt (fun _ w => p w) d = v.every p := by
  have leaf : ∀ w : Json, w.children = [] → ∀ d, w.everyAt (fun _ w => p w) d = w.every p := by
    intro w hw d
    rw [every, Bool.eq_iff_iff, everyAt_eq, everyAt_eq, hw]
    simp only [not_mem_nil, false_implies, implies_true]
  refine inductionOn (P := fun v => ∀ d, v.everyAt (fun _ w => p w) d = v.every p)
    (leaf _ rfl) (fun b => leaf _ rfl) (fun n => leaf _ rfl) (fun x => leaf _ rfl)
    (fun s => leaf _ rfl) ?_ ?_ v
  · intro xs ih d
    rw [every, Bool.eq_iff_iff, everyAt_eq, everyAt_eq]
    refine and_congr_right (fun _ => ?_)
    refine forall₂_congr (fun c hc => ?_)
    rw [ih c hc, ih c hc]
  · intro items ih d
    rw [every, Bool.eq_iff_iff, everyAt_eq, everyAt_eq]
    refine and_congr_right (fun _ => ?_)
    refine forall₂_congr (fun c hc => ?_)
    rcases List.mem_map.mp hc with ⟨kv, hkv, rfl⟩
    rw [ih kv hkv, ih kv hkv]

theorem every_eq (p : Json → Bool) (v : Json) :
    v.every p = true ↔ p v = true ∧ ∀ c ∈ v.children, c.every p = true := by
  rw [every, everyAt_eq]
  simp only [everyAt_depth]

end Json

/-- `d.get(key)`: the value under a key, or `None`. -/
def Dict.value (d : Dict Json) (key : String) : Json := (d.get? key).getD .null

end Apex
