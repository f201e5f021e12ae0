import Apex.Core.Check
import Apex.Core.JsonEncode
import Apex.Core.Walk

/-!
# Limits on JSON Input

`validate_json_object` accepts an object that is within a number of bytes, of values and
of levels, and whose keys and leaves are what a JSON column can hold. It empties an
explicit stack instead of recursing, counts values and characters while it does, and
gives up early in several places; the bytes are counted last, on the encoded text.

None of the early exits decides anything: `validateJsonObject_ok_iff` says that an object
is accepted exactly when each of the limits holds of it as a whole.

A container that is reached twice is refused by the source. Values here are trees, so
that does not arise.

## Main definitions

* `JsonLimits`: The limits.
* `validateJsonObject`: The whole check.
* `nodeOk`: What the check asks of one value at its depth.

## Theorems

* `validateNodes_ok_iff`: What the loop accepts.
* `validateJsonObject_ok_iff`: What the check accepts.
-/

namespace Apex.Domain.InputLimits

open List
open Json

structure JsonLimits where
  maxBytes : Nat := 100000
  maxNodes : Nat := 2000
  maxDepth : Nat := 16
  maxKeyChars : Nat := 255

section

variable (limits : JsonLimits) (label : String)

/-- The node limit, which is checked at each value and ahead of a container's values. -/
def nodeLimitError : String :=
  label ++ " exceeds the " ++ toString limits.maxNodes ++ " node limit"

def byteLimitError : String :=
  label ++ " exceeds the " ++ toString limits.maxBytes ++ " byte limit"

def validateKey (totalChars : Nat) (key : String) : Except String Nat := do
  raiseIf (key.length == 0 || decide (limits.maxKeyChars < key.length))
    (label ++ " keys must be 1-" ++ toString limits.maxKeyChars ++ " characters")
  raiseIf (decide (limits.maxBytes - totalChars < key.length)) (byteLimitError limits label)
  raiseIf (hasNul key) (label ++ " keys must not contain U+0000")
  return totalChars + key.length

def validateKeys : Nat → List String → Except String Nat
  | totalChars, [] => .ok totalChars
  | totalChars, key :: keys => do
      let totalChars ← validateKey limits label totalChars key
      validateKeys totalChars keys

/-- Check one value, given how many more may follow and how many are on the stack, and
    count its characters. -/
def validateNode (remaining pending totalChars : Nat) : Json → Except String Nat
  | .dict items => do
      raiseIf (decide (remaining < items.length + pending)) (nodeLimitError limits label)
      validateKeys limits label totalChars (items.map Prod.fst)
  | .list xs => do
      raiseIf (decide (remaining < xs.length + pending)) (nodeLimitError limits label)
      return totalChars
  | .str s => do
      raiseIf (decide (limits.maxBytes - totalChars < s.length)) (byteLimitError limits label)
      raiseIf (hasNul s) (label ++ " strings must not contain U+0000")
      return totalChars + s.length
  | .int n => do
      raiseIf (decide (256 < bitLength n)) (label ++ " integers must not exceed 256 bits")
      return totalChars
  | .float x => do
      raiseIf (!x.isFinite) (label ++ " numbers must be finite")
      return totalChars
  | _ => .ok totalChars

/-- The loop over the stack. The first argument is how many more values may be seen. -/
def validateNodes : Nat → Nat → List (Json × Nat) → Except String Unit
  | _, _, [] => .ok ()
  | 0, _, _ :: _ => .error (nodeLimitError limits label)
  | remaining + 1, totalChars, (current, depth) :: stack => do
      raiseIf (decide (limits.maxDepth < depth))
        (label ++ " exceeds the " ++ toString limits.maxDepth ++ " level nesting limit")
      let totalChars ← validateNode limits label remaining stack.length totalChars current
      validateNodes remaining totalChars
        ((current.children.map fun v => (v, depth + 1)).reverse ++ stack)

def isObject : Json → Bool
  | .dict _ => true
  | _ => false

def validateJsonObject (floatText : PyFloat → List Char) (value : Json) : Except String Unit := do
  raiseIf (decide (min (min limits.maxBytes limits.maxNodes)
      (min limits.maxDepth limits.maxKeyChars) < 1))
    "JSON validation limits must be positive"
  raiseIf (!isObject value) (label ++ " must be a JSON object")
  validateNodes limits label limits.maxNodes 0 [(value, 0)]
  raiseIf (decide (limits.maxBytes < value.bytes floatText)) (byteLimitError limits label)

end

def keyOk (limits : JsonLimits) (key : String) : Bool :=
  decide (0 < key.length) && decide (key.length ≤ limits.maxKeyChars) && !hasNul key

/-- What the check asks of one value, apart from its size. -/
def leafOk (limits : JsonLimits) : Json → Bool
  | .dict items => items.all fun kv => keyOk limits kv.1
  | .str s => !hasNul s
  | .int n => decide (bitLength n ≤ 256)
  | .float x => x.isFinite
  | _ => true

def nodeOk (limits : JsonLimits) (depth : Nat) (v : Json) : Bool :=
  decide (depth ≤ limits.maxDepth) && leafOk limits v

/-- The characters of a value that are not in the values below it. -/
def ownChars : Json → Nat
  | .dict items => (items.map fun kv => kv.1.length).sum
  | .str s => s.length
  | _ => 0

theorem chars_eq (v : Json) : v.chars = ownChars v + (v.children.map chars).sum := by
  cases v with
  | list xs =>
    rw [chars, charsList_eq]
    exact (Nat.zero_add _).symm
  | dict items =>
    rw [chars, charsItems_eq, ownChars, children, List.map_map, ← sum_map_add]
    rfl
  | _ => rfl

section

variable {limits : JsonLimits} {label : String}

theorem validateKey_ok {totalChars totalChars' : Nat} {key : String} :
    validateKey limits label totalChars key = .ok totalChars' ↔
      keyOk limits key = true ∧ key.length ≤ limits.maxBytes - totalChars ∧
        totalChars' = totalChars + key.length := by
  rw [validateKey]
  simp only [bind_ok, raiseIf_ok, keyOk, Bool.or_eq_false_iff, beq_eq_false_iff_ne,
    decide_eq_false_iff_not, Bool.and_eq_true, decide_eq_true_eq, Bool.not_eq_true']
  constructor
  · rintro ⟨_, hlength, _, hroom, _, hnul, hend⟩
    cases hend
    exact ⟨⟨⟨by omega, by omega⟩, hnul⟩, by omega, rfl⟩
  · rintro ⟨⟨⟨hpos, hle⟩, hnul⟩, hroom, rfl⟩
    exact ⟨(), ⟨by omega, by omega⟩, (), by omega, (), hnul, rfl⟩

theorem validateKeys_ok : ∀ {keys : List String} {totalChars totalChars' : Nat},
    validateKeys limits label totalChars keys = .ok totalChars' ↔
      (∀ key ∈ keys, keyOk limits key = true) ∧
        (keys.map String.length).sum ≤ limits.maxBytes - totalChars ∧
          totalChars' = totalChars + (keys.map String.length).sum
  | [], totalChars, totalChars' => by
    simp only [validateKeys, Except.ok.injEq, not_mem_nil, false_implies, implies_true,
      map_nil, sum_nil, Nat.zero_le, Nat.add_zero, true_and]
    exact eq_comm
  | key :: keys, totalChars, totalChars' => by
    rw [validateKeys, bind_ok]
    simp only [validateKey_ok, validateKeys_ok, forall_mem_cons, map_cons, sum_cons]
    constructor
    · rintro ⟨_, ⟨hkey, hroom, rfl⟩, hkeys, hrest, rfl⟩
      exact ⟨⟨hkey, hkeys⟩, by omega, by omega⟩
    · rintro ⟨⟨hkey, hkeys⟩, hroom, rfl⟩
      exact ⟨_, ⟨hkey, by omega, rfl⟩, hkeys, by omega, by omega⟩

def isContainer : Json → Bool
  | .dict _ => true
  | .list _ => true
  | _ => false

theorem validateNode_ok {remaining pending totalChars totalChars' : Nat} {v : Json} :
    validateNode limits label remaining pending totalChars v = .ok totalChars' ↔
      (isContainer v = true → v.children.length + pending ≤ remaining) ∧
        leafOk limits v = true ∧ ownChars v ≤ limits.maxBytes - totalChars ∧
          totalChars' = totalChars + ownChars v := by
  cases v with
  | null | bool =>
    simp only [validateNode, isContainer, leafOk, ownChars, Except.ok.injEq, Nat.zero_le,
      Nat.add_zero, true_and, Bool.false_eq_true, false_implies]
    exact eq_comm
  | int n =>
    simp only [validateNode, isContainer, leafOk, ownChars, bind_ok, raiseIf_ok, pure_ok,
      decide_eq_false_iff_not, decide_eq_true_eq, Nat.not_lt, Nat.zero_le, Nat.add_zero, true_and,
      exists_const, Bool.false_eq_true, false_implies]
    exact and_congr_right fun _ => eq_comm
  | float x =>
    simp only [validateNode, isContainer, leafOk, ownChars, bind_ok, raiseIf_ok, pure_ok,
      Bool.not_eq_false', Nat.zero_le, Nat.add_zero, true_and, exists_const,
      Bool.false_eq_true, false_implies]
    exact and_congr_right fun _ => eq_comm
  | str s =>
    simp only [validateNode, isContainer, leafOk, ownChars, bind_ok, raiseIf_ok, pure_ok,
      decide_eq_false_iff_not, Bool.not_eq_true', Nat.not_lt, true_and, exists_const,
      Bool.false_eq_true, false_implies]
    constructor
    · rintro ⟨hroom, hnul, rfl⟩
      exact ⟨hnul, hroom, rfl⟩
    · rintro ⟨hnul, hroom, rfl⟩
      exact ⟨hroom, hnul, rfl⟩
  | list xs =>
    simp only [validateNode, isContainer, leafOk, ownChars, children, bind_ok, raiseIf_ok,
      pure_ok, decide_eq_false_iff_not, Nat.not_lt, Nat.zero_le, Nat.add_zero, true_and,
      exists_const, forall_const]
    exact and_congr_right fun _ => eq_comm
  | dict items =>
    simp only [validateNode, isContainer, leafOk, ownChars, children, bind_ok, raiseIf_ok,
      decide_eq_false_iff_not, Nat.not_lt, validateKeys_ok, List.length_map, List.forall_mem_map,
      List.map_map, List.all_eq_true, exists_const, forall_const]
    rfl

def stackChars (stack : List (Json × Nat)) : Nat := (stack.map fun vd => vd.1.chars).sum

theorem stackChars_push (below : List Json) (depth : Nat) (stack : List (Json × Nat)) :
    stackChars ((below.map fun v => (v, depth + 1)).reverse ++ stack)
      = (below.map chars).sum + stackChars stack := by
  rw [stackChars, stackChars, map_append, sum_append, map_reverse, sum_reverse, List.map_map]
  rfl

theorem length_le_stackNodes (stack : List (Json × Nat)) : stack.length ≤ stackNodes stack := by
  induction stack with
  | nil => exact Nat.zero_le _
  | cons vd stack ih =>
    have hpos := nodes_pos vd.1
    rw [stackNodes] at ih ⊢
    rw [map_cons, sum_cons, length_cons]
    omega

/-- The loop accepts exactly the values that fit what is left of the budgets and that pass
    at their depth. -/
theorem validateNodes_ok_iff : ∀ (remaining totalChars : Nat) (stack : List (Json × Nat))
    (r : Unit), validateNodes limits label remaining totalChars stack = .ok r ↔
      stackNodes stack ≤ remaining ∧ stackChars stack ≤ limits.maxBytes - totalChars ∧
        ∀ vd ∈ stack, vd.1.everyAt (nodeOk limits) vd.2 = true
  | remaining, totalChars, [], _ => by
    simp only [validateNodes, stackNodes, stackChars, map_nil, sum_nil, Nat.zero_le,
      not_mem_nil, false_implies, implies_true, and_self]
  | 0, totalChars, (v, d) :: stack, _ => by
    have hpos := nodes_pos v
    simp only [validateNodes, stackNodes, map_cons, sum_cons, reduceCtorEq, false_iff, not_and]
    intro hle
    omega
  | remaining + 1, totalChars, (v, d) :: stack, _ => by
    have hnodes : stackNodes ((v, d) :: stack)
        = 1 + (v.children.map nodes).sum + stackNodes stack := by
      rw [stackNodes, map_cons, sum_cons, nodes_eq]
      rfl
    have hchars : stackChars ((v, d) :: stack)
        = ownChars v + (v.children.map chars).sum + stackChars stack := by
      rw [stackChars, map_cons, sum_cons, chars_eq]
      rfl
    have hlength := length_le_stackNodes ((v.children.map fun c => (c, d + 1)).reverse ++ stack)
    rw [stackNodes_push, length_append, length_reverse, List.length_map] at hlength
    rw [validateNodes, bind_ok, forall_mem_cons, everyAt_eq, hnodes, hchars]
    simp only [raiseIf_ok, bind_ok, validateNode_ok, validateNodes_ok_iff, stackNodes_push,
      stackChars_push, nodeOk, Bool.and_eq_true, decide_eq_true_eq, decide_eq_false_iff_not,
      Nat.not_lt, exists_const, mem_append, mem_reverse, List.mem_map]
    constructor
    · rintro ⟨hdepth, _, ⟨_, hleaf, hroom, rfl⟩, hle, hrest, hall⟩
      refine ⟨by omega, by omega, ⟨⟨hdepth, hleaf⟩, fun c hc => ?_⟩,
        fun vd hvd => hall vd (.inr hvd)⟩
      exact hall (c, d + 1) (.inl ⟨c, hc, rfl⟩)
    · rintro ⟨hle, hrest, ⟨⟨hdepth, hleaf⟩, hbelow⟩, hstack⟩
      refine ⟨hdepth, _, ⟨fun _ => by omega, hleaf, by omega, rfl⟩, by omega, by omega, ?_⟩
      rintro vd (⟨c, hc, rfl⟩ | hvd)
      · exact hbelow c hc
      · exact hstack vd hvd

theorem validateJsonObject_ok_iff {floatText : PyFloat → List Char} {v : Json}
    (hpos : 1 ≤ limits.maxBytes ∧ 1 ≤ limits.maxNodes ∧ 1 ≤ limits.maxDepth ∧
      1 ≤ limits.maxKeyChars) :
    validateJsonObject limits label floatText v = .ok () ↔
      isObject v = true ∧ v.nodes ≤ limits.maxNodes ∧ v.everyAt (nodeOk limits) 0 = true ∧
        v.bytes floatText ≤ limits.maxBytes := by
  have hchars : v.chars ≤ v.bytes floatText := chars_le_bytes v
  rw [validateJsonObject]
  simp only [bind_ok, raiseIf_ok, validateNodes_ok_iff, decide_eq_false_iff_not, Nat.not_lt,
    Bool.not_eq_false', exists_const, stackNodes, stackChars, map_cons, map_nil,
    sum_cons, sum_nil, Nat.add_zero, Nat.sub_zero, mem_singleton, forall_eq]
  constructor
  · rintro ⟨_, hobject, ⟨hnodes, _, hall⟩, hbytes⟩
    exact ⟨hobject, hnodes, hall, hbytes⟩
  · rintro ⟨hobject, hnodes, hall, hbytes⟩
    exact ⟨by omega, hobject, ⟨hnodes, by omega, hall⟩, hbytes⟩

end

end Apex.Domain.InputLimits
