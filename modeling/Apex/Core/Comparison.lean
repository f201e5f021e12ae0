import Apex.Core.Number

/-!
# Comparing Values

Three ways to compare two values, all of the same shape: lists are compared
element by element, dictionaries key by key in any order, and only the leaves
are compared differently. What is shared is proved once, for any comparison of
leaves.

The comparison of a scripting language looks at numbers only: `True`, `1` and
`1.0` are the same to it, and so are the two zeros. Two documents are the same
text in canonical form only if their leaves are also of the same kind.

## Main definitions

* `Json.agree`: Two values of one shape whose leaves pass a test.
* `Json.pyEq`: The `==` of the values.
* `Json.canonEq`: The equality of their canonical texts.
* `Json.sameKinds`: Numbers and truth values of the same kind.
* `Json.field`: What a value holds under a key.

## Theorems

* `PyFloat.scaled_inj`: A finite double is determined by its value and its sign.
* `canonEq_of_pyEq`: What is equal and of the same kinds is the same text.
* `field_of_agree`: A text found in one value is found in the other.
-/

namespace Apex

open List Option

namespace PyFloat

/-- The bits of a double as a number: the sign, the exponent and the fraction. -/
def negative (x : PyFloat) : Bool := x.bits.getLsbD 63

def exponent (x : PyFloat) : Nat := (x.bits.extractLsb' 52 11).toNat

def fraction (x : PyFloat) : Nat := (x.bits.extractLsb' 0 52).toNat

/-- The distance of a finite double from zero, in units of the smallest positive one. -/
def magnitude (e f : Nat) : Nat := if e = 0 then f else (2 ^ 52 + f) * 2 ^ (e - 1)

/-- `math.isinf`. -/
def isInfinite (x : PyFloat) : Bool := !x.isFinite && x.fraction == 0

theorem scaled_eq (x : PyFloat) : x.scaled =
    if x.negative then -(magnitude x.exponent x.fraction : Int)
    else magnitude x.exponent x.fraction := rfl

theorem fraction_lt (x : PyFloat) : x.fraction < 2 ^ 52 := BitVec.isLt _

theorem negative_iff (x : PyFloat) : x.negative = true ↔ 2 ^ 63 ≤ x.bits.toNat := by
  rw [negative, BitVec.getLsbD, Nat.testBit_eq_decide_div_mod_eq, decide_eq_true_eq]
  have hlt := x.bits.isLt
  omega

theorem ext_parts {x y : PyFloat} (hs : x.negative = y.negative) (he : x.exponent = y.exponent)
    (hf : x.fraction = y.fraction) : x = y := by
  have hsign : 2 ^ 63 ≤ x.bits.toNat ↔ 2 ^ 63 ≤ y.bits.toNat := by
    rw [← negative_iff, ← negative_iff, hs]
  simp only [exponent, fraction, BitVec.extractLsb'_toNat, Nat.shiftRight_eq_div_pow] at he hf
  have hx := x.bits.isLt
  have hy := y.bits.isLt
  have hbits : x.bits.toNat = y.bits.toNat := by omega
  rcases x with ⟨x⟩
  rcases y with ⟨y⟩
  exact congrArg PyFloat.mk (BitVec.eq_of_toNat_eq hbits)

theorem magnitude_lt {e e' f f' : Nat} (hf : f < 2 ^ 52) (he : e < e') :
    magnitude e f < magnitude e' f' := by
  have hlow : 2 ^ 52 * 2 ^ (e' - 1) ≤ magnitude e' f' := by
    rw [magnitude, if_neg (by omega)]
    exact Nat.mul_le_mul_right _ (Nat.le_add_right _ _)
  refine Nat.lt_of_lt_of_le ?_ hlow
  rw [magnitude]
  split
  · -- A subnormal is below every normal number.
    exact Nat.lt_of_lt_of_le hf (Nat.le_mul_of_pos_right _ (Nat.two_pow_pos _))
  · have hstep : 2 ^ 52 * 2 ^ (e' - 1) = 2 ^ 53 * 2 ^ (e' - 2) := by
      rw [← Nat.pow_add, ← Nat.pow_add]
      congr 1
      omega
    have hmono : 2 ^ 53 * 2 ^ (e - 1) ≤ 2 ^ 53 * 2 ^ (e' - 2) :=
      Nat.mul_le_mul_left _ (Nat.pow_le_pow_right (by decide) (by omega))
    rw [hstep]
    refine Nat.lt_of_lt_of_le ?_ hmono
    exact Nat.mul_lt_mul_of_pos_right (by omega) (Nat.two_pow_pos _)

theorem magnitude_inj {e e' f f' : Nat} (hf : f < 2 ^ 52) (hf' : f' < 2 ^ 52)
    (h : magnitude e f = magnitude e' f') : e = e' ∧ f = f' := by
  have he : e = e' := by
    rcases Nat.lt_trichotomy e e' with hlt | heq | hgt
    · exact absurd h (Nat.ne_of_lt (magnitude_lt hf hlt))
    · exact heq
    · exact absurd h.symm (Nat.ne_of_lt (magnitude_lt hf' hgt))
  subst he
  refine ⟨rfl, ?_⟩
  rw [magnitude, magnitude] at h
  split at h
  · exact h
  · have := Nat.eq_of_mul_eq_mul_right (Nat.two_pow_pos _) h
    omega

theorem scaled_inj {x y : PyFloat} (hs : x.negative = y.negative) (h : x.scaled = y.scaled) :
    x = y := by
  rw [scaled_eq, scaled_eq, hs] at h
  have hmag : magnitude x.exponent x.fraction = magnitude y.exponent y.fraction := by
    split at h
    · omega
    · omega
  rcases magnitude_inj x.fraction_lt y.fraction_lt hmag with ⟨he, hf⟩
  exact ext_parts hs he hf

end PyFloat

namespace Json

mutual

/-- Whether two values have the same shape and a test holds of every two leaves at
    the same place. -/
def agree (leaf : Json → Json → Bool) : Json → Json → Bool
  | .list xs, .list ys => agreeList leaf xs ys
  | .dict c, .dict d => agreeItems leaf c d && d.all (fun kv => (c.lookup kv.1).isSome)
  | .list _, _ => false
  | .dict _, _ => false
  | v, w => leaf v w

def agreeList (leaf : Json → Json → Bool) : List Json → List Json → Bool
  | [], [] => true
  | x :: xs, y :: ys => agree leaf x y && agreeList leaf xs ys
  | _, _ => false

def agreeItems (leaf : Json → Json → Bool) : List (String × Json) → List (String × Json) → Bool
  | [], _ => true
  | (k, v) :: c, d =>
    (match d.lookup k with
      | some w => agree leaf v w
      | none => false) && agreeItems leaf c d

end

variable {leaf : Json → Json → Bool}

theorem agreeList_iff : ∀ (xs ys : List Json),
    agreeList leaf xs ys = true ↔ Forall₂ (fun x y => agree leaf x y = true) xs ys
  | [], [] => by simp only [agreeList, Forall₂.nil]
  | [], _ :: _ => by simp only [agreeList, Bool.false_eq_true, forall₂_nil_left_iff,
      reduceCtorEq]
  | _ :: _, [] => by simp only [agreeList, Bool.false_eq_true, forall₂_nil_right_iff,
      reduceCtorEq]
  | x :: xs, y :: ys => by
    rw [agreeList, Bool.and_eq_true, agreeList_iff xs ys, forall₂_cons]

theorem agreeItems_iff : ∀ (c d : List (String × Json)),
    agreeItems leaf c d = true ↔ ∀ kv ∈ c, ∃ w, d.lookup kv.1 = some w ∧ agree leaf kv.2 w = true
  | [], d => by simp only [agreeItems, not_mem_nil, false_implies, implies_true]
  | (k, v) :: c, d => by
    rw [agreeItems, Bool.and_eq_true, agreeItems_iff c d, forall_mem_cons]
    refine and_congr_left fun _ => ?_
    cases d.lookup k with
    | none => simp only [Bool.false_eq_true, reduceCtorEq, false_and, exists_false]
    | some w => simp only [some.injEq, exists_eq_left']

theorem agree_list (xs ys : List Json) : agree leaf (.list xs) (.list ys) = true ↔
    Forall₂ (fun x y => agree leaf x y = true) xs ys := by
  rw [agree, agreeList_iff]

theorem agree_dict (c d : List (String × Json)) : agree leaf (.dict c) (.dict d) = true ↔
    (∀ kv ∈ c, ∃ w, d.lookup kv.1 = some w ∧ agree leaf kv.2 w = true) ∧
      ∀ kv ∈ d, (c.lookup kv.1).isSome := by
  rw [agree, Bool.and_eq_true, agreeItems_iff, List.all_eq_true]

theorem agree_of_both {leaf leaf' both : Json → Json → Bool}
    (hleaf : ∀ v w, leaf v w = true → leaf' v w = true → both v w = true) (v : Json) :
    ∀ w, agree leaf v w = true → agree leaf' v w = true → agree both v w = true := by
  refine inductionOn (P := fun v => ∀ w, agree leaf v w = true → agree leaf' v w = true →
    agree both v w = true) ?_ ?_ ?_ ?_ ?_ ?_ ?_ v
  · intro w h h'
    exact hleaf _ _ h h'
  · intro b w h h'
    exact hleaf _ _ h h'
  · intro n w h h'
    exact hleaf _ _ h h'
  · intro x w h h'
    exact hleaf _ _ h h'
  · intro s w h h'
    exact hleaf _ _ h h'
  · intro xs ih w h h'
    cases w with
    | list ys =>
      rw [agree_list] at h h' ⊢
      induction h with
      | nil => exact Forall₂.nil
      | @cons x y xs ys hxy _ ihxs =>
        rw [forall₂_cons] at h' ⊢
        exact ⟨ih x mem_cons_self y hxy h'.1, ihxs (fun z hz => ih z (mem_cons_of_mem _ hz)) h'.2⟩
    | _ => exact absurd h (by simp only [agree, Bool.false_eq_true, not_false_eq_true])
  · intro c ih w h h'
    cases w with
    | dict d =>
      rw [agree_dict] at h h' ⊢
      refine ⟨fun kv hkv => ?_, h.2⟩
      rcases h.1 kv hkv with ⟨w, hw, hv⟩
      rcases h'.1 kv hkv with ⟨w', hw', hv'⟩
      rw [hw, some.injEq] at hw'
      subst hw'
      exact ⟨w, hw, ih kv hkv w hv hv'⟩
    | _ => exact absurd h (by simp only [agree, Bool.false_eq_true, not_false_eq_true])

/-- `isinstance(value, dict)`. -/
def isDict : Json → Bool
  | .dict _ => true
  | _ => false

/-- `value.get(key)` of a dictionary; any other value holds nothing. -/
def field (v : Json) (key : String) : Json :=
  match v with
  | .dict items => (items.lookup key).getD .null
  | _ => .null

theorem field_of_agree (hleaf : ∀ s w, leaf (.str s) w = true → w = .str s) {v w : Json}
    {key s : String} (h : agree leaf v w = true) (hs : v.field key = .str s) :
    w.field key = .str s := by
  cases v with
  | dict c =>
    cases w with
    | dict d =>
      rw [agree_dict] at h
      rw [field] at hs ⊢
      cases hc : c.lookup key with
      | none =>
        rw [hc] at hs
        exact absurd hs (by simp only [getD_none, reduceCtorEq, not_false_eq_true])
      | some x =>
        rw [hc, getD_some] at hs
        rw [lookup_eq_some_iff] at hc
        rcases hc with ⟨l₁, l₂, heq, _⟩
        rcases h.1 (key, x) (heq ▸ mem_append_right _ mem_cons_self) with
          ⟨y, hy, hxy⟩
        rw [hs] at hxy
        rw [hy, getD_some]
        exact hleaf s y hxy
    | _ => exact absurd h (by simp only [agree, Bool.false_eq_true, not_false_eq_true])
  | _ => exact absurd hs (by simp only [field, reduceCtorEq, not_false_eq_true])

/-- The value of a number or a truth value, in units of the smallest positive double. -/
def numeric? : Json → Option Int
  | .bool b => some (if b then unitScale else 0)
  | .int n => some (n * unitScale)
  | .float x => if x.isFinite then some x.scaled else none
  | _ => none

/-- `==` on leaves: numbers are compared by value, whatever their kind. -/
def pyLeaf : Json → Json → Bool
  | .null, .null => true
  | .str s, .str t => s == t
  | .float x, .float y =>
    (x.isFinite && y.isFinite && x.scaled == y.scaled) || (decide (x = y) && x.isInfinite)
  | v, w =>
    match numeric? v, numeric? w with
    | some a, some b => a == b
    | _, _ => false

/-- The same text in canonical form, on leaves. -/
def canonLeaf : Json → Json → Bool
  | .null, .null => true
  | .bool a, .bool b => a == b
  | .int a, .int b => a == b
  | .float x, .float y => decide (x = y)
  | .str s, .str t => s == t
  | _, _ => false

/-- Numbers and truth values meet only their own kind, and doubles their own sign. -/
def kindLeaf : Json → Json → Bool
  | .bool _, .bool _ => true
  | .int _, .int _ => true
  | .float x, .float y => x.negative == y.negative
  | .bool _, _ => false
  | .int _, _ => false
  | .float _, _ => false
  | _, _ => true

def pyEq : Json → Json → Bool := agree pyLeaf

/-- `json.dumps(v, sort_keys=True) == json.dumps(w, sort_keys=True)`. -/
def canonEq : Json → Json → Bool := agree canonLeaf

/-- Wherever the first value holds a number or a truth value, the second holds one of
    the same kind. -/
def sameKinds : Json → Json → Bool := agree kindLeaf

theorem unitScale_pos : 0 < unitScale := Int.pow_pos (show (0 : Int) < 2 by omega)

theorem canonLeaf_of_both (v w : Json) (hpy : pyLeaf v w = true) (hkind : kindLeaf v w = true) :
    canonLeaf v w = true := by
  have hunit : unitScale ≠ 0 := Int.ne_of_gt unitScale_pos
  cases v with
  | null => cases w <;> simp_all only [pyLeaf, canonLeaf, numeric?, Bool.false_eq_true]
  | str s => cases w <;> simp_all only [pyLeaf, canonLeaf, numeric?, Bool.false_eq_true]
  | list xs => cases w <;> simp_all only [pyLeaf, numeric?, Bool.false_eq_true]
  | dict c => cases w <;> simp_all only [pyLeaf, numeric?, Bool.false_eq_true]
  | bool a =>
    cases w with
    | bool b =>
      rw [canonLeaf, beq_iff_eq]
      have hval : (if a then unitScale else 0) = if b then unitScale else 0 :=
        beq_iff_eq.mp hpy
      cases a with
      | true =>
        cases b with
        | true => rfl
        | false => exact absurd hval hunit
      | false =>
        cases b with
        | true => exact absurd hval.symm hunit
        | false => rfl
    | _ => exact absurd hkind (by simp only [kindLeaf, Bool.false_eq_true, not_false_eq_true])
  | int a =>
    cases w with
    | int b =>
      rw [canonLeaf, beq_iff_eq]
      simp only [pyLeaf, numeric?, beq_iff_eq] at hpy
      exact Int.eq_of_mul_eq_mul_right hunit hpy
    | _ => exact absurd hkind (by simp only [kindLeaf, Bool.false_eq_true, not_false_eq_true])
  | float x =>
    cases w with
    | float y =>
      rw [canonLeaf, decide_eq_true_eq]
      rw [kindLeaf, beq_iff_eq] at hkind
      simp only [pyLeaf, Bool.or_eq_true, Bool.and_eq_true, beq_iff_eq, decide_eq_true_eq] at hpy
      rcases hpy with ⟨_, heq⟩ | ⟨heq, _⟩
      · exact PyFloat.scaled_inj hkind heq
      · exact heq
    | _ => exact absurd hkind (by simp only [kindLeaf, Bool.false_eq_true, not_false_eq_true])

theorem canonEq_of_pyEq {v w : Json} (hpy : pyEq v w = true) (hkind : sameKinds v w = true) :
    canonEq v w = true := agree_of_both canonLeaf_of_both v w hpy hkind

theorem canonLeaf_str (s : String) (w : Json) (h : canonLeaf (.str s) w = true) : w = .str s := by
  cases w with
  | str t =>
    rw [canonLeaf, beq_iff_eq] at h
    rw [h]
  | _ => exact absurd h (by simp only [canonLeaf, Bool.false_eq_true, not_false_eq_true])

theorem canonEq_field {v w : Json} {key s : String} (h : canonEq v w = true)
    (hs : v.field key = .str s) : w.field key = .str s := field_of_agree canonLeaf_str h hs

end Json

end Apex
