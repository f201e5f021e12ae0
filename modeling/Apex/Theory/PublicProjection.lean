import Apex.Services.PublicProjection
import Mathlib.Tactic.Ring

/-!
# The Count Bounds The Encoder

Each value takes from the budget at least the bytes that are its own in the text, so a page
that passes is written within its budget. The count is exact but for numbers. An integer of
`b` bits has at most `⌊b · log 2⌋ + 1` digits, and `0.30103` is above that logarithm by so
little that the bound is at most one digit too many below `2 ^ 64`.

The count refuses a key that is empty, long or holds U+0000, as the check that follows it
does, so a value with such a key is refused however short its text is.

## Main definitions

* `ownCost`: What one value takes from the budget.
* `Plain`: A value without floats, with small integers and proper keys.

## Theorems

* `withinBudget_iff`: When the loop accepts.
* `length_integer_le`, `integerBytes_le`: How close the bound on an integer is.
-/

namespace Apex.Services.PublicProjection

open Json Domain.InputLimits

theorem characterBytes_eq (c : Char) : characterBytes c = utf8Length (escapeChar c) := by
  rcases Nat.lt_or_ge c.toNat 128 with hlow | hhigh
  · have hall : ∀ n < 128, characterBytes (Char.ofNat n) =
        utf8Length (escapeChar (Char.ofNat n)) := by decide
    have hc := hall c.toNat hlow
    rwa [Char.ofNat_toNat] at hc
  · -- Beyond the ASCII characters nothing is escaped.
    have hne : ∀ d : Char, d.toNat < 128 → c ≠ d := fun d hd heq => by
      rw [heq] at hhigh
      omega
    have hsize : c.utf8Size = if c.toNat ≤ 0x7FF then 2 else if c.toNat ≤ 0xFFFF then 3 else 4 := by
      unfold Char.utf8Size
      rw [if_neg]
      · rfl
      · rw [UInt32.le_iff_toNat_le]
        exact Nat.not_le.mpr hhigh
    have hplain : escapeChar c = [c] := by
      rw [escapeChar, if_neg (hne _ (by decide)), if_neg (hne _ (by decide)),
        if_neg (hne _ (by decide)), if_neg (hne _ (by decide)), if_neg (hne _ (by decide)),
        if_neg (by omega), if_neg (by omega), if_neg (by omega)]
    have hspecial : ¬ (c = '"' ∨ c = '\\' ∨ c.toNat ∈ [8, 9, 10, 12, 13]) := by
      rintro (h | h | h)
      · exact hne _ (by decide) h
      · exact hne _ (by decide) h
      · simp only [List.mem_cons, List.not_mem_nil, or_false] at h
        omega
    rw [hplain, utf8Length_cons, utf8Length_nil, Nat.add_zero, hsize, characterBytes,
      if_neg hspecial, if_neg (by omega), if_neg (by omega)]

theorem consume_eq (remaining : Nat) : ∀ (cs : List Char) (consumed : Nat), consumed ≤ remaining →
    consume remaining consumed cs = less remaining (consumed + escapedBytes cs)
  | [], consumed, hle => by
    rw [consume, show consumed + escapedBytes [] = consumed from rfl, less,
      if_neg (Nat.not_lt.mpr hle)]
  | c :: cs, consumed, hle => by
    have hcost : escapedBytes (c :: cs) = characterBytes c + escapedBytes cs := by
      rw [escapedBytes, List.map_cons, List.sum_cons, characterBytes_eq, escapedBytes]
    rw [consume, hcost, ← Nat.add_assoc]
    split
    · rw [less, if_pos (by omega)]
    · exact consume_eq remaining cs _ (by omega)

theorem remainingAfterJsonString_eq (s : String) (remaining : Nat) :
    remainingAfterJsonString s remaining = less remaining (2 + escapedBytes s.toList) := by
  have hlength := length_le_escapedBytes s.toList
  rw [String.length_toList] at hlength
  rw [remainingAfterJsonString]
  split
  · rw [less, if_pos (by omega)]
  · exact consume_eq remaining s.toList 2 (by omega)

theorem less_eq_some {remaining cost rest : Nat} :
    less remaining cost = some rest ↔ cost ≤ remaining ∧ rest = remaining - cost := by
  rw [less]
  split
  · exact ⟨fun h => (by cases h), fun h => by omega⟩
  · rw [Option.some.injEq]
    exact ⟨fun h => ⟨by omega, h.symm⟩, fun h => h.2.symm⟩

def ownCost : Json → Nat
  | .int n => integerBytes n
  | .float _ => 32
  | v => ownBytes (fun _ => []) v

def pageKeyOk (key : String) : Bool :=
  !(key.isEmpty || decide (maxJsonKeyChars < key.length) || hasNul key)

def keysOk : Json → Bool
  | .dict items => items.all fun kv => pageKeyOk kv.1
  | _ => true

theorem spendKeys_eq_some : ∀ {keys : List String} {remaining rest : Nat},
    spendKeys remaining keys = some rest ↔ keys.all pageKeyOk = true ∧
      (keys.map fun key => 2 + escapedBytes key.toList).sum ≤ remaining ∧
      rest = remaining - (keys.map fun key => 2 + escapedBytes key.toList).sum
  | [], remaining, rest => by
    simp only [spendKeys, Option.some.injEq, List.all_nil, List.map_nil, List.sum_nil,
      Nat.zero_le, Nat.sub_zero, true_and]
    exact eq_comm
  | key :: keys, remaining, rest => by
    rw [spendKeys, List.all_cons, pageKeyOk, List.map_cons, List.sum_cons]
    by_cases hbad : (key.isEmpty || decide (maxJsonKeyChars < key.length) || hasNul key) = true
    · rw [if_pos hbad, hbad]
      exact ⟨fun h => (by cases h), fun h => absurd h.1 Bool.false_ne_true⟩
    · rw [if_neg hbad]
      rw [Bool.not_eq_true] at hbad
      rw [hbad, remainingAfterJsonString_eq, Option.bind_eq_some_iff]
      simp only [less_eq_some, spendKeys_eq_some, Bool.not_false, Bool.true_and]
      constructor
      · rintro ⟨_, ⟨hroom, rfl⟩, hkeys, hrest, rfl⟩
        exact ⟨hkeys, by omega, by omega⟩
      · rintro ⟨hkeys, hroom, rfl⟩
        exact ⟨_, ⟨by omega, rfl⟩, hkeys, by omega, by omega⟩

theorem spend_eq_some {left pending remaining rest : Nat} {v : Json} :
    spend left pending remaining v = some rest ↔
      (isContainer v = true → v.children.length + pending ≤ left) ∧ keysOk v = true ∧
        ownCost v ≤ remaining ∧ rest = remaining - ownCost v := by
  cases v with
  | null =>
    simp only [spend, isContainer, keysOk, less_eq_some, Bool.false_eq_true, false_implies,
      true_and]
    rfl
  | bool b =>
    simp only [spend, isContainer, keysOk, less_eq_some, Bool.false_eq_true, false_implies,
      true_and]
    cases b <;> rfl
  | int n =>
    simp only [spend, isContainer, keysOk, less_eq_some, Bool.false_eq_true, false_implies,
      true_and, ownCost]
  | float x =>
    simp only [spend, isContainer, keysOk, less_eq_some, Bool.false_eq_true, false_implies,
      true_and, ownCost]
  | str s =>
    simp only [spend, isContainer, keysOk, remainingAfterJsonString_eq, less_eq_some,
      Bool.false_eq_true, false_implies, true_and, ownCost, ownBytes, bytes_str]
  | list xs =>
    simp only [spend, isContainer, keysOk, children, forall_const, true_and, ownCost, ownBytes]
    split
    · exact ⟨fun h => (by cases h), fun h => by omega⟩
    · rw [less_eq_some]
      exact ⟨fun h => ⟨by omega, h⟩, fun h => h.2⟩
  | dict items =>
    have hkeys : ((items.map Prod.fst).all pageKeyOk) = items.all fun kv => pageKeyOk kv.1 := by
      rw [List.all_map]
      rfl
    have hsum : ((items.map Prod.fst).map fun key => 2 + escapedBytes key.toList).sum =
        (items.map fun kv => 2 + escapedBytes kv.1.toList).sum := by
      rw [List.map_map]
      rfl
    simp only [spend, isContainer, keysOk, children, List.length_map, forall_const, ownCost,
      ownBytes]
    split
    · exact ⟨fun h => (by cases h), fun h => by omega⟩
    · simp only [Option.bind_eq_some_iff, less_eq_some, spendKeys_eq_some, hkeys, hsum]
      constructor
      · rintro ⟨_, ⟨hroom, rfl⟩, hall, hrest, rfl⟩
        exact ⟨by omega, hall, by omega, by omega⟩
      · rintro ⟨-, hall, hroom, rfl⟩
        exact ⟨_, ⟨by omega, rfl⟩, hall, by omega, by omega⟩

/-- What the values on the stack take, the ones below included. -/
def stackCost (stack : List (Json × Nat)) : Nat := (stack.map fun vd => total ownCost vd.1).sum

theorem stackCost_push (below : List Json) (depth : Nat) (stack : List (Json × Nat)) :
    stackCost ((below.map fun v => (v, depth + 1)).reverse ++ stack)
      = (below.map (total ownCost)).sum + stackCost stack := by
  rw [stackCost, stackCost, List.map_append, List.sum_append, List.map_reverse,
    List.sum_reverse, List.map_map]
  rfl

/-- What the loop asks of one value at its depth. -/
def depthOk (maxDepth depth : Nat) (v : Json) : Bool := decide (depth ≤ maxDepth) && keysOk v

theorem withinBudget_iff {maxDepth : Nat} : ∀ (left remaining : Nat) (stack : List (Json × Nat)),
    withinBudget maxDepth left remaining stack = true ↔
      stackNodes stack ≤ left ∧ stackCost stack ≤ remaining ∧
        ∀ vd ∈ stack, vd.1.everyAt (depthOk maxDepth) vd.2 = true
  | left, remaining, [] => by
    simp only [withinBudget, stackNodes, stackCost, List.map_nil, List.sum_nil, Nat.zero_le,
      List.not_mem_nil, false_implies, implies_true, and_self]
  | 0, remaining, (v, d) :: stack => by
    have hpos := nodes_pos v
    simp only [withinBudget, stackNodes, List.map_cons, List.sum_cons, Bool.false_eq_true,
      false_iff, not_and]
    intro hle
    omega
  | left + 1, remaining, (v, d) :: stack => by
    have hnodes : stackNodes ((v, d) :: stack)
        = 1 + (v.children.map nodes).sum + stackNodes stack := by
      rw [stackNodes, List.map_cons, List.sum_cons, nodes_eq]
      rfl
    have hcost : stackCost ((v, d) :: stack)
        = ownCost v + (v.children.map (total ownCost)).sum + stackCost stack := by
      rw [stackCost, List.map_cons, List.sum_cons, total_eq]
      rfl
    have hlength := length_le_stackNodes ((v.children.map fun c => (c, d + 1)).reverse ++ stack)
    rw [stackNodes_push, List.length_append, List.length_reverse, List.length_map] at hlength
    rw [List.forall_mem_cons, everyAt_eq, hnodes, hcost, withinBudget]
    simp only [depthOk, Bool.and_eq_true, decide_eq_true_eq]
    by_cases hdepth : maxDepth < d
    · rw [if_pos hdepth]
      exact ⟨fun h => absurd h Bool.false_ne_true, fun h => by omega⟩
    rw [if_neg hdepth]
    cases hspend : spend left stack.length remaining v with
    | none =>
      refine ⟨fun h => absurd h Bool.false_ne_true, ?_⟩
      rintro ⟨hle, hrest, ⟨⟨-, hkeys⟩, -⟩, -⟩
      have hsome : spend left stack.length remaining v = some (remaining - ownCost v) :=
        spend_eq_some.mpr ⟨fun _ => by omega, hkeys, by omega, rfl⟩
      rw [hspend] at hsome
      cases hsome
    | some rest =>
      rcases spend_eq_some.mp hspend with ⟨-, hkeys, hroom, rfl⟩
      dsimp only
      rw [withinBudget_iff left, stackNodes_push, stackCost_push]
      simp only [List.mem_append, List.mem_reverse, List.mem_map]
      constructor
      · rintro ⟨hle, hrest, hall⟩
        exact ⟨by omega, by omega, ⟨⟨by omega, hkeys⟩, fun c hc =>
          hall (c, d + 1) (.inl ⟨c, hc, rfl⟩)⟩, fun vd hvd => hall vd (.inr hvd)⟩
      · rintro ⟨hle, hrest, ⟨-, hbelow⟩, hstack⟩
        refine ⟨by omega, by omega, ?_⟩
        rintro vd (⟨c, hc, rfl⟩ | hvd)
        · exact hbelow c hc
        · exact hstack vd hvd

theorem pow_two_lt {m n b q : Nat} (h : 2 ^ m ≤ 10 ^ n) (hq : n * b < m * (q + 1)) :
    2 ^ b < 10 ^ (q + 1) := by
  refine lt_of_pow_lt_pow_left₀ m (Nat.zero_le _) ?_
  calc (2 ^ b) ^ m = (2 ^ m) ^ b := by rw [← pow_mul, ← pow_mul, Nat.mul_comm]
    _ ≤ (10 ^ n) ^ b := Nat.pow_le_pow_left h b
    _ = 10 ^ (n * b) := by rw [← pow_mul]
    _ < 10 ^ (m * (q + 1)) := Nat.pow_lt_pow_right (by decide) hq
    _ = (10 ^ (q + 1)) ^ m := by rw [← pow_mul, Nat.mul_comm]

theorem log_two_le : 2 ^ 100000 ≤ 10 ^ 30103 := by decide +kernel

theorem length_toDigits_le (k : Nat) :
    (Nat.toDigits 10 k).length ≤ Nat.size k * 30103 / 100000 + 1 := by
  refine (Nat.length_toDigits_le_iff (by decide) (Nat.succ_pos _)).mpr ?_
  exact Nat.lt_trans (Nat.lt_size_self k) (pow_two_lt log_two_le (by omega))

theorem le_length_toDigits {k : Nat} (h : k < 2 ^ 64) :
    Nat.size k * 30103 / 100000 ≤ (Nat.toDigits 10 k).length := by
  have hsmall : ∀ b ≤ 64, 10 ^ (b * 30103 / 100000 - 1) ≤ 2 ^ (b - 1) := by decide
  have hsize : Nat.size k ≤ 64 := Nat.size_le.mpr h
  by_cases hq : Nat.size k * 30103 / 100000 ≤ 1
  · exact Nat.le_trans hq Nat.length_toDigits_pos
  by_contra hlt
  have hfew : (Nat.toDigits 10 k).length ≤ Nat.size k * 30103 / 100000 - 1 := by omega
  rw [Nat.length_toDigits_le_iff (by decide) (by omega)] at hfew
  have hlow : 2 ^ (Nat.size k - 1) ≤ k := Nat.lt_size.mp (by omega)
  exact absurd (Nat.lt_of_lt_of_le hfew (hsmall _ hsize)) (Nat.not_lt.mpr hlow)

theorem utf8Length_toDigits (k : Nat) :
    utf8Length (Nat.toDigits 10 k) = (Nat.toDigits 10 k).length := by
  have hone : ∀ c ∈ Nat.toDigits 10 k, c.utf8Size = 1 := fun c hc => by
    have hdigit := Nat.isDigit_of_mem_toDigits (by decide) (by decide) hc
    simp only [Char.isDigit, Bool.and_eq_true, decide_eq_true_eq] at hdigit
    rw [Char.utf8Size, if_pos]
    exact UInt32.le_trans hdigit.2 (by decide)
  rw [utf8Length, List.map_congr_left hone, List.map_const', List.sum_replicate_nat, Nat.mul_one]

theorem bytes_int (floatText : PyFloat → List Char) (n : Int) : bytes floatText (.int n) =
    (Nat.toDigits 10 n.natAbs).length + if n < 0 then 1 else 0 := by
  rw [bytes, encode]
  cases n with
  | ofNat k =>
    have htext : (toString (Int.ofNat k)).toList = Nat.toDigits 10 k := by
      show (toString k).toList = _
      rw [Nat.toString_eq_ofList_toDigits, String.toList_ofList]
    have hsign : ¬ Int.ofNat k < 0 := Int.not_lt.mpr (Int.natCast_nonneg k)
    rw [htext, utf8Length_toDigits, if_neg hsign]
    rfl
  | negSucc k =>
    have htext : (toString (Int.negSucc k)).toList = '-' :: Nat.toDigits 10 (k + 1) := by
      show ("-" ++ toString (k + 1)).toList = _
      rw [String.toList_append, Nat.toString_eq_ofList_toDigits]
      exact congrArg (['-'] ++ ·) String.toList_ofList
    rw [htext, utf8Length_cons, utf8Length_toDigits, if_pos (Int.negSucc_lt_zero k), Nat.add_comm]
    rfl

theorem integerBytes_eq (n : Int) : integerBytes n =
    bitLength n * 30103 / 100000 + 1 + if n < 0 then 1 else 0 := by
  rw [integerBytes, Nat.max_eq_right (Nat.le_add_left 1 _)]

def finiteLeaf : Json → Bool
  | .float x => x.isFinite
  | _ => true

/-- Neither a float nor an integer from `2 ^ 64` on. -/
def plainLeaf : Json → Bool
  | .float _ => false
  | .int n => decide (n.natAbs < 2 ^ 64)
  | _ => true

def isInteger : Json → Nat
  | .int _ => 1
  | _ => 0

variable {floatText : PyFloat → List Char} {value : Json} {maxBytes maxDepth maxNodes : Int}

theorem ownBytes_le (hfloat : ∀ x, x.isFinite = true → utf8Length (floatText x) ≤ 32) (v : Json)
    (h : finiteLeaf v = true) : ownBytes floatText v ≤ ownCost v := by
  cases v with
  | int n =>
    have hdigits := length_toDigits_le n.natAbs
    rw [ownBytes, bytes_int, ownCost, integerBytes_eq, bitLength]
    omega
    · exact fun _ h => by cases h
    · exact fun _ h => by cases h
  | float x => exact hfloat x h
  | bool b => cases b <;> exact Nat.le_refl _
  | _ => exact Nat.le_refl _

theorem ownCost_le (floatText : PyFloat → List Char) (v : Json) (h : plainLeaf v = true) :
    ownCost v ≤ ownBytes floatText v + isInteger v := by
  cases v with
  | int n =>
    have hdigits := le_length_toDigits (of_decide_eq_true h)
    rw [ownBytes, bytes_int, ownCost, integerBytes_eq, bitLength, isInteger]
    omega
    · exact fun _ h => by cases h
    · exact fun _ h => by cases h
  | float x => exact absurd h Bool.false_ne_true
  | bool b => cases b <;> exact Nat.le_refl _
  | _ => exact Nat.le_refl _

theorem total_wrapped (own : Json → Nat) (value : Json) :
    total own (wrapped value) = own (wrapped value) + total own value := by
  rw [total_eq, wrapped, children]
  simp only [List.map_cons, List.map_nil, List.sum_cons, List.sum_nil, Nat.add_zero]

theorem every_wrapped {p : Json → Bool} (h : p (wrapped value) = true) :
    (wrapped value).every p = value.every p := by
  rw [Bool.eq_iff_iff, every_eq, wrapped, children]
  simp only [List.map_cons, List.map_nil, List.mem_singleton, forall_eq]
  exact and_iff_right h

theorem keysOk_wrapped : keysOk (wrapped value) = true := by
  have hitems : pageKeyOk "items" = true := by decide +kernel
  rw [wrapped, keysOk, List.all_cons, hitems]
  rfl

theorem guard_iff :
    nativePageWithinSerializedBudget value maxBytes maxNodes maxDepth = true ↔
      (total ownCost (wrapped value) : Int) ≤ maxBytes ∧ ((wrapped value).nodes : Int) ≤ maxNodes ∧
        0 ≤ maxDepth ∧ (wrapped value).everyAt (depthOk maxDepth.toNat) 0 = true := by
  have hpos : 2 ≤ ownCost (wrapped value) := by
    rw [wrapped, ownCost, ownBytes]
    · omega
    · exact fun _ h => by cases h
    · exact fun _ h => by cases h
  have hcost := total_wrapped ownCost value
  have hnodes := nodes_pos (wrapped value)
  rw [nativePageWithinSerializedBudget]
  split
  · exact ⟨fun h => absurd h Bool.false_ne_true, fun h => by omega⟩
  · rw [withinBudget_iff]
    simp only [stackNodes, stackCost, List.map_cons, List.map_nil, List.sum_cons, List.sum_nil,
      Nat.add_zero, List.mem_singleton, forall_eq]
    constructor
    · rintro ⟨hle, hroom, hall⟩
      exact ⟨by omega, by omega, by omega, hall⟩
    · rintro ⟨hroom, hle, -, hall⟩
      exact ⟨by omega, by omega, hall⟩

def Shallow (maxDepth : Int) (v : Json) : Prop :=
  v.everyAt (fun depth _ => decide ((depth : Int) ≤ maxDepth)) 0 = true

theorem everyAt_depthOk (hmax : 0 ≤ maxDepth) {v : Json} {d : Nat} :
    v.everyAt (depthOk maxDepth.toNat) d = true ↔
      v.everyAt (fun depth _ => decide ((depth : Int) ≤ maxDepth)) d = true ∧
        v.every keysOk = true := by
  induction v using childrenInduction generalizing d with
  | h v ih =>
    have hself : decide (d ≤ maxDepth.toNat) = decide ((d : Int) ≤ maxDepth) :=
      decide_eq_decide.mpr (by omega)
    rw [everyAt_eq, everyAt_eq, every_eq, depthOk, hself, Bool.and_eq_true]
    constructor
    · rintro ⟨⟨hdepth, hkeys⟩, hbelow⟩
      exact ⟨⟨hdepth, fun c hc => ((ih c hc).mp (hbelow c hc)).1⟩, hkeys,
        fun c hc => ((ih c hc).mp (hbelow c hc)).2⟩
    · rintro ⟨⟨hdepth, hshallow⟩, hkeys, hbelow⟩
      exact ⟨⟨hdepth, hkeys⟩, fun c hc => (ih c hc).mpr ⟨hshallow c hc, hbelow c hc⟩⟩

theorem guard_bounds (hfloat : ∀ x, x.isFinite = true → utf8Length (floatText x) ≤ 32)
    (hfinite : value.every finiteLeaf = true)
    (h : nativePageWithinSerializedBudget value maxBytes maxNodes maxDepth = true) :
    (bytes floatText (wrapped value) : Int) ≤ maxBytes ∧
      ((wrapped value).nodes : Int) ≤ maxNodes ∧ Shallow maxDepth (wrapped value) := by
  rcases guard_iff.mp h with ⟨hroom, hnodes, hmax, hall⟩
  have hle := total_le (ownBytes_le hfloat) (wrapped value) ((every_wrapped rfl).trans hfinite)
  rw [← bytes_eq_total] at hle
  exact ⟨by omega, hnodes, ((everyAt_depthOk hmax).mp hall).1⟩

theorem guard_of_bytes (floatText : PyFloat → List Char) (hplain : value.every plainLeaf = true)
    (hkeys : value.every keysOk = true)
    (hbytes : (bytes floatText (wrapped value) + total isInteger value : Int) ≤ maxBytes)
    (hnodes : ((wrapped value).nodes : Int) ≤ maxNodes)
    (hdepth : Shallow maxDepth (wrapped value)) :
    nativePageWithinSerializedBudget value maxBytes maxNodes maxDepth = true := by
  have hmax : 0 ≤ maxDepth := by
    rw [Shallow, everyAt_eq] at hdepth
    simpa using hdepth.1
  have hle := total_le (ownCost_le floatText) (wrapped value) ((every_wrapped rfl).trans hplain)
  rw [total_add, ← bytes_eq_total, total_wrapped isInteger,
    show isInteger (wrapped value) = 0 from rfl, Nat.zero_add] at hle
  exact guard_iff.mpr ⟨by omega, hnodes, hmax, (everyAt_depthOk hmax).mpr
    ⟨hdepth, (every_wrapped keysOk_wrapped).trans hkeys⟩⟩

theorem everyAt_mono {p q : Nat → Json → Bool} (h : ∀ d v, p d v = true → q d v = true) (v : Json) :
    ∀ d, v.everyAt p d = true → v.everyAt q d = true := by
  induction v using childrenInduction with
  | h v ih =>
    intro d hv
    rw [everyAt_eq] at hv ⊢
    exact ⟨h d v hv.1, fun c hc => ih c hc (d + 1) (hv.2 c hc)⟩

theorem keysOk_of_nodeOk {limits : JsonLimits} (hkeys : limits.maxKeyChars = maxJsonKeyChars)
    (depth : Nat) (v : Json) (h : nodeOk limits depth v = true) : keysOk v = true := by
  cases v with
  | dict items =>
    rw [nodeOk, leafOk, Bool.and_eq_true, List.all_eq_true] at h
    rw [keysOk, List.all_eq_true]
    intro kv hkv
    have hkey := h.2 kv hkv
    simp only [keyOk, hkeys, Bool.and_eq_true, decide_eq_true_eq, Bool.not_eq_true'] at hkey
    simp only [pageKeyOk, hkey.2, Bool.or_false, Bool.not_eq_true', Bool.or_eq_false_iff,
      decide_eq_false_iff_not, Nat.not_lt]
    refine ⟨?_, hkey.1.2⟩
    rw [← Bool.not_eq_true, String.isEmpty_iff]
    rintro hempty
    rw [hempty] at hkey
    exact absurd hkey.1.1 (by decide)
  | _ => rfl

theorem page_accepted {requestedLimit : Int} {label : String}
    (hplain : value.every plainLeaf = true) (hpage : isPage requestedLimit value = true)
    (h : validateJsonObject ⟨(maxBytes - total isInteger value).toNat, maxNodes.toNat,
      maxDepth.toNat, maxJsonKeyChars⟩ label floatText (wrapped value) = .ok ()) :
    validatedNativeMappingPage floatText value requestedLimit label maxBytes maxNodes maxDepth =
      .ok value := by
  have hpos : 1 ≤ (maxBytes - total isInteger value).toNat ∧ 1 ≤ maxNodes.toNat ∧
      1 ≤ maxDepth.toNat := by
    simp only [validateJsonObject, bind_ok, raiseIf_ok, decide_eq_false_iff_not, Nat.not_lt,
      le_min_iff] at h
    rcases h with ⟨_, hpos, -⟩
    exact ⟨hpos.1.1, hpos.1.2, hpos.2.1⟩
  have hchars : 1 ≤ maxJsonKeyChars := by decide
  have haccepted := (validateJsonObject_ok_iff ⟨hpos.1, hpos.2.1, hpos.2.2, hchars⟩).mp h
  rcases haccepted with ⟨hobject, hnodes, hall, hbytes⟩
  dsimp only at hnodes hbytes
  have hshallow : Shallow maxDepth (wrapped value) := by
    refine everyAt_mono (fun d v hv => ?_) _ 0 hall
    rw [nodeOk, Bool.and_eq_true, decide_eq_true_eq] at hv
    have hle : d ≤ maxDepth.toNat := hv.1
    exact decide_eq_true (by omega)
  have hkeys := everyAt_mono (q := fun _ v => keysOk v) (keysOk_of_nodeOk rfl) _ 0 hall
  rw [everyAt_depth, every_wrapped keysOk_wrapped] at hkeys
  have hguard := guard_of_bytes floatText hplain hkeys
    (show (bytes floatText (wrapped value) + total isInteger value : Int) ≤ maxBytes by omega)
    (show ((wrapped value).nodes : Int) ≤ maxNodes by omega) hshallow
  have hlimit : 0 ≤ requestedLimit := by
    unfold isPage at hpage
    split at hpage
    · rw [Bool.and_eq_true, decide_eq_true_eq] at hpage
      omega
    · cases hpage
  have hwhole : validateJsonObject ⟨maxBytes.toNat, maxNodes.toNat, maxDepth.toNat,
      maxJsonKeyChars⟩ label floatText (wrapped value) = .ok () := by
    rw [validateJsonObject_ok_iff ⟨by dsimp only; omega, hpos.2.1, hpos.2.2, hchars⟩]
    exact ⟨hobject, hnodes, hall, by dsimp only; omega⟩
  rw [validatedNativeMappingPage, hpage, hguard, hwhole, decide_eq_false (by omega)]
  rfl

/-- A page that passes the count has a text within the budget, and no more values and levels
    than allowed. A value without floats, with integers below `2 ^ 64` and with proper keys
    passes if its text would still be within the budget with a byte more for each integer, and
    a page of such values that the check accepts with these bytes to spare is returned. -/
theorem size_guard_bounds (floatText : PyFloat → List Char)
    (hfloat : ∀ x, x.isFinite = true → utf8Length (floatText x) ≤ 32) (value : Json)
    (maxBytes maxNodes maxDepth : Int) :
    (value.every finiteLeaf = true →
      nativePageWithinSerializedBudget value maxBytes maxNodes maxDepth = true →
      (bytes floatText (wrapped value) : Int) ≤ maxBytes ∧
        ((wrapped value).nodes : Int) ≤ maxNodes ∧ Shallow maxDepth (wrapped value)) ∧
    (value.every plainLeaf = true → value.every keysOk = true →
      (bytes floatText (wrapped value) + total isInteger value : Int) ≤ maxBytes →
      ((wrapped value).nodes : Int) ≤ maxNodes → Shallow maxDepth (wrapped value) →
      nativePageWithinSerializedBudget value maxBytes maxNodes maxDepth = true) ∧
    ∀ (requestedLimit : Int) (label : String), value.every plainLeaf = true →
      isPage requestedLimit value = true →
      validateJsonObject ⟨(maxBytes - total isInteger value).toNat, maxNodes.toNat,
        maxDepth.toNat, maxJsonKeyChars⟩ label floatText (wrapped value) = .ok () →
      validatedNativeMappingPage floatText value requestedLimit label maxBytes maxNodes maxDepth =
        .ok value :=
  ⟨guard_bounds hfloat, guard_of_bytes floatText, fun _ _ => page_accepted⟩

/-- `0.5` as it is written, and no text for any other float. -/
def halfText (x : PyFloat) : List Char :=
  if x = ⟨0x3FE0000000000000#64⟩ then "0.5".toList else []

/-- A page with a float passes with 64 bytes, and is written with fewer. -/
theorem size_guard_bounds_half :
    (bytes halfText (wrapped (.list [.dict [("a", .float ⟨0x3FE0000000000000#64⟩)]])) : Int)
      ≤ 64 := by
  have hfloat : ∀ x, x.isFinite = true → utf8Length (halfText x) ≤ 32 := by
    intro x _
    rw [halfText]
    split <;> decide
  exact ((size_guard_bounds halfText hfloat _ 64 8 8).1 (by decide) (by decide +kernel)).1

/-- A value with an empty key is refused, though its text is short. -/
theorem empty_key_refused : ¬ ∀ (floatText : PyFloat → List Char) (value : Json)
    (maxBytes maxNodes maxDepth : Int), value.every plainLeaf = true →
      (bytes floatText (wrapped value) + total isInteger value : Int) ≤ maxBytes →
      ((wrapped value).nodes : Int) ≤ maxNodes → Shallow maxDepth (wrapped value) →
      nativePageWithinSerializedBudget value maxBytes maxNodes maxDepth = true := by
  intro h
  have hrefused :
      nativePageWithinSerializedBudget (.list [.dict [("", .null)]]) 64 8 8 = false := by
    decide +kernel
  have hpasses := h halfText (.list [.dict [("", .null)]]) 64 8 8 (by decide) (by decide +kernel)
    (by decide) (by rw [Shallow]; decide)
  exact absurd (hrefused.symm.trans hpasses) Bool.false_ne_true

end Apex.Services.PublicProjection
