import Mathlib.Data.Int.Log
import Mathlib.Data.List.DropRight
import Mathlib.Data.Nat.Digits.Lemmas
import Mathlib.Data.Rat.Floor

/-!
# Decimal Numerals

Numbers as they are printed to a number of significant digits, and numerals as they are
read back. Numbers are exact, so a printed number is the number itself exactly if no digit
of it is lost.

## Main definitions

* `numeral?`: The numeral a text begins with, and what follows it.
* `numeralValue`: What it stands for.
* `roundHalfEven`, `significand`: A number to so many significant digits.
* `formatG`: It is printed without an exponent if that is short.

## Theorems

* `significand_eq`: A number that has no more digits is rounded to itself.
* `numeral_formatG`: What is printed without an exponent is read as the rounded number.
* `numeral_formatG_exponent`: Where an exponent is printed, it is left unread.
-/

namespace Apex.Decimal

open List
open Nat (ofDigits digits)

/-- The digits a text begins with, and the rest. -/
def spanDigits (digit? : Char → Option Nat) : List Char → List Nat × List Char
  | [] => ([], [])
  | c :: cs =>
    match digit? c with
    | some d => (d :: (spanDigits digit? cs).1, (spanDigits digit? cs).2)
    | none => ([], c :: cs)

/-- Digits, and perhaps a point and more digits: the two parts, and the rest. -/
def numeral? (digit? : Char → Option Nat) (cs : List Char) :
    Option (List Nat × List Nat × List Char) :=
  match spanDigits digit? cs with
  | ([], _) => none
  | (whole, '.' :: rest) =>
    match spanDigits digit? rest with
    | ([], _) => some (whole, [], '.' :: rest)
    | (part, rest) => some (whole, part, rest)
  | (whole, rest) => some (whole, [], rest)

/-- The number that a whole part and a fractional part stand for. -/
def numeralValue (whole part : List Nat) : ℚ :=
  ((ofDigits 10 (whole ++ part).reverse : Nat) : ℚ) / 10 ^ part.length

theorem length_spanDigits_le (digit? : Char → Option Nat) (cs : List Char) :
    (spanDigits digit? cs).2.length ≤ cs.length := by
  induction cs with
  | nil => exact Nat.le_refl _
  | cons c cs ih =>
    unfold spanDigits
    split
    · exact Nat.le_succ_of_le ih
    · exact Nat.le_refl _

theorem length_numeral_le {digit? : Char → Option Nat} {cs rest : List Char}
    {whole part : List Nat} (h : numeral? digit? cs = some (whole, part, rest)) :
    rest.length ≤ cs.length := by
  have hspan := length_spanDigits_le digit? cs
  unfold numeral? at h
  split at h
  · cases h
  · next after _ heq =>
      rw [heq] at hspan
      have hspan' := length_spanDigits_le digit? after
      split at h
      · cases h
        exact hspan
      · next heq' =>
          rw [heq'] at hspan'
          cases h
          exact Nat.le_trans hspan' (Nat.le_of_succ_le hspan)
  · next heq =>
      rw [heq] at hspan
      cases h
      exact hspan

def roundHalfEven (q : ℚ) : ℤ :=
  if q - ⌊q⌋ < 1 / 2 then ⌊q⌋
  else if 1 / 2 < q - ⌊q⌋ then ⌊q⌋ + 1
  else if ⌊q⌋ % 2 = 0 then ⌊q⌋ else ⌊q⌋ + 1

/-- A positive number to `p` significant digits: the integer that they are, and the
    exponent of the first of them. -/
def significand (p : Nat) (q : ℚ) : Nat × Int :=
  let x := Int.log 10 q
  let m := (roundHalfEven (q * 10 ^ ((p : Int) - 1 - x))).toNat
  if m = 10 ^ p then (10 ^ (p - 1), x + 1) else (m, x)

def digitChars (ds : List Nat) : List Char := ds.map Nat.digitChar

/-- Two parts, without the zeros at the end and without a point that nothing follows. -/
def pointed (whole part : List Nat) : List Char :=
  match part.rdropWhile (· == 0) with
  | [] => digitChars whole
  | part => digitChars whole ++ '.' :: digitChars part

def exponentChars (x : Int) : List Char :=
  let ds := digitChars (digits 10 x.natAbs).reverse
  'e' :: (if x < 0 then '-' else '+') :: (List.replicate (2 - ds.length) '0' ++ ds)

/-- The whole and the fractional part of a number that is printed without an exponent. -/
def places (ds : List Nat) (x : Int) : List Nat × List Nat :=
  if 0 ≤ x then (ds.take (x.toNat + 1), ds.drop (x.toNat + 1))
  else ([0], List.replicate (-x - 1).toNat 0 ++ ds)

/-- `%.<p>g` of a number that is not negative. -/
def formatG (p : Nat) (q : ℚ) : List Char :=
  if q = 0 then ['0']
  else
    let (m, x) := significand p q
    let ds := (digits 10 m).reverse
    if -4 ≤ x ∧ x < p then pointed (places ds x).1 (places ds x).2
    else pointed (ds.take 1) (ds.drop 1) ++ exponentChars x

theorem roundHalfEven_intCast (n : ℤ) : roundHalfEven n = n := by
  have hzero : (n : ℚ) - ⌊(n : ℚ)⌋ < 1 / 2 := by
    rw [Int.floor_intCast, sub_self]
    norm_num
  rw [roundHalfEven, if_pos hzero, Int.floor_intCast]

theorem floor_le_roundHalfEven (q : ℚ) : ⌊q⌋ ≤ roundHalfEven q := by
  unfold roundHalfEven
  split_ifs <;> omega

theorem le_roundHalfEven {n : ℤ} {q : ℚ} (h : (n : ℚ) ≤ q) : n ≤ roundHalfEven q :=
  Int.le_trans (Int.le_floor.mpr h) (floor_le_roundHalfEven q)

theorem roundHalfEven_le {n : ℤ} {q : ℚ} (h : q ≤ n) : roundHalfEven q ≤ n := by
  rcases eq_or_lt_of_le h with rfl | hlt
  · exact Int.le_of_eq (roundHalfEven_intCast n)
  · have hfloor : ⌊q⌋ + 1 ≤ n := Int.floor_lt.mpr hlt
    unfold roundHalfEven
    split_ifs <;> omega

section Significand

variable {p : Nat} {q : ℚ}

theorem natCast_pow_pred (hp : 0 < p) :
    (((10 ^ (p - 1) : Nat) : ℤ) : ℚ) = 10 ^ ((p : Int) - 1) := by
  have hpred : (p : Int) - 1 = ((p - 1 : Nat) : Int) := by omega
  rw [hpred, zpow_natCast]
  push_cast
  rfl

theorem scaled_bounds (hp : 0 < p) (hq : 0 < q) :
    (((10 ^ (p - 1) : Nat) : ℤ) : ℚ) ≤ q * 10 ^ ((p : Int) - 1 - Int.log 10 q) ∧
      q * 10 ^ ((p : Int) - 1 - Int.log 10 q) < (((10 ^ p : Nat) : ℤ) : ℚ) := by
  have hten : (10 : ℚ) ≠ 0 := by norm_num
  have hlow := Int.zpow_log_le_self (R := ℚ) (b := 10) (by norm_num) hq
  have hhigh := Int.lt_zpow_succ_log_self (R := ℚ) (b := 10) (by norm_num) q
  push_cast at hlow hhigh
  have hscale : (0 : ℚ) < 10 ^ ((p : Int) - 1 - Int.log 10 q) := zpow_pos (by norm_num) _
  constructor
  · calc (((10 ^ (p - 1) : Nat) : ℤ) : ℚ)
        = 10 ^ Int.log 10 q * 10 ^ ((p : Int) - 1 - Int.log 10 q) := by
          rw [natCast_pow_pred hp, ← zpow_add₀ hten]
          congr 1
          ring
      _ ≤ q * 10 ^ ((p : Int) - 1 - Int.log 10 q) := mul_le_mul_of_nonneg_right hlow hscale.le
  · calc q * 10 ^ ((p : Int) - 1 - Int.log 10 q)
        < 10 ^ (Int.log 10 q + 1) * 10 ^ ((p : Int) - 1 - Int.log 10 q) :=
          mul_lt_mul_of_pos_right hhigh hscale
      _ = (((10 ^ p : Nat) : ℤ) : ℚ) := by
          rw [← zpow_add₀ hten]
          push_cast
          rw [← zpow_natCast]
          congr 1
          ring

theorem significand_bounds (hp : 0 < p) (hq : 0 < q) :
    10 ^ (p - 1) ≤ (significand p q).1 ∧ (significand p q).1 < 10 ^ p := by
  rcases scaled_bounds hp hq with ⟨hlow, hhigh⟩
  have hmin := le_roundHalfEven hlow
  have hmax := roundHalfEven_le hhigh.le
  simp only [significand]
  split_ifs with hm
  · exact ⟨Nat.le_refl _, Nat.pow_lt_pow_right (by norm_num) (by omega)⟩
  · constructor
    · exact (Int.le_toNat (Int.le_trans (Int.natCast_nonneg _) hmin)).mpr hmin
    · have hle : (roundHalfEven (q * 10 ^ ((p : Int) - 1 - Int.log 10 q))).toNat ≤ 10 ^ p :=
        Int.toNat_le.mpr hmax
      omega

theorem log_of_digits {m : Nat} {x : Int} (hp : 0 < p) (hm : 10 ^ (p - 1) ≤ m ∧ m < 10 ^ p)
    (hq : q = m * 10 ^ (x - p + 1)) : Int.log 10 q = x := by
  have hten : (10 : ℚ) ≠ 0 := by norm_num
  have hpos : (0 : ℚ) < 10 ^ (x - p + 1) := zpow_pos (by norm_num) _
  have hlow : ((10 : Nat) : ℚ) ^ x ≤ q := by
    calc ((10 : Nat) : ℚ) ^ x = 10 ^ ((p : Int) - 1) * 10 ^ (x - p + 1) := by
          rw [← zpow_add₀ hten]
          push_cast
          congr 1
          ring
      _ ≤ m * 10 ^ (x - p + 1) := by
          refine mul_le_mul_of_nonneg_right ?_ hpos.le
          rw [← natCast_pow_pred hp]
          exact_mod_cast hm.1
      _ = q := hq.symm
  have hhigh : q < ((10 : Nat) : ℚ) ^ (x + 1) := by
    calc q = m * 10 ^ (x - p + 1) := hq
      _ < 10 ^ p * 10 ^ (x - p + 1) := by
          refine mul_lt_mul_of_pos_right ?_ hpos
          exact_mod_cast hm.2
      _ = ((10 : Nat) : ℚ) ^ (x + 1) := by
          rw [← zpow_natCast, ← zpow_add₀ hten]
          push_cast
          congr 1
          ring
  have hq0 : 0 < q := lt_of_lt_of_le (zpow_pos (by norm_num) _) hlow
  exact le_antisymm (Int.lt_add_one_iff.mp ((Int.lt_zpow_iff_log_lt (by norm_num) hq0).mp hhigh))
    ((Int.zpow_le_iff_le_log (by norm_num) hq0).mp hlow)

theorem significand_eq {m : Nat} {x : Int} (hp : 0 < p) (hm : 10 ^ (p - 1) ≤ m ∧ m < 10 ^ p)
    (hq : q = m * 10 ^ (x - p + 1)) : significand p q = (m, x) := by
  have hten : (10 : ℚ) ≠ 0 := by norm_num
  have hscaled : q * 10 ^ ((p : Int) - 1 - x) = ((m : ℤ) : ℚ) := by
    rw [hq, mul_assoc, ← zpow_add₀ hten]
    have hzero : x - p + 1 + ((p : Int) - 1 - x) = 0 := by ring
    rw [hzero, zpow_zero, mul_one]
    rfl
  simp only [significand]
  rw [log_of_digits hp hm hq, hscaled, roundHalfEven_intCast, Int.toNat_natCast,
    if_neg (Nat.ne_of_lt hm.2)]

end Significand

/-- The digits are read, and what does not continue a numeral is not. -/
structure Reads (digit? : Char → Option Nat) (rest : List Char) : Prop where
  digit : ∀ d < 10, digit? d.digitChar = some d
  point : digit? '.' = none
  stops : ∀ c, rest.head? = some c → digit? c = none ∧ c ≠ '.'

section Reading

variable {digit? : Char → Option Nat} {ds whole part : List Nat} {rest : List Char}

theorem spanDigits_chars (hdigit : ∀ d < 10, digit? d.digitChar = some d) (hds : ∀ d ∈ ds, d < 10)
    (hrest : ∀ c, rest.head? = some c → digit? c = none) :
    spanDigits digit? (digitChars ds ++ rest) = (ds, rest) := by
  induction ds with
  | nil =>
    cases rest with
    | nil => rfl
    | cons c cs =>
      have hc : digit? c = none := hrest c rfl
      simp only [digitChars, map_nil, nil_append, spanDigits, hc]
  | cons d ds ih =>
    have hd : digit? d.digitChar = some d := hdigit d (hds d mem_cons_self)
    have htail := ih fun d hd => hds d (mem_cons_of_mem _ hd)
    simp only [digitChars] at htail
    simp only [digitChars, map_cons, cons_append, spanDigits, hd, htail]

theorem numeral_pointed (hr : Reads digit? rest) (hne : whole ≠ []) (hwhole : ∀ d ∈ whole, d < 10)
    (hpart : ∀ d ∈ part, d < 10) :
    numeral? digit? (pointed whole part ++ rest) =
      some (whole, part.rdropWhile (· == 0), rest) := by
  have hkept : ∀ d ∈ part.rdropWhile (· == 0), d < 10 := fun d hd =>
    hpart d ((List.rdropWhile_prefix _ _).subset hd)
  rcases exists_cons_of_ne_nil hne with ⟨w, ws, rfl⟩
  cases hcases : part.rdropWhile (· == 0) with
  | nil =>
    have hspan := spanDigits_chars hr.digit hwhole fun c hc => (hr.stops c hc).1
    simp only [pointed, hcases, numeral?, hspan]
    cases rest with
    | nil => rfl
    | cons c cs =>
      have hc := (hr.stops c rfl).2
      split
      · next heq => cases heq
      · next heq =>
          cases heq
          exact absurd rfl hc
      · next heq => cases heq; rfl
  | cons k ks =>
    rw [hcases] at hkept
    have hspan :
        spanDigits digit? (digitChars (w :: ws) ++ '.' :: (digitChars (k :: ks) ++ rest)) =
          (w :: ws, '.' :: (digitChars (k :: ks) ++ rest)) := by
      refine spanDigits_chars hr.digit hwhole fun c hc => ?_
      cases hc
      exact hr.point
    have hspan' := spanDigits_chars hr.digit hkept fun c hc => (hr.stops c hc).1
    simp only [pointed, hcases, append_assoc, cons_append, numeral?, hspan, hspan']

theorem numeralValue_append_zero : numeralValue whole (part ++ [0]) = numeralValue whole part := by
  have hdigits : ofDigits 10 (whole ++ (part ++ [0])).reverse =
      10 * ofDigits 10 (whole ++ part).reverse := by
    rw [← append_assoc, reverse_append, reverse_singleton, singleton_append,
      Nat.ofDigits_cons, Nat.zero_add]
  have hlen : (part ++ [0]).length = part.length + 1 := length_append
  rw [numeralValue, numeralValue, hdigits, hlen, pow_succ, mul_comm (10 ^ part.length : ℚ) 10]
  push_cast
  exact mul_div_mul_left _ _ (by norm_num)

theorem numeralValue_rdropWhile :
    numeralValue whole (part.rdropWhile (· == 0)) = numeralValue whole part := by
  induction part using reverseRecOn with
  | nil => rfl
  | append_singleton part d ih =>
    by_cases hd : d = 0
    · rw [rdropWhile_concat, if_pos (beq_iff_eq.mpr hd), ih, hd, numeralValue_append_zero]
    · rw [rdropWhile_concat, if_neg fun h => hd (beq_iff_eq.mp h)]

end Reading

section Printed

variable {p m : Nat} {x : Int} {q : ℚ} {digit? : Char → Option Nat} {rest : List Char}

theorem length_digits (hp : 0 < p) (hm : 10 ^ (p - 1) ≤ m ∧ m < 10 ^ p) :
    (digits 10 m).length = p := by
  have hle := (Nat.digits_length_le_iff (by norm_num) m).mpr hm.2
  have hlt := (Nat.lt_digits_length_iff (by norm_num) m).mpr hm.1
  omega

theorem value_places (hlen : (digits 10 m).length = p) (hx : x < p) :
    numeralValue (places (digits 10 m).reverse x).1 (places (digits 10 m).reverse x).2 =
      m * 10 ^ (x - p + 1) := by
  have hten : (10 : ℚ) ≠ 0 := by norm_num
  -- The point is `p - 1 - x` places from the right in both forms.
  have hdiv : ∀ {k : Nat}, (k : Int) = p - 1 - x → (m : ℚ) / 10 ^ k = m * 10 ^ (x - p + 1) := by
    intro k hk
    have hneg : x - p + 1 = -(k : Int) := by omega
    rw [hneg, zpow_neg, zpow_natCast, div_eq_mul_inv]
  unfold places
  split_ifs with h
  · have hpart : (((digits 10 m).reverse.drop (x.toNat + 1)).length : Int) = p - 1 - x := by
      rw [length_drop, length_reverse, hlen]
      omega
    dsimp only
    rw [numeralValue, take_append_drop, reverse_reverse, Nat.ofDigits_digits, hdiv hpart]
  · have hpart : ((replicate (-x - 1).toNat 0 ++ (digits 10 m).reverse).length : Int) =
        p - 1 - x := by
      rw [length_append, length_replicate, length_reverse, hlen]
      omega
    have hzeros : ([0] ++ (replicate (-x - 1).toNat 0 ++ (digits 10 m).reverse)).reverse =
        digits 10 m ++ replicate ((-x - 1).toNat + 1) 0 := by
      rw [← append_assoc, reverse_append, reverse_reverse, reverse_append,
        reverse_replicate, reverse_singleton, replicate_succ']
    dsimp only
    rw [numeralValue, hzeros, Nat.ofDigits_append_replicate_zero, Nat.ofDigits_digits, hdiv hpart]

def rounded (p : Nat) (q : ℚ) : ℚ :=
  if q = 0 then 0
  else ((significand p q).1 : ℚ) * 10 ^ ((significand p q).2 - p + 1)

def Plain (p : Nat) (q : ℚ) : Prop :=
  q = 0 ∨ -4 ≤ (significand p q).2 ∧ (significand p q).2 < p

theorem reverse_digits_lt {d : Nat} (hd : d ∈ (digits 10 m).reverse) : d < 10 :=
  Nat.digits_lt_base (by norm_num) (mem_reverse.mp hd)

theorem places_lt (m : Nat) (x : Int) : (∀ d ∈ (places (digits 10 m).reverse x).1, d < 10) ∧
    ∀ d ∈ (places (digits 10 m).reverse x).2, d < 10 := by
  unfold places
  split_ifs
  · exact ⟨fun d hd => reverse_digits_lt (mem_of_mem_take hd),
      fun d hd => reverse_digits_lt (mem_of_mem_drop hd)⟩
  · refine ⟨fun d hd => ?_, fun d hd => ?_⟩
    · rw [mem_singleton.mp hd]
      norm_num
    · rcases mem_append.mp hd with hd | hd
      · rw [eq_of_mem_replicate hd]
        norm_num
      · exact reverse_digits_lt hd

theorem places_ne_nil (x : Int) (hne : digits 10 m ≠ []) :
    (places (digits 10 m).reverse x).1 ≠ [] := by
  unfold places
  split_ifs
  · intro h
    have hempty := take_eq_nil_iff.mp h
    rw [reverse_eq_nil_iff] at hempty
    exact hempty.elim nofun hne
  · exact cons_ne_nil _ _

theorem numeral_formatG (hp : 0 < p) (hq : 0 ≤ q) (hr : Reads digit? rest) (hplain : Plain p q) :
    ∃ whole part, numeral? digit? (formatG p q ++ rest) = some (whole, part, rest) ∧
      numeralValue whole part = rounded p q := by
  by_cases hzero : q = 0
  · have hnumeral := @numeral_pointed _ [0] [] _ hr (cons_ne_nil 0 []) (by decide) nofun
    refine ⟨[0], [], ?_, ?_⟩
    · rw [formatG, if_pos hzero]
      exact hnumeral
    · rw [rounded, if_pos hzero, numeralValue]
      norm_num
  · have hpos : 0 < q := lt_of_le_of_ne hq (Ne.symm hzero)
    have hlen := length_digits hp (significand_bounds hp hpos)
    have hx := hplain.resolve_left hzero
    have hne : digits 10 (significand p q).1 ≠ [] := by
      intro h
      rw [h] at hlen
      exact Nat.ne_of_lt hp hlen
    have hlt := places_lt (significand p q).1 (significand p q).2
    have hread := numeral_pointed hr (places_ne_nil (significand p q).2 hne) hlt.1 hlt.2
    have hprinted : formatG p q = pointed
        (places (digits 10 (significand p q).1).reverse (significand p q).2).1
        (places (digits 10 (significand p q).1).reverse (significand p q).2).2 := by
      rw [formatG, if_neg hzero]
      exact if_pos hx
    refine ⟨_, _, (congrArg (fun cs => numeral? digit? (cs ++ rest)) hprinted).trans hread, ?_⟩
    · rw [numeralValue_rdropWhile, value_places hlen hx.2, rounded, if_neg hzero]

theorem numeral_formatG_exponent (hp : 0 < p) (hq : 0 < q) (hr : Reads digit? ['e'])
    (hplain : ¬ Plain p q) : ∃ whole part rest',
      numeral? digit? (formatG p q ++ rest) = some (whole, part, 'e' :: rest') := by
  have hlen := length_digits hp (significand_bounds hp hq)
  have hx : ¬ (-4 ≤ (significand p q).2 ∧ (significand p q).2 < p) := fun h => hplain (.inr h)
  have hne : (digits 10 (significand p q).1).reverse.take 1 ≠ [] := by
    intro h
    have hempty := take_eq_nil_iff.mp h
    rw [reverse_eq_nil_iff] at hempty
    rcases hempty with hone | hempty
    · cases hone
    · rw [hempty] at hlen
      exact Nat.ne_of_lt hp hlen
  have hstops : ∀ cs, Reads digit? ('e' :: cs) := fun cs =>
    ⟨hr.digit, hr.point, fun c hc => hr.stops c hc⟩
  rw [formatG, if_neg (ne_of_gt hq)]
  dsimp only
  rw [if_neg hx, append_assoc]
  exact ⟨_, _, _, numeral_pointed (hstops _) hne
    (fun d hd => reverse_digits_lt (mem_of_mem_take hd))
    (fun d hd => reverse_digits_lt (mem_of_mem_drop hd))⟩

def IsNumeric (c : Char) : Prop := (∃ d < 10, c = Nat.digitChar d) ∨ c ∈ ['.', 'e', '+', '-']

theorem isNumeric_digitChars {ds : List Nat} (hds : ∀ d ∈ ds, d < 10) :
    ∀ c ∈ digitChars ds, IsNumeric c := by
  intro c hc
  rcases List.mem_map.mp hc with ⟨d, hd, rfl⟩
  exact .inl ⟨d, hds d hd, rfl⟩

theorem isNumeric_pointed {whole part : List Nat} (hwhole : ∀ d ∈ whole, d < 10)
    (hpart : ∀ d ∈ part, d < 10) : ∀ c ∈ pointed whole part, IsNumeric c := by
  have hkept : ∀ d ∈ part.rdropWhile (· == 0), d < 10 := fun d hd =>
    hpart d ((List.rdropWhile_prefix _ _).subset hd)
  unfold pointed
  split
  · exact isNumeric_digitChars hwhole
  · intro c hc
    rcases mem_append.mp hc with hc | hc
    · exact isNumeric_digitChars hwhole c hc
    · rcases mem_cons.mp hc with rfl | hc
      · exact .inr (by decide)
      · exact isNumeric_digitChars hkept c hc

theorem isNumeric_exponentChars (x : Int) : ∀ c ∈ exponentChars x, IsNumeric c := by
  intro c hc
  simp only [exponentChars, mem_cons, mem_append] at hc
  rcases hc with rfl | rfl | hc | hc
  · exact .inr (by decide)
  · split_ifs
    · exact .inr (by decide)
    · exact .inr (by decide)
  · rw [eq_of_mem_replicate hc]
    exact .inl ⟨0, by norm_num, rfl⟩
  · exact isNumeric_digitChars (fun d hd => reverse_digits_lt hd) c hc

theorem isNumeric_formatG (p : Nat) (q : ℚ) : ∀ c ∈ formatG p q, IsNumeric c := by
  intro c hc
  rw [formatG] at hc
  split_ifs at hc with hzero
  · rw [mem_singleton.mp hc]
    exact .inl ⟨0, by norm_num, rfl⟩
  · dsimp only at hc
    split_ifs at hc
    · have hlt := places_lt (significand p q).1 (significand p q).2
      exact isNumeric_pointed hlt.1 hlt.2 c hc
    · rcases mem_append.mp hc with hc | hc
      · exact isNumeric_pointed (fun d hd => reverse_digits_lt (mem_of_mem_take hd))
          (fun d hd => reverse_digits_lt (mem_of_mem_drop hd)) c hc
      · exact isNumeric_exponentChars _ c hc

theorem length_pointed_le (whole part : List Nat) :
    (pointed whole part).length ≤ whole.length + 1 + part.length := by
  have hkept := (List.rdropWhile_prefix (· == 0) part).length_le
  cases hcases : part.rdropWhile (· == 0) with
  | nil =>
    simp only [pointed, hcases, digitChars, List.length_map]
    omega
  | cons d ds =>
    rw [hcases] at hkept
    simp only [pointed, hcases, digitChars, length_append, length_cons, List.length_map]
    simp only [length_cons] at hkept
    omega

theorem length_formatG_le (hp : 0 < p) (hq : 0 ≤ q) (hplain : Plain p q) :
    (formatG p q).length ≤ p + 5 := by
  by_cases hzero : q = 0
  · rw [formatG, if_pos hzero, length_singleton]
    omega
  · have hpos : 0 < q := lt_of_le_of_ne hq (Ne.symm hzero)
    have hlen := length_digits hp (significand_bounds hp hpos)
    have hx := hplain.resolve_left hzero
    have hplaces :
        (places (digits 10 (significand p q).1).reverse (significand p q).2).1.length +
          (places (digits 10 (significand p q).1).reverse (significand p q).2).2.length ≤
            p + 4 := by
      unfold places
      split_ifs
      · simp only [length_take, length_drop, length_reverse, hlen]
        omega
      · simp only [length_singleton, length_append, length_replicate, length_reverse, hlen]
        omega
    have hle := length_pointed_le
      (places (digits 10 (significand p q).1).reverse (significand p q).2).1
      (places (digits 10 (significand p q).1).reverse (significand p q).2).2
    rw [formatG, if_neg hzero]
    dsimp only
    rw [if_pos hx]
    omega

end Printed

/-- A number of at most `p` significant digits. -/
def HasDigits (p : Nat) (q : ℚ) : Prop := ∃ m : Nat, ∃ e : Int, m < 10 ^ p ∧ q = m * 10 ^ e

section Exact

variable {p : Nat} {q : ℚ}

theorem HasDigits.filled (hp : 0 < p) (hq : 0 < q) (h : HasDigits p q) :
    ∃ m : Nat, (10 ^ (p - 1) ≤ m ∧ m < 10 ^ p) ∧ q = m * 10 ^ (Int.log 10 q - p + 1) := by
  have hten : (10 : ℚ) ≠ 0 := by norm_num
  rcases h with ⟨m, e, hm, hqe⟩
  have hupper : q < ((10 : Nat) : ℚ) ^ ((p : Int) + e) := by
    push_cast
    rw [zpow_add₀ hten, zpow_natCast, hqe]
    refine mul_lt_mul_of_pos_right ?_ (zpow_pos (by norm_num) _)
    exact_mod_cast hm
  have hlog : Int.log 10 q < p + e := (Int.lt_zpow_iff_log_lt (by norm_num) hq).mp hupper
  have hshift : ((e - (Int.log 10 q - p + 1)).toNat : Int) = e - (Int.log 10 q - p + 1) :=
    Int.toNat_of_nonneg (by omega)
  have hfilled : q = ((m * 10 ^ (e - (Int.log 10 q - p + 1)).toNat : Nat) : ℚ) *
      10 ^ (Int.log 10 q - p + 1) := by
    push_cast
    rw [← zpow_natCast, hshift, mul_assoc, ← zpow_add₀ hten, sub_add_cancel]
    exact hqe
  refine ⟨_, ?_, hfilled⟩
  rcases scaled_bounds hp hq with ⟨hlow, hhigh⟩
  have hscaled : q * 10 ^ ((p : Int) - 1 - Int.log 10 q) =
      (((m * 10 ^ (e - (Int.log 10 q - p + 1)).toNat : Nat) : ℤ) : ℚ) := by
    have hzero : Int.log 10 q - p + 1 + ((p : Int) - 1 - Int.log 10 q) = 0 := by ring
    calc q * 10 ^ ((p : Int) - 1 - Int.log 10 q)
        = ((m * 10 ^ (e - (Int.log 10 q - p + 1)).toNat : Nat) : ℚ) *
            10 ^ (Int.log 10 q - p + 1) * 10 ^ ((p : Int) - 1 - Int.log 10 q) :=
          congrArg (· * (10 : ℚ) ^ ((p : Int) - 1 - Int.log 10 q)) hfilled
      _ = (((m * 10 ^ (e - (Int.log 10 q - p + 1)).toNat : Nat) : ℤ) : ℚ) := by
          rw [mul_assoc, ← zpow_add₀ hten, hzero, zpow_zero, mul_one, Int.cast_natCast]
  rw [hscaled] at hlow hhigh
  exact ⟨by exact_mod_cast hlow, by exact_mod_cast hhigh⟩

/-- A number below `10 ^ p` is printed as itself and without an exponent exactly if it has
    no more digits and is not too small. -/
theorem plain_rounded_iff (hp : 0 < p) (hq : 0 ≤ q) (hlt : q < 10 ^ p) :
    Plain p q ∧ rounded p q = q ↔ HasDigits p q ∧ (q = 0 ∨ (10 : ℚ) ^ (-4 : Int) ≤ q) := by
  by_cases hzero : q = 0
  · rw [hzero]
    refine iff_of_true ⟨.inl rfl, if_pos rfl⟩ ⟨⟨0, 0, by positivity, ?_⟩, .inl rfl⟩
    norm_num
  · have hpos : 0 < q := lt_of_le_of_ne hq (Ne.symm hzero)
    constructor
    · rintro ⟨hplain, hsame⟩
      rw [rounded, if_neg hzero] at hsame
      have hbounds := significand_bounds hp hpos
      refine ⟨⟨_, _, hbounds.2, hsame.symm⟩, .inr ?_⟩
      have hlog := log_of_digits hp hbounds hsame.symm
      have hlow := (hplain.resolve_left hzero).1
      rw [← hlog] at hlow
      exact_mod_cast (Int.zpow_le_iff_le_log (R := ℚ) (b := 10) (by norm_num) hpos).mpr hlow
    · rintro ⟨hdigits, hsize⟩
      rcases hdigits.filled hp hpos with ⟨m, hm, hsame⟩
      have hsignificand := significand_eq hp hm hsame
      refine ⟨.inr ?_, ?_⟩
      · rw [hsignificand]
        constructor
        · refine (Int.zpow_le_iff_le_log (R := ℚ) (b := 10) (by norm_num) hpos).mp ?_
          exact_mod_cast hsize.resolve_left hzero
        · refine (Int.lt_zpow_iff_log_lt (R := ℚ) (b := 10) (by norm_num) hpos).mp ?_
          exact_mod_cast hlt
      · rw [rounded, if_neg hzero, hsignificand]
        exact hsame.symm

end Exact

end Apex.Decimal
