import Apex.Core.Decimal

/-!
# Numbers As Texts

Texts are read as numbers the way `float` reads them: a sign, digits with a point and an
exponent, or a word for what is not finite, and underscores between digits do not count.
Numbers are printed with a fixed number of places after the point. Numbers are exact, so what
is printed is read back as the number rounded to so many places.

## Main definitions

* `Reading`, `readFloat`: What a text is read as.
* `fixed`: A number rounded to so many places.
* `formatF`: It is printed.

## Theorems

* `readFloat_numeral`: What a numeral with a point is read as.
* `readFloat_formatF`: What is printed is read as the rounded number.
* `fixed_mono`, `fixed_nonneg`, `fixed_pos_iff`: What rounding keeps.
-/

namespace Apex.Decimal

open List Option

inductive Reading
  | finite (q : ℚ)
  | infinite (negative : Bool)
  | nan
  deriving DecidableEq

def asciiDigit? (c : Char) : Option Nat :=
  if '0' ≤ c ∧ c ≤ '9' then some (c.toNat - '0'.toNat) else none

/-- A decimal digit of any script as one of ASCII. -/
def toAscii (digit? : Char → Option Nat) (c : Char) : Char :=
  match digit? c with
  | some d => d.digitChar
  | none => c

/-- A text without its underscores, each of which has to be between two digits. -/
def dropUnderscores (before : Char) : List Char → Option (List Char)
  | [] => if before = '_' then none else some []
  | c :: cs =>
    if c = '_' then
      if (asciiDigit? before).isSome then dropUnderscores c cs else none
    else if before = '_' ∧ (asciiDigit? c).isNone then none
    else (dropUnderscores c cs).map (c :: ·)

/-- Whether a sign is a minus, and what follows it. -/
def splitSign : List Char → Bool × List Char
  | '-' :: cs => (true, cs)
  | '+' :: cs => (false, cs)
  | cs => (false, cs)

/-- The exponent that the rest of a text is, where there is one. -/
def exponent? : List Char → Option Int
  | [] => some 0
  | c :: cs =>
    if c = 'e' ∨ c = 'E' then
      match spanDigits asciiDigit? (splitSign cs).2 with
      | (d :: ds, []) =>
        let n : Int := (Nat.ofDigits 10 (d :: ds).reverse : Nat)
        some (if (splitSign cs).1 then -n else n)
      | _ => none
    else none

/-- The digits after a point, and what follows them. -/
def fraction : List Char → List Nat × List Char
  | '.' :: cs => spanDigits asciiDigit? cs
  | cs => ([], cs)

def unsigned? (cs : List Char) : Option ℚ :=
  let whole := (spanDigits asciiDigit? cs).1
  let part := (fraction (spanDigits asciiDigit? cs).2).1
  if whole = [] ∧ part = [] then none
  else
    (exponent? (fraction (spanDigits asciiDigit? cs).2).2).map fun x =>
      numeralValue whole part * 10 ^ x

/-- A number of ASCII without underscores. -/
def plainFloat? (cs : List Char) : Option Reading :=
  let negative := (splitSign cs).1
  let word := (splitSign cs).2.map Char.toLower
  if word = ['i', 'n', 'f'] ∨ word = ['i', 'n', 'f', 'i', 'n', 'i', 't', 'y'] then
    some (.infinite negative)
  else if word = ['n', 'a', 'n'] then some .nan
  else
    (unsigned? (splitSign cs).2).map fun q => .finite (if negative then -q else q)

/-- `float(text)` of a text without white space around it. -/
def readFloat (digit? : Char → Option Nat) (cs : List Char) : Option Reading :=
  (dropUnderscores (Char.ofNat 0) (cs.map (toAscii digit?))).bind plainFloat?

def fixed (p : Nat) (q : ℚ) : ℚ := roundHalfEven (q * 10 ^ p) / 10 ^ p

/-- The digits of a number of `p` places, one of them before the point at least. -/
def fixedDigits (p : Nat) (q : ℚ) : List Nat :=
  let ds := (Nat.digits 10 (roundHalfEven (q * 10 ^ p)).toNat).reverse
  List.replicate (p + 1 - ds.length) 0 ++ ds

/-- `%.<p>f` of a number that is not negative. -/
def formatF (p : Nat) (q : ℚ) : List Char :=
  let ds := fixedDigits p q
  let whole := digitChars (ds.take (ds.length - p))
  if p = 0 then whole else whole ++ '.' :: digitChars (ds.drop (ds.length - p))

/-- The digits of ASCII are digits, and the other characters of a number are not. -/
structure ReadsAscii (digit? : Char → Option Nat) : Prop where
  digit : ∀ d < 10, digit? d.digitChar = some d
  other : ∀ c ∈ ['.', 'e', '+', '-'], digit? c = none

section

variable {digit? : Char → Option Nat} {cs rest : List Char} {whole part : List Nat}

theorem asciiDigit_digitChar : ∀ d < 10, asciiDigit? d.digitChar = some d := by
  decide

theorem digitChar_ne : ∀ d < 10, d.digitChar ≠ '_' ∧ d.digitChar ≠ '-' ∧ d.digitChar ≠ '+' ∧
    d.digitChar ≠ '.' ∧ d.digitChar.toLower ≠ 'i' ∧ d.digitChar.toLower ≠ 'n' := by
  decide

theorem toAscii_eq {c : Char} (hd : ReadsAscii digit?) (hc : IsNumeric c) :
    toAscii digit? c = c := by
  rcases hc with ⟨d, hlt, rfl⟩ | hc
  · rw [toAscii, hd.digit d hlt]
  · rw [toAscii, hd.other c hc]

theorem isNumeric_ne_underscore {c : Char} (hc : IsNumeric c) : c ≠ '_' := by
  rcases hc with ⟨d, hlt, rfl⟩ | hc
  · exact (digitChar_ne d hlt).1
  · rintro rfl
    revert hc
    decide

theorem dropUnderscores_eq : ∀ {cs : List Char} {before : Char}, before ≠ '_' →
    (∀ c ∈ cs, c ≠ '_') → dropUnderscores before cs = some cs
  | [], before, hb, _ => by rw [dropUnderscores, if_neg hb]
  | c :: cs, before, hb, h => by
    have hc : c ≠ '_' := h c mem_cons_self
    rw [dropUnderscores, if_neg hc, if_neg fun hboth => hb hboth.1,
      dropUnderscores_eq hc fun c hmem => h c (mem_cons_of_mem _ hmem)]
    rfl

theorem splitSign_digit {d : Nat} (hd : d < 10) :
    splitSign (d.digitChar :: rest) = (false, d.digitChar :: rest) := by
  have hne := digitChar_ne d hd
  unfold splitSign
  split
  · next heq => exact absurd (cons.inj heq).1 hne.2.1
  · next heq => exact absurd (cons.inj heq).1 hne.2.2.1
  · rfl

theorem readFloat_numeric {d : Nat} (hread : ReadsAscii digit?) (hd : d < 10)
    (h : ∀ c ∈ rest, IsNumeric c) :
    readFloat digit? (d.digitChar :: rest) = (unsigned? (d.digitChar :: rest)).map .finite := by
  have hnumeric : ∀ c ∈ d.digitChar :: rest, IsNumeric c :=
    forall_mem_cons.mpr ⟨.inl ⟨d, hd, rfl⟩, h⟩
  have hascii : (d.digitChar :: rest).map (toAscii digit?) = d.digitChar :: rest :=
    (map_congr_left fun c hc => toAscii_eq hread (hnumeric c hc)).trans (List.map_id _)
  have hdrop : dropUnderscores (Char.ofNat 0) (d.digitChar :: rest) = some (d.digitChar :: rest) :=
    dropUnderscores_eq (by decide) fun c hc => isNumeric_ne_underscore (hnumeric c hc)
  have hne := digitChar_ne d hd
  have hword : ∀ c (word : List Char), d.digitChar.toLower ≠ c →
      (d.digitChar :: rest).map Char.toLower ≠ c :: word := by
    intro c word hc heq
    exact hc (cons.inj heq).1
  rw [readFloat, hascii, hdrop, bind_some, plainFloat?, splitSign_digit hd]
  dsimp only
  rw [if_neg, if_neg (hword _ _ hne.2.2.2.2.2)]
  · simp only [Bool.false_eq_true, if_false]
  · rintro (h | h)
    · exact hword _ _ hne.2.2.2.2.1 h
    · exact hword _ _ hne.2.2.2.2.1 h

theorem readFloat_numeral (hread : ReadsAscii digit?) (hne : whole ≠ [])
    (hwhole : ∀ d ∈ whole, d < 10) (hpart : ∀ d ∈ part, d < 10) :
    readFloat digit? (digitChars whole ++ '.' :: digitChars part) =
      some (.finite (numeralValue whole part)) := by
  rcases exists_cons_of_ne_nil hne with ⟨w, ws, rfl⟩
  have hw : w < 10 := hwhole w mem_cons_self
  have hnumeric : ∀ c ∈ digitChars ws ++ '.' :: digitChars part, IsNumeric c := by
    intro c hc
    rcases mem_append.mp hc with hc | hc
    · exact isNumeric_digitChars (fun d hd => hwhole d (mem_cons_of_mem _ hd)) c hc
    · rcases mem_cons.mp hc with rfl | hc
      · exact .inr (by decide)
      · exact isNumeric_digitChars hpart c hc
  have hspan : spanDigits asciiDigit? (digitChars (w :: ws) ++ '.' :: digitChars part) =
      (w :: ws, '.' :: digitChars part) := by
    refine spanDigits_chars asciiDigit_digitChar hwhole fun c hc => ?_
    cases hc
    decide
  have hspan' : spanDigits asciiDigit? (digitChars part ++ []) = (part, []) :=
    spanDigits_chars asciiDigit_digitChar hpart fun c hc => by cases hc
  rw [append_nil] at hspan'
  have hread' := readFloat_numeric hread hw hnumeric
  rw [show digitChars (w :: ws) ++ '.' :: digitChars part =
    w.digitChar :: (digitChars ws ++ '.' :: digitChars part) from rfl] at hspan ⊢
  rw [hread', unsigned?, hspan, fraction, hspan']
  simp only [reduceCtorEq, false_and, if_false, exponent?, map_some, zpow_zero, mul_one]

end

section

variable {p : Nat} {q r : ℚ}

theorem roundHalfEven_mono (h : q ≤ r) : roundHalfEven q ≤ roundHalfEven r := by
  have hfloor : ⌊q⌋ ≤ ⌊r⌋ := Int.floor_le_floor h
  rcases lt_or_eq_of_le hfloor with hlt | heq
  · -- An integer is between them.
    have hq : roundHalfEven q ≤ ⌊q⌋ + 1 :=
      roundHalfEven_le (by push_cast; exact le_of_lt (Int.lt_floor_add_one q))
    have hr := floor_le_roundHalfEven r
    omega
  · unfold roundHalfEven
    rw [← heq]
    split_ifs <;> first | omega | (exfalso; linarith)

theorem roundHalfEven_pos_iff (hq : 0 ≤ q) : 0 < roundHalfEven q ↔ 1 / 2 < q := by
  constructor
  · intro h
    by_contra hle
    have hhalf : roundHalfEven (1 / 2) = 0 := by decide +kernel
    have hmono := roundHalfEven_mono (not_lt.mp hle)
    omega
  · intro h
    have hfloor : 0 ≤ ⌊q⌋ := Int.floor_nonneg.mpr hq
    rcases lt_or_eq_of_le hfloor with hpos | hzero
    · exact lt_of_lt_of_le hpos (floor_le_roundHalfEven q)
    · have hround : roundHalfEven q = ⌊q⌋ + 1 := by
        rw [roundHalfEven, ← hzero]
        rw [if_neg (by push_cast; linarith), if_pos (by push_cast; linarith)]
      omega

theorem fixed_mono (h : q ≤ r) : fixed p q ≤ fixed p r := by
  have hscaled : q * 10 ^ p ≤ r * 10 ^ p := mul_le_mul_of_nonneg_right h (by positivity)
  have hround : ((roundHalfEven (q * 10 ^ p) : ℤ) : ℚ) ≤ roundHalfEven (r * 10 ^ p) := by
    exact_mod_cast roundHalfEven_mono hscaled
  exact div_le_div_of_nonneg_right hround (by positivity)

theorem fixed_natCast (n : Nat) : fixed p n = n := by
  have hscaled : (n : ℚ) * 10 ^ p = (((n * 10 ^ p : Nat) : ℤ) : ℚ) := by push_cast; rfl
  rw [fixed, hscaled, roundHalfEven_intCast]
  push_cast
  exact mul_div_cancel_right₀ _ (by positivity)

theorem fixed_nonneg (hq : 0 ≤ q) : 0 ≤ fixed p q := by
  have h := fixed_mono (p := p) hq
  have hzero := fixed_natCast (p := p) 0
  rw [Nat.cast_zero] at hzero
  rwa [hzero] at h

theorem fixed_le {n : Nat} (h : q ≤ n) : fixed p q ≤ n :=
  (fixed_mono h).trans_eq (fixed_natCast n)

theorem fixed_pos_iff (hq : 0 ≤ q) : 0 < fixed p q ↔ 1 / (2 * 10 ^ p) < q := by
  have hten : (0 : ℚ) < 10 ^ p := by positivity
  have hscaled : 0 ≤ q * 10 ^ p := mul_nonneg hq (le_of_lt hten)
  rw [fixed, div_pos_iff_of_pos_right hten, Int.cast_pos, roundHalfEven_pos_iff hscaled,
    div_lt_iff₀ (by positivity), div_lt_iff₀ (by positivity)]
  constructor
  · intro h
    linarith
  · intro h
    linarith

theorem fixed_le_add (p : Nat) (q : ℚ) : fixed p q ≤ q + 1 / 10 ^ p := by
  have hten : (0 : ℚ) < 10 ^ p := by positivity
  have hround : roundHalfEven (q * 10 ^ p) ≤ ⌊q * 10 ^ p⌋ + 1 :=
    roundHalfEven_le (by push_cast; exact le_of_lt (Int.lt_floor_add_one _))
  have hfloor := Int.floor_le (q * 10 ^ p)
  have hcast : ((roundHalfEven (q * 10 ^ p) : ℤ) : ℚ) ≤ ⌊q * 10 ^ p⌋ + 1 := by
    exact_mod_cast hround
  rw [fixed, div_le_iff₀ hten, add_mul, one_div, inv_mul_cancel₀ (ne_of_gt hten)]
  linarith

theorem length_fixedDigits (p : Nat) (q : ℚ) : p + 1 ≤ (fixedDigits p q).length := by
  rw [fixedDigits, length_append, length_replicate]
  omega

theorem fixedDigits_lt (p : Nat) (q : ℚ) : ∀ d ∈ fixedDigits p q, d < 10 := by
  intro d hd
  rcases mem_append.mp hd with hd | hd
  · rw [eq_of_mem_replicate hd]
    decide
  · exact reverse_digits_lt hd

theorem numeralValue_fixedDigits (hq : 0 ≤ q) :
    numeralValue ((fixedDigits p q).take ((fixedDigits p q).length - p))
      ((fixedDigits p q).drop ((fixedDigits p q).length - p)) = fixed p q := by
  have hlen := length_fixedDigits p q
  have hpart : ((fixedDigits p q).drop ((fixedDigits p q).length - p)).length = p := by
    rw [length_drop]
    omega
  have hround : 0 ≤ roundHalfEven (q * 10 ^ p) :=
    le_roundHalfEven (by push_cast; positivity)
  have hcast : (((roundHalfEven (q * 10 ^ p)).toNat : Nat) : ℚ) = roundHalfEven (q * 10 ^ p) := by
    exact_mod_cast Int.toNat_of_nonneg hround
  rw [numeralValue, take_append_drop, hpart, fixed, fixedDigits, reverse_append,
    reverse_reverse, reverse_replicate, Nat.ofDigits_append_replicate_zero,
    Nat.ofDigits_digits, hcast]

theorem readFloat_formatF {digit? : Char → Option Nat} (hread : ReadsAscii digit?) (hp : 0 < p)
    (hq : 0 ≤ q) : readFloat digit? (formatF p q) = some (.finite (fixed p q)) := by
  have hlen := length_fixedDigits p q
  have hne : (fixedDigits p q).take ((fixedDigits p q).length - p) ≠ [] := by
    intro h
    have hzero := congrArg List.length h
    rw [length_take, length_nil] at hzero
    omega
  dsimp only [formatF]
  rw [if_neg (Nat.ne_of_gt hp), readFloat_numeral hread hne
    (fun d hd => fixedDigits_lt p q d (mem_of_mem_take hd))
    (fun d hd => fixedDigits_lt p q d (mem_of_mem_drop hd)), numeralValue_fixedDigits hq]

theorem isNumeric_formatF (p : Nat) (q : ℚ) : ∀ c ∈ formatF p q, IsNumeric c := by
  have hwhole := isNumeric_digitChars fun d hd =>
    fixedDigits_lt p q d (mem_of_mem_take (i := (fixedDigits p q).length - p) hd)
  have hpart := isNumeric_digitChars fun d hd =>
    fixedDigits_lt p q d (mem_of_mem_drop (i := (fixedDigits p q).length - p) hd)
  intro c hc
  dsimp only [formatF] at hc
  split_ifs at hc
  · exact hwhole c hc
  · rcases mem_append.mp hc with hc | hc
    · exact hwhole c hc
    · rcases mem_cons.mp hc with rfl | hc
      · exact .inr (by decide)
      · exact hpart c hc

theorem length_formatF_le {k : Nat} (hq : q < 10 ^ k) :
    (formatF p q).length ≤ k + p + 2 := by
  have hround : roundHalfEven (q * 10 ^ p) ≤ ((10 ^ (k + p) : Nat) : ℤ) := by
    refine roundHalfEven_le ?_
    push_cast
    rw [pow_add]
    exact mul_le_mul_of_nonneg_right (le_of_lt hq) (by positivity)
  have hnat : (roundHalfEven (q * 10 ^ p)).toNat < 10 ^ (k + p + 1) := by
    have hpow : 10 ^ (k + p) < 10 ^ (k + p + 1) := Nat.pow_lt_pow_right (by norm_num) (by omega)
    omega
  have hdigits := (Nat.digits_length_le_iff (by norm_num) _).mpr hnat
  have hlen : (fixedDigits p q).length ≤ k + p + 1 := by
    rw [fixedDigits, length_append, length_replicate, length_reverse]
    omega
  dsimp only [formatF]
  split_ifs
  · rw [digitChars, List.length_map, length_take]
    omega
  · rw [length_append, length_cons, digitChars, digitChars, List.length_map,
      List.length_map, length_take, length_drop]
    omega

end

end Apex.Decimal
