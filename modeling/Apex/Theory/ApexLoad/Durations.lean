import Apex.Adapters.ApexLoad

/-!
# Durations There And Back

What `format_go_duration` prints is read back exactly if no digit is lost and no exponent is
printed.

## Main definitions

* `Exact`: A duration that is printed with all of its digits.

## Theorems

* `parse_format_iff`: Which durations come back.
-/

namespace Apex.Adapters.ApexLoad

open List Option
open Decimal

/-- At most six significant digits, and not so small that an exponent is printed. -/
def Exact (seconds : ℚ) : Prop :=
  HasDigits 6 seconds ∧ (seconds = 0 ∨ (10 : ℚ) ^ (-4 : Int) ≤ seconds)

theorem decimalDigit_digitChar : ∀ d < 10, decimalDigit? d.digitChar = some d := by
  decide

variable {c : Char} {cs : List Char} {seconds : ℚ}

theorem decimalDigit_none (hc : c ∈ ['.', 'e', 's']) : decimalDigit? c = none := by
  have hall : ['.', 'e', 's'].all (fun c => (decimalDigit? c).isNone) = true := by decide
  exact isNone_iff_eq_none.mp (List.all_eq_true.mp hall c hc)

theorem reads_letter (cs : List Char) (hc : c ∈ ['e', 's']) :
    Reads decimalDigit? (c :: cs) := by
  refine ⟨decimalDigit_digitChar, decimalDigit_none (by decide), fun c' hc' => ?_⟩
  cases hc'
  refine ⟨decimalDigit_none (mem_cons_of_mem _ hc), ?_⟩
  rintro rfl
  revert hc
  decide

theorem isNumeric_not_space (h : IsNumeric c) : isPySpace c = false := by
  rcases h with ⟨d, hd, rfl⟩ | hc
  · have hall : (range 10).all (fun d => !isPySpace d.digitChar) = true := by decide
    exact Bool.not_eq_true' _ ▸ List.all_eq_true.mp hall d (mem_range.mpr hd)
  · have hall : ['.', 'e', '+', '-'].all (fun c => !isPySpace c) = true := by decide
    exact Bool.not_eq_true' _ ▸ List.all_eq_true.mp hall c hc

theorem strip_of_no_space {s : String} (h : ∀ c ∈ s.toList, isPySpace c = false) : strip s = s := by
  have hkeep : ∀ {cs : List Char}, (∀ c ∈ cs, isPySpace c = false) →
      cs.dropWhile isPySpace = cs := by
    intro cs hcs
    cases cs with
    | nil => rfl
    | cons c cs =>
      rw [dropWhile_cons_of_neg]
      rw [hcs c mem_cons_self]
      exact Bool.false_ne_true
  rw [strip, hkeep h, hkeep fun c hc => h c (mem_reverse.mp hc), reverse_reverse,
    String.ofList_toList]

theorem length_goDurationToken_le {rest : List Char}
    (h : goDurationToken cs = some (seconds, rest)) : rest.length ≤ cs.length := by
  unfold goDurationToken at h
  split at h
  · cases h
  · next hnumeral =>
      rcases map_eq_some_iff.mp h with ⟨unit, _, hrest⟩
      cases hrest
      rw [length_drop]
      exact Nat.le_trans (Nat.sub_le _ _) (length_numeral_le hnumeral)

theorem length_goDurationTokens_le (fuel : Nat) (cs : List Char) :
    ((goDurationTokens fuel cs).flatMap Prod.snd).length ≤ cs.length := by
  induction fuel generalizing cs with
  | zero => exact Nat.zero_le _
  | succ fuel ih =>
    cases cs with
    | nil => exact Nat.le_refl _
    | cons c cs =>
      unfold goDurationTokens
      split
      · next seconds rest htoken =>
          have hle := length_goDurationToken_le htoken
          have htail := ih rest
          rw [flatMap_cons, length_append, length_take]
          omega
      · exact Nat.le_succ_of_le (ih cs)

theorem tokens_skipped (fuel : Nat) (hne : cs ≠ [])
    (h : goDurationToken cs = none) : (goDurationTokens fuel cs).flatMap Prod.snd ≠ cs := by
  rcases exists_cons_of_ne_nil hne with ⟨c, cs, rfl⟩
  intro hall
  cases fuel with
  | zero => cases hall
  | succ fuel =>
    simp only [goDurationTokens, h] at hall
    have hle := length_goDurationTokens_le fuel cs
    rw [hall, length_cons] at hle
    omega

theorem tokens_single (hne : cs ≠ []) (h : goDurationToken cs = some (seconds, [])) :
    goDurationTokens cs.length cs = [(seconds, cs)] := by
  rcases exists_cons_of_ne_nil hne with ⟨c, cs, rfl⟩
  have hnil : ∀ fuel, goDurationTokens fuel [] = [] := by
    intro fuel
    cases fuel <;> rfl
  rw [length_cons]
  simp only [goDurationTokens, h, hnil, length_nil, Nat.sub_zero, take_length]

def durationChars (seconds : ℚ) : List Char := formatG 6 seconds ++ ['s']

theorem durationChars_ne_nil (seconds : ℚ) : durationChars seconds ≠ [] :=
  append_ne_nil_of_right_ne_nil _ (cons_ne_nil _ _)

theorem strip_durationChars (seconds : ℚ) :
    strip (String.ofList (durationChars seconds)) = String.ofList (durationChars seconds) := by
  refine strip_of_no_space fun c hc => ?_
  rw [String.toList_ofList] at hc
  rcases mem_append.mp hc with hc | hc
  · exact isNumeric_not_space (isNumeric_formatG _ _ c hc)
  · rw [mem_singleton.mp hc]
    decide

theorem token_plain (h : 0 ≤ seconds) (hplain : Plain 6 seconds) :
    goDurationToken (durationChars seconds) = some (rounded 6 seconds, []) := by
  have hreads : Reads decimalDigit? ['s'] := reads_letter [] (by decide)
  rcases numeral_formatG (by norm_num) h hreads hplain with
    ⟨whole, part, hnumeral, hvalue⟩
  have hunit : goUnitS.find? (fun unit => unit.1.isPrefixOf ['s']) = some (['s'], 1) := by
    rfl
  rw [durationChars, goDurationToken, hnumeral]
  dsimp only
  rw [hunit, map_some, hvalue, mul_one]
  rfl

theorem token_exponent (h : 0 < seconds) (hplain : ¬ Plain 6 seconds) :
    goDurationToken (durationChars seconds) = none := by
  have hreads : Reads decimalDigit? ['e'] := reads_letter [] (by decide)
  rcases numeral_formatG_exponent (by norm_num) h hreads hplain with
    ⟨whole, part, rest, hnumeral⟩
  have hunit : goUnitS.find? (fun unit => unit.1.isPrefixOf ('e' :: rest)) = none := by
    rfl
  rw [durationChars, goDurationToken, hnumeral]
  dsimp only
  rw [hunit]
  rfl

def durationText (seconds : ℚ) : ExactJson := .str (String.ofList (durationChars seconds))

theorem parse_plain (h : 0 ≤ seconds) (hplain : Plain 6 seconds) :
    parseGoDurationS (durationText seconds) =
      if 0 ≤ rounded 6 seconds ∧ rounded 6 seconds ≤ maxProviderDurationS then
        some (rounded 6 seconds) else none := by
  have hne := durationChars_ne_nil seconds
  have hlen : (durationChars seconds).length ≤ 12 := by
    have hle := length_formatG_le (p := 6) (by norm_num) h hplain
    rw [durationChars, length_append, length_singleton]
    omega
  have hshort : ¬ 128 < (String.ofList (durationChars seconds)).length := by
    rw [String.length_ofList]
    omega
  have htokens := tokens_single hne (token_plain h hplain)
  have hall : ¬ ([(rounded 6 seconds, durationChars seconds)] = [] ∨
      [(rounded 6 seconds, durationChars seconds)].flatMap Prod.snd ≠ durationChars seconds) := by
    rintro (hnil | hother)
    · cases hnil
    · exact hother (append_nil _)
  simp only [durationText, parseGoDurationS, hshort, if_false, strip_durationChars,
    String.toList_ofList, htokens, hall, map_cons, map_nil, sum_cons, sum_nil,
    add_zero]

theorem parse_exponent (h : 0 < seconds) (hplain : ¬ Plain 6 seconds) :
    parseGoDurationS (durationText seconds) = none := by
  have hskipped := tokens_skipped (durationChars seconds).length
    (durationChars_ne_nil seconds) (token_exponent h hplain)
  simp only [durationText, parseGoDurationS, strip_durationChars, String.toList_ofList, ne_eq,
    hskipped, not_false_eq_true, or_true, if_true, ite_self]

/-- Below a million seconds, exactly the durations that are printed with all of their digits
    come back. -/
theorem parse_format_iff (h : 0 ≤ seconds) (hlt : seconds < 10 ^ 6) :
    parseGoDurationS (durationText seconds) = some seconds ↔ Exact seconds := by
  rw [Exact, ← plain_rounded_iff (by norm_num) h hlt]
  have hmax : seconds ≤ maxProviderDurationS := by
    refine le_of_lt (lt_of_lt_of_le hlt ?_)
    norm_num [maxProviderDurationS]
  by_cases hplain : Plain 6 seconds
  · rw [parse_plain h hplain]
    constructor
    · intro hsome
      split_ifs at hsome
      exact ⟨hplain, some.inj hsome⟩
    · rintro ⟨_, hsame⟩
      rw [hsame, if_pos ⟨h, hmax⟩]
  · have hpos : 0 < seconds := by
      refine lt_of_le_of_ne h fun hzero => hplain (.inl hzero.symm)
    rw [parse_exponent hpos hplain]
    exact iff_of_false nofun fun hboth => hplain hboth.1

theorem format_ok (h : 0 ≤ seconds) (hlt : seconds < 10 ^ 6) :
    formatGoDuration seconds = .ok (String.ofList (durationChars seconds)) := by
  have hmax : seconds ≤ maxProviderDurationS := by
    refine le_of_lt (lt_of_lt_of_le hlt ?_)
    norm_num [maxProviderDurationS]
  exact if_pos ⟨h, hmax⟩

theorem exact_zero : Exact 0 := by
  refine ⟨⟨0, 0, by norm_num, ?_⟩, .inl rfl⟩
  norm_num

theorem parse_zero : parseGoDurationS (.str "0s") = some 0 :=
  (parse_format_iff (le_refl 0) (by norm_num)).mpr exact_zero

theorem ne_empty_of_parse {s : String} (h : parseGoDurationS (.str s) = some seconds) : s ≠ "" := by
  rintro rfl
  cases h

end Apex.Adapters.ApexLoad
