import Apex.Core.JsonText
import Apex.Adapters.JsonWire

/-!
# What The Pass Bounds

As long as a text can be parsed the pass is in step with the parser: what it keeps is a
function of where the parser is. Its depth is the number of open containers, its tokens
are the values and names that have begun, it is in a string where the parser is, and it is
in a scalar where the parser is in a literal or a number.

## Main definitions

* `Within`: A parser within the limits.
* `view`: What the pass keeps where the parser is.

## Theorems

* `inStep_step`: One character of both.
* `scan_bounds`: A text that is passed keeps the parser within the limits.
* `scan_passes`: A text all of whose parse is within the limits is passed.
* `wire_limits_bound_parse`: Both, for whole texts.
-/

namespace Apex.Adapters

open List Option
open JsonText

variable {maxDepth maxTokens : Nat}

def Within (maxDepth maxTokens : Nat) (c : Config) : Prop :=
  c.containers.length ≤ maxDepth ∧ c.begun ≤ maxTokens

def view (c : Config) : WireScan where
  depth := c.containers.length
  tokens := c.begun
  inString := match c.mode with | .string _ _ => true | _ => false
  escaped := match c.mode with | .string _ .escape => true | _ => false
  inScalar := match c.mode with | .literal _ _ | .number _ => true | _ => false

/-- The characters that are neither in a scalar nor skipped in one. -/
def specials : List Char := ['"', '[', '{', ']', '}', ' ', '\t', '\r', '\n', ',', ':']

/-- What the pass keeps outside of strings and scalars. -/
def bare (depth : Int) (tokens : Nat) : WireScan where
  depth
  tokens

/-- The pass accepts a character exactly if the parser stays within the limits, and is
    then in step with it. -/
def InStep (maxDepth maxTokens : Nat) (s : WireScan) (ch : Char) (c : Config) : Prop :=
  ∀ s', scanChar maxDepth maxTokens s ch = .ok s' ↔ s' = view c ∧ Within maxDepth maxTokens c

theorem consumeToken_ok (s r : WireScan) :
    consumeToken maxTokens s = .ok r ↔ r = { s with tokens := s.tokens + 1 } ∧
      s.tokens + 1 ≤ maxTokens := by
  rw [consumeToken]
  by_cases hlt : maxTokens < s.tokens + 1
  · rw [if_pos hlt]
    refine ⟨fun h => ?_, fun h => absurd h.2 (Nat.not_le.mpr hlt)⟩
    cases h
  · rw [if_neg hlt, Except.ok.injEq]
    exact ⟨fun h => ⟨h.symm, Nat.not_lt.mp hlt⟩, fun h => h.1.symm⟩

theorem scan_quote (d : Int) (n : Nat) (s : WireScan) :
    scanChar maxDepth maxTokens (bare d n) '"' = .ok s ↔
      s = { bare d (n + 1) with inString := true } ∧ n + 1 ≤ maxTokens := by
  have h : scanChar maxDepth maxTokens (bare d n) '"' = (do
      let s ← consumeToken maxTokens (bare d n)
      pure { s with inString := true }) := rfl
  rw [h, bind_ok]
  simp only [consumeToken_ok, pure_ok]
  constructor
  · rintro ⟨s₁, ⟨rfl, hle⟩, rfl⟩
    exact ⟨rfl, hle⟩
  · rintro ⟨rfl, hle⟩
    exact ⟨_, ⟨rfl, hle⟩, rfl⟩

theorem scan_open {ch : Char} (hch : ch ∈ ['[', '{']) (d : Int) (n : Nat) (s : WireScan) :
    scanChar maxDepth maxTokens (bare d n) ch = .ok s ↔
      s = bare (d + 1) (n + 1) ∧ d + 1 ≤ maxDepth ∧ n + 1 ≤ maxTokens := by
  have h : scanChar maxDepth maxTokens (bare d n) ch = (do
      let s ← consumeToken maxTokens (bare d n)
      let s := { s with depth := s.depth + 1 }
      if (maxDepth : Int) < s.depth then
        .error s!"provider JSON exceeds the {maxDepth}-level nesting limit"
      else .ok s) := by
    rcases List.mem_pair.mp hch with rfl | rfl
    · rfl
    · rfl
  rw [h, bind_ok]
  simp only [consumeToken_ok]
  constructor
  · rintro ⟨s₁, ⟨rfl, hle⟩, h⟩
    by_cases hdeep : (maxDepth : Int) < d + 1
    · have hrefused := (if_pos hdeep).symm.trans h
      cases hrefused
    · have hdone := (if_neg hdeep).symm.trans h
      cases hdone
      exact ⟨rfl, Int.not_lt.mp hdeep, hle⟩
  · rintro ⟨rfl, hdepth, hle⟩
    exact ⟨_, ⟨rfl, hle⟩, if_neg (Int.not_lt.mpr hdepth)⟩

theorem scan_close {ch : Char} (hch : ch ∈ [']', '}']) (d : Int) (n : Nat) :
    scanChar maxDepth maxTokens (bare d n) ch = .ok (bare (d - 1) n) := by
  rcases List.mem_pair.mp hch with rfl | rfl
  · rfl
  · rfl

theorem scan_separator {ch : Char} (hch : ch ∈ separators) (d : Int) (n : Nat) :
    scanChar maxDepth maxTokens (bare d n) ch = .ok (bare d n) := by
  simp only [separators, List.mem_cons, List.not_mem_nil, or_false] at hch
  rcases hch with rfl | rfl | rfl | rfl | rfl | rfl <;> rfl

theorem scan_scalar {ch : Char} (hch : ch ∉ specials) (d : Int) (n : Nat) (s : WireScan) :
    scanChar maxDepth maxTokens (bare d n) ch = .ok s ↔
      s = { bare d (n + 1) with inScalar := true } ∧ n + 1 ≤ maxTokens := by
  simp only [specials, List.mem_cons, List.not_mem_nil, or_false, not_or] at hch
  have h : scanChar maxDepth maxTokens (bare d n) ch = (do
      let s ← consumeToken maxTokens (bare d n)
      pure { s with inScalar := true }) := by
    simp only [scanChar, bare, separators, List.contains_eq_mem, List.mem_cons, List.not_mem_nil,
      hch, or_false, decide_false, Bool.false_and, Bool.false_eq_true, if_false]
  rw [h, bind_ok]
  simp only [consumeToken_ok, pure_ok]
  constructor
  · rintro ⟨s₁, ⟨rfl, hle⟩, rfl⟩
    exact ⟨rfl, hle⟩
  · rintro ⟨rfl, hle⟩
    exact ⟨_, ⟨rfl, hle⟩, rfl⟩

theorem scan_inScalar (d : Int) (n : Nat) (ch : Char) :
    scanChar maxDepth maxTokens { bare d n with inScalar := true } ch =
      if ch ∈ scalarDelimiters then scanChar maxDepth maxTokens (bare d n) ch
      else .ok { bare d n with inScalar := true } := by
  by_cases h : ch ∈ scalarDelimiters
  · rw [if_pos h]
    simp only [scanChar, bare, List.contains_eq_mem, h, decide_true, Bool.not_true, Bool.and_false,
      Bool.false_eq_true, if_false]
  · rw [if_neg h]
    simp only [scanChar, bare, List.contains_eq_mem, h, decide_false, Bool.not_false, Bool.and_true,
      Bool.false_eq_true, if_false, if_true]

section Steps

variable {c c' : Config} {ch : Char}

theorem inStep_close {k : Container} (hc : Within maxDepth maxTokens c) (hch : ch ∈ [']', '}'])
    (h : close k c = some c') :
    InStep maxDepth maxTokens (bare c.containers.length c.begun) ch c' := by
  rcases c with ⟨_ | ⟨k', ks⟩, n, mode⟩
  · cases h
  · simp only [close] at h
    split at h
    · cases h
      intro s'
      rw [scan_close hch, Except.ok.injEq, List.length_cons]
      have hdepth : ((ks.length + 1 : Nat) : Int) - 1 = ks.length := by omega
      rw [hdepth]
      exact ⟨fun h => ⟨h.symm, Nat.le_trans (Nat.le_succ _) hc.1, hc.2⟩, fun h => h.1.symm⟩
    · cases h

theorem inStep_separator (hc : Within maxDepth maxTokens c) (hch : ch ∈ separators)
    (hview : view c' = bare c.containers.length c.begun)
    (hsame : c'.containers = c.containers ∧ c'.begun = c.begun) :
    InStep maxDepth maxTokens (bare c.containers.length c.begun) ch c' := by
  intro s'
  rw [scan_separator hch, Except.ok.injEq, ← hview]
  refine ⟨fun h => ⟨h.symm, ?_⟩, fun h => h.1.symm⟩
  rw [Within, hsame.1, hsame.2]
  exact hc

theorem isBlank_iff : isBlank ch = true ↔ ch ∈ [' ', '\t', '\n', '\r'] := List.contains_iff_mem

theorem blank_separator (h : isBlank ch = true) : ch ∈ separators := by
  have hall : [' ', '\t', '\n', '\r'].all separators.contains = true := by decide
  exact List.contains_iff_mem.mp (List.all_eq_true.mp hall ch (isBlank_iff.mp h))

theorem inStep_after (hc : Within maxDepth maxTokens c) (h : afterStep c ch = some c') :
    InStep maxDepth maxTokens (bare c.containers.length c.begun) ch c' := by
  unfold afterStep at h
  split at h
  · next hblank =>
      cases h
      exact inStep_separator hc (blank_separator hblank) rfl ⟨rfl, rfl⟩
  · split at h
    · next hcomma =>
        subst hcomma
        split at h
        · next heq =>
            cases h
            exact inStep_separator hc (by decide) (by rw [view, heq]; rfl) ⟨rfl, rfl⟩
        · next heq =>
            cases h
            exact inStep_separator hc (by decide) (by rw [view, heq]; rfl) ⟨rfl, rfl⟩
        · cases h
    · split at h
      · next hbracket => exact inStep_close hc (by rw [hbracket]; decide) h
      · split at h
        · next hbrace => exact inStep_close hc (by rw [hbrace]; decide) h
        · cases h

theorem inStep_quote (hc : Within maxDepth maxTokens c) (isName : Bool) :
    InStep maxDepth maxTokens (bare c.containers.length c.begun) '"'
      { c with begun := c.begun + 1, mode := .string isName .plain } := by
  intro s'
  rw [scan_quote]
  exact ⟨fun h => ⟨h.1, hc.1, h.2⟩, fun h => ⟨h.1, h.2.2⟩⟩

theorem inStep_open (k : Container) (mode : Mode) (hch : ch ∈ ['[', '{'])
    (hmode : mode = .first ∨ mode = .firstName) :
    InStep maxDepth maxTokens (bare c.containers.length c.begun) ch
      ⟨k :: c.containers, c.begun + 1, mode⟩ := by
  intro s'
  have hview : view ⟨k :: c.containers, c.begun + 1, mode⟩ =
      bare ((c.containers.length : Int) + 1) (c.begun + 1) := by
    rcases hmode with rfl | rfl
    · rfl
    · rfl
  rw [scan_open hch, hview, Within, length_cons]
  refine and_congr_right fun _ => and_congr_left fun _ => ?_
  omega

theorem inStep_scalar (hc : Within maxDepth maxTokens c) (hch : ch ∉ specials) (mode : Mode)
    (hview : view { c with begun := c.begun + 1, mode } =
      { bare c.containers.length (c.begun + 1) with inScalar := true }) :
    InStep maxDepth maxTokens (bare c.containers.length c.begun) ch
      { c with begun := c.begun + 1, mode } := by
  intro s'
  rw [scan_scalar hch, hview]
  exact ⟨fun h => ⟨h.1, hc.1, h.2⟩, fun h => ⟨h.1, h.2.2⟩⟩

theorem leading_not_special (h : isLeading ch = true) : ch ∉ specials := by
  have hall : specials.all (fun c => !isLeading c) = true := by decide
  intro hch
  have hnot := List.all_eq_true.mp hall ch hch
  rw [h] at hnot
  cases hnot

theorem inStep_value (hc : Within maxDepth maxTokens c)
    (hview : view c = bare c.containers.length c.begun) (h : valueStep c ch = some c') :
    InStep maxDepth maxTokens (bare c.containers.length c.begun) ch c' := by
  unfold valueStep at h
  split at h
  · next hblank =>
      cases h
      exact inStep_separator hc (blank_separator hblank) hview ⟨rfl, rfl⟩
  · dsimp only at h
    split at h
    · next heq =>
        cases h
        rw [heq]
        exact inStep_quote hc false
    · split at h
      · next heq =>
          cases h
          exact inStep_open _ _ (by rw [heq]; decide) (.inl rfl)
      · split at h
        · next heq =>
            cases h
            exact inStep_open _ _ (by rw [heq]; decide) (.inr rfl)
        · split at h
          · next heq =>
              cases h
              exact inStep_scalar hc (by rw [heq]; decide) _ rfl
          · split at h
            · next heq =>
                cases h
                exact inStep_scalar hc (by rw [heq]; decide) _ rfl
            · split at h
              · next hleading =>
                  cases h
                  exact inStep_scalar hc (leading_not_special hleading) _ rfl
              · split at h
                · next heq =>
                    cases h
                    exact inStep_scalar hc (by rw [heq]; decide) _ rfl
                · split at h
                  · next heq =>
                      cases h
                      exact inStep_scalar hc (by rw [heq]; decide) _ rfl
                  · split at h
                    · next heq =>
                        cases h
                        exact inStep_scalar hc (by rw [heq]; decide) _ rfl
                    · cases h

theorem inStep_name (hc : Within maxDepth maxTokens c)
    (hview : view c = bare c.containers.length c.begun) (h : nameStep c ch = some c') :
    InStep maxDepth maxTokens (bare c.containers.length c.begun) ch c' := by
  unfold nameStep at h
  split at h
  · next hblank =>
      cases h
      exact inStep_separator hc (blank_separator hblank) hview ⟨rfl, rfl⟩
  · split at h
    · next heq =>
        cases h
        rw [heq]
        exact inStep_quote hc true
    · cases h

theorem scan_inString (d : Int) (n : Nat) (escaped : Bool) (ch : Char) :
    scanChar maxDepth maxTokens { bare d n with inString := true, escaped } ch =
      .ok (if escaped then { bare d n with inString := true }
        else if ch = '\\' then { bare d n with inString := true, escaped := true }
        else if ch = '"' then bare d n
        else { bare d n with inString := true }) := by
  cases escaped with
  | true => rfl
  | false => rfl

theorem hex_not_special (h : isHex ch = true) : ch ≠ '\\' ∧ ch ≠ '"' := by
  constructor
  · rintro rfl
    revert h
    decide
  · rintro rfl
    revert h
    decide

theorem inStep_string {isName : Bool} {mode : StringMode}
    (hc : Within maxDepth maxTokens c) (hmode : c.mode = .string isName mode)
    (h : step c ch = some c') : InStep maxDepth maxTokens (view c) ch c' := by
  rcases c with ⟨ks, n, _⟩
  dsimp only at hmode
  subst hmode
  simp only [step, map_eq_some_iff] at h
  rcases h with ⟨next, hnext, rfl⟩
  have hall : ∀ c', c'.containers = ks → c'.begun = n →
      scanChar maxDepth maxTokens (view ⟨ks, n, .string isName mode⟩) ch = .ok (view c') →
      InStep maxDepth maxTokens (view ⟨ks, n, .string isName mode⟩) ch c' := by
    intro c' hks hn hscan s'
    rw [hscan, Except.ok.injEq]
    refine ⟨fun h => ⟨h.symm, ?_⟩, fun h => h.1.symm⟩
    rw [Within, hks, hn]
    exact hc
  have hview : view ⟨ks, n, .string isName mode⟩ =
      { bare ks.length n with inString := true, escaped := decide (mode = .escape) } := by
    cases mode <;> rfl
  cases mode with
  | plain =>
    simp only [stringStep] at hnext
    split at hnext
    · next heq =>
        cases hnext
        refine hall _ (by cases isName <;> rfl) (by cases isName <;> rfl) ?_
        rw [hview, heq]
        cases isName <;> rfl
    · next hquote =>
        split at hnext
        · next heq =>
            cases hnext
            refine hall _ rfl rfl ?_
            rw [hview, heq]
            rfl
        · next hslash =>
            split at hnext
            · cases hnext
              refine hall _ rfl rfl ?_
              rw [hview, scan_inString, if_neg (by decide), if_neg hslash, if_neg hquote]
              rfl
            · cases hnext
  | escape =>
    simp only [stringStep] at hnext
    split at hnext
    · cases hnext
      refine hall _ rfl rfl ?_
      rw [hview]
      rfl
    · split at hnext
      · cases hnext
        refine hall _ rfl rfl ?_
        rw [hview]
        rfl
      · cases hnext
  | hex k =>
    simp only [stringStep] at hnext
    split at hnext
    · next hhex =>
        cases hnext
        refine hall _ rfl rfl ?_
        have hescaped : decide (StringMode.hex k = .escape) = false :=
          decide_eq_false StringMode.noConfusion
        rw [hview, scan_inString, hescaped, if_neg Bool.false_ne_true,
          if_neg (hex_not_special hhex).1, if_neg (hex_not_special hhex).2]
        cases k <;> rfl
    · cases hnext

theorem afterStep_delimiter (h : afterStep c ch = some c') : ch ∈ scalarDelimiters := by
  unfold afterStep at h
  split at h
  · next hblank =>
      have hall : [' ', '\t', '\n', '\r'].all scalarDelimiters.contains = true := by decide
      exact contains_iff_mem.mp (List.all_eq_true.mp hall ch (isBlank_iff.mp hblank))
  · split at h
    · next heq => rw [heq]; decide
    · split at h
      · next heq => rw [heq]; decide
      · split at h
        · next heq => rw [heq]; decide
        · cases h

section

variable (hc : Within maxDepth maxTokens c)
  (hview : view c = { bare c.containers.length c.begun with inScalar := true })

include hc hview

theorem inStep_ended
    (h : afterStep c ch = some c') : InStep maxDepth maxTokens (view c) ch c' := by
  intro s'
  rw [hview, scan_inScalar, if_pos (afterStep_delimiter h)]
  exact inStep_after hc h s'

theorem inStep_continued {mode : Mode}
    (hview' : view { c with mode } = view c) (hch : ch ∉ scalarDelimiters) :
    InStep maxDepth maxTokens (view c) ch { c with mode } := by
  intro s'
  rw [hview', hview, scan_inScalar, if_neg hch, Except.ok.injEq]
  exact ⟨fun h => ⟨h.symm, hc⟩, fun h => h.1.symm⟩

end

theorem numberStep_not_delimiter {mode mode' : NumberMode} (h : numberStep mode ch = some mode') :
    ch ∉ scalarDelimiters := by
  have hall : scalarDelimiters.all (fun c => (numberStep mode c).isNone) = true := by
    cases mode <;> decide
  intro hch
  have hnone := List.all_eq_true.mp hall ch hch
  rw [h] at hnone
  cases hnone

theorem word_not_delimiter {word : Word} {read : Nat} (h : word.chars[read]? = some ch) :
    ch ∉ scalarDelimiters := by
  have hall : word.chars.all (fun r => !scalarDelimiters.contains r) = true := by
    cases word <;> decide
  intro hch
  have hnot := List.all_eq_true.mp hall ch (mem_of_getElem? h)
  rw [contains_iff_mem.mpr hch] at hnot
  cases hnot

theorem inStep_step (hc : Within maxDepth maxTokens c)
    (h : step c ch = some c') : InStep maxDepth maxTokens (view c) ch c' := by
  rcases c with ⟨ks, n, mode⟩
  cases mode with
  | value => exact inStep_value hc rfl h
  | first =>
    simp only [step] at h
    split at h
    · next heq => exact inStep_close hc (by rw [heq]; decide) h
    · exact inStep_value hc rfl h
  | name => exact inStep_name hc rfl h
  | firstName =>
    simp only [step] at h
    split at h
    · next heq => exact inStep_close hc (by rw [heq]; decide) h
    · exact inStep_name hc rfl h
  | colon =>
    simp only [step] at h
    split at h
    · next hblank =>
        cases h
        exact inStep_separator hc (blank_separator hblank) rfl ⟨rfl, rfl⟩
    · split at h
      · next heq =>
          cases h
          exact inStep_separator hc (by rw [heq]; decide) rfl ⟨rfl, rfl⟩
      · cases h
  | after => exact inStep_after hc h
  | string isName mode => exact inStep_string hc rfl h
  | literal word read =>
    simp only [step] at h
    cases hnext : word.chars[read]? with
    | some r =>
      rw [hnext] at h
      dsimp only at h
      split at h
      · next heq =>
          cases h
          exact inStep_continued hc rfl rfl (heq ▸ word_not_delimiter hnext)
      · cases h
    | none =>
      rw [hnext] at h
      exact inStep_ended hc rfl h
  | number mode =>
    simp only [step] at h
    cases hnext : numberStep mode ch with
    | some mode' =>
      rw [hnext] at h
      cases h
      exact inStep_continued hc rfl rfl (numberStep_not_delimiter hnext)
    | none =>
      rw [hnext] at h
      dsimp only at h
      split at h
      · exact inStep_ended hc rfl h
      · cases h

end Steps

theorem scan_bounds {text : List Char} {s : WireScan} : ∀ {c : Config},
    Within maxDepth maxTokens c → text.foldlM (scanChar maxDepth maxTokens) (view c) = .ok s →
      ∀ read rest m, read ++ rest = text → readFrom c read = some m →
        Within maxDepth maxTokens m := by
  induction text with
  | nil =>
    intro c hc _ read rest m happ hm
    rw [(append_eq_nil_iff.mp happ).1] at hm
    cases hm
    exact hc
  | cons ch text ih =>
    intro c hc hscan read rest m happ hm
    cases read with
    | nil =>
      cases hm
      exact hc
    | cons ch' read =>
      rw [cons_append, cons.injEq] at happ
      rcases happ with ⟨rfl, happ⟩
      rw [readFrom_cons, bind_eq_some_iff] at hm
      rcases hm with ⟨c', hstep, hm⟩
      rw [foldlM_cons, bind_ok] at hscan
      rcases hscan with ⟨s', hs', hscan⟩
      rcases (inStep_step hc hstep s').mp hs' with ⟨rfl, hc'⟩
      exact ih hc' hscan read rest m happ hm

theorem scan_passes {text : List Char} : ∀ {c : Config}, Within maxDepth maxTokens c →
    (∀ read rest, read ++ rest = text →
      ∃ m, readFrom c read = some m ∧ Within maxDepth maxTokens m) →
      ∃ s, text.foldlM (scanChar maxDepth maxTokens) (view c) = .ok s := by
  induction text with
  | nil => exact fun _ _ => ⟨_, rfl⟩
  | cons ch text ih =>
    intro c hc hall
    rcases hall [ch] text rfl with ⟨c', hstep, hc'⟩
    rw [readFrom_cons, bind_eq_some_iff] at hstep
    rcases hstep with ⟨c₁, hstep, hsame⟩
    cases hsame
    have hrest : ∀ read rest, read ++ rest = text →
        ∃ m, readFrom c' read = some m ∧ Within maxDepth maxTokens m := by
      intro read rest happ
      rcases hall (ch :: read) rest (by rw [cons_append, happ]) with ⟨m, hm, hwithin⟩
      rw [readFrom_cons, hstep, bind_some] at hm
      exact ⟨m, hm, hwithin⟩
    rcases ih hc' hrest with ⟨s, hs⟩
    refine ⟨s, ?_⟩
    rw [foldlM_cons, bind_ok]
    exact ⟨_, (inStep_step hc hstep _).mpr ⟨rfl, hc'⟩, hs⟩

theorem view_start : view start = {} := rfl

theorem readFrom_front {c c' : Config} {read rest : List Char}
    (h : readFrom c (read ++ rest) = some c') : ∃ m, readFrom c read = some m := by
  rw [readFrom_append, bind_eq_some_iff] at h
  rcases h with ⟨m, hm, _⟩
  exact ⟨m, hm⟩

/-- If a text is passed, the parser never has more open containers and never begins more
    values and names than the limits, up to the end or the first character that it does
    not accept. And every JSON text within the limits is passed. -/
theorem wire_limits_bound_parse (maxDepth maxTokens : Nat) (text : List Char) :
    (∀ s, validateJsonWireLimits maxDepth maxTokens text = .ok s →
      ∀ read rest c, read ++ rest = text → reading read = some c →
        c.containers.length ≤ maxDepth ∧ c.begun ≤ maxTokens) ∧
    (∀ d n, Derives .element text d n → d ≤ maxDepth → n ≤ maxTokens →
      ∃ s, validateJsonWireLimits maxDepth maxTokens text = .ok s) := by
  have hstart : Within maxDepth maxTokens start := ⟨Nat.zero_le _, Nat.zero_le _⟩
  constructor
  · intro s hs read rest c happ hread
    rw [validateJsonWireLimits, ← view_start] at hs
    exact scan_bounds hstart hs read rest c happ hread
  · intro d n hderives hd hn
    rcases reading_of_derives hderives with ⟨m, _, hread, hbounds⟩
    rw [validateJsonWireLimits, ← view_start]
    refine scan_passes hstart fun read rest happ => ?_
    rcases readFrom_front (happ.symm ▸ hread) with ⟨c, hc⟩
    rcases hbounds read rest c happ hc with ⟨hcontainers, hbegun⟩
    exact ⟨c, hc, Nat.le_trans hcontainers hd, Nat.le_trans hbegun hn⟩

end Apex.Adapters
