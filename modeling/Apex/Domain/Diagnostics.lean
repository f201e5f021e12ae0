import Apex.Core.Check
import Apex.Core.Json

/-!
# The Credential Scanner

`contains_credential_material` walks a document before it is stored and
reports whether anything in it looks like a credential. It fails closed: a
document with too many values, too long a key or string, or too many
characters in all is reported as well.

The scanner keeps a stack of iterators, so it meets the values in the order
they are written and stops at the first offence. `scanValue` is that walk with
its two counters passed along; `none` stands for the answer `True`. A document
is taken to be a tree here: the scanner's set of visited objects only skips
one it has met before.

What the patterns of the redactor match is a parameter, `CredentialRules`:
which field names they reject and what they leave of a text. The laws it
carries are the ones the reducers rely on, namely that the patterns leave the
names of their own fields and their own derived identifiers alone.

Everything above this file uses `containsCredentialMaterial_eq_false`: the
scanner is silent exactly when the counters stay within their limits and every
key and string passes on its own. The order of the walk does not matter to
the answer.

## Main definitions

* `CredentialRules`: The patterns, and what they leave alone.
* `containsCredentialMaterial`: The verdict.

## Theorems

* `textOk_derived`: A derived identifier passes.
* `keyOk_reserved`: The reducers' own field names pass.
-/

namespace Apex.Domain

open List Option

/-- The first 24 characters of a hexadecimal digest. -/
structure Digest where
  hex : String
  length_hex : hex.length = 24
  hex_digits : hex.toList.all (fun c => c.isDigit || ('a' ≤ c && c ≤ 'f')) = true

def derivedId (d : Digest) : String := "derived-" ++ d.hex

/-- The field names the reducers write on their own account. -/
def reservedFields : List String :=
  ["id", "approvals", "tool_calls", "warnings", "errors", "artifact_ids"]

/-- The patterns of the redactor: the field names it takes for credentials, and
    what it leaves of a text. -/
structure CredentialRules where
  isCredentialField : String → Bool
  redactCredentials : String → String
  reserved_field : ∀ k ∈ reservedFields, isCredentialField k = false
  reserved_text : ∀ k ∈ reservedFields, redactCredentials k = k
  derived_text : ∀ d, redactCredentials (derivedId d) = derivedId d

/-- Patterns to evaluate statements with: a few field names are rejected, and no
    text is redacted. -/
def sampleRules : CredentialRules where
  isCredentialField k := k ∈ ["password", "secret", "token", "api_key", "authorization"]
  redactCredentials text := text
  reserved_field := by decide
  reserved_text _ _ := rfl
  derived_text _ := rfl

/-- The limits of one scan. A scan with a limit of zero is refused, so none can
    be built. -/
structure ScanLimits where
  maxNodes : Nat := 100000
  maxKeyChars : Nat := 1024
  maxStringChars : Nat := 250000
  maxTotalChars : Nat := 1000000
  maxNodes_pos : 0 < maxNodes := by decide
  maxKeyChars_pos : 0 < maxKeyChars := by decide
  maxStringChars_pos : 0 < maxStringChars := by decide
  maxTotalChars_pos : 0 < maxTotalChars := by decide

def plainScanLimits : ScanLimits := {}

/-- `rendered.replace("\x00", "\\0")`. -/
def replaceNul (cs : List Char) : List Char :=
  cs.flatMap (fun c => if c = Char.ofNat 0 then ['\\', '0'] else [c])

variable (rules : CredentialRules) (lim : ScanLimits)

/-- A text after redaction, cut to `maxChars`. Only the beginning of the text is
    rendered at all. -/
def boundedDiagnostic (value : String) (maxChars : Nat) : String :=
  let window := max (maxChars * 4) 16384
  let rendered := String.ofList (replaceNul (value.toList.take window))
  String.ofList ((rules.redactCredentials rendered).toList.take maxChars)

/-- The counters of a scan: values met, and characters accounted for. -/
structure ScanState where
  nodes : Nat
  totalChars : Nat

def accountText (text : String) (key : Bool) (s : ScanState) :
    Option ScanState :=
  let limit := if key then lim.maxKeyChars else lim.maxStringChars
  if limit < text.length ∨ lim.maxTotalChars < s.totalChars + text.length then none
  else some { s with totalChars := s.totalChars + text.length }

def safeKey (key : String) (s : ScanState) :
    Option ScanState :=
  match accountText lim key true s with
  | none => none
  | some s =>
    if rules.isCredentialField key
        || boundedDiagnostic rules key (max 1 (min key.length lim.maxKeyChars)) != key then none
    else some s

mutual

/-- Walk one value; `none` is an offence. -/
def scanValue (rules : CredentialRules) (lim : ScanLimits) (current : Json) (s : ScanState) :
    Option ScanState :=
  let s := { s with nodes := s.nodes + 1 }
  if lim.maxNodes < s.nodes then none
  else
    match current with
    | .str text =>
      match accountText lim text false s with
      | none => none
      | some s =>
        if boundedDiagnostic rules text (max 1 (min text.length lim.maxStringChars)) != text
        then none
        else some s
    | .list xs => scanList rules lim xs s
    | .dict items => scanItems rules lim items s
    | .null => some s
    | .bool _ => some s
    | .int _ => some s
    | .float _ => some s

def scanList (rules : CredentialRules) (lim : ScanLimits) (xs : List Json) (s : ScanState) :
    Option ScanState :=
  match xs with
  | [] => some s
  | child :: rest =>
    if lim.maxNodes ≤ s.nodes then none
    else
      match scanValue rules lim child s with
      | none => none
      | some s => scanList rules lim rest s

def scanItems (rules : CredentialRules) (lim : ScanLimits) (items : List (String × Json))
    (s : ScanState) : Option ScanState :=
  match items with
  | [] => some s
  | (key, nested) :: rest =>
    if lim.maxNodes ≤ s.nodes then none
    else
      match safeKey rules lim key s with
      | none => none
      | some s =>
        match scanValue rules lim nested s with
        | none => none
        | some s => scanItems rules lim rest s

end

/-- Whether anything in a document looks like a credential, or the document is
    too large to tell. -/
def containsCredentialMaterial (v : Json) : Bool :=
  (scanValue rules lim v ⟨0, 0⟩).isNone

def textOk (limit : Nat) (text : String) : Bool :=
  text.length ≤ limit && boundedDiagnostic rules text (max 1 text.length) == text

def keyOk (limit : Nat) (key : String) : Bool :=
  textOk rules limit key && !rules.isCredentialField key

/-- Whether the keys or the text of one value pass. -/
def valueOk : Json → Bool
  | .str text => textOk rules lim.maxStringChars text
  | .dict items => items.all (fun kv => keyOk rules lim.maxKeyChars kv.1)
  | _ => true

/-- Whether every key and text below a value passes. -/
def contentOk (v : Json) : Bool :=
  v.every (valueOk rules lim)

section

variable (rules : CredentialRules) (lim : ScanLimits)

theorem accountText_eq_some {text : String} {b : Bool} {s s' : ScanState} :
    accountText lim text b s = some s' ↔
      (text.length ≤ (if b then lim.maxKeyChars else lim.maxStringChars) ∧
        s.totalChars + text.length ≤ lim.maxTotalChars) ∧
      s' = { s with totalChars := s.totalChars + text.length } := by
  rw [accountText]
  by_cases h : (if b then lim.maxKeyChars else lim.maxStringChars) < text.length ∨
      lim.maxTotalChars < s.totalChars + text.length
  · rw [if_pos h]
    simp only [reduceCtorEq, false_iff, not_and, and_imp]
    intro h1 h2
    omega
  · rw [if_neg h, some.injEq, eq_comm]
    exact ⟨fun heq => ⟨by omega, heq⟩, fun heq => heq.2⟩

theorem safeKey_eq_some {key : String} {s s' : ScanState} :
    safeKey rules lim key s = some s' ↔
      (keyOk rules lim.maxKeyChars key = true ∧ s.totalChars + key.length ≤ lim.maxTotalChars) ∧
      s' = { s with totalChars := s.totalChars + key.length } := by
  rw [safeKey]
  cases ha : accountText lim key true s with
  | none =>
    simp only [reduceCtorEq, false_iff, not_and, and_imp]
    intro hk htot heq
    rw [keyOk, textOk, Bool.and_eq_true, Bool.and_eq_true, decide_eq_true_eq] at hk
    have hsome := (accountText_eq_some lim (b := true)).mpr ⟨⟨hk.1.1, htot⟩, heq⟩
    rw [ha] at hsome
    simp only [reduceCtorEq] at hsome
  | some t =>
    rcases (accountText_eq_some lim).mp ha with ⟨⟨hlen, htot⟩, rfl⟩
    rw [if_pos rfl] at hlen
    simp only [keyOk, textOk, Nat.min_eq_left hlen, hlen, decide_true, Bool.true_and, htot,
      and_true]
    cases rules.isCredentialField key <;>
      cases hd : (boundedDiagnostic rules key (max 1 key.length) == key) <;>
      simp only [bne, hd, Bool.true_or, Bool.false_or, Bool.not_true, Bool.not_false,
        Bool.and_false, Bool.and_true, if_true, Bool.false_eq_true, if_false,
        reduceCtorEq, some.injEq, true_and, false_and, eq_comm]

theorem textStep {text : String} {s s' : ScanState} :
    (match accountText lim text false s with
      | none => none
      | some s =>
        if boundedDiagnostic rules text (max 1 (min text.length lim.maxStringChars)) != text
        then none
        else some s) = some s' ↔
      (textOk rules lim.maxStringChars text = true ∧
        s.totalChars + text.length ≤ lim.maxTotalChars) ∧
      s' = { s with totalChars := s.totalChars + text.length } := by
  cases ha : accountText lim text false s with
  | none =>
    simp only [reduceCtorEq, false_iff, not_and, and_imp]
    intro hk htot heq
    rw [textOk, Bool.and_eq_true, decide_eq_true_eq] at hk
    have hsome := (accountText_eq_some lim (b := false)).mpr ⟨⟨hk.1, htot⟩, heq⟩
    rw [ha] at hsome
    simp only [reduceCtorEq] at hsome
  | some t =>
    rcases (accountText_eq_some lim).mp ha with ⟨⟨hlen, htot⟩, rfl⟩
    rw [if_neg Bool.false_ne_true] at hlen
    simp only [textOk, Nat.min_eq_left hlen, hlen, decide_true, Bool.true_and, htot, and_true]
    cases hd : (boundedDiagnostic rules text (max 1 text.length) == text) <;>
      simp only [bne, hd, Bool.not_true, Bool.not_false, if_true, Bool.false_eq_true, if_false,
        reduceCtorEq, some.injEq, true_and, false_and, eq_comm]

/-- What it takes for a walk to get through values of a given size. -/
def Room (s : ScanState) (nodes chars : Nat) : Prop :=
  s.nodes + nodes ≤ lim.maxNodes ∧ s.totalChars + chars ≤ lim.maxTotalChars

def ScanState.after (s : ScanState) (nodes chars : Nat) : ScanState :=
  ⟨s.nodes + nodes, s.totalChars + chars⟩

variable (v : Json)

/-- The walk gets through a value exactly when there is room for it and its
    contents pass. -/
def Scans : Prop :=
  ∀ s s', s.totalChars ≤ lim.maxTotalChars →
    (scanValue rules lim v s = some s' ↔
      (Room lim s v.nodes v.chars ∧ contentOk rules lim v = true) ∧ s' = s.after v.nodes v.chars)

theorem scanList_eq_some : ∀ (xs : List Json), (∀ x ∈ xs, Scans rules lim x) →
    ∀ s s', s.nodes ≤ lim.maxNodes → s.totalChars ≤ lim.maxTotalChars →
      (scanList rules lim xs s = some s' ↔
        (Room lim s (Json.nodesList xs) (Json.charsList xs) ∧
          ∀ x ∈ xs, contentOk rules lim x = true) ∧
        s' = s.after (Json.nodesList xs) (Json.charsList xs))
  | [], _, s, s', hn, ht => by
    simp only [scanList, some.injEq, Room, Json.nodesList, Json.charsList, Nat.add_zero,
      hn, ht, not_mem_nil, false_implies, implies_true, and_self, true_and,
      ScanState.after]
    exact eq_comm
  | x :: xs, ih, s, s', hn, ht => by
    have hpos := Json.nodes_pos x
    rw [forall_mem_cons] at ih
    rw [scanList, forall_mem_cons, Json.nodesList, Json.charsList]
    by_cases hfull : lim.maxNodes ≤ s.nodes
    · simp only [hfull, if_true, reduceCtorEq, false_iff, Room]
      rintro ⟨⟨hroom, _⟩, _⟩
      omega
    · rw [if_neg hfull]
      cases hx : scanValue rules lim x s with
      | none =>
        simp only [reduceCtorEq, false_iff]
        rintro ⟨⟨hroom, hok, _⟩, _⟩
        have hsome := (ih.1 s (s.after x.nodes x.chars) ht).mpr
          ⟨⟨⟨by unfold Room at hroom; omega, by unfold Room at hroom; omega⟩, hok⟩, rfl⟩
        rw [hx] at hsome
        simp only [reduceCtorEq] at hsome
      | some t =>
        rcases (ih.1 s t ht).mp hx with ⟨⟨hroom, hok⟩, rfl⟩
        simp only
        rw [scanList_eq_some xs ih.2 _ s' hroom.1 hroom.2]
        simp only [Room, ScanState.after, hok, true_and, Nat.add_assoc]

theorem scanItems_eq_some : ∀ (items : List (String × Json)), (∀ kv ∈ items, Scans rules lim kv.2) →
    ∀ s s', s.nodes ≤ lim.maxNodes → s.totalChars ≤ lim.maxTotalChars →
      (scanItems rules lim items s = some s' ↔
        (Room lim s (Json.nodesItems items) (Json.charsItems items) ∧
          ∀ kv ∈ items, keyOk rules lim.maxKeyChars kv.1 = true ∧ contentOk rules lim kv.2 = true) ∧
        s' = s.after (Json.nodesItems items) (Json.charsItems items))
  | [], _, s, s', hn, ht => by
    simp only [scanItems, some.injEq, Room, Json.nodesItems, Json.charsItems,
      Nat.add_zero, hn, ht, not_mem_nil, false_implies, implies_true, and_self, true_and,
      ScanState.after]
    exact eq_comm
  | (k, v) :: items, ih, s, s', hn, ht => by
    have hpos := Json.nodes_pos v
    rw [forall_mem_cons] at ih
    rw [scanItems, forall_mem_cons, Json.nodesItems, Json.charsItems]
    by_cases hfull : lim.maxNodes ≤ s.nodes
    · simp only [hfull, if_true, reduceCtorEq, false_iff, Room]
      rintro ⟨⟨hroom, _⟩, _⟩
      omega
    · rw [if_neg hfull]
      cases hk : safeKey rules lim k s with
      | none =>
        simp only [reduceCtorEq, false_iff]
        rintro ⟨⟨hroom, hok, _⟩, _⟩
        have hsome := (safeKey_eq_some rules lim (s := s)).mpr
          ⟨⟨hok.1, by unfold Room at hroom; omega⟩, rfl⟩
        rw [hk] at hsome
        simp only [reduceCtorEq] at hsome
      | some t =>
        rcases (safeKey_eq_some rules lim).mp hk with ⟨⟨hkey, htot⟩, rfl⟩
        simp only
        cases hv : scanValue rules lim v { s with totalChars := s.totalChars + k.length } with
        | none =>
          simp only [reduceCtorEq, false_iff]
          rintro ⟨⟨hroom, hok, _⟩, _⟩
          unfold Room at hroom
          have hv' : Room lim { s with totalChars := s.totalChars + k.length } v.nodes
              v.chars := ⟨by simp only; omega, by simp only; omega⟩
          have hsome := (ih.1 _ _ htot).mpr ⟨⟨hv', hok.2⟩, rfl⟩
          rw [hv] at hsome
          simp only [reduceCtorEq] at hsome
        | some t =>
          rcases (ih.1 _ t htot).mp hv with ⟨⟨hroom, hok⟩, rfl⟩
          simp only
          rw [scanItems_eq_some items ih.2 _ s' hroom.1 hroom.2]
          simp only [Room, ScanState.after, hkey, hok, true_and, Nat.add_assoc]

theorem contentOk_eq : contentOk rules lim v = true ↔
    valueOk rules lim v = true ∧ ∀ c ∈ v.children, contentOk rules lim c = true :=
  Json.every_eq _ v

theorem scans : Scans rules lim v := by
  -- The head of the walk is the same for every kind of value.
  have hroot : ∀ (w : Json) (s s' : ScanState), s.nodes + 1 ≤ lim.maxNodes ∨
      (scanValue rules lim w s ≠ some s' ∧ ¬ Room lim s w.nodes w.chars) := by
    intro w s s'
    by_cases hfull : lim.maxNodes < s.nodes + 1
    · refine Or.inr ⟨?_, fun hroom => ?_⟩
      · unfold scanValue
        simp only [hfull, if_true, ne_eq, reduceCtorEq, not_false_eq_true]
      · have hpos := Json.nodes_pos w
        unfold Room at hroom
        omega
    · exact Or.inl (by omega)
  have scalar : ∀ w : Json, (∀ s : ScanState, s.nodes + 1 ≤ lim.maxNodes →
      scanValue rules lim w s = some (s.after 1 0)) → w.nodes = 1 → w.chars = 0 →
      contentOk rules lim w = true → Scans rules lim w := by
    intro w hscan hnodes hchars hok s s' ht
    rcases hroot w s s' with hn | ⟨hne, hroom⟩
    · rw [hscan s hn, hnodes, hchars, some.injEq]
      exact ⟨fun h => ⟨⟨⟨hn, ht⟩, hok⟩, h.symm⟩, fun h => h.2.symm⟩
    · exact ⟨fun h => absurd h hne, fun h => absurd h.1.1 hroom⟩
  have step : ∀ s : ScanState, s.nodes + 1 ≤ lim.maxNodes → ¬ lim.maxNodes < s.nodes + 1 :=
    fun s h => by omega
  refine Json.inductionOn (P := Scans rules lim) ?_ ?_ ?_ ?_ ?_ ?_ ?_ v
  · exact scalar _ (fun s hn => by simp only [scanValue, if_neg (step s hn)]; rfl) rfl rfl rfl
  · exact fun b => scalar _ (fun s hn => by simp only [scanValue, if_neg (step s hn)]; rfl)
      rfl rfl rfl
  · exact fun n => scalar _ (fun s hn => by simp only [scanValue, if_neg (step s hn)]; rfl)
      rfl rfl rfl
  · exact fun x => scalar _ (fun s hn => by simp only [scanValue, if_neg (step s hn)]; rfl)
      rfl rfl rfl
  · intro text s s' ht
    rcases hroot (.str text) s s' with hn | ⟨hne, hroom⟩
    · rw [contentOk_eq]
      simp only [scanValue, if_neg (step s hn), valueOk, Json.nodes, Json.chars, Json.children,
        not_mem_nil, false_implies, implies_true, and_true]
      rw [textStep rules lim]
      simp only [Room, ScanState.after, hn, true_and, and_comm]
    · exact ⟨fun h => absurd h hne, fun h => absurd h.1.1 hroom⟩
  · intro xs ih s s' ht
    rcases hroot (.list xs) s s' with hn | ⟨hne, hroom⟩
    · rw [contentOk_eq]
      simp only [scanValue, if_neg (step s hn), valueOk, true_and, Json.nodes, Json.chars,
        Json.children]
      rw [scanList_eq_some rules lim xs ih { s with nodes := s.nodes + 1 } s' hn ht]
      simp only [Room, ScanState.after, Nat.add_assoc]
    · exact ⟨fun h => absurd h hne, fun h => absurd h.1.1 hroom⟩
  · intro items ih s s' ht
    rcases hroot (.dict items) s s' with hn | ⟨hne, hroom⟩
    · rw [contentOk_eq]
      simp only [scanValue, if_neg (step s hn), valueOk, Json.nodes, Json.chars, Json.children,
        List.all_eq_true, List.forall_mem_map]
      rw [scanItems_eq_some rules lim items ih { s with nodes := s.nodes + 1 } s' hn ht]
      simp only [Room, ScanState.after, Nat.add_assoc, forall_and]
    · exact ⟨fun h => absurd h hne, fun h => absurd h.1.1 hroom⟩

/-- The scanner is silent exactly when a document is within the limits and each
    of its keys and texts passes. -/
theorem containsCredentialMaterial_eq_false :
    containsCredentialMaterial rules lim v = false ↔
      v.nodes ≤ lim.maxNodes ∧ v.chars ≤ lim.maxTotalChars ∧ contentOk rules lim v = true := by
  have hv := scans rules lim v ⟨0, 0⟩
  rw [containsCredentialMaterial]
  cases hs : scanValue rules lim v ⟨0, 0⟩ with
  | none =>
    simp only [isNone_none, Bool.true_eq_false, false_iff]
    rintro ⟨hn, ht, hok⟩
    have hsome := (hv _ (Nat.zero_le _)).mpr
      ⟨⟨⟨(Nat.zero_add _).symm ▸ hn, (Nat.zero_add _).symm ▸ ht⟩, hok⟩, rfl⟩
    rw [hs] at hsome
    simp only [reduceCtorEq] at hsome
  | some t =>
    rcases ((hv t (Nat.zero_le _)).mp hs).1 with ⟨⟨hn, ht⟩, hok⟩
    rw [Nat.zero_add] at hn ht
    exact ⟨fun _ => ⟨hn, ht, hok⟩, fun _ => rfl⟩

end

theorem replaceNul_self {cs : List Char} (h : cs.any (· == Char.ofNat 0) = false) :
    replaceNul cs = cs := by
  induction cs with
  | nil => rfl
  | cons c cs ih =>
    rw [any_cons, Bool.or_eq_false_iff, beq_eq_false_iff_ne] at h
    rw [replaceNul, flatMap_cons, if_neg h.1, ← replaceNul, ih h.2]
    rfl

theorem textOk_of_untouched {limit : Nat} {text : String} (hlen : text.length ≤ limit)
    (hnul : hasNul text = false)
    (hred : rules.redactCredentials text = text) : textOk rules limit text = true := by
  have hfull : text.toList.take (max (max 1 text.length * 4) 16384) = text.toList := by
    refine take_of_length_le ?_
    rw [String.length_toList]
    omega
  have hcut : text.toList.take (max 1 text.length) = text.toList := by
    refine take_of_length_le ?_
    rw [String.length_toList]
    omega
  have hdiag : boundedDiagnostic rules text (max 1 text.length) = text := by
    simp only [boundedDiagnostic, hfull, replaceNul_self hnul, String.ofList_toList, hred, hcut]
  rw [textOk, hdiag, beq_self_eq_true, Bool.and_true, decide_eq_true_eq]
  exact hlen

@[simp] theorem length_derivedId (d : Digest) : (derivedId d).length = 32 := by
  rw [derivedId, String.length_append, d.length_hex]
  rfl

theorem hasNul_derivedId (d : Digest) : hasNul (derivedId d) = false := by
  have hhex : d.hex.toList.any (· == Char.ofNat 0) = false := by
    rw [List.any_eq_false]
    intro c hc
    have hdigit := List.all_eq_true.mp d.hex_digits c hc
    intro h0
    rw [beq_iff_eq.mp h0] at hdigit
    exact absurd hdigit (by decide)
  rw [hasNul, derivedId, String.toList_append, any_append, hhex, Bool.or_false]
  rfl

theorem textOk_derived {limit : Nat} (hlimit : 32 ≤ limit) (d : Digest) :
    textOk rules limit (derivedId d) = true :=
  textOk_of_untouched rules (by rw [length_derivedId]; exact hlimit) (hasNul_derivedId d)
    (rules.derived_text d)

theorem keyOk_reserved {limit : Nat} (hlimit : 32 ≤ limit) {k : String}
    (hk : k ∈ reservedFields) : keyOk rules limit k = true := by
  have hshape : k.length ≤ 32 ∧ hasNul k = false := by
    revert k
    decide
  rw [keyOk, textOk_of_untouched rules (Nat.le_trans hshape.1 hlimit) hshape.2 (rules.reserved_text k hk),
    rules.reserved_field k hk]
  rfl

end Apex.Domain
