import Apex.Core.Text
import Apex.Domain.Diagnostics

/-!
# Engine Handles

A handle names a run at an execution provider: the engine, the connection it
was provisioned on, the provider's own run id and extras, and the idempotency
key of the attempt. It is stored as a JSON object and read back through strict
validation, which refuses unknown fields, texts out of bounds and anything that
looks like a credential.

`model_copy(update=...)` rewrites fields of a handle without validating it
again, so a handle is a plain record here and `EngineHandle.ok` is what
validation checks.

## Main definitions

* `EngineHandle`: The fields.
* `EngineHandle.modelDump`: The object a handle is stored as.
* `EngineHandle.modelValidate`: The handle an object stands for, if it is valid.
* `EngineHandle.ok`: What validation checks of the fields.

## Theorems

* `modelValidate_ok`: A validated handle satisfies the checks.
* `modelValidate_modelDump`: A handle that satisfies them is read back as it was.
-/

namespace Apex.Domain

open Option

structure EngineHandle where
  engine : String
  connectionId : Option String
  externalRunId : Option String
  idempotencyKey : String
  extras : Dict String
  deriving DecidableEq

def textJson : Option String → Json
  | none => .null
  | some s => .str s

/-- A field of exact strings within bounds, without U+0000. -/
def textField (lo hi : Nat) : Json → Option String
  | .str s => if lo ≤ s.length ∧ s.length ≤ hi ∧ hasNul s = false then some s else none
  | _ => none

/-- A field that may also be `None`. -/
def optionalTextField (hi : Nat) : Json → Option (Option String)
  | .null => some none
  | v => (textField 0 hi v).map some

/-- A text `new_id` may return. -/
structure FreshId where
  text : String
  text_ok : textField 1 256 (.str text) = some text

def strValue : Json → Except Unit String
  | .str s => if hasNul s then .error () else .ok s
  | _ => .error ()

def textItems (v : Json) : Option (Dict String) := do
  let d ← v.dict?
  if d.length ≤ 32 ∧ d.keys.all (fun k => !hasNul k) = true then
    (d.traverse (fun _ value => strValue value)).toOption
  else none

def extrasChars (extras : Dict String) : Nat :=
  (extras.items.map (fun kv => kv.1.length + kv.2.length)).sum

def validateExtras (rules : CredentialRules) (extras : Dict String) : Bool :=
  extras.items.all (fun kv =>
    kv.1 != "" && kv.1.length ≤ 64 && !hasNul kv.1 && !rules.isCredentialField kv.1
      && kv.2.length ≤ 2048 && !hasNul kv.2
      && boundedDiagnostic rules kv.2 (max 1 kv.2.length) == kv.2)
    && extrasChars extras ≤ 16384

theorem textField_eq_some {lo hi : Nat} {v : Json} {s : String} (h : textField lo hi v = some s) :
    textField lo hi (.str s) = some s := by
  cases v with
  | str t =>
    -- The text that passed is the one that was read.
    by_cases hok : lo ≤ t.length ∧ t.length ≤ hi ∧ hasNul t = false
    · rw [textField, if_pos hok, some.injEq] at h
      rw [← h, textField, if_pos hok]
    · rw [textField, if_neg hok] at h
      simp only [reduceCtorEq] at h
  | _ => simp only [textField, reduceCtorEq] at h

theorem optionalTextField_eq_some {hi : Nat} {v : Json} {s : Option String}
    (h : optionalTextField hi v = some s) : optionalTextField hi (textJson s) = some s := by
  unfold optionalTextField at h
  split at h
  · rw [some.injEq] at h
    rw [← h]
    rfl
  · rcases map_eq_some_iff.mp h with ⟨t, ht, rfl⟩
    have hread := textField_eq_some ht
    simp only [textJson, optionalTextField, hread, map_some]

def textValue : Json → String
  | .str s => s
  | _ => ""

theorem strValue_ok (v : Json) (s : String) :
    strValue v = .ok s ↔ (v = .str (textValue v) ∧ hasNul (textValue v) = false) ∧
      textValue v = s := by
  cases v with
  | str t =>
    cases hnul : hasNul t with
    | true =>
      simp only [strValue, hnul, if_true, reduceCtorEq, textValue, true_and, Bool.true_eq_false,
        false_and]
    | false =>
      simp only [strValue, hnul, Bool.false_eq_true, if_false, Except.ok.injEq, textValue, true_and]
  | _ => simp only [strValue, reduceCtorEq, false_and]

theorem textItems_eq (v : Json) (d : Dict String) :
    textItems v = some d ↔ ∃ e, v.dict? = some e ∧
      (e.length ≤ 32 ∧ e.keys.all (fun k => !hasNul k) = true) ∧
      (∀ (k : String) w, e.get? k = some w → w = .str (textValue w) ∧ hasNul (textValue w) = false)
        ∧ e.map (fun _ w => textValue w) = d := by
  unfold textItems
  cases hv : v.dict? with
  | none => simp only [bind_eq_bind, bind_none, reduceCtorEq, false_and, exists_false]
  | some e =>
    simp only [bind_eq_bind, bind_some, some.injEq, exists_eq_left']
    by_cases hok : e.length ≤ 32 ∧ e.keys.all (fun k => !hasNul k) = true
    · rw [if_pos hok, ← Dict.traverse_eq_map (fun (_ : String) w => strValue_ok w)]
      cases e.traverse (fun _ w => strValue w) with
      | error err => simp only [Except.toOption, reduceCtorEq, and_false]
      | ok d' => simp only [Except.toOption, some.injEq, Except.ok.injEq, hok, and_self, true_and]
    · rw [if_neg hok]
      simp only [reduceCtorEq, hok, false_and]

theorem textItems_eq_some {v : Json} {d : Dict String} (h : textItems v = some d) :
    textItems (.ofDict (d.map (fun _ s => .str s))) = some d := by
  rcases (textItems_eq v d).mp h with ⟨e, _, ⟨hlen, hkeys⟩, hvalues, rfl⟩
  refine (textItems_eq _ _).mpr ⟨_, Json.dict?_ofDict _, ⟨?_, ?_⟩, fun k w hw => ?_, ?_⟩
  · rw [Dict.length_map, Dict.length_map]
    exact hlen
  · rw [Dict.keys_map, Dict.keys_map]
    exact hkeys
  · -- A text stored back is one that was read.
    rw [Dict.get?_map, Dict.get?_map] at hw
    cases hget : e.get? k with
    | none =>
      rw [hget] at hw
      simp only [map_none, reduceCtorEq] at hw
    | some w' =>
      rw [hget] at hw
      simp only [map_some, some.injEq] at hw
      rw [← hw]
      exact ⟨rfl, (hvalues k w' hget).2⟩
  · apply Dict.ext_items
    simp only [Dict.map, List.map_map]
    rfl

namespace EngineHandle

def extrasJson (h : EngineHandle) : Json := .ofDict (h.extras.map (fun _ s => .str s))

def fields : List String :=
  ["engine", "connection_id", "external_run_id", "idempotency_key", "extras"]

def modelDump (h : EngineHandle) : Dict Json where
  items := [("engine", .str h.engine), ("connection_id", textJson h.connectionId),
    ("external_run_id", textJson h.externalRunId), ("idempotency_key", .str h.idempotencyKey),
    ("extras", h.extrasJson)]
  nodup := (by decide : fields.Nodup)

def ok (rules : CredentialRules) (h : EngineHandle) : Bool :=
  textField 1 64 (.str h.engine) == some h.engine
    && optionalTextField 256 (textJson h.connectionId) == some h.connectionId
    && optionalTextField 255 (textJson h.externalRunId) == some h.externalRunId
    && textField 1 256 (.str h.idempotencyKey) == some h.idempotencyKey
    && textItems h.extrasJson == some h.extras
    && validateExtras rules h.extras
    && !containsCredentialMaterial rules plainScanLimits (.ofDict h.modelDump)

/-- The idempotency key of an object, or a fresh one. -/
def readKey (newId : FreshId) : Option Json → Option String
  | none => some newId.text
  | some v => textField 1 256 v

/-- The extras of an object, none by default. -/
def readExtras : Option Json → Option (Dict String)
  | none => some ∅
  | some v => textItems v

/-- The handle an object stands for, if it is valid. A missing idempotency key is
    replaced by a fresh one, which is not validated as a field. -/
def modelValidate (rules : CredentialRules) (newId : FreshId) (d : Dict Json) :
    Option EngineHandle := do
  let engine ← textField 1 64 (d.value "engine")
  let connectionId ← optionalTextField 256 (d.value "connection_id")
  let externalRunId ← optionalTextField 255 (d.value "external_run_id")
  let idempotencyKey ← readKey newId (d.get? "idempotency_key")
  let extras ← readExtras (d.get? "extras")
  let h : EngineHandle := ⟨engine, connectionId, externalRunId, idempotencyKey, extras⟩
  if d.keys.all (fun k => fields.contains k) && validateExtras rules extras
      && !containsCredentialMaterial rules plainScanLimits (.ofDict h.modelDump) then
    some h
  else none

theorem modelValidate_ok {rules : CredentialRules} {newId : FreshId} {d : Dict Json}
    {h : EngineHandle} (hd : modelValidate rules newId d = some h) : h.ok rules = true := by
  unfold modelValidate at hd
  simp only [bind_eq_bind, bind_eq_some_iff, ite_none_right_eq_some,
    some.injEq, Bool.and_eq_true] at hd
  rcases hd with ⟨engine, hengine, conn, hconn, run, hrun, key, hkey, extras, hextras,
    ⟨⟨_, hvalid⟩, hclean⟩, rfl⟩
  have hkey' : textField 1 256 (.str key) = some key := by
    cases hget : d.get? "idempotency_key" with
    | none =>
      rw [hget, readKey, some.injEq] at hkey
      rw [← hkey]
      exact newId.text_ok
    | some v =>
      rw [hget, readKey] at hkey
      exact textField_eq_some hkey
  have hextras' : textItems (.ofDict (extras.map (fun _ s => .str s))) = some extras := by
    cases hget : d.get? "extras" with
    | none =>
      rw [hget, readExtras, some.injEq] at hextras
      rw [← hextras]
      rfl
    | some v =>
      rw [hget, readExtras] at hextras
      exact textItems_eq_some hextras
  simp only [ok, extrasJson, textField_eq_some hengine, optionalTextField_eq_some hconn,
    optionalTextField_eq_some hrun, hkey', hextras', hvalid, hclean, BEq.rfl, Bool.and_self]

theorem modelValidate_modelDump {rules : CredentialRules} {h : EngineHandle} (newId : FreshId)
    (hok : h.ok rules = true) : modelValidate rules newId h.modelDump = some h := by
  simp only [ok, Bool.and_eq_true, beq_iff_eq] at hok
  rcases hok with ⟨⟨⟨⟨⟨⟨hengine, hconn⟩, hrun⟩, hkey⟩, hextras⟩, hvalid⟩, hclean⟩
  unfold modelValidate
  have hengine' : h.modelDump.value "engine" = .str h.engine := rfl
  have hconn' : h.modelDump.value "connection_id" = textJson h.connectionId := rfl
  have hrun' : h.modelDump.value "external_run_id" = textJson h.externalRunId := rfl
  have hkey' : h.modelDump.get? "idempotency_key" = some (.str h.idempotencyKey) := rfl
  have hextras' : h.modelDump.get? "extras" = some h.extrasJson := rfl
  have hfields : h.modelDump.keys.all (fun k => fields.contains k) = true := by
    change (fields.all (fun k => fields.contains k)) = true
    decide
  simp only [hfields, hengine', hconn', hrun', hkey', hextras', hengine, hconn, hrun, hkey,
    hextras, hvalid, hclean, readKey, readExtras, Bool.and_self, if_true, bind_eq_bind,
    bind_some]

end EngineHandle

end Apex.Domain
