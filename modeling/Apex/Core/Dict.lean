import Mathlib.Data.List.Nodup

/-!
# Ordered Dictionaries

A dictionary that remembers the order in which its keys were first written,
as the `dict` of a scripting language does. The distinctness of the keys is a
field of the structure, so a literal that names one key twice cannot be built
and no later lemma has to exclude it.

Only three ways of combining dictionaries are needed. `update` is the literal
`{**c, **i}`: a key of `c` keeps its place and takes the value of `i`, and the
keys `i` adds come after. `extend` keeps the value of `c` instead. `traverse`
rewrites every value by a function that may fail, in order, and stops at the
first failure; `assignEach` does so for named fields only. Each is characterised by what a lookup in the result finds, and
nothing above this file looks at the underlying list again.

## Main definitions

* `Dict.get?`: The value stored under a key.
* `Dict.update`: Overwrite the values that the second dictionary also has.
* `Dict.extend`: Add the keys that are still missing.
* `Dict.traverse`: Rewrite every value, or fail at the first that cannot be.
* `Dict.assignEach`: Assign to a list of fields, each from what it holds.

## Theorems

* `get?_update`, `get?_set`, `get?_extend`: Lookups in a combination.
* `traverse_get?`: What a successful traversal stored under a key.
* `traverse_ok`: When a traversal succeeds.
* `assignEach_get?`: What a series of assignments stored under a key.
* `assignEach_eq_map`, `assignEach_eq_assignAll`: A series of assignments as one
  rewriting.
* `ext_get?`: Dictionaries with the same keys in order and the same lookups.
-/

namespace Apex

open List Option

universe u v w

/-- Items in the order their keys were first written, each key once. -/
structure Dict (α : Type u) where
  items : List (String × α)
  nodup : (items.map Prod.fst).Nodup

namespace Dict

variable {α : Type u} {β : Type v} {ε : Type w}

variable {c d : Dict α} {v : α} {k' : String} {fields : List String}
  {g : String → Option α → Except ε (Option α)} {P : String → α → Prop}
  {f : String → α → Except ε β} {d' : Dict β}

@[ext] theorem ext_items (h : c.items = d.items) : c = d := by
  cases c
  cases d
  simp only at h
  subst h
  rfl

instance [DecidableEq α] : DecidableEq (Dict α) := fun c d =>
  decidable_of_iff (c.items = d.items) ⟨ext_items, fun h => h ▸ rfl⟩

def empty : Dict α := ⟨[], List.nodup_nil⟩

instance : EmptyCollection (Dict α) := ⟨empty⟩

instance : Inhabited (Dict α) := ⟨∅⟩

/-- The keys in the order they were first written. -/
def keys (d : Dict α) : List String := d.items.map Prod.fst

def length (d : Dict α) : Nat := d.items.length

def get? (d : Dict α) (k : String) : Option α := d.items.lookup k

def has (d : Dict α) (k : String) : Bool := (d.get? k).isSome

/-- The dictionary a list of items denotes, provided no key is repeated. -/
def ofItems? (items : List (String × α)) : Option (Dict α) :=
  if h : (items.map Prod.fst).Nodup then some ⟨items, h⟩ else none

@[simp] theorem ofItems?_items (d : Dict α) : ofItems? d.items = some d := by
  simp only [ofItems?, d.nodup, dite_true]

theorem ofItems?_eq_some {items : List (String × α)}
    (h : ofItems? items = some d) : d.items = items := by
  simp only [ofItems?] at h
  split at h
  · simp only [some.injEq] at h
    rw [← h]
  · simp only [reduceCtorEq] at h

@[simp] theorem get?_empty (k : String) : (∅ : Dict α).get? k = none := rfl

@[simp] theorem length_empty : (∅ : Dict α).length = 0 := rfl

theorem eq_empty_of_length (h : d.length = 0) : d = ∅ :=
  ext_items (eq_nil_of_length_eq_zero h)

variable {k : String}

theorem get?_eq_none_iff : d.get? k = none ↔ k ∉ d.keys := by
  simp only [get?, keys, lookup_eq_none_iff, List.mem_map, not_exists, not_and, Prod.forall,
    bne_iff_ne, ne_eq]
  constructor
  · intro h a b hab hak
    exact h a b hab hak.symm
  · intro h a b hab hka
    exact h a b hab hka.symm

theorem has_iff_mem : d.has k = true ↔ k ∈ d.keys := by
  rw [has, ← not_iff_not, Bool.not_eq_true, isSome_eq_false_iff,
    isNone_iff_eq_none, get?_eq_none_iff]

theorem get?_mem (h : d.get? k = some v) :
    (k, v) ∈ d.items := by
  rw [get?, lookup_eq_some_iff] at h
  rcases h with ⟨l₁, l₂, heq, _⟩
  rw [heq]
  exact mem_append_right _ mem_cons_self

theorem lookup_of_mem : ∀ {l : List (String × α)} {k : String} {v : α},
    (l.map Prod.fst).Nodup → (k, v) ∈ l → l.lookup k = some v
  | [], _, _, _, hm => absurd hm not_mem_nil
  | (k', v') :: l, k, v, hnd, hm => by
    rw [map_cons, nodup_cons] at hnd
    rcases mem_cons.mp hm with heq | hm'
    · rw [Prod.mk.injEq] at heq
      rw [heq.1, heq.2, List.lookup_cons_self]
    · -- The key occurs further down, so it is not the head's.
      have hne : k ≠ k' := by
        intro hk
        refine hnd.1 ?_
        exact List.mem_map.mpr ⟨(k, v), hm', hk⟩
      rw [lookup_cons, beq_eq_false_iff_ne.mpr hne]
      exact lookup_of_mem hnd.2 hm'

theorem get?_of_mem (h : (k, v) ∈ d.items) :
    d.get? k = some v := lookup_of_mem d.nodup h

theorem mem_items_iff :
    (k, v) ∈ d.items ↔ d.get? k = some v := ⟨get?_of_mem, get?_mem⟩

theorem get?_keys (h : d.get? k = some v) : k ∈ d.keys :=
  List.mem_map.mpr ⟨(k, v), get?_mem h, rfl⟩

theorem lookup_map_val (g : String → α → β) : ∀ (l : List (String × α)) (k : String),
    (l.map (fun kv => (kv.1, g kv.1 kv.2))).lookup k = (l.lookup k).map (g k)
  | [], _ => rfl
  | (k', v') :: l, k => by
    rw [map_cons, lookup_cons, lookup_cons]
    cases hk : (k == k') with
    | true => rw [beq_iff_eq.mp hk]; rfl
    | false => exact lookup_map_val g l k

theorem lookup_filter_key (p : String → Bool) : ∀ (l : List (String × α)) (k : String),
    (l.filter (fun kv => p kv.1)).lookup k = if p k then l.lookup k else none
  | [], k => by rw [filter_nil, lookup_nil, ite_self]
  | (k', v') :: l, k => by
    rw [filter_cons, lookup_cons]
    cases hp : p k' with
    | true =>
      rw [if_pos rfl, lookup_cons, lookup_filter_key p l k]
      cases hk : (k == k') with
      | true => rw [beq_iff_eq.mp hk, hp]; rfl
      | false => rfl
    | false =>
      rw [if_neg Bool.false_ne_true, lookup_filter_key p l k]
      cases hk : (k == k') with
      | true => rw [beq_iff_eq.mp hk, hp]; rfl
      | false => rfl

def map (g : String → α → β) (d : Dict α) : Dict β where
  items := d.items.map (fun kv => (kv.1, g kv.1 kv.2))
  nodup := by
    rw [List.map_map]
    exact d.nodup

@[simp] theorem get?_map (g : String → α → β) (d : Dict α) (k : String) :
    (d.map g).get? k = (d.get? k).map (g k) := lookup_map_val g d.items k

@[simp] theorem keys_map (g : String → α → β) (d : Dict α) : (d.map g).keys = d.keys := by
  simp only [keys, map, List.map_map]
  rfl

@[simp] theorem length_map (g : String → α → β) (d : Dict α) : (d.map g).length = d.length := by
  simp only [length, map, List.length_map]

def filterKeys (p : String → Bool) (d : Dict α) : Dict α where
  items := d.items.filter (fun kv => p kv.1)
  nodup := d.nodup.sublist (List.filter_sublist.map Prod.fst)

@[simp] theorem get?_filterKeys (p : String → Bool) (d : Dict α) (k : String) :
    (d.filterKeys p).get? k = if p k then d.get? k else none := lookup_filter_key p d.items k

/-- Add the items of `i` whose key `c` lacks, after those of `c`. -/
def extend (c i : Dict α) : Dict α where
  items := c.items ++ i.items.filter (fun kv => !c.has kv.1)
  nodup := by
    rw [List.map_append]
    refine List.Nodup.append c.nodup (i.nodup.sublist (List.filter_sublist.map Prod.fst)) ?_
    intro k hc hi
    rcases List.mem_map.mp hi with ⟨kv, hkv, rfl⟩
    have hmiss := (List.mem_filter.mp hkv).2
    rw [Bool.not_eq_true', ← Bool.not_eq_true, has_iff_mem] at hmiss
    exact hmiss hc

theorem get?_extend (c i : Dict α) (k : String) :
    (c.extend i).get? k = (c.get? k).or (i.get? k) := by
  rw [get?, extend, lookup_append, lookup_filter_key (fun k => !c.has k)]
  cases hc : c.get? k with
  | some v => rw [← get?, hc]; rfl
  | none =>
    rw [if_pos (by rw [has, hc]; rfl), ← get?, hc]
    rfl

/-- The literal `{**c, **i}`. -/
def update (c i : Dict α) : Dict α := (c.map (fun k v => (i.get? k).getD v)).extend i

theorem get?_update (c i : Dict α) (k : String) :
    (c.update i).get? k = (i.get? k).or (c.get? k) := by
  rw [update, get?_extend, get?_map]
  cases c.get? k <;> cases i.get? k <;> rfl

def single (k : String) (v : α) : Dict α := ⟨[(k, v)], List.nodup_singleton k⟩

@[simp] theorem get?_single (k : String) (v : α) (k' : String) :
    (single k v).get? k' = if k' = k then some v else none := by
  change lookup k' [(k, v)] = _
  rw [lookup_cons, lookup_nil]
  by_cases h : k' = k
  · rw [if_pos h, beq_iff_eq.mpr h]
  · rw [if_neg h, beq_eq_false_iff_ne.mpr h]

/-- The assignment `d[k] = v`. -/
def set (d : Dict α) (k : String) (v : α) : Dict α := d.update (single k v)

theorem get?_set (d : Dict α) (k : String) (v : α) (k' : String) :
    (d.set k v).get? k' = if k' = k then some v else d.get? k' := by
  rw [set, get?_update, get?_single]
  by_cases h : k' = k
  · rw [if_pos h, if_pos h]; rfl
  · rw [if_neg h, if_neg h]; rfl

@[simp] theorem get?_set_self (d : Dict α) (k : String) (v : α) : (d.set k v).get? k = some v := by
  rw [get?_set, if_pos rfl]

theorem get?_set_ne (d : Dict α) (v : α) (h : k' ≠ k) :
    (d.set k v).get? k' = d.get? k' := by
  rw [get?_set, if_neg h]

theorem items_eq_map_keys (d : Dict α) (g : String → α → α)
    (hg : ∀ k v, d.get? k = some v → g k v = v) :
    d.items.map (fun kv => (kv.1, g kv.1 kv.2)) = d.items := by
  refine (map_congr_left (fun kv hkv => ?_)).trans (List.map_id d.items)
  rw [hg kv.1 kv.2 (get?_of_mem hkv)]
  rfl

theorem map_eq_self (d : Dict α) (g : String → α → α)
    (hg : ∀ k v, d.get? k = some v → g k v = v) : d.map g = d :=
  ext_items (items_eq_map_keys d g hg)

theorem extend_eq_self (c i : Dict α) (h : ∀ k, (i.get? k).isSome → (c.get? k).isSome) :
    c.extend i = c := by
  refine ext_items ?_
  have hnil : i.items.filter (fun kv => !c.has kv.1) = [] := by
    rw [filter_eq_nil_iff]
    intro kv hkv
    have hk : (i.get? kv.1).isSome := by rw [get?_of_mem hkv]; rfl
    rw [has, h kv.1 hk]
    exact Bool.false_ne_true
  simp only [extend, hnil, append_nil]

/-- Overwriting values with themselves changes nothing, the order of the keys
    included. -/
theorem update_eq_self (c i : Dict α) (h : ∀ k v, i.get? k = some v → c.get? k = some v) :
    c.update i = c := by
  have hmap : c.map (fun k v => (i.get? k).getD v) = c := by
    refine map_eq_self c _ (fun k v hv => ?_)
    cases hi : i.get? k with
    | none => rfl
    | some w =>
      rw [h k w hi, some.injEq] at hv
      rw [hv]
      rfl
  rw [update, hmap]
  refine extend_eq_self c i (fun k hk => ?_)
  rcases isSome_iff_exists.mp hk with ⟨v, hv⟩
  rw [h k v hv]
  rfl

theorem set_eq_self (h : d.get? k = some v) : d.set k v = d := by
  refine update_eq_self d (single k v) (fun k' v' hv' => ?_)
  rw [get?_single] at hv'
  split at hv'
  · rename_i hk
    rw [hk, h, hv']
  · simp only [reduceCtorEq] at hv'

theorem keys_set_of_mem {w : α} (v : α) (h : d.get? k = some w) :
    (d.set k v).keys = d.keys := by
  rw [set, update, extend_eq_self, keys_map]
  intro k' hk'
  rw [get?_single] at hk'
  split at hk'
  · rename_i heq
    rw [get?_map, heq, h]
    rfl
  · simp only [isSome_none, Bool.false_eq_true] at hk'

/-- For each field in turn, `g` reads what is stored there and says what to
    assign to it, if anything. -/
def assignEach (g : String → Option α → Except ε (Option α)) :
    List String → Dict α → Except ε (Dict α)
  | [], d => .ok d
  | field :: fields, d =>
    match g field (d.get? field) with
    | .error e => .error e
    | .ok none => assignEach g fields d
    | .ok (some v) => assignEach g fields (d.set field v)

def assigned (d : Dict α) (field : String) : Option α → Dict α
  | none => d
  | some v => d.set field v

theorem get?_assigned (d : Dict α) (field : String) (o : Option α) (k : String) :
    (d.assigned field o).get? k = if k = field then o.or (d.get? k) else d.get? k := by
  cases o with
  | none => rw [assigned, none_or, ite_self]
  | some v => rw [assigned, get?_set, some_or]

theorem assignEach_cons_ok {field : String} {d' : Dict α} :
    assignEach g (field :: fields) d = .ok d' ↔
      ∃ o, g field (d.get? field) = .ok o ∧ assignEach g fields (d.assigned field o) = .ok d' := by
  rw [assignEach]
  cases g field (d.get? field) with
  | error e => simp only [reduceCtorEq, false_and, exists_false]
  | ok o =>
    cases o with
    | none => simp only [Except.ok.injEq, exists_eq_left', assigned]
    | some v => simp only [Except.ok.injEq, exists_eq_left', assigned]

/-- Each field was assigned what `g` said of the value there before; the other
    fields are untouched. -/
theorem assignEach_get? :
    ∀ {fields : List String} {d d' : Dict α}, fields.Nodup → assignEach g fields d = .ok d' →
      ∀ k, (k ∈ fields → ∃ o, g k (d.get? k) = .ok o ∧ d'.get? k = o.or (d.get? k)) ∧
        (k ∉ fields → d'.get? k = d.get? k)
  | [], d, d', _, h, k => by
    rw [assignEach, Except.ok.injEq] at h
    rw [h]
    exact ⟨fun hk => absurd hk not_mem_nil, fun _ => rfl⟩
  | field :: fields, d, d', hnd, h, k => by
    rcases assignEach_cons_ok.mp h with ⟨o, ho, hrest⟩
    rw [nodup_cons] at hnd
    have ih := assignEach_get? hnd.2 hrest k
    by_cases hk : k = field
    · -- The fields after the first do not name it again.
      rw [ih.2 (hk ▸ hnd.1), get?_assigned, if_pos hk]
      exact ⟨fun _ => ⟨o, hk ▸ ho, rfl⟩, fun hne => absurd (hk ▸ mem_cons_self) hne⟩
    · rw [get?_assigned, if_neg hk] at ih
      refine ⟨fun hmem => ih.1 ?_, fun hne => ih.2 (fun hmem => hne (mem_cons_of_mem _ hmem))⟩
      exact (mem_cons.mp hmem).resolve_left hk

/-- The assignments succeed when each field can be assigned from the value there
    before. -/
theorem assignEach_exists :
    ∀ {fields : List String} {d : Dict α}, fields.Nodup →
      (∀ k ∈ fields, ∃ o, g k (d.get? k) = .ok o) → ∃ d', assignEach g fields d = .ok d'
  | [], d, _, _ => ⟨d, rfl⟩
  | field :: fields, d, hnd, h => by
    rw [nodup_cons] at hnd
    rcases h field mem_cons_self with ⟨o, ho⟩
    have hrest : ∀ k ∈ fields, ∃ o', g k ((d.assigned field o).get? k) = .ok o' := by
      intro k hk
      have hne : k ≠ field := fun heq => hnd.1 (heq ▸ hk)
      rw [get?_assigned, if_neg hne]
      exact h k (mem_cons_of_mem _ hk)
    rcases assignEach_exists hnd.2 hrest with ⟨d', hd'⟩
    exact ⟨d', assignEach_cons_ok.mpr ⟨o, ho, hd'⟩⟩

/-- Assigning only to fields that are present keeps the keys and their order. -/
theorem assignEach_keys (hg : ∀ k, ∀ o, g k none = .ok o → o = none) :
    ∀ {fields : List String} {d d' : Dict α}, assignEach g fields d = .ok d' → d'.keys = d.keys
  | [], d, d', h => by
    rw [assignEach, Except.ok.injEq] at h
    rw [h]
  | field :: fields, d, d', h => by
    rcases assignEach_cons_ok.mp h with ⟨o, ho, hrest⟩
    rw [assignEach_keys hg hrest]
    cases hd : d.get? field with
    | none =>
      rw [hd] at ho
      rw [hg field o ho]
      rfl
    | some w =>
      cases o with
      | none => rfl
      | some v => exact keys_set_of_mem v hd

theorem ext_get? (hk : c.keys = d.keys) (hg : ∀ k, c.get? k = d.get? k) :
    c = d := by
  refine ext_items ?_
  have aux : ∀ (l m : List (String × α)), l.map Prod.fst = m.map Prod.fst →
      (∀ kv ∈ l, ∀ kw ∈ m, kv.1 = kw.1 → kv.2 = kw.2) → l = m := by
    intro l
    induction l with
    | nil =>
      intro m hm _
      rw [map_nil] at hm
      exact (map_eq_nil_iff.mp hm.symm).symm
    | cons a l ih =>
      intro m hm hv
      cases m with
      | nil => simp only [map_cons, map_nil, reduceCtorEq] at hm
      | cons b m =>
        rw [map_cons, map_cons, cons.injEq] at hm
        have hab : a = b := Prod.ext hm.1 (hv a mem_cons_self b mem_cons_self hm.1)
        rw [hab, ih m hm.2 (fun kv hkv kw hkw =>
          hv kv (mem_cons_of_mem _ hkv) kw (mem_cons_of_mem _ hkw))]
  refine aux c.items d.items hk (fun kv hkv kw hkw heq => ?_)
  have h1 := get?_of_mem (d := c) hkv
  have h2 := get?_of_mem (d := d) hkw
  rw [heq, hg, h2, some.injEq] at h1
  exact h1.symm

/-- Where assigning to a present field succeeds exactly under a condition, and
    then with a known value, the assignments are a map. -/
theorem assignEach_eq_map {h : String → α → α} (hnone : ∀ k, g k none = .ok none)
    (hsome : ∀ k v o, g k (some v) = .ok o ↔ P k v ∧ some (h k v) = o) (hnd : fields.Nodup)
    {d' : Dict α} :
    assignEach g fields d = .ok d' ↔ (∀ k ∈ fields, ∀ v, d.get? k = some v → P k v) ∧
      d.map (fun k v => if k ∈ fields then h k v else v) = d' := by
  have value : ∀ {e}, assignEach g fields d = .ok e →
      (∀ k ∈ fields, ∀ v, d.get? k = some v → P k v) ∧
        d.map (fun k v => if k ∈ fields then h k v else v) = e := by
    intro e he
    have hget := assignEach_get? hnd he
    refine ⟨fun k hk v hv => ?_, ext_get? ?_ (fun k => ?_)⟩
    · rcases (hget k).1 hk with ⟨o, ho, _⟩
      rw [hv, hsome] at ho
      exact ho.1
    · rw [keys_map, assignEach_keys (fun k o ho => ?_) he]
      rw [hnone, Except.ok.injEq] at ho
      exact ho.symm
    · rw [get?_map]
      by_cases hk : k ∈ fields
      · rcases (hget k).1 hk with ⟨o, ho, heq⟩
        rw [heq]
        cases hv : d.get? k with
        | none =>
          rw [hv, hnone, Except.ok.injEq] at ho
          rw [← ho]
          rfl
        | some v =>
          rw [hv, hsome] at ho
          rw [← ho.2, map_some, if_pos hk]
          rfl
      · rw [(hget k).2 hk]
        simp only [hk, if_false, Option.map_id']
  constructor
  · exact value
  · rintro ⟨hP, rfl⟩
    rcases assignEach_exists (g := g) (d := d) hnd (fun k hk => by
      cases hv : d.get? k with
      | none => exact ⟨none, hnone k⟩
      | some v => exact ⟨some (h k v), (hsome k v _).mpr ⟨hP k hk v hv, rfl⟩⟩) with ⟨e, he⟩
    rw [he, (value he).2]

def assignAll (g : String → α) (fields : List String) (d : Dict α) : Dict α :=
  fields.foldl (fun d k => d.set k (g k)) d

@[simp] theorem assignAll_nil (g : String → α) (d : Dict α) : assignAll g [] d = d := rfl

theorem assignAll_cons (g : String → α) (k : String) (fields : List String) (d : Dict α) :
    assignAll g (k :: fields) d = assignAll g fields (d.set k (g k)) := rfl

theorem assignAll_append (g : String → α) (xs ys : List String) (d : Dict α) :
    assignAll g (xs ++ ys) d = assignAll g ys (assignAll g xs d) := foldl_append

theorem assignAll_congr {g h : String → α} : ∀ {fields : List String} {d : Dict α},
    (∀ k ∈ fields, g k = h k) → assignAll g fields d = assignAll h fields d
  | [], _, _ => rfl
  | k :: fields, d, hgh => by
    rw [assignAll_cons, assignAll_cons, hgh k mem_cons_self]
    exact assignAll_congr (fun k' hk' => hgh k' (mem_cons_of_mem _ hk'))

theorem get?_assignAll (g : String → α) : ∀ (fields : List String) (d : Dict α) (k : String),
    (assignAll g fields d).get? k = if k ∈ fields then some (g k) else d.get? k
  | [], d, k => by
    rw [assignAll_nil, if_neg not_mem_nil]
  | field :: fields, d, k => by
    rw [assignAll_cons, get?_assignAll g fields, get?_set]
    by_cases hk : k = field
    · subst hk
      rw [if_pos rfl, if_pos mem_cons_self, ite_self]
    · simp only [mem_cons, hk, false_or, if_false]

/-- Assigning to fields that are present keeps the keys and their order. -/
theorem keys_assignAll {g : String → α} : ∀ {fields : List String} {d : Dict α},
    (∀ k ∈ fields, (d.get? k).isSome) → (assignAll g fields d).keys = d.keys
  | [], _, _ => rfl
  | field :: fields, d, h => by
    rcases isSome_iff_exists.mp (h field mem_cons_self) with ⟨w, hw⟩
    rw [assignAll_cons, keys_assignAll (fun k hk => ?_), keys_set_of_mem _ hw]
    rw [get?_set]
    split
    · rfl
    · exact h k (mem_cons_of_mem _ hk)

theorem items_set_new (v : α) (h : d.get? k = none) :
    (d.set k v).items = d.items ++ [(k, v)] := by
  have hmap : d.map (fun k' w => ((single k v).get? k').getD w) = d := by
    refine map_eq_self d _ (fun k' w hw => ?_)
    have hne : k' ≠ k := by
      intro heq
      rw [heq, h] at hw
      simp only [reduceCtorEq] at hw
    rw [get?_single, if_neg hne]
    rfl
  have hmiss : d.has k = false := by
    rw [has, h]
    rfl
  rw [set, update, hmap]
  simp only [extend, single, filter_cons, hmiss, Bool.not_false, if_true, filter_nil]

theorem has_set (d : Dict α) (k : String) (v : α) (h : k' ≠ k) :
    (d.set k v).has k' = d.has k' := by
  rw [has, has, get?_set_ne d v h]

/-- Assigning to fields what they hold already, or what they lack, adds the
    lacking ones at the end. -/
theorem items_assignAll {g : String → α} : ∀ {fields : List String} {d : Dict α}, fields.Nodup →
    (∀ k ∈ fields, ∀ w, d.get? k = some w → g k = w) →
    (assignAll g fields d).items =
      d.items ++ (fields.filter (fun k => !d.has k)).map (fun k => (k, g k))
  | [], d, _, _ => (append_nil d.items).symm
  | field :: fields, d, hnd, h => by
    rw [nodup_cons] at hnd
    rw [forall_mem_cons] at h
    rw [assignAll_cons, filter_cons]
    cases hd : d.get? field with
    | some w =>
      have hhas : d.has field = true := by
        rw [has, hd]
        rfl
      rw [set_eq_self (hd.trans (congrArg some (h.1 w hd).symm)), items_assignAll hnd.2 h.2, hhas]
      rfl
    | none =>
      have hhas : d.has field = false := by
        rw [has, hd]
        rfl
      have hne : ∀ k ∈ fields, k ≠ field := fun k hk heq => hnd.1 (heq ▸ hk)
      have hsame : fields.filter (fun k => !(d.set field (g field)).has k) =
          fields.filter (fun k => !d.has k) :=
        filter_congr (fun k hk => by rw [has_set d field _ (hne k hk)])
      rw [items_assignAll hnd.2 (fun k hk w hw => h.2 k hk w (by
          rw [← get?_set_ne d (g field) (hne k hk)]
          exact hw)),
        hsame, items_set_new _ hd, hhas, append_assoc]
      rfl

/-- Where assigning succeeds exactly under a condition, and then with a known
    value, whatever was stored before. -/
theorem assignEach_eq_assignAll {f : String → Except ε α} {P : String → Prop} {g : String → α}
    (hf : ∀ k w, f k = .ok w ↔ P k ∧ g k = w) : ∀ {fields : List String} {d d' : Dict α},
    assignEach (fun k _ => some <$> f k) fields d = .ok d' ↔
      (∀ k ∈ fields, P k) ∧ assignAll g fields d = d'
  | [], d, d' => by
    simp only [assignEach, Except.ok.injEq, not_mem_nil, false_implies, implies_true,
      assignAll_nil, true_and]
  | field :: fields, d, d' => by
    rw [assignEach_cons_ok, forall_mem_cons, assignAll_cons]
    constructor
    · rintro ⟨o, ho, hrest⟩
      cases hv : f field with
      | error e =>
        rw [hv] at ho
        exact absurd (show Except.error e = Except.ok o from ho) (by
          simp only [reduceCtorEq, not_false_eq_true])
      | ok v =>
        rcases (hf field v).mp hv with ⟨hP, rfl⟩
        rw [hv] at ho
        have hov : some (g field) = o := Except.ok.inj ho
        subst hov
        rcases (assignEach_eq_assignAll hf).mp hrest with ⟨hPs, hd'⟩
        exact ⟨⟨hP, hPs⟩, hd'⟩
    · rintro ⟨⟨hP, hPs⟩, hd'⟩
      refine ⟨some (g field), ?_, (assignEach_eq_assignAll hf).mpr ⟨hPs, hd'⟩⟩
      rw [(hf field _).mpr ⟨hP, rfl⟩]
      rfl

/-- The items of a traversal, in order, or the first failure. -/
def traverseItems (f : String → α → Except ε β) : List (String × α) → Except ε (List (String × β))
  | [] => .ok []
  | (k, v) :: l =>
    match f k v with
    | .error e => .error e
    | .ok w =>
      match traverseItems f l with
      | .error e => .error e
      | .ok ws => .ok ((k, w) :: ws)

theorem traverseItems_cons_ok {l : List (String × α)} {ws : List (String × β)}
    (h : traverseItems f ((k, v) :: l) = .ok ws) :
    ∃ w ws', f k v = .ok w ∧ traverseItems f l = .ok ws' ∧ ws = (k, w) :: ws' := by
  simp only [traverseItems] at h
  cases hf : f k v with
  | error e => rw [hf] at h; simp only [reduceCtorEq] at h
  | ok w =>
    rw [hf] at h
    cases hl : traverseItems f l with
    | error e => rw [hl] at h; simp only [reduceCtorEq] at h
    | ok ws' =>
      rw [hl] at h
      simp only [Except.ok.injEq] at h
      exact ⟨w, ws', rfl, rfl, h.symm⟩

theorem traverseItems_keys (f : String → α → Except ε β) :
    ∀ {l : List (String × α)} {ws : List (String × β)}, traverseItems f l = .ok ws →
      ws.map Prod.fst = l.map Prod.fst
  | [], ws, h => by
    simp only [traverseItems, Except.ok.injEq] at h
    rw [← h]
    rfl
  | (k, v) :: l, ws, h => by
    rcases traverseItems_cons_ok h with ⟨w, ws', _, hl, rfl⟩
    rw [map_cons, map_cons, traverseItems_keys f hl]

theorem traverseItems_lookup (f : String → α → Except ε β) :
    ∀ {l : List (String × α)} {ws : List (String × β)}, traverseItems f l = .ok ws →
      ∀ (k : String), (l.lookup k = none ∧ ws.lookup k = none) ∨
        ∃ v w, l.lookup k = some v ∧ f k v = .ok w ∧ ws.lookup k = some w
  | [], ws, h, k => by
    simp only [traverseItems, Except.ok.injEq] at h
    rw [← h]
    exact Or.inl ⟨rfl, rfl⟩
  | (k', v') :: l, ws, h, k => by
    rcases traverseItems_cons_ok h with ⟨w, ws', hf, hl, rfl⟩
    rw [lookup_cons, lookup_cons]
    cases hk : (k == k') with
    | true => exact Or.inr ⟨v', w, rfl, by rw [beq_iff_eq.mp hk]; exact hf, rfl⟩
    | false => exact traverseItems_lookup f hl k

theorem traverseItems_ok (f : String → α → Except ε β) :
    ∀ {l : List (String × α)}, (∀ kv ∈ l, ∃ w, f kv.1 kv.2 = .ok w) →
      ∃ ws, traverseItems f l = .ok ws
  | [], _ => ⟨[], rfl⟩
  | (k, v) :: l, h => by
    rcases h (k, v) mem_cons_self with ⟨w, hw⟩
    rcases traverseItems_ok f (fun kv hkv => h kv (mem_cons_of_mem _ hkv)) with ⟨ws, hws⟩
    exact ⟨(k, w) :: ws, by simp only [traverseItems, hw, hws]⟩

/-- Where a step succeeds exactly under a condition, and then with a known
    value, a traversal is a map. -/
theorem traverseItems_eq_map {g : String → α → β}
    (hf : ∀ k v w, f k v = .ok w ↔ P k v ∧ g k v = w) :
    ∀ {l : List (String × α)} {ws : List (String × β)}, traverseItems f l = .ok ws ↔
      (∀ kv ∈ l, P kv.1 kv.2) ∧ l.map (fun kv => (kv.1, g kv.1 kv.2)) = ws
  | [], ws => by
    simp only [traverseItems, Except.ok.injEq, not_mem_nil, false_implies, implies_true,
      map_nil, true_and]
  | (k, v) :: l, ws => by
    rw [forall_mem_cons, map_cons]
    constructor
    · intro h
      rcases traverseItems_cons_ok h with ⟨w, ws', hw, hl, rfl⟩
      rcases (hf k v w).mp hw with ⟨hP, rfl⟩
      rcases (traverseItems_eq_map hf).mp hl with ⟨hPs, rfl⟩
      exact ⟨⟨hP, hPs⟩, rfl⟩
    · rintro ⟨⟨hP, hPs⟩, rfl⟩
      have hv := (hf k v _).mpr ⟨hP, rfl⟩
      have hl := (traverseItems_eq_map hf (l := l)).mpr ⟨hPs, rfl⟩
      simp only [traverseItems, hv, hl]

/-- Rewrite every value in order; the first failure is the result. -/
def traverse (f : String → α → Except ε β) (d : Dict α) : Except ε (Dict β) :=
  match h : traverseItems f d.items with
  | .error e => .error e
  | .ok ws => .ok ⟨ws, (traverseItems_keys f h).symm ▸ d.nodup⟩

theorem traverse_items (h : d.traverse f = .ok d') : traverseItems f d.items = .ok d'.items := by
  unfold traverse at h
  split at h
  · simp only [reduceCtorEq] at h
  · rename_i ws hws
    simp only [Except.ok.injEq] at h
    rw [hws, ← h]

theorem traverse_of_items (h : traverseItems f d.items = .ok d'.items) : d.traverse f = .ok d' := by
  unfold traverse
  split
  · rename_i e he
    rw [h] at he
    simp only [reduceCtorEq] at he
  · rename_i ws hws
    rw [h, Except.ok.injEq] at hws
    subst hws
    rfl

theorem traverse_eq_map {g : String → α → β} (hf : ∀ k v w, f k v = .ok w ↔ P k v ∧ g k v = w) :
    d.traverse f = .ok d' ↔ (∀ k v, d.get? k = some v → P k v) ∧ d.map g = d' := by
  constructor
  · intro h
    rcases (traverseItems_eq_map hf).mp (traverse_items h) with ⟨hP, hmap⟩
    exact ⟨fun k v hv => hP (k, v) (get?_mem hv), ext_items hmap⟩
  · rintro ⟨hP, rfl⟩
    exact traverse_of_items ((traverseItems_eq_map hf).mpr
      ⟨fun kv hkv => hP kv.1 kv.2 (get?_of_mem hkv), rfl⟩)

theorem traverse_keys (h : d.traverse f = .ok d') : d'.keys = d.keys :=
  traverseItems_keys f (traverse_items h)

theorem traverse_get? (h : d.traverse f = .ok d') (k : String) :
    (d.get? k = none ∧ d'.get? k = none) ∨
      ∃ v w, d.get? k = some v ∧ f k v = .ok w ∧ d'.get? k = some w :=
  traverseItems_lookup f (traverse_items h) k

theorem traverse_ok (f : String → α → Except ε β) (d : Dict α)
    (h : ∀ k v, d.get? k = some v → ∃ w, f k v = .ok w) : ∃ d', d.traverse f = .ok d' := by
  rcases traverseItems_ok f (l := d.items) (fun kv hkv => h kv.1 kv.2 (get?_of_mem hkv)) with
    ⟨ws, hws⟩
  exact ⟨⟨ws, (traverseItems_keys f hws).symm ▸ d.nodup⟩, traverse_of_items hws⟩

end Dict

end Apex
