import Apex.Theory.OutputReview.Reviews

/-!
# Room for a Discussion

The gate and the reducers refuse what is too large or looks like a credential, and
a refused update ends the run of the graph. A review with short texts is far from
those bounds: whatever has been discussed before, there is room in the entry and in
the dialogue for another discussion, as long as the limit of the plan allows it.

What can be refused is said by sizes and by the texts alone, so values are put
together from parts whose sizes are known.

## Main definitions

* `Plain`: Patterns that leave texts alone.
* `Small`: A value of a bounded size that nothing objects to.
-/

namespace Apex.Graphs

open List
open Domain

/-- The names of the fields of results, records and turns. -/
def plainFields : List String :=
  ["phase", "status", "attempt", "started_at", "ended_at", "duration_s", "summary",
    "reasoning_digest", "transcript_ref", "artifact_ids", "warnings", "errors", "approvals",
    "tool_calls", "resolved_prompt_source", "id", "gate", "action", "actor", "at", "note", "role",
    "content"]

/-- Patterns that leave texts alone and do not take the fields for credentials. -/
structure Plain (rules : CredentialRules) : Prop where
  text : ∀ s, rules.redactCredentials s = s
  field : ∀ k ∈ plainFields, rules.isCredentialField k = false

def ShortText (s : String) : Prop := (1 ≤ s.length ∧ s.length ≤ 64) ∧ hasNul s = false

/-- A value of at most a number of values and of characters, of at most a depth,
    that nothing objects to. -/
structure Small (rules : CredentialRules) (nodes chars depth : Nat) (v : Json) : Prop where
  nodes : v.nodes ≤ nodes
  chars : v.chars ≤ chars
  shape : ∀ d, d + depth ≤ 8 → v.everyAt (reducerShape 50000) d = true
  content : ∀ lim : ScanLimits, 64 ≤ lim.maxKeyChars → 64 ≤ lim.maxStringChars →
    contentOk rules lim v = true

section Small

variable {rules : CredentialRules}

theorem short_field : ∀ k ∈ plainFields, k.length ≤ 22 ∧ hasNul k = false := by decide

theorem keyOk_plain (hr : Plain rules) {k : String} (hk : k ∈ plainFields) {limit : Nat}
    (hlimit : 64 ≤ limit) : keyOk rules limit k = true := by
  rcases short_field k hk with ⟨hlen, hnul⟩
  rw [keyOk, textOk_of_untouched rules (by omega) hnul (hr.text k), hr.field k hk]
  rfl

variable {c d n : Nat}

theorem small_null (hn : 1 ≤ n) : Small rules n c d .null where
  nodes := hn
  chars := Nat.zero_le _
  shape d' hd := by
    change decide (d' ≤ 8) = true
    exact decide_eq_true (by omega)
  content _ _ _ := rfl

theorem small_int {i : Int} (hi : bitLength i ≤ 256) : Small rules 1 0 0 (.int i) where
  nodes := Nat.le_refl _
  chars := Nat.le_refl _
  shape d hd := by
    rw [Json.everyAt, reducerShape, decide_eq_true hi, decide_eq_true (by omega : d ≤ 8)]
    rfl
  content _ _ _ := rfl

theorem small_str (hr : Plain rules) {s : String} (hs : ShortText s) :
    Small rules 1 64 0 (.str s) where
  nodes := Nat.le_refl _
  chars := hs.1.2
  shape d hd := by
    rw [Json.everyAt, reducerShape, hs.2,
      decide_eq_true (Nat.le_trans hs.1.2 (by decide) : s.length ≤ 50000),
      decide_eq_true (by omega : d ≤ 8)]
    rfl
  content lim _ hlim := by
    rw [contentOk_eq]
    exact ⟨textOk_of_untouched rules (Nat.le_trans hs.1.2 hlim) hs.2 (hr.text s),
      fun c hc => absurd hc not_mem_nil⟩

theorem small_list {xs : List Json} (hlen : xs.length ≤ 256) (h : ∀ x ∈ xs, Small rules n c d x) :
    Small rules (1 + xs.length * n) (xs.length * c) (d + 1) (.list xs) where
  nodes := by
    rw [Json.nodes, Json.nodesList_eq]
    have := sum_le_card_nsmul (xs.map Json.nodes) n
      (List.forall_mem_map.mpr (fun x hx => (h x hx).nodes))
    rw [List.length_map, Nat.nsmul_eq_mul] at this
    omega
  chars := by
    rw [Json.chars, Json.charsList_eq]
    have := sum_le_card_nsmul (xs.map Json.chars) c
      (List.forall_mem_map.mpr (fun x hx => (h x hx).chars))
    rw [List.length_map, Nat.nsmul_eq_mul] at this
    exact this
  shape d' hd := by
    rw [everyAt_list, reducerShape_list]
    exact ⟨⟨by omega, hlen⟩, fun x hx => (h x hx).shape _ (by omega)⟩
  content lim hk hs := by
    rw [contentOk_list]
    exact fun x hx => (h x hx).content lim hk hs

variable {v : Json} {items : List (String × Json)}

theorem Small.mono {n' c' d' : Nat} (h : Small rules n c d v) (hn : n ≤ n') (hc : c ≤ c')
    (hd : d ≤ d') : Small rules n' c' d' v :=
  ⟨Nat.le_trans h.nodes hn, Nat.le_trans h.chars hc, fun d'' hd'' => h.shape d'' (by omega),
    h.content⟩

theorem items_dictOf (h : (items.map Prod.fst).Nodup) :
    (dictOf items).items = items := by
  have hfold : ∀ (items : List (String × Json)) (d : Dict Json),
      (d.keys ++ items.map Prod.fst).Nodup →
        (items.foldl (fun d item => d.set item.1 item.2) d).items = d.items ++ items := by
    intro items
    induction items with
    | nil => exact fun d _ => (append_nil _).symm
    | cons item items ih =>
      intro d hd
      have hnew : d.get? item.1 = none := by
        rw [Dict.get?_eq_none_iff]
        intro hmem
        exact (nodup_append.mp hd).2.2 _ hmem _ mem_cons_self rfl
      have hitems := Dict.items_set_new item.2 hnew
      rw [foldl_cons, ih, hitems, append_assoc, singleton_append]
      rw [Dict.keys, hitems, map_append, append_assoc]
      exact hd
  exact hfold items ∅ h

theorem small_dictOf (hr : Plain rules) (keys : List String) (hkeys : items.map Prod.fst = keys)
    (hnd : keys.Nodup) (hfields : ∀ k ∈ keys, k ∈ plainFields) {N C : String → Nat}
    (h : ∀ kv ∈ items, Small rules (N kv.1) (C kv.1) d kv.2) :
    Small rules (1 + (keys.map N).sum) ((keys.map (fun k => k.length + C k)).sum) (d + 1)
      (.ofDict (dictOf items)) := by
  have hitems : (dictOf items).items = items := items_dictOf (hkeys ▸ hnd)
  have hget : ∀ k v, (dictOf items).get? k = some v → k ∈ plainFields ∧
      Small rules (N k) (C k) d v := by
    intro k v hv
    have hmem := Dict.get?_mem hv
    rw [hitems] at hmem
    exact ⟨hfields k (hkeys ▸ List.mem_map_of_mem hmem), h (k, v) hmem⟩
  have hlen : (dictOf items).length ≤ 128 := by
    have hle := (hnd.subperm (fun k hk => hfields k hk)).length_le
    rw [Dict.length, hitems, ← List.length_map (f := Prod.fst), hkeys]
    exact Nat.le_trans hle (by decide)
  refine ⟨?_, ?_, fun d' hd => ?_, fun lim hk hs => ?_⟩
  · rw [Json.ofDict, hitems, Json.nodes, Json.nodesItems_eq, ← hkeys, List.map_map]
    exact Nat.add_le_add_left (sum_le_sum (fun kv hkv => (h kv hkv).nodes)) 1
  · rw [Json.ofDict, hitems, Json.chars, Json.charsItems_eq, ← hkeys, List.map_map]
    exact sum_le_sum (fun kv hkv => Nat.add_le_add_left (h kv hkv).chars _)
  · rw [everyAt_ofDict, reducerShape_ofDict]
    exact ⟨⟨by omega, hlen⟩, fun k v hv => (hget k v hv).2.shape _ (by omega)⟩
  · rw [contentOk_ofDict]
    exact fun k v hv => ⟨keyOk_plain hr (hget k v hv).1 hk, (hget k v hv).2.content lim hk hs⟩

theorem Small.silent (h : Small rules n c d v) {lim : ScanLimits} (hn : n ≤ lim.maxNodes)
    (hc : c ≤ lim.maxTotalChars) (hk : 64 ≤ lim.maxKeyChars)
    (hs : 64 ≤ lim.maxStringChars) : containsCredentialMaterial rules lim v = false := by
  rw [containsCredentialMaterial_eq_false]
  exact ⟨Nat.le_trans h.nodes hn, Nat.le_trans h.chars hc, h.content lim hk hs⟩

end Small

variable {k : Nat} {n : Int}

theorem digit_ne_nul {c : Char} (h : c ∈ Nat.toDigits 10 k) : c ≠ Char.ofNat 0 := by
  rintro rfl
  exact absurd (Nat.isDigit_of_mem_toDigits (by decide) (by decide) h) (by decide)

theorem length_digits_le {m : Nat} (hm : 0 < m) (h : k < 10 ^ m) :
    (Nat.toDigits 10 k).length ≤ m :=
  (Nat.length_toDigits_le_iff (by decide) hm).mpr h

variable {cs : List Char}

theorem short_of_toList {s : String} (h : s.toList = cs) (hlen : 1 ≤ cs.length ∧ cs.length ≤ 64)
    (hnul : ∀ c ∈ cs, c ≠ Char.ofNat 0) : ShortText s := by
  refine ⟨?_, ?_⟩
  · rw [← String.length_toList, h]
    exact hlen
  · rw [hasNul, h, List.any_eq_false]
    exact fun c hc heq => hnul c hc (beq_iff_eq.mp heq)

def nulFree (cs : List Char) : Bool := cs.all (· != Char.ofNat 0)

theorem nulFree_iff : nulFree cs = true ↔ ∀ c ∈ cs, c ≠ Char.ofNat 0 := by
  rw [nulFree, List.all_eq_true]
  simp only [bne_iff_ne]

theorem short_phase (p : Phase) : p.value.toList.length ≤ 15 ∧
    ∀ c ∈ p.value.toList, c ≠ Char.ofNat 0 := by
  have h : p.value.toList.length ≤ 15 ∧ nulFree p.value.toList = true := by cases p <;> decide
  exact ⟨h.1, nulFree_iff.mp h.2⟩

theorem short_attemptPrefix (p : Phase) (hn : n ≤ 1000000) (cs : List Char) (hlen : cs.length ≤ 38)
    (hnul : ∀ c ∈ cs, c ≠ Char.ofNat 0) :
    (1 ≤ (p.value.toList ++ '-' :: 'a' :: (Nat.toDigits 10 n.toNat ++ '-' :: cs)).length ∧
      (p.value.toList ++ '-' :: 'a' :: (Nat.toDigits 10 n.toNat ++ '-' :: cs)).length ≤ 64) ∧
      ∀ c ∈ p.value.toList ++ '-' :: 'a' :: (Nat.toDigits 10 n.toNat ++ '-' :: cs),
        c ≠ Char.ofNat 0 := by
  rcases short_phase p with ⟨hphase, hphaseNul⟩
  have hdigits : (Nat.toDigits 10 n.toNat).length ≤ 7 := length_digits_le (by decide) (by omega)
  refine ⟨?_, fun c hc => ?_⟩
  · simp only [length_append, length_cons]
    exact ⟨by omega, by omega⟩
  · simp only [mem_append, mem_cons] at hc
    rcases hc with hc | rfl | rfl | hc | rfl | hc
    · exact hphaseNul c hc
    · decide
    · decide
    · exact digit_ne_nul hc
    · decide
    · exact hnul c hc

theorem short_dialogueId (p : Phase) (hn : 1 ≤ n) (hn' : n ≤ 1000000) {i : Nat} (hi : i < 1000)
    {role : String} (hrole : role ∈ ["operator", "agent"]) :
    ShortText (dialogueId p n i role) := by
  have hroles : ∀ role ∈ ["operator", "agent"], role.toList.length ≤ 8 ∧
      nulFree role.toList = true := by decide
  rcases hroles role hrole with ⟨hlen, hfree⟩
  have hnul := nulFree_iff.mp hfree
  have hdigits : (Nat.toDigits 10 i).length ≤ 3 := length_digits_le (by decide) hi
  have hshort := short_attemptPrefix p hn' ('d' :: (Nat.toDigits 10 i ++ '-' :: role.toList))
    (by simp only [length_append, length_cons]; omega) (fun c hc => by
      simp only [mem_append, mem_cons] at hc
      rcases hc with rfl | hc | rfl | hc
      · decide
      · exact digit_ne_nul hc
      · decide
      · exact hnul c hc)
  exact short_of_toList (toList_dialogueId p hn i role) hshort.1 hshort.2

theorem short_approvalId (p : Phase) (hn : 1 ≤ n) (hn' : n ≤ 1000000) {action : String}
    (haction : action ∈ ["approve", "discuss"]) (hk : k < 1000) :
    ShortText (approvalId p n "phase_review" action k) := by
  have hactions : ∀ action ∈ ["approve", "discuss"],
      ("phase_review".toList ++ '-' :: action.toList).length = 20 ∧
        nulFree ("phase_review".toList ++ '-' :: action.toList) = true := by decide
  rcases hactions action haction with ⟨hlen, hfree⟩
  have hnames := nulFree_iff.mp hfree
  have hdigits : (Nat.toDigits 10 k).length ≤ 3 := length_digits_le (by decide) hk
  have htail : (sequenceChars k).length ≤ 5 ∧ ∀ c ∈ sequenceChars k, c ≠ Char.ofNat 0 := by
    rw [sequenceChars]
    split
    · exact ⟨Nat.zero_le _, fun c hc => absurd hc not_mem_nil⟩
    · refine ⟨by simp only [length_cons]; omega, fun c hc => ?_⟩
      simp only [mem_cons] at hc
      rcases hc with rfl | rfl | hc
      · decide
      · decide
      · exact digit_ne_nul hc
  have hsplit : "phase_review".toList ++ '-' :: (action.toList ++ sequenceChars k) =
      ("phase_review".toList ++ '-' :: action.toList) ++ sequenceChars k := by
    rw [append_assoc, cons_append]
  have hshort := short_attemptPrefix p hn'
    ("phase_review".toList ++ '-' :: (action.toList ++ sequenceChars k))
    (by rw [hsplit, length_append, hlen]; omega) (fun c hc => by
      rw [hsplit, mem_append] at hc
      exact hc.elim (hnames c) (htail.2 c))
  exact short_of_toList (toList_approvalId p hn "phase_review" action k) hshort.1 hshort.2

section Records

variable {env : GateEnv}

theorem validId_short {id : String} (h : ShortText id) : validId id = true := by
  rw [validId, h.2, decide_eq_true h.1.1,
    decide_eq_true (Nat.le_trans h.1.2 (by decide) : id.length ≤ 256)]
  rfl

theorem silentText_short (hr : Plain env.rules) {s : String} (h : ShortText s) :
    silentText env s = true := by
  rw [silentText, (small_str hr h).silent (by decide) (by decide) (by decide) (by decide)]
  rfl

variable {n : Int}

theorem bitLength_attempt (hn : 1 ≤ n) (hn' : n ≤ 1000000) : bitLength n ≤ 256 := by
  rw [bitLength, Nat.size_le]
  exact Nat.lt_of_le_of_lt (by omega : n.natAbs ≤ 1000000) (by decide)

/-- The record of a decision of the output review. -/
def reviewRecord (p : Phase) (n : Int) (action : String) (k : Nat) (actor time : String)
    (note : Option String) : Dict Json :=
  dictOf [("id", .str (approvalId p n "phase_review" action k)), ("gate", .str "phase_review"),
    ("action", .str action), ("actor", .str actor), ("at", .str time),
    ("note", (note.map Json.str).getD .null)]

def turnRecord (p : Phase) (n : Int) (i : Nat) (role content time : String) : Dict Json :=
  dictOf [("id", .str (dialogueId p n i role)), ("phase", .str p.value), ("attempt", .int n),
    ("role", .str role), ("content", .str content), ("at", .str time)]

variable {action actor content role time : String} {i : Nat}

section

variable (hr : Plain env.rules) (p : Phase) (hn : 1 ≤ n) (hn' : n ≤ 1000000)

include hr p hn hn'

theorem makeApproval_review
    (haction : action ∈ ["approve", "discuss"]) {k : Nat} (hk : k < 1000) (time : String)
    (note : Option String) (ha : ShortText actor) (hnote : ∀ s ∈ note, ShortText s) :
    makeApproval env p n "phase_review" action actor time note k =
      .ok (reviewRecord p n action k actor time note) := by
  have hid := validId_short (short_approvalId p hn hn' haction hk)
  have hgate : (["prompt_review", "phase_review", "human_completion"].contains "phase_review") =
      true := by decide
  have hactions : ∀ action ∈ ["approve", "discuss"],
      (hasNul action || action.length < 1 || 32 < action.length) = false := by decide
  have hactor : (hasNul actor || decide (actor.length < 1) || decide (255 < actor.length)
      || !silentText env actor) = false := by
    rw [ha.2, silentText_short hr ha, decide_eq_false (Nat.not_lt.mpr ha.1.1),
      decide_eq_false (Nat.not_lt.mpr (Nat.le_trans ha.1.2 (by decide)))]
    rfl
  have htext : (note.any (fun s => hasNul s || decide (maxGateDecisionTextChars < s.length)
      || !silentText env s)) = false := by
    cases note with
    | none => rfl
    | some s =>
      have hs := hnote s rfl
      rw [Option.any_some, hs.2, silentText_short hr hs,
        decide_eq_false (Nat.not_lt.mpr (Nat.le_trans hs.1.2 (by decide)))]
      rfl
  simp only [makeApproval, approvalRecord, bind_ok, raiseIf_ok, pure_ok, exists_const]
  exact ⟨by rw [hid]; rfl, by rw [hgate]; rfl, hactions action haction, hactor, htext, rfl⟩

theorem dialogueEntry_turn
    (hi : i < 1000) (hrole : role ∈ ["operator", "agent"]) (time : String)
    (hc : ShortText content) :
    dialogueEntry env p n i role content time = .ok (turnRecord p n i role content time) := by
  have hid := validId_short (short_dialogueId p hn hn' hi hrole)
  have hroles : ["operator", "agent"].contains role = true := contains_iff_mem.mpr hrole
  have hattempt : (decide (n < 1) || decide (1000000 < n)) = false := by
    rw [decide_eq_false (by omega : ¬ n < 1), decide_eq_false (by omega : ¬ 1000000 < n)]
    rfl
  have htext : (hasNul content || decide (maxGateDecisionTextChars < content.length)
      || !silentText env content) = false := by
    rw [hc.2, silentText_short hr hc,
      decide_eq_false (Nat.not_lt.mpr (Nat.le_trans hc.1.2 (by decide)))]
    rfl
  simp only [dialogueEntry, bind_ok, raiseIf_ok, pure_ok, exists_const]
  exact ⟨by rw [hid]; rfl, hattempt, by rw [hroles]; rfl, htext, rfl⟩

theorem small_reviewRecord
    (haction : action ∈ ["approve", "discuss"]) {k : Nat} (hk : k < 1000) {note : Option String}
    (ha : ShortText actor) (ht : ShortText time) (hnote : ∀ s ∈ note, ShortText s) :
    Small env.rules 7 411 1 (.ofDict (reviewRecord p n action k actor time note)) := by
  have hnames : ∀ name ∈ ["phase_review", "approve", "discuss"],
      (1 ≤ name.length ∧ name.length ≤ 64) ∧ hasNul name = false := by decide
  have hnote' : Small env.rules 1 64 0 ((note.map Json.str).getD .null) := by
    cases note with
    | none => exact small_null (Nat.le_refl _)
    | some s => exact small_str hr (hnote s rfl)
  refine (small_dictOf hr ["id", "gate", "action", "actor", "at", "note"] rfl (by decide)
    (by decide) (N := fun _ => 1) (C := fun _ => 64) (d := 0) ?_).mono (by decide) (by decide) (Nat.le_refl _)
  simp only [forall_mem_cons]
  exact ⟨small_str hr (short_approvalId p hn hn' haction hk), small_str hr (hnames _ mem_cons_self),
    small_str hr (hnames _ (mem_cons_of_mem _ haction)), small_str hr ha, small_str hr ht,
    hnote', fun _ h => absurd h not_mem_nil⟩

theorem small_turnRecord
    (hi : i < 1000) (hrole : role ∈ ["operator", "agent"]) (hc : ShortText content)
    (ht : ShortText time) : Small env.rules 7 411 1 (.ofDict (turnRecord p n i role content time)) := by
  have hphase : ShortText p.value := by
    unfold ShortText
    cases p <;> decide
  have hroles : ∀ role ∈ ["operator", "agent"], (1 ≤ role.length ∧ role.length ≤ 64) ∧
      hasNul role = false := by decide
  refine (small_dictOf hr ["id", "phase", "attempt", "role", "content", "at"] rfl (by decide)
    (by decide) (N := fun _ => 1) (C := fun _ => 64) (d := 0) ?_).mono (by decide) (by decide) (Nat.le_refl _)
  simp only [forall_mem_cons]
  exact ⟨small_str hr (short_dialogueId p hn hn' hi hrole), small_str hr hphase,
    (small_int (bitLength_attempt hn hn')).mono (Nat.le_refl _) (Nat.zero_le _) (Nat.le_refl _),
    small_str hr (hroles role hrole), small_str hr hc, small_str hr ht,
    fun _ h => absurd h not_mem_nil⟩

end

theorem Small.recordOk {raw : Json} (h : Small env.rules 7 411 1 raw) :
    RecordOk env.toReducerEnv raw where
  shape := h.shape 0 (by decide)
  nodes := Nat.le_trans h.nodes (by decide)
  chars := Nat.le_trans h.chars (by decide)
  content := h.content _ (by decide) (by decide)

end Records

end Apex.Graphs
