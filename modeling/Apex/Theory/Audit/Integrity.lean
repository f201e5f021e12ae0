import Apex.Theory.Audit.Retention

/-!
# The Integrity Of The Audit Chain

Appends and prunes, one after the other since they hold the lock, and exports whose
pages are read in between. What was written and deleted is recorded beside the table.

Whatever happens, the table is a linked block: a prune takes rows off the front, and an
append goes on where the block ends. If it ends nowhere, because a prune that keeps no
anchor took everything, the next append begins a new chain with the first number. As
long as no prune does that, all that was ever written is one chain, of which the table
is the rest.

## Main definitions

* `AuditAct`, `AuditSystem`, `step`: The system.
* `Whole`: What holds as long as no prune empties the chain.

## Theorems

* `audit_integrity`: Both, on every run.
* `audit_restarted`: A run on which the chain begins again.
-/

namespace Apex.Services.Audit

open List Function

variable {η ι : Type} [DecidableEq η] [DecidableEq ι]

inductive AuditAct (ι : Type) where
  | append (event : AuditEvent) (now : Instant) (nonce id : String)
  | prune (before now : Instant) (retainAnchor : Bool)
  | openExport (i : ι)
  | readPage (i : ι)

/-- The table of which an export captured its bounds, and what was deleted until then. -/
structure Capture (η : Type) where
  rows : List (AuditLog η)
  deleted : List (AuditLog η)

/-- The table and the exports; what was written and deleted, and what each export captured. -/
structure AuditSystem (η ι : Type) where
  table : List (AuditLog η)
  exports : ι → ExportState η
  written : List (AuditLog η)
  deleted : List (AuditLog η)
  captured : ι → Capture η

def AuditSystem.start : AuditSystem η ι := ⟨[], fun _ => .idle, [], [], fun _ => ⟨[], []⟩⟩

/-- What an act does. What raises changes nothing. -/
def step (env : AuditEnv η) (s : AuditSystem η ι) : AuditAct ι → AuditSystem η ι
  | .append event now nonce id =>
    match append env s.table event now nonce id with
    | none => s
    | some table =>
      { s with table := table, written := s.written ++ [newRow env s.table event now nonce id] }
  | .prune before now retainAnchor =>
    match pruneBefore s.table before now retainAnchor with
    | .error _ => s
    | .ok (_, table) =>
      { s with
        table := table
        deleted := s.deleted ++
          s.table.filter fun row => !((table.map AuditLog.id).contains row.id) }
  | .openExport i =>
    { s with
      exports := update s.exports i (exportOpen s.table)
      captured := update s.captured i ⟨s.table, s.deleted⟩ }
  | .readPage i =>
    match s.exports i with
    | .reading cursor yielded =>
      { s with exports := update s.exports i (exportPage s.table cursor yielded) }
    | _ => s

def runFrom (env : AuditEnv η) : AuditSystem η ι → List (AuditAct ι) → AuditSystem η ι
  | s, [] => s
  | s, act :: acts => runFrom env (step env s act) acts

def NeverEmptied (env : AuditEnv η) : AuditSystem η ι → List (AuditAct ι) → Prop
  | _, [] => True
  | s, act :: acts =>
    (s.table ≠ [] → (step env s act).table ≠ []) ∧ NeverEmptied env (step env s act) acts

variable {env : AuditEnv η} {s : AuditSystem η ι}

/-- The rows are a linked block, and their ids are different. -/
structure Block (env : AuditEnv η) (table : List (AuditLog η)) : Prop where
  linked : ∃ previous seq, Linked env previous seq table
  ids : (table.map AuditLog.id).Nodup

variable {table written captured : List (AuditLog η)} {seq : Int}

omit [DecidableEq η] in
theorem Block.increasing (h : Block env table) :
    table.Pairwise fun a b => a.chainSeq < b.chainSeq := by
  rcases h.linked with ⟨_, _, hlinked⟩
  exact hlinked.numbered.increasing

omit [DecidableEq η] in
theorem newRow_hash (table : List (AuditLog η)) (e : AuditEvent) (now : Instant)
    (nonce id : String) :
    (newRow env table e now nonce id).eventHash = expectedHash env
      (newRow env table e now nonce id) ((chainHead table).map AuditLog.eventHash) := rfl

omit [DecidableEq η] in
theorem linked_newRow {previous : Option η} (h : Linked env previous seq table)
    (hfirst : table = [] → previous = none ∧ seq = 1) (e : AuditEvent) (now : Instant)
    (nonce id : String) :
    Linked env previous seq (table ++ [newRow env table e now nonce id]) := by
  refine (linked_append _ _ _ _).mpr ⟨h, ?_⟩
  have hhead : chainHead table = table.getLast? := by
    rw [chainHead, inOrder_eq h.numbered.increasing]
  have hhash := @newRow_hash _ env table e now nonce id
  rw [hhead] at hhash
  cases hlast : table.getLast? with
  | none =>
    have hnil := getLast?_eq_none_iff.mp hlast
    rcases hfirst hnil with ⟨rfl, rfl⟩
    subst hnil
    exact ⟨rfl, rfl, rfl, trivial⟩
  | some last =>
    have hprevious : lastHash previous table = some last.eventHash := by
      rw [lastHash, hlast]
      rfl
    rw [hlast] at hhash
    rw [hprevious]
    refine ⟨?_, ?_, hhash, trivial⟩
    · change nextChainSeq (chainHead table) = _
      rw [hhead, hlast, nextChainSeq, numbered_last h.numbered hlast]
      omega
    · change (chainHead table).map AuditLog.eventHash = _
      rw [hhead, hlast]
      rfl

theorem not_clashes_ids {row : AuditLog η} (hids : (table.map AuditLog.id).Nodup)
    (h : clashes table row = false) :
    ((table ++ [row]).map AuditLog.id).Nodup := by
  rw [map_append, nodup_append]
  refine ⟨hids, nodup_singleton _, fun id hid other hother heq => ?_⟩
  rcases List.mem_map.mp hid with ⟨old, hold, rfl⟩
  rw [mem_singleton.mp hother] at heq
  have hany := List.any_eq_false.mp h old hold
  rw [heq] at hany
  simp at hany

omit [DecidableEq η] in
theorem pruneBefore_drop {table' : List (AuditLog η)} {before now : Instant} {retainAnchor : Bool}
    {n : Nat} (h : Block env table)
    (hpruned : pruneBefore table before now retainAnchor = .ok (n, table')) :
    n = deletable (oldRows table before).length retainAnchor ∧ table' = table.drop n ∧
      before ≤ now := by
  by_cases hpast : before ≤ now
  · rw [pruneBefore_eq h.increasing hpast] at hpruned
    rcases Prod.mk.inj (Except.ok.inj hpruned) with ⟨rfl, rfl⟩
    exact ⟨rfl, rfl, hpast⟩
  · have hinvalid : validateRetentionCutoff before now = .error "before must not be in the future" :=
      if_pos (not_le.mp hpast)
    rw [pruneBefore, hinvalid] at hpruned
    cases hpruned

omit [DecidableEq η] in
theorem Block.drop (h : Block env table) (n : Nat) :
    Block env (table.drop n) := by
  constructor
  · rcases h.linked with ⟨previous, seq, hlinked⟩
    rw [← take_append_drop n table] at hlinked
    exact ⟨_, _, ((linked_append _ _ _ _).mp hlinked).2⟩
  · exact h.ids.sublist ((drop_sublist n table).map AuditLog.id)

omit [DecidableEq η] in
theorem deleted_eq (hids : (table.map AuditLog.id).Nodup) (n : Nat) :
    (table.filter fun row => !(((table.drop n).map AuditLog.id).contains row.id)) = table.take n := by
  have hsplit := take_append_drop n table
  conv_lhs => rw [← hsplit]
  rw [← hsplit, map_append, nodup_append] at hids
  rw [filter_append, filter_eq_self.mpr fun row hrow => ?_,
    filter_eq_nil_iff.mpr fun row hrow => ?_, append_nil]
  · rw [hsplit, Bool.not_eq_true, Bool.not_eq_false', contains_eq_mem, decide_eq_true_eq]
    exact List.mem_map_of_mem hrow
  · rw [hsplit, Bool.not_eq_true', contains_eq_mem, decide_eq_false_iff_not]
    intro hmem
    exact hids.2.2 row.id (List.mem_map_of_mem hrow) row.id hmem rfl

theorem Block.step (h : Block env s.table) (act : AuditAct ι) :
    Block env (step env s act).table := by
  cases act with
  | append event now nonce id =>
    simp only [Audit.step, append]
    by_cases hclash : clashes s.table (newRow env s.table event now nonce id) = true
    · rw [if_pos hclash]
      exact h
    · rw [if_neg hclash]
      refine ⟨?_, not_clashes_ids h.ids (Bool.eq_false_iff.mpr hclash)⟩
      by_cases hnil : s.table = []
      · exact ⟨none, 1, linked_newRow (hnil ▸ trivial) (fun _ => ⟨rfl, rfl⟩) ..⟩
      · rcases h.linked with ⟨previous, seq, hlinked⟩
        exact ⟨previous, seq, linked_newRow hlinked (fun heq => absurd heq hnil) ..⟩
  | prune before now retainAnchor =>
    rw [Audit.step]
    cases hpruned : pruneBefore s.table before now retainAnchor with
    | error _ => exact h
    | ok result =>
      change Block env result.2
      rw [(pruneBefore_drop h hpruned).2.1]
      exact h.drop _
  | openExport i => exact h
  | readPage i =>
    rw [Audit.step]
    cases s.exports i with
    | reading cursor yielded => exact h
    | _ => exact h

/-- What holds of a table by itself: it is accepted, a prune deletes what is announced off its
    front, and what is changed inside of it is found. -/
structure Sound (env : AuditEnv η) (table : List (AuditLog η)) : Prop where
  accepted : (verifyRows env true (inOrder table)).ok = true
  prunes : ∀ before now retainAnchor n table',
    pruneBefore table before now retainAnchor = .ok (n, table') →
      (retentionSummary table before now retainAnchor).map AuditRetentionSummary.candidates = .ok n ∧
        table' = table.drop n ∧ n ≤ table.length ∧ (∀ row ∈ table.take n, row.at < before) ∧
        pruneInMemory table before now retainAnchor = .ok (n, table') ∧
        retentionSummaryInMemory table before now retainAnchor =
          retentionSummary table before now retainAnchor
  tampering : ∀ table' truncated, Tampered table table' →
    (verifyRows env truncated (inOrder table')).ok = true →
      List.Forall₂ (SameHashed env) (inOrder table') table

theorem Block.sound (h : Block env table) (hinj : env.Injective) :
    Sound env table := by
  rcases h.linked with ⟨previous, seq, hlinked⟩
  refine ⟨?_, ?_, fun table' truncated htampered hok => tampered_rejected hinj hlinked htampered hok⟩
  · rw [inOrder_eq h.increasing]
    exact verifyRows_truncated hlinked
  · intro before now retainAnchor n table' hpruned
    rcases pruneBefore_drop h hpruned with ⟨hn, htable, hpast⟩
    have hle : n ≤ (oldRows table before).length := by
      rw [hn, deletable]
      split <;> omega
    have hlength := congrArg List.length (oldRows_append_youngRows table before)
    rw [length_append] at hlength
    refine ⟨?_, htable, by omega, fun row hrow => ?_, ?_, ?_⟩
    · rw [retentionSummary_eq h.increasing hpast, hn]
    · have htake := @take_append_of_le_length _ (oldRows table before) (youngRows table before)
        n hle
      rw [oldRows_append_youngRows] at htake
      rw [htake] at hrow
      exact oldRows_before row (mem_of_mem_take hrow)
    · rw [pruneInMemory_eq h.increasing h.ids hpast, hpruned]
    · exact retentionSummaryInMemory_eq h.increasing retainAnchor

omit [DecidableEq η] in
/-- Of two blocks from the same number whose rows a number names, the shorter one begins the
    other. -/
theorem numbered_prefix (hunique : ∀ a ∈ written, ∀ b ∈ written, a.chainSeq = b.chainSeq → a = b) :
    ∀ (rows others : List (AuditLog η)) (seq : Int), Numbered seq rows → Numbered seq others →
      (∀ row ∈ rows, row ∈ written) → (∀ row ∈ others, row ∈ written) →
      rows.length ≤ others.length → rows <+: others
  | [], others, _, _, _, _, _, _ => List.nil_prefix
  | row :: rows, [], _, _, _, _, _, hle => by simp at hle
  | row :: rows, other :: others, seq, h, h', hrows, hothers, hle => by
    have hsame : row = other := hunique row (hrows row mem_cons_self) other
      (hothers other mem_cons_self) (h.1.trans h'.1.symm)
    rw [hsame, cons_prefix_cons]
    refine ⟨rfl, numbered_prefix hunique rows others (seq + 1) h.2 h'.2
      (fun r hr => hrows r (mem_cons_of_mem _ hr))
      (fun r hr => hothers r (mem_cons_of_mem _ hr)) ?_⟩
    simpa using hle

omit [DecidableEq η] in
theorem checkPage_ok {watermark : Int} : ∀ (rows : List (AuditLog η)) (expected next : Int),
    checkPage watermark expected rows = .ok next →
      Numbered expected rows ∧ next = expected + rows.length
  | [], expected, next, h => by
    rw [checkPage] at h
    exact ⟨trivial, by rw [← Except.ok.inj h]; simp⟩
  | row :: rows, expected, next, h => by
    rw [checkPage] at h
    by_cases hseq : row.chainSeq = expected
    · rw [if_neg (not_not.mpr hseq)] at h
      have ih := checkPage_ok rows (expected + 1) next h
      refine ⟨⟨hseq, ih.1⟩, ?_⟩
      rw [ih.2, length_cons]
      omega
    · rw [if_pos hseq] at h
      exact nomatch h

/-- What an export has yielded, against the rows it captured. -/
def Reading (written captured : List (AuditLog η)) : ExportState η → Prop
  | .idle => True
  | .done yielded => yielded = captured
  | .failed _ yielded => yielded <+: captured
  | .reading cursor yielded => ∃ seq, Numbered seq captured ∧ (∀ row ∈ captured, row ∈ written) ∧
      yielded <+: captured ∧ yielded.length < captured.length ∧
      cursor.watermark = seq + captured.length - 1 ∧
      cursor.expectedChainSeq = seq + yielded.length

omit [DecidableEq η] in
theorem Reading.grown {more : List (AuditLog η)} {e : ExportState η}
    (h : Reading written captured e) : Reading (written ++ more) captured e := by
  cases e with
  | reading cursor yielded =>
    rcases h with ⟨seq, hnumbered, hmem, hrest⟩
    exact ⟨seq, hnumbered, fun row hrow => mem_append_left _ (hmem row hrow), hrest⟩
  | idle => exact h
  | done yielded => exact h
  | failed error yielded => exact h

omit [DecidableEq η] in
theorem max?_eq_getLast? (h : Numbered seq table) :
    (table.map AuditLog.chainSeq).max? = table.getLast?.map AuditLog.chainSeq := by
  cases hlast : table.getLast? with
  | none =>
    rw [getLast?_eq_none_iff.mp hlast]
    rfl
  | some last =>
    rw [Option.map_some, max?_eq_some_iff]
    refine ⟨List.mem_map_of_mem (mem_of_getLast? hlast), fun other hother => ?_⟩
    rcases List.mem_map.mp hother with ⟨row, hrow, rfl⟩
    have hbounds := h.bounds row hrow
    have hseq := numbered_last h hlast
    omega

omit [DecidableEq η] in
theorem exportOpen_reading (h : Numbered seq table) (hmem : ∀ row ∈ table, row ∈ written) :
    Reading written table (exportOpen table) := by
  cases table with
  | nil => exact rfl
  | cons row rows =>
    cases hlast : (row :: rows).getLast? with
    | none => exact absurd (getLast?_eq_none_iff.mp hlast) (cons_ne_nil _ _)
    | some last =>
      have hbounds : chainBounds (row :: rows) = (some row.chainSeq, some last.chainSeq) := by
        rw [chainBounds, min?_eq_head? h.increasing, max?_eq_getLast? h, hlast]
        rfl
      have hseq := numbered_last h hlast
      rw [exportOpen, hbounds]
      refine ⟨seq, h, hmem, List.nil_prefix, by simp, hseq, ?_⟩
      simpa using h.1

omit [DecidableEq η] in
theorem exportPage_reading {yielded : List (AuditLog η)} {cursor : ExportCursor}
    (hunique : ∀ a ∈ written, ∀ b ∈ written, a.chainSeq = b.chainSeq → a = b)
    (hmem : ∀ row ∈ table, row ∈ written) (h : Reading written captured (.reading cursor yielded)) :
    Reading written captured (exportPage table cursor yielded) := by
  rcases h with ⟨seq, hnumbered, hcaptured, hprefix, hshort, hwatermark, hexpected⟩
  rw [exportPage]
  cases hpage : checkPage cursor.watermark cursor.expectedChainSeq (pageRows table cursor) with
  | error error => exact hprefix
  | ok next =>
    rcases checkPage_ok _ _ _ hpage with ⟨hrows, hnext⟩
    rcases hprefix with ⟨rest, hrest⟩
    have hrestNumbered : Numbered cursor.expectedChainSeq rest := by
      rw [← hrest] at hnumbered
      rw [hexpected]
      exact ((numbered_append _ _ _).mp hnumbered).2
    have hlength : yielded.length + rest.length = captured.length := by
      rw [← hrest, length_append]
    have hpageMem : ∀ row ∈ pageRows table cursor, row ∈ table ∧ row.chainSeq ≤ cursor.watermark := by
      intro row hrow
      have hfilter := mem_filter.mp (mem_of_mem_take hrow)
      rw [Bool.and_eq_true, decide_eq_true_eq] at hfilter
      exact ⟨mem_inOrder.mp hfilter.1, hfilter.2.1⟩
    cases hlast : (pageRows table cursor).getLast? with
    | none =>
      simp only []
      have hnil := getLast?_eq_none_iff.mp hlast
      rw [hnil] at hnext
      rw [if_pos (by rw [hnext, hexpected, hwatermark]; simp only [length_nil]; omega)]
      exact ⟨rest, hrest⟩
    | some last =>
      have hlastSeq := numbered_last hrows hlast
      have hlastLe := (hpageMem last (mem_of_getLast? hlast)).2
      have hbegins : pageRows table cursor <+: rest :=
        numbered_prefix hunique _ _ _ hrows hrestNumbered
          (fun row hrow => hmem row (hpageMem row hrow).1)
          (fun row hrow => hcaptured row (hrest ▸ mem_append_right _ hrow)) (by omega)
      have hyielded : yielded ++ pageRows table cursor <+: captured := by
        rw [← hrest]
        exact (prefix_append_right_inj _).mpr hbegins
      have hcount : (yielded ++ pageRows table cursor).length =
          yielded.length + (pageRows table cursor).length := length_append
      simp only []
      split
      · exact ⟨rest, hrest⟩
      · split
        · exact ⟨rest, hrest⟩
        · split
          next hdone =>
            exact hyielded.eq_of_length (by omega)
          next hmore =>
            refine ⟨seq, hnumbered, hcaptured, hyielded, by omega, hwatermark, ?_⟩
            change next = seq + ((yielded ++ pageRows table cursor).length : Int)
            rw [hnext, hexpected, hcount, Int.natCast_add, Int.add_assoc]

/-- All that was written is one chain, and the table is the rest of it. -/
structure Whole (env : AuditEnv η) (s : AuditSystem η ι) : Prop where
  chain : Linked env none 1 s.written
  rest : s.written = s.deleted ++ s.table
  nonempty : s.table = [] → s.written = []
  ids : (s.table.map AuditLog.id).Nodup
  reads : ∀ i, Reading s.written (s.captured i).rows (s.exports i)
  opened : ∀ i, Linked env none 1 (s.captured i).rows → (s.captured i).deleted = []

omit [DecidableEq η] [DecidableEq ι] in
theorem whole_start : Whole env (AuditSystem.start : AuditSystem η ι) :=
  ⟨trivial, rfl, fun _ => rfl, nodup_nil, fun _ => trivial, fun _ _ => rfl⟩

omit [DecidableEq η] [DecidableEq ι] in
theorem Whole.table_linked (h : Whole env s) :
    Linked env (lastHash none s.deleted) (1 + s.deleted.length) s.table :=
  ((linked_append _ _ _ _).mp (h.rest ▸ h.chain)).2

omit [DecidableEq η] [DecidableEq ι] in
theorem Whole.block (h : Whole env s) : Block env s.table := ⟨⟨_, _, h.table_linked⟩, h.ids⟩

omit [DecidableEq η] [DecidableEq ι] in
theorem Whole.unique (h : Whole env s) :
    ∀ a ∈ s.written, ∀ b ∈ s.written, a.chainSeq = b.chainSeq → a = b :=
  numbered_same h.chain.numbered

omit [DecidableEq η] [DecidableEq ι] in
theorem Whole.undeleted (h : Whole env s) (hbegins : Linked env none 1 s.table) :
    s.deleted = [] := by
  cases htable : s.table with
  | nil =>
    have hnil := h.rest.symm.trans (h.nonempty htable)
    exact (append_eq_nil_iff.mp hnil).1
  | cons row rows =>
    have hlinked := h.table_linked
    rw [htable] at hbegins hlinked
    have hzero : (s.deleted.length : Int) = 0 := by
      have := hbegins.1
      have := hlinked.1
      omega
    exact length_eq_zero_iff.mp (by omega)

theorem Whole.step (h : Whole env s) (act : AuditAct ι)
    (hkept : s.table ≠ [] → (Audit.step env s act).table ≠ []) :
    Whole env (Audit.step env s act) := by
  cases act with
  | append event now nonce id =>
    simp only [Audit.step, append]
    by_cases hclash : clashes s.table (newRow env s.table event now nonce id) = true
    · rw [if_pos hclash]
      exact h
    · rw [if_neg hclash]
      have hids := not_clashes_ids h.ids (Bool.eq_false_iff.mpr hclash)
      have hrow := linked_newRow h.table_linked
        (fun hnil => by
          have hempty := append_eq_nil_iff.mp (h.rest.symm.trans (h.nonempty hnil))
          rw [hempty.1]
          exact ⟨rfl, rfl⟩) event now nonce id
      refine ⟨?_, ?_, fun hnil => absurd hnil (by simp), hids, fun i => (h.reads i).grown, h.opened⟩
      · change Linked env none 1 (s.written ++ [newRow env s.table event now nonce id])
        rw [h.rest, append_assoc, linked_append]
        exact ⟨((linked_append _ _ _ _).mp (h.rest ▸ h.chain)).1, hrow⟩
      · change s.written ++ [newRow env s.table event now nonce id] = _
        rw [h.rest, append_assoc]
  | prune before now retainAnchor =>
    rw [Audit.step] at hkept ⊢
    cases hpruned : pruneBefore s.table before now retainAnchor with
    | error _ => exact h
    | ok result =>
      rw [hpruned] at hkept
      rcases pruneBefore_drop h.block hpruned with ⟨_, htable, _⟩
      have hdeleted := deleted_eq h.ids result.1
      rw [← htable] at hdeleted
      refine ⟨h.chain, ?_, fun hnil => ?_, ?_, h.reads, h.opened⟩
      · change s.written = (s.deleted ++ s.table.filter fun row =>
          !((result.2.map AuditLog.id).contains row.id)) ++ result.2
        rw [hdeleted, htable, append_assoc, take_append_drop]
        exact h.rest
      · by_cases hempty : s.table = []
        · exact h.nonempty hempty
        · exact absurd hnil (hkept hempty)
      · change (result.2.map AuditLog.id).Nodup
        rw [htable]
        exact h.ids.sublist ((drop_sublist _ _).map AuditLog.id)
  | openExport i =>
    refine ⟨h.chain, h.rest, h.nonempty, h.ids, fun j => ?_, fun j => ?_⟩
    · change Reading s.written (update s.captured i _ j).rows
        (update s.exports i _ j)
      by_cases heq : j = i
      · rw [heq, update_self, update_self]
        exact exportOpen_reading h.table_linked.numbered
          fun row hrow => h.rest ▸ mem_append_right _ hrow
      · rw [update_of_ne heq, update_of_ne heq]
        exact h.reads j
    · change Linked env none 1 (update s.captured i _ j).rows →
        (update s.captured i _ j).deleted = []
      by_cases heq : j = i
      · rw [heq, update_self]
        exact h.undeleted
      · rw [update_of_ne heq]
        exact h.opened j
  | readPage i =>
    rw [Audit.step]
    cases hexport : s.exports i with
    | reading cursor yielded =>
      refine ⟨h.chain, h.rest, h.nonempty, h.ids, fun j => ?_, h.opened⟩
      change Reading s.written (s.captured j).rows (update s.exports i _ j)
      by_cases heq : j = i
      · rw [heq, update_self]
        refine exportPage_reading h.unique (fun row hrow => h.rest ▸ mem_append_right _ hrow) ?_
        rw [← hexport]
        exact h.reads i
      · rw [update_of_ne heq]
        exact h.reads j
    | _ => exact h

theorem runFrom_block : ∀ (acts : List (AuditAct ι)) (s : AuditSystem η ι), Block env s.table →
    Block env (runFrom env s acts).table
  | [], _, h => h
  | act :: acts, _, h => runFrom_block acts _ (h.step act)

theorem runFrom_whole : ∀ (acts : List (AuditAct ι)) (s : AuditSystem η ι), Whole env s →
    NeverEmptied env s acts → Whole env (runFrom env s acts)
  | [], _, h, _ => h
  | act :: acts, _, h, hkept => runFrom_whole acts _ (h.step act hkept.1) hkept.2

/-- What holds as long as no prune empties the chain: a number is given once, the default
    verification accepts the table only if nothing was deleted, and an export that is done has
    yielded the rows it captured, which the default verification accepts only if nothing was
    deleted until then. -/
structure Unbroken (env : AuditEnv η) (s : AuditSystem η ι) : Prop where
  unique : ∀ a ∈ s.written, ∀ b ∈ s.written, a.chainSeq = b.chainSeq → a = b
  once : (s.written.map AuditLog.chainSeq).Nodup
  undeleted : (verifyRows env false (inOrder s.table)).ok = true → s.deleted = []
  yields : ∀ i, match s.exports i with
    | .idle => True
    | .reading _ yielded => yielded <+: (s.captured i).rows
    | .failed _ yielded => yielded <+: (s.captured i).rows
    | .done yielded => yielded = (s.captured i).rows ∧
        ((verifyRows env false yielded).ok = true → (s.captured i).deleted = [])

omit [DecidableEq ι] in
theorem Whole.unbroken (h : Whole env s) : Unbroken env s := by
  refine ⟨h.unique, ?_, fun hok => ?_, fun i => ?_⟩
  · exact (h.chain.numbered.increasing.imp fun hlt => ne_of_lt hlt).map _ fun _ _ hne => hne
  · rw [inOrder_eq h.block.increasing] at hok
    exact h.undeleted (verifyRows_default.mp hok)
  · have hreads := h.reads i
    cases hexport : s.exports i with
    | idle => trivial
    | reading cursor yielded =>
      rw [hexport] at hreads
      rcases hreads with ⟨_, _, _, hprefix, _⟩
      exact hprefix
    | failed error yielded =>
      rw [hexport] at hreads
      exact hreads
    | done yielded =>
      rw [hexport] at hreads
      refine ⟨hreads, fun hok => h.opened i ?_⟩
      rw [← show yielded = _ from hreads]
      exact verifyRows_default.mp hok

/-- On every run the table is sound; and as long as no act empties the chain, it is unbroken. -/
theorem audit_integrity (env : AuditEnv η) (hinj : env.Injective) (acts : List (AuditAct ι)) :
    Sound env (runFrom env (AuditSystem.start : AuditSystem η ι) acts).table ∧
      (NeverEmptied env AuditSystem.start acts →
        Unbroken env (runFrom env (AuditSystem.start : AuditSystem η ι) acts)) := by
  have hstart : Block env (AuditSystem.start : AuditSystem η ι).table :=
    ⟨⟨none, 1, trivial⟩, nodup_nil⟩
  exact ⟨(runFrom_block acts _ hstart).sound hinj,
    fun hkept => (runFrom_whole acts _ whole_start hkept).unbroken⟩

inductive Link where
  | first (event : Json)
  | next (previous : Link) (event : Json)
  deriving DecidableEq

/-- The events of the runs below are within the limits. -/
def linkEnv : AuditEnv Link where
  digest
    | none, event => .first event
    | some previous, event => .next previous event
  sanitizeText s _ := s
  sanitizeObject d := d.getD ∅
  isoformat t := toString t

theorem linkEnv_injective : linkEnv.Injective := by
  intro p v q w h
  cases p with
  | none =>
    cases q with
    | none => exact ⟨rfl, .inl (Link.first.inj h)⟩
    | some q => exact nomatch h
  | some p =>
    cases q with
    | none => exact nomatch h
    | some q =>
      rcases Link.next.inj h with ⟨rfl, rfl⟩
      exact ⟨rfl, .inl rfl⟩

def decided (action : String) : AuditEvent :=
  { fields := { category := "authz_decision", action := action, decision := "allowed" } }

/-- A decision is appended and an export captures it. A prune keeps no anchor, and another
    decision is appended before the export goes on. -/
def restartedRun : List (AuditAct Unit) :=
  [.append (decided "getCycle") 1 "n1" "r1", .openExport (), .prune 2 3 false,
    .append (decided "getPlan") 4 "n2" "r2", .readPage ()]

/-- Three decisions, of which one is missing from the front in the end. -/
def anchoredRun : List (AuditAct Unit) :=
  [.append (decided "getCycle") 1 "n1" "r1", .append (decided "getPlan") 4 "n2" "r2",
    .append (decided "getRun") 5 "n3" "r3", .openExport (), .prune 5 6 true, .readPage ()]

/-- The inner row, with what is not hashed changed. -/
def altered (row : AuditLog Link) : AuditLog Link :=
  if row.chainSeq = 2 then
    { row with id := "other", fields := { row.fields with principalScopes := none } }
  else row

def restarted : AuditSystem Link Unit := runFrom linkEnv .start restartedRun

def threeDecisions : List (AuditLog Link) :=
  (runFrom linkEnv (.start : AuditSystem Link Unit) (anchoredRun.take 3)).table

def yieldedIds : ExportState Link → List String
  | .done yielded => yielded.map AuditLog.id
  | _ => []

/-- A number is given to two events, the default verification accepts the chain although a row
    was deleted, and the export yields the row it did not capture. And the default verification
    accepts a chain of three of which the inner row was changed. -/
theorem audit_restarted :
    (restarted.written.map AuditLog.chainSeq = [1, 1] ∧
      restarted.written.map AuditLog.id = ["r1", "r2"] ∧
      restarted.deleted.map AuditLog.id = ["r1"] ∧
      (verifyRows linkEnv false (inOrder restarted.table)).ok = true ∧
      (restarted.captured ()).rows.map AuditLog.id = ["r1"] ∧
      yieldedIds (restarted.exports ()) = ["r2"]) ∧
    (threeDecisions.map altered ≠ threeDecisions ∧
      (verifyRows linkEnv false (inOrder (threeDecisions.map altered))).ok = true) := by
  decide +kernel

theorem anchoredRun_kept : NeverEmptied linkEnv AuditSystem.start anchoredRun := by
  simp only [anchoredRun, NeverEmptied]
  decide +kernel

theorem audit_anchored :
    Sound linkEnv (runFrom linkEnv AuditSystem.start anchoredRun).table ∧
      Unbroken linkEnv (runFrom linkEnv AuditSystem.start anchoredRun) :=
  ⟨(audit_integrity linkEnv linkEnv_injective anchoredRun).1,
    (audit_integrity linkEnv linkEnv_injective anchoredRun).2 anchoredRun_kept⟩

end Apex.Services.Audit
