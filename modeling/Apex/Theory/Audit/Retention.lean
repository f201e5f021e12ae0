import Apex.Theory.Audit.Chain

/-!
# What Is Pruned

The rows that may be deleted are those at the beginning of the chain whose events are
all before the cutoff, wherever later events are dated. The query finds them by the
first row that is kept, and in memory they are read off the front; both delete the
same rows, as many as the summary announces.

## Theorems

* `pruneBefore_eq`: What is deleted.
* `pruneInMemory_eq`: The same in memory.
-/

namespace Apex.Services.Audit

open List Option

variable {η : Type} {table : List (AuditLog η)} {before now : Instant}

/-- The rows at the beginning of a table whose events are before a cutoff. -/
def oldRows (table : List (AuditLog η)) (before : Instant) : List (AuditLog η) :=
  table.takeWhile fun row => decide (row.at < before)

def youngRows (table : List (AuditLog η)) (before : Instant) : List (AuditLog η) :=
  table.dropWhile fun row => decide (row.at < before)

theorem oldRows_append_youngRows (table : List (AuditLog η)) (before : Instant) :
    oldRows table before ++ youngRows table before = table := takeWhile_append_dropWhile

theorem oldRows_before : ∀ row ∈ oldRows table before, row.at < before := fun _ hrow =>
  decide_eq_true_eq.mp
    (mem_takeWhile_imp (p := fun row : AuditLog η => decide (row.at < before)) hrow)

theorem min?_eq_head? (h : table.Pairwise fun a b => a.chainSeq < b.chainSeq) :
    (table.map AuditLog.chainSeq).min? = table.head?.map AuditLog.chainSeq := by
  cases table with
  | nil => rfl
  | cons row rows =>
    have hrows := (pairwise_cons.mp h).1
    rw [map_cons, head?_cons, map_some, min?_eq_some_iff]
    refine ⟨mem_cons_self, fun other hother => ?_⟩
    rcases mem_cons.mp hother with rfl | hother
    · exact le_rfl
    · rcases List.mem_map.mp hother with ⟨r, hr, rfl⟩
      exact (hrows r hr).le

/-- The first row that is kept is the first after the old ones. -/
theorem head?_filter_kept : ∀ (table : List (AuditLog η)),
    (table.filter fun row => decide (before ≤ row.at)).head? = (youngRows table before).head?
  | [] => rfl
  | row :: rows => by
    rw [filter_cons, youngRows, dropWhile_cons]
    by_cases hold : row.at < before
    · rw [if_neg (by rw [decide_eq_true_eq]; exact not_le.mpr hold), if_pos (decide_eq_true hold)]
      exact head?_filter_kept rows
    · rw [if_pos (decide_eq_true (not_lt.mp hold)), if_neg (by rw [decide_eq_true_eq]; exact hold)]
      rfl

theorem filter_below {old young : List (AuditLog η)} {row : AuditLog η}
    (h : (old ++ row :: young).Pairwise fun a b => a.chainSeq < b.chainSeq) :
    (old ++ row :: young).filter (fun r => decide (r.chainSeq < row.chainSeq)) = old := by
  rcases pairwise_append.mp h with ⟨_, hyoung, hacross⟩
  rw [filter_append, filter_eq_self.mpr fun r hr =>
      decide_eq_true (hacross r hr row mem_cons_self),
    filter_eq_nil_iff.mpr fun r hr => ?_, append_nil]
  rw [decide_eq_true_eq]
  rcases mem_cons.mp hr with rfl | hr
  · exact lt_irrefl _
  · exact not_lt.mpr ((pairwise_cons.mp hyoung).1 r hr).le

theorem filter_from {old young : List (AuditLog η)} {row : AuditLog η}
    (h : (old ++ row :: young).Pairwise fun a b => a.chainSeq < b.chainSeq) :
    (old ++ row :: young).filter (fun r => !decide (r.chainSeq < row.chainSeq)) = row :: young := by
  rcases pairwise_append.mp h with ⟨_, hyoung, hacross⟩
  rw [filter_append, filter_eq_nil_iff.mpr fun r hr => ?_, nil_append,
    filter_eq_self.mpr fun r hr => ?_]
  · rw [Bool.not_eq_true', decide_eq_false_iff_not]
    rcases mem_cons.mp hr with rfl | hr
    · exact lt_irrefl _
    · exact not_lt.mpr ((pairwise_cons.mp hyoung).1 r hr).le
  · rw [Bool.not_eq_true, Bool.not_eq_false', decide_eq_true_eq]
    exact hacross r hr row mem_cons_self

/-- What the query finds: how many old rows there are, the last of them, and the first that is
    kept. -/
theorem retentionPrefix_spec (h : table.Pairwise fun a b => a.chainSeq < b.chainSeq) :
    retentionPrefix table before =
      { count := (oldRows table before).length
        anchorId := (oldRows table before).getLast?.map AuditLog.id
        anchorChainSeq := (oldRows table before).getLast?.map AuditLog.chainSeq
        firstRetainedChainSeq := (youngRows table before).head?.map AuditLog.chainSeq } := by
  have hfirst : ((table.filter fun row => decide (before ≤ row.at)).map AuditLog.chainSeq).min? =
      (youngRows table before).head?.map AuditLog.chainSeq := by
    rw [min?_eq_head? (h.filter _), head?_filter_kept]
  have hsplit := oldRows_append_youngRows table before
  have hold : (oldRows table before).Pairwise fun a b => a.chainSeq < b.chainSeq :=
    (pairwise_append.mp (hsplit.symm ▸ h)).1
  simp only [retentionPrefix, hfirst]
  cases hyoung : youngRows table before with
  | nil =>
    rw [hyoung, append_nil] at hsplit
    simp only [head?_nil, map_none, hsplit, inOrder_eq h]
  | cons row rows =>
    rw [hyoung] at hsplit
    have hbelow := filter_below (hsplit.symm ▸ h)
    rw [hsplit] at hbelow
    simp only [head?_cons, map_some, hbelow, inOrder_eq hold]

theorem drop_oldRows (table : List (AuditLog η)) (before : Instant) :
    table.drop (oldRows table before).length = youngRows table before := by
  have hdrop := @drop_left _ (oldRows table before) (youngRows table before)
  rw [oldRows_append_youngRows] at hdrop
  exact hdrop

theorem pruneBefore_eq (h : table.Pairwise fun a b => a.chainSeq < b.chainSeq)
    (hpast : before ≤ now) (retainAnchor : Bool) :
    pruneBefore table before now retainAnchor =
      .ok (deletable (oldRows table before).length retainAnchor,
        table.drop (deletable (oldRows table before).length retainAnchor)) := by
  have hvalid : validateRetentionCutoff before now = .ok () := if_neg (not_lt.mpr hpast)
  have hsplit := oldRows_append_youngRows table before
  simp only [pruneBefore, hvalid, retentionPrefix_spec h]
  change (if deletable (oldRows table before).length retainAnchor = 0 then pure (0, table)
    else pure (_, _) : Except String (Nat × List (AuditLog η))) = _
  by_cases hzero : deletable (oldRows table before).length retainAnchor = 0
  · rw [if_pos hzero, hzero]
    rfl
  · rw [if_neg hzero]
    refine congrArg Except.ok (Prod.ext rfl ?_)
    cases retainAnchor with
    | true =>
      -- The anchor is the last of the old rows, and it is the first that stays.
      rcases eq_nil_or_concat (oldRows table before) with hnil | ⟨init, anchor, hanchor⟩
      · rw [hnil] at hzero
        exact absurd rfl hzero
      · rw [concat_eq_append] at hanchor
        rw [hanchor, append_assoc, singleton_append] at hsplit
        have hfrom := filter_from (hsplit.symm ▸ h)
        rw [hsplit] at hfrom
        simp only [pruned, hanchor, getLast?_append, getLast?_singleton, some_or,
          map_some, any_some, if_true, hfrom, deletable, length_append,
          length_singleton, Nat.add_sub_cancel]
        conv_rhs => rw [← hsplit]
        exact drop_left.symm
    | false =>
      simp only [deletable, pruned, Bool.false_eq_true, if_false] at hzero ⊢
      rw [drop_oldRows]
      cases hyoung : youngRows table before with
      | cons row rows =>
        rw [hyoung] at hsplit
        have hfrom := filter_from (hsplit.symm ▸ h)
        rw [hsplit] at hfrom
        exact hfrom
      | nil =>
        -- All rows are old, and the last of them has the largest number.
        rw [hyoung, append_nil] at hsplit
        rcases eq_nil_or_concat (oldRows table before) with hnil | ⟨init, anchor, hanchor⟩
        · rw [hnil] at hzero
          exact absurd rfl hzero
        · rw [concat_eq_append] at hanchor
          have htable : table = init ++ [anchor] := hsplit.symm.trans hanchor
          simp only [head?_nil, map_none, hanchor, getLast?_append,
            getLast?_singleton, some_or, map_some, any_some]
          refine filter_eq_nil_iff.mpr fun row hrow => ?_
          rw [Bool.not_eq_true, Bool.not_eq_false', decide_eq_true_eq]
          rw [htable] at h hrow
          rcases mem_append.mp hrow with hrow | hrow
          · exact ((pairwise_append.mp h).2.2 row hrow anchor mem_cons_self).le
          · rw [mem_singleton.mp hrow]

theorem filter_ids {first rest : List (AuditLog η)}
    (hids : ((first ++ rest).map AuditLog.id).Nodup) :
    (first ++ rest).filter (fun row => !((first.map AuditLog.id).contains row.id)) = rest := by
  rw [map_append, nodup_append] at hids
  rw [filter_append, filter_eq_nil_iff.mpr fun row hrow => ?_, nil_append,
    filter_eq_self.mpr fun row hrow => ?_]
  · rw [Bool.not_eq_true', contains_eq_mem, decide_eq_false_iff_not]
    intro hmem
    exact hids.2.2 row.id hmem row.id (List.mem_map_of_mem hrow) rfl
  · rw [Bool.not_eq_true, Bool.not_eq_false', contains_eq_mem, decide_eq_true_eq]
    exact List.mem_map_of_mem hrow

section

variable (h : table.Pairwise fun a b => a.chainSeq < b.chainSeq)

include h

theorem pruneInMemory_eq
    (hids : (table.map AuditLog.id).Nodup) (hpast : before ≤ now) (retainAnchor : Bool) :
    pruneInMemory table before now retainAnchor = pruneBefore table before now retainAnchor := by
  have hvalid : validateRetentionCutoff before now = .ok () := if_neg (not_lt.mpr hpast)
  let n := deletable (oldRows table before).length retainAnchor
  have hn : n ≤ (oldRows table before).length := by
    simp only [n, deletable]
    split <;> omega
  have hdeleted : (if retainAnchor then (oldRows table before).dropLast else oldRows table before) =
      table.take n := by
    have htake := @take_append_of_le_length _ (oldRows table before) (youngRows table before) n hn
    rw [oldRows_append_youngRows] at htake
    rw [htake]
    cases retainAnchor with
    | true => exact dropLast_eq_take
    | false => exact take_length.symm
  have hlength : (table.take n).length = n := by
    have hle := congrArg List.length (oldRows_append_youngRows table before)
    rw [length_append] at hle
    rw [length_take]
    omega
  have hfilter := @filter_ids _ (table.take n) (table.drop n) (by rw [take_append_drop]; exact hids)
  rw [take_append_drop] at hfilter
  rw [pruneBefore_eq h hpast]
  simp only [pruneInMemory, hvalid, inOrder_eq h]
  change Except.ok (((if retainAnchor then (oldRows table before).dropLast
    else oldRows table before).map AuditLog.id).length, _) = _
  refine congrArg Except.ok (Prod.ext ?_ ?_)
  · change ((if retainAnchor then (oldRows table before).dropLast
      else oldRows table before).map AuditLog.id).length = n
    rw [hdeleted, List.length_map, hlength]
  · change table.filter (fun row => !(((if retainAnchor then (oldRows table before).dropLast
      else oldRows table before).map AuditLog.id).contains row.id)) = table.drop n
    rw [hdeleted]
    exact hfilter

theorem retentionSummaryInMemory_eq
    (retainAnchor : Bool) : retentionSummaryInMemory table before now retainAnchor =
      retentionSummary table before now retainAnchor := by
  simp only [retentionSummaryInMemory, retentionSummary, retentionPrefix_spec h, inOrder_eq h]
  rfl

theorem retentionSummary_eq
    (hpast : before ≤ now) (retainAnchor : Bool) :
    (retentionSummary table before now retainAnchor).map AuditRetentionSummary.candidates =
      .ok (deletable (oldRows table before).length retainAnchor) := by
  have hvalid : validateRetentionCutoff before now = .ok () := if_neg (not_lt.mpr hpast)
  simp only [retentionSummary, hvalid, retentionPrefix_spec h]
  rfl

end

end Apex.Services.Audit
