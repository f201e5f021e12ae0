import Apex.Core.Pace
import Apex.App.RateLimits

/-!
# The Policy Of The Limits

What the limits are for, told by histories alone. A request passes if each of its keys
has room, and only then it is noted, for all of them. Too many refused credentials of
a key lock it for a time, and a credential that is accepted is forgiven.

The scripts of Redis are this policy, whatever they are asked: an entry that is
removed, or that expires with its set, does not count any more.

## Main definitions

* `Tally`, `policyAnswer`: The policy.
* `ZTracks`, `Shares`: What Redis keeps, against the histories.

## Theorems

* `Tally.Lawful.answered`: No key ever has more noted than its limit in a window.
* `Shares.answered`: Redis answers as the policy does.
-/

namespace Apex.App

open List Option Function

/-- When requests of a key passed, when its credentials were refused, and until when it is
    locked. -/
structure Tally where
  requests : String → List Nat
  runs : String → List Nat
  failures : String → List Nat
  locks : String → Option Nat

def Tally.start : Tally := ⟨fun _ => [], fun _ => [], fun _ => [], fun _ => none⟩

def hasRoom (window now : Nat) (limit : String → Nat) (history : String → List Nat)
    (key : String) : Bool :=
  decide ((recent window now (history key)).length < limit key)

def noted (keys : List String) (now : Nat) (history : String → List Nat) : String → List Nat :=
  fun key => if key ∈ keys then history key ++ [now] else history key

/-- A request passes if all its keys have room, and is noted then. -/
def permit (window now : Nat) (limit : String → Nat) (keys : List String)
    (history : String → List Nat) : Bool × (String → List Nat) :=
  if keys.all (hasRoom window now limit history) then (true, noted keys now history)
  else (false, history)

/-- The limit of a key in the window of requests. -/
def RateLimitSettings.requestLimit (cfg : RateLimitSettings) (key : String) : Nat :=
  if isCredentialKey key then cfg.limit else cfg.ipLimit

def Tally.locked (t : Tally) (now : Nat) (key : String) : Bool :=
  (t.locks key).any fun expiry => decide (now < expiry)

def Tally.refused (cfg : RateLimitSettings) (now : Nat) (keys : List String) (t : Tally) :
    Tally :=
  let failures := noted keys now t.failures
  { t with
    failures := failures
    locks := fun key =>
      if key ∈ keys ∧ cfg.authFailures.1 ≤ (recent cfg.failureWindow now (failures key)).length then
        some (now + cfg.lockout)
      else t.locks key }

def Tally.forgiven (keys : List String) (t : Tally) : Tally :=
  { t with
    failures := fun key => if key ∈ keys then [] else t.failures key
    locks := fun key => if key ∈ keys then none else t.locks key }

/-- What the policy answers: whether the call passes. -/
def policyAnswer (cfg : RateLimitSettings) (c : LimitCall) (t : Tally) : Bool × Tally :=
  match c.query with
  | .request =>
    let result := permit cfg.window c.now cfg.requestLimit c.keys.list t.requests
    (result.1, { t with requests := result.2 })
  | .runCreate =>
    let result := permit cfg.runWindow c.now (fun _ => cfg.runLimit) c.keys.list t.runs
    (result.1, { t with runs := result.2 })
  | .lockout => (c.keys.list.all fun key => !t.locked c.now key, t)
  | .result .unauthorized => (true, t.refused cfg c.now c.keys.list)
  | .result .authenticated => (true, t.forgiven c.keys.credential.toList)
  | .result .other => (true, t)

variable {cfg : RateLimitSettings} {now now' : Nat}

theorem RateKeys.list_nodup (keys : RateKeys) : keys.list.Nodup := by
  rw [RateKeys.list]
  cases hcred : keys.credential with
  | none => exact nodup_singleton _
  | some credential =>
    refine nodup_cons.mpr ⟨fun hmem => ?_, nodup_singleton _⟩
    have hkey := keys.credential_key credential hcred
    rw [← mem_singleton.mp hmem, keys.source_key] at hkey
    exact Bool.noConfusion hkey

theorem window_pos : 0 < cfg.window := by unfold RateLimitSettings.window; omega

theorem runWindow_pos : 0 < cfg.runWindow := by unfold RateLimitSettings.runWindow; omega

theorem failureWindow_pos : 0 < cfg.failureWindow := by
  unfold RateLimitSettings.failureWindow; omega

theorem requestLimit_pos (key : String) : 0 < cfg.requestLimit key := by
  unfold RateLimitSettings.requestLimit RateLimitSettings.ipLimit RateLimitSettings.limit
  split <;> omega

theorem runLimit_pos : 0 < cfg.runLimit := by unfold RateLimitSettings.runLimit; omega

theorem noted_nil (history : String → List Nat) : noted [] now history = history := by
  funext key
  rw [noted, if_neg not_mem_nil]

theorem noted_cons {key : String} {keys : List String} (hnew : key ∉ keys)
    (history : String → List Nat) :
    noted (key :: keys) now history =
      noted keys now (update history key (history key ++ [now])) := by
  funext other
  unfold noted
  by_cases heq : other = key
  · subst heq
    rw [if_pos mem_cons_self, if_neg hnew, update_self]
  · rw [update_of_ne heq]
    simp only [mem_cons, heq, false_or]

structure Tally.Lawful (cfg : RateLimitSettings) (now : Nat) (t : Tally) : Prop where
  requests : ∀ key, Paced cfg.window (cfg.requestLimit key) (t.requests key)
  runs : ∀ key, Paced cfg.runWindow cfg.runLimit (t.runs key)
  requests_past : ∀ key, ∀ time ∈ t.requests key, time ≤ now
  runs_past : ∀ key, ∀ time ∈ t.runs key, time ≤ now

theorem Tally.start_lawful : Tally.start.Lawful cfg now :=
  ⟨fun _ => .nil, fun _ => .nil, fun _ _ h => absurd h not_mem_nil,
    fun _ _ h => absurd h not_mem_nil⟩

theorem Tally.Lawful.later {t : Tally} (h : t.Lawful cfg now) (hle : now ≤ now') :
    t.Lawful cfg now' :=
  ⟨h.requests, h.runs, fun key time ht => (h.requests_past key time ht).trans hle,
    fun key time ht => (h.runs_past key time ht).trans hle⟩

theorem permit_paced {window : Nat} {limit : String → Nat} {keys : List String}
    {history : String → List Nat} (hpaced : ∀ key, Paced window (limit key) (history key))
    (hpast : ∀ key, ∀ time ∈ history key, time ≤ now) :
    (∀ key, Paced window (limit key) ((permit window now limit keys history).2 key)) ∧
      ∀ key, ∀ time ∈ (permit window now limit keys history).2 key, time ≤ now := by
  unfold permit
  split
  next hall =>
    constructor
    · intro key
      change Paced window (limit key) (noted keys now history key)
      unfold noted
      by_cases hmem : key ∈ keys
      · have hroom := List.all_eq_true.mp hall key hmem
        rw [if_pos hmem]
        exact (hpaced key).snoc (hpast key) (decide_eq_true_eq.mp hroom)
      · rw [if_neg hmem]
        exact hpaced key
    · intro key time htime
      change time ∈ noted keys now history key at htime
      unfold noted at htime
      split at htime
      · rcases mem_append.mp htime with htime | htime
        · exact hpast key time htime
        · exact (mem_singleton.mp htime).le
      · exact hpast key time htime
  next => exact ⟨hpaced, hpast⟩

theorem Tally.Lawful.answered {c : LimitCall} {t : Tally} (h : t.Lawful cfg c.now) :
    (policyAnswer cfg c t).2.Lawful cfg c.now := by
  unfold policyAnswer
  split
  · have hpermit := @permit_paced _ _ _ c.keys.list _ h.requests h.requests_past
    exact ⟨hpermit.1, h.runs, hpermit.2, h.runs_past⟩
  · have hpermit := @permit_paced _ _ _ c.keys.list _ h.runs h.runs_past
    exact ⟨h.requests, hpermit.1, h.requests_past, hpermit.2⟩
  · exact h
  · exact ⟨h.requests, h.runs, h.requests_past, h.runs_past⟩
  · exact ⟨h.requests, h.runs, h.requests_past, h.runs_past⟩
  · exact h

/-- A sorted set that counts what a history counts. It does not expire before its members are
    old. -/
structure ZTracks (window now : Nat) (used : List String) (z : ZSet) (history : List Nat) :
    Prop where
  past : ∀ m ∈ z.members, m.2 ≤ now
  kept : ∀ m ∈ z.members, ∃ e, z.expires = some e ∧ m.2 + window ≤ e
  members_used : ∀ m ∈ z.members, m.1 ∈ used
  same : recent window now z.scores = recent window now history

variable {window : Nat} {used used' : List String} {z : ZSet} {history : List Nat}

theorem ztracks_empty (h : recent window now history = []) :
    ZTracks window now used ZSet.empty history :=
  ⟨fun _ hm => absurd hm not_mem_nil, fun _ hm => absurd hm not_mem_nil,
    fun _ hm => absurd hm not_mem_nil, h.symm⟩

theorem ZTracks.later (h : ZTracks window now used z history) (hle : now ≤ now')
    (hused : ∀ token ∈ used, token ∈ used') : ZTracks window now' used' z history :=
  ⟨fun m hm => (h.past m hm).trans hle, h.kept, fun m hm => hused _ (h.members_used m hm),
    recent_later hle h.same⟩

theorem ZTracks.alive (h : ZTracks window now used z history) :
    ZTracks window now used (z.alive now) history := by
  unfold ZSet.alive
  split
  next hexpired =>
    refine ztracks_empty (h.same.symm.trans (filter_eq_nil_iff.mpr ?_))
    intro t ht
    rcases List.mem_map.mp ht with ⟨m, hm, rfl⟩
    rcases h.kept m hm with ⟨e, he, hle⟩
    rw [he, any_some, decide_eq_true_eq] at hexpired
    rw [decide_eq_true_eq]
    omega
  next => exact h

theorem scores_zremrangebyscore (z : ZSet) (window now : Nat) :
    (z.zremrangebyscore ((now : Int) - window)).scores = recent window now z.scores := by
  have hfilter : (z.members.filter fun m => decide ((now : Int) - window < m.2)).map Prod.snd =
      recent window now z.scores := by
    rw [recent, ZSet.scores, List.filter_map]
    congr 1
    refine filter_congr fun m _ => ?_
    rw [comp_apply, decide_eq_decide]
    omega
  simp only [ZSet.zremrangebyscore]
  split
  next hempty => rw [← hfilter, List.isEmpty_iff.mp hempty]; rfl
  next => exact hfilter

theorem ZTracks.pruned (h : ZTracks window now used z history) :
    ZTracks window now used (z.zremrangebyscore ((now : Int) - window)) history ∧
      (z.zremrangebyscore ((now : Int) - window)).zcard = (recent window now history).length := by
  have hscores := scores_zremrangebyscore z window now
  have hsame : recent window now (z.zremrangebyscore ((now : Int) - window)).scores =
      recent window now history := by
    rw [hscores, recent_recent le_rfl, h.same]
  constructor
  · simp only [ZSet.zremrangebyscore] at hsame ⊢
    split at hsame
    next hempty => rw [if_pos hempty]; exact ztracks_empty hsame.symm
    next hsome =>
      rw [if_neg hsome]
      exact ⟨fun m hm => h.past m (mem_filter.mp hm).1, fun m hm => h.kept m (mem_filter.mp hm).1,
        fun m hm => h.members_used m (mem_filter.mp hm).1, hsame⟩
  · rw [ZSet.zcard, ← h.same, ← hscores, ZSet.scores, List.length_map]

theorem zadd_members {token : String} (hfresh : ∀ m ∈ z.members, m.1 ≠ token) :
    (z.zadd now token).members = z.members ++ [(token, now)] := by
  rw [ZSet.zadd, filter_eq_self.mpr]
  intro m hm
  exact bne_iff_ne.mpr (hfresh m hm)

theorem ZTracks.added {token : String} {ttl : Nat} (h : ZTracks window now used z history)
    (hfresh : ∀ m ∈ z.members, m.1 ≠ token) (httl : window ≤ ttl) (htoken : token ∈ used) :
    ZTracks window now used ((z.zadd now token).pexpire now ttl) (history ++ [now]) := by
  have hmembers : ((z.zadd now token).pexpire now ttl).members = z.members ++ [(token, now)] :=
    zadd_members hfresh
  have hpast : ∀ m ∈ z.members ++ [(token, now)], m.2 ≤ now := by
    intro m hm
    rcases mem_append.mp hm with hm | hm
    · exact h.past m hm
    · exact (congrArg Prod.snd (mem_singleton.mp hm)).le
  constructor
  · rw [hmembers]
    exact hpast
  · rw [hmembers]
    intro m hm
    have := hpast m hm
    exact ⟨now + ttl, rfl, by omega⟩
  · rw [hmembers]
    intro m hm
    rcases mem_append.mp hm with hm | hm
    · exact h.members_used m hm
    · rw [mem_singleton.mp hm]
      exact htoken
  · rw [ZSet.scores, hmembers, map_append, recent_append, recent_append]
    exact congrArg (· ++ recent window now [now]) h.same

/-- The sorted sets of a namespace count what histories count. -/
def Tracked (space : LimitNamespace) (window now : Nat) (used : List String) (r : Redis)
    (history : String → List Nat) : Prop :=
  ∀ key, ZTracks window now used (r.zsets ⟨space, key⟩) (history key)

variable {space : LimitNamespace} {r : Redis} {histories : String → List Nat}

theorem Tracked.later (h : Tracked space window now used r histories) (hle : now ≤ now')
    (hused : ∀ token ∈ used, token ∈ used') : Tracked space window now' used' r histories :=
  fun key => (h key).later hle hused

theorem Tracked.setZ {key : String} {history : List Nat}
    (h : Tracked space window now used r histories) (hz : ZTracks window now used z history) :
    Tracked space window now used (r.setZ ⟨space, key⟩ z)
      (update histories key history) := by
  intro other
  change ZTracks window now used (update r.zsets ⟨space, key⟩ z ⟨space, other⟩) _
  by_cases heq : other = key
  · rw [heq, update_self, update_self]
    exact hz
  · rw [update_of_ne heq, update_of_ne (fun hk => heq (LimitKey.mk.inj hk).2)]
    exact h other

theorem setZ_zsets_ne {k : LimitKey} {other : LimitKey} (h : other ≠ k) :
    (r.setZ k z).zsets other = r.zsets other := update_of_ne h ..

/-- Another namespace, and the locks, are as they were. -/
def Untouched (space : LimitNamespace) (r r' : Redis) : Prop :=
  (∀ k : LimitKey, k.space ≠ space → r'.zsets k = r.zsets k) ∧ r'.locks = r.locks

theorem Untouched.setZ {r' : Redis} (h : Untouched space r r') (key : String) :
    Untouched space r (r'.setZ ⟨space, key⟩ z) :=
  ⟨fun k hk => (setZ_zsets_ne fun heq => hk (congrArg LimitKey.space heq)).trans (h.1 k hk), h.2⟩

theorem untouched_refl : Untouched space r r := ⟨fun _ _ => rfl, rfl⟩

theorem fixedWindowRetry_spec : ∀ (keyed : List (String × Nat)) (retry : Nat) (r r₀ : Redis),
    Tracked space window now used r histories → Untouched space r₀ r →
    let result := fixedWindowRetry now window (keyed.map fun kl => (⟨space, kl.1⟩, kl.2)) retry r
    (0 < result.1 ↔ 0 < retry ∨ ∃ kl ∈ keyed, kl.2 ≤ (recent window now (histories kl.1)).length) ∧
      Tracked space window now used result.2 histories ∧ Untouched space r₀ result.2
  | [], retry, r, r₀, h, h₀ => by
    refine ⟨?_, h, h₀⟩
    simp [fixedWindowRetry]
  | (key, limit) :: keyed, retry, r, r₀, h, h₀ => by
    have hz := ((h key).alive).pruned
    have hset := @Tracked.setZ _ _ _ _ _ _ _ key _ h hz.1
    rw [update_eq_self] at hset
    have ih := fixedWindowRetry_spec keyed
      (if limit ≤ (recent window now (histories key)).length then
        max retry (max (ceilSeconds ((((r.zsets ⟨space, key⟩).alive now).zremrangebyscore
          ((now : Int) - window)).oldest + window - now)) 1)
      else retry) _ r₀ hset (h₀.setZ key)
    rw [map_cons, fixedWindowRetry, Redis.zset, hz.2]
    refine ⟨ih.1.trans ?_, ih.2⟩
    rw [exists_mem_cons_iff]
    split
    next hfull => exact ⟨fun _ => .inr (.inl hfull), fun _ => .inl (by omega)⟩
    next hroom => simp only [hroom, false_or]

theorem fixedWindowAdd_spec {token : String} (htoken : token ∈ used) :
    ∀ (keys : List String) (r r₀ : Redis) (histories : String → List Nat), keys.Nodup →
      (∀ key ∈ keys, ∀ m ∈ (r.zsets ⟨space, key⟩).members, m.1 ≠ token) →
      Tracked space window now used r histories → Untouched space r₀ r →
      let result := fixedWindowAdd now window token (keys.map (LimitKey.mk space)) r
      Tracked space window now used result (noted keys now histories) ∧ Untouched space r₀ result
  | [], r, r₀, histories, _, _, h, h₀ => by
    rw [noted_nil]
    exact ⟨h, h₀⟩
  | key :: keys, r, r₀, histories, hnodup, hfresh, h, h₀ => by
    rcases nodup_cons.mp hnodup with ⟨hnew, hrest⟩
    have hmembers : ∀ m ∈ ((r.zsets ⟨space, key⟩).alive now).members, m.1 ≠ token := by
      intro m hm
      unfold ZSet.alive at hm
      split at hm
      · exact absurd hm not_mem_nil
      · exact hfresh key mem_cons_self m hm
    have hz := (h key).alive.added hmembers (by omega : window ≤ window + 1000) htoken
    rw [noted_cons hnew, map_cons, fixedWindowAdd]
    refine fixedWindowAdd_spec htoken keys _ r₀ _ hrest ?_ (h.setZ hz) (h₀.setZ key)
    intro other hother
    have hne : (⟨space, other⟩ : LimitKey) ≠ ⟨space, key⟩ :=
      fun heq => hnew ((LimitKey.mk.inj heq).2 ▸ hother)
    rw [setZ_zsets_ne hne]
    exact hfresh other (mem_cons_of_mem _ hother)

theorem not_mem_used {token : String} (h : Tracked space window now used r histories)
    (hfresh : token ∉ used) (key : String) :
    ∀ m ∈ (r.zsets ⟨space, key⟩).members, m.1 ≠ token :=
  fun m hm heq => hfresh (heq ▸ (h key).members_used m hm)

theorem checkWindow_spec {token : String} {limit : String → Nat} {keys : List String}
    {windowS : Nat} (hlimit : ∀ key, 0 < limit key) (hkeys : keys.Nodup) (hfresh : token ∉ used)
    (h : Tracked space (max windowS 1 * 1000) now used r histories) :
    let result := checkWindow now space (keys.map fun key => (key, limit key)) windowS token r
    let verdict := permit (max windowS 1 * 1000) now limit keys histories
    result.1.isNone = verdict.1 ∧
      Tracked space (max windowS 1 * 1000) now (token :: used) result.2 verdict.2 ∧
      Untouched space r result.2 := by
  have hused : ∀ other ∈ used, other ∈ token :: used := fun _ => mem_cons_of_mem _
  have hkeyed : ((keys.map fun key => (key, limit key)).map fun kl =>
      ((⟨space, kl.1⟩ : LimitKey), max kl.2 1)) = (keys.map fun key => (key, limit key)).map
        fun kl => (⟨space, kl.1⟩, kl.2) := by
    simp only [List.map_map]
    refine map_congr_left fun key _ => ?_
    simp only [comp_apply, Nat.max_eq_left (hlimit key)]
  simp only [checkWindow]
  cases keys with
  | nil => exact ⟨rfl, by simpa [permit, noted_nil] using h.later le_rfl hused, untouched_refl⟩
  | cons key keys =>
    rw [if_neg (by simp), hkeyed, fixedWindowScript]
    have hchecked := fixedWindowRetry_spec ((key :: keys).map fun key => (key, limit key)) 0 r r h
      untouched_refl
    simp only [lt_irrefl, false_or] at hchecked
    rcases hchecked with ⟨hretry, htracked, huntouched⟩
    by_cases hall : (key :: keys).all (hasRoom (max windowS 1 * 1000) now limit histories) = true
    · have hnone : ¬ 0 < (fixedWindowRetry now (max windowS 1 * 1000) (((key :: keys).map fun key =>
          (key, limit key)).map fun kl => (⟨space, kl.1⟩, kl.2)) 0 r).1 := by
        rw [hretry]
        rintro ⟨kl, hkl, hfull⟩
        rcases List.mem_map.mp hkl with ⟨k, hk, rfl⟩
        exact absurd (decide_eq_true_eq.mp (List.all_eq_true.mp hall k hk)) (not_lt.mpr hfull)
      have hadd := @fixedWindowAdd_spec now (max windowS 1 * 1000) _ _ token
        mem_cons_self (key :: keys) _ r histories hkeys
        (fun k _ => not_mem_used htracked hfresh k) (htracked.later le_rfl hused) huntouched
      have hmap : ((((key :: keys).map fun key => (key, limit key)).map fun kl =>
          ((⟨space, kl.1⟩ : LimitKey), kl.2)).map Prod.fst) =
            (key :: keys).map (LimitKey.mk space) := by
        simp only [List.map_map]
        rfl
      rw [if_neg hnone, hmap, permit, if_pos hall]
      exact ⟨rfl, hadd.1, hadd.2⟩
    · have hsome : 0 < (fixedWindowRetry now (max windowS 1 * 1000) (((key :: keys).map fun key =>
          (key, limit key)).map fun kl => (⟨space, kl.1⟩, kl.2)) 0 r).1 := by
        rw [hretry]
        rw [List.all_eq_true] at hall
        push Not at hall
        rcases hall with ⟨k, hk, hfull⟩
        refine ⟨(k, limit k), List.mem_map_of_mem hk, ?_⟩
        rw [hasRoom, ne_eq, decide_eq_true_eq, not_lt] at hfull
        exact hfull
      rw [if_pos hsome, permit, if_neg hall]
      refine ⟨?_, htracked.later le_rfl hused, huntouched⟩
      rw [orNone, if_neg (by omega)]
      rfl

theorem authFailureRound_spec {token subject : String} {limit lockout : Nat}
    (hwindow : 0 < window) (htoken : token ∈ used)
    (hfresh : ∀ m ∈ (r.zsets ⟨.authFailures, subject⟩).members, m.1 ≠ token)
    (h : Tracked .authFailures window now used r histories) :
    let result := authFailureRound now limit window lockout token r subject
    Tracked .authFailures window now used result
        (update histories subject (histories subject ++ [now])) ∧
      (∀ k : LimitKey, k ≠ ⟨.authFailures, subject⟩ → result.zsets k = r.zsets k) ∧
      result.locks = update r.locks ⟨.authLockout, subject⟩
        (if limit ≤ (recent window now (histories subject ++ [now])).length then
          some (some (now + lockout)) else r.locks ⟨.authLockout, subject⟩) := by
  let z := ((r.zsets ⟨.authFailures, subject⟩).alive now).zremrangebyscore ((now : Int) - window)
  have hz : ZTracks window now used z (histories subject) ∧
      z.zcard = (recent window now (histories subject)).length := (h subject).alive.pruned
  have hmembers : ∀ m ∈ z.members, m.1 ≠ token := by
    intro m hm
    have hsub : m ∈ ((r.zsets ⟨.authFailures, subject⟩).alive now).members := by
      simp only [z, ZSet.zremrangebyscore] at hm
      split at hm
      · exact absurd hm not_mem_nil
      · exact (mem_filter.mp hm).1
    unfold ZSet.alive at hsub
    split at hsub
    · exact absurd hsub not_mem_nil
    · exact hfresh m hsub
  have hadded := hz.1.added hmembers (by omega : window ≤ max window lockout + 1000) htoken
  have hcard : (((((r.zsets ⟨.authFailures, subject⟩).alive now).zremrangebyscore
      ((now : Int) - window)).zadd now token).pexpire now (max window lockout + 1000)).zcard =
        (recent window now (histories subject ++ [now])).length := by
    rw [recent_append, recent_now hwindow, length_append, ← hz.2]
    exact (congrArg List.length (zadd_members hmembers)).trans length_append
  have htracked := @Tracked.setZ _ _ _ _ _ _ _ subject _ h hadded
  simp only [authFailureRound, Redis.zset, hcard]
  split
  · exact ⟨htracked, fun k hk => setZ_zsets_ne hk, rfl⟩
  · exact ⟨htracked, fun k hk => setZ_zsets_ne hk, (update_eq_self ..).symm⟩

theorem authFailureScript_spec {token : String} {limit lockout : Nat} (hwindow : 0 < window)
    (htoken : token ∈ used) :
    ∀ (subjects : List String) (r : Redis) (histories : String → List Nat), subjects.Nodup →
      (∀ key ∈ subjects, ∀ m ∈ (r.zsets ⟨.authFailures, key⟩).members, m.1 ≠ token) →
      Tracked .authFailures window now used r histories →
      let result := authFailureScript now limit window lockout token subjects r
      Tracked .authFailures window now used result (noted subjects now histories) ∧
        (∀ k : LimitKey, k.space ≠ .authFailures → result.zsets k = r.zsets k) ∧
        ∀ key, result.locks ⟨.authLockout, key⟩ =
          if key ∈ subjects ∧ limit ≤ (recent window now (noted subjects now histories key)).length
          then some (some (now + lockout)) else r.locks ⟨.authLockout, key⟩
  | [], r, histories, _, _, h => by
    rw [noted_nil]
    exact ⟨h, fun _ _ => rfl, fun key => by simp [authFailureScript]⟩
  | subject :: subjects, r, histories, hnodup, hfresh, h => by
    rcases nodup_cons.mp hnodup with ⟨hnew, hrest⟩
    have hround := @authFailureRound_spec _ _ _ _ _ _ _ limit lockout hwindow htoken
      (hfresh subject mem_cons_self) h
    have ih := @authFailureScript_spec _ limit lockout hwindow htoken subjects
      _ _ hrest (fun key hkey => by
        rw [hround.2.1 _ fun heq => hnew ((LimitKey.mk.inj heq).2 ▸ hkey)]
        exact hfresh key (mem_cons_of_mem _ hkey)) hround.1
    rw [noted_cons hnew]
    refine ⟨ih.1, fun k hk => ?_, fun key => ?_⟩
    · exact (ih.2.1 k hk).trans (hround.2.1 k fun heq => hk (congrArg LimitKey.space heq))
    · refine (ih.2.2 key).trans ?_
      rw [hround.2.2]
      by_cases heq : key = subject
      · subst heq
        rw [update_self, if_neg fun hboth => hnew hboth.1]
        simp only [mem_cons_self, true_and, noted, if_neg hnew, update_self]
      · rw [update_of_ne fun hk => heq (LimitKey.mk.inj hk).2]
        simp only [mem_cons, heq, false_or]

/-- What Redis keeps is what the policy counts. -/
structure Shares (cfg : RateLimitSettings) (now : Nat) (used : List String) (r : Redis)
    (t : Tally) : Prop where
  requests : Tracked .request cfg.window now used r t.requests
  runs : Tracked .runCreate cfg.runWindow now used r t.runs
  failures : Tracked .authFailures cfg.failureWindow now used r t.failures
  locks : ∀ key, r.locks ⟨.authLockout, key⟩ = (t.locks key).map some

theorem shares_start : Shares cfg now used Redis.empty Tally.start :=
  ⟨fun _ => ztracks_empty rfl, fun _ => ztracks_empty rfl, fun _ => ztracks_empty rfl, fun _ => rfl⟩

variable {t : Tally}

theorem Shares.later (h : Shares cfg now used r t) (hle : now ≤ now')
    (hused : ∀ token ∈ used, token ∈ used') : Shares cfg now' used' r t :=
  ⟨h.requests.later hle hused, h.runs.later hle hused, h.failures.later hle hused, h.locks⟩

theorem Tracked.of_zsets {r' : Redis} (h : Tracked space window now used r histories)
    (hsame : ∀ key, r'.zsets ⟨space, key⟩ = r.zsets ⟨space, key⟩) :
    Tracked space window now used r' histories := by
  intro key
  rw [hsame key]
  exact h key

theorem keyedLimits_eq (keys : RateKeys) :
    ((keys.source, cfg.ipLimit) ::
        keys.credential.toList.map fun credential => (credential, cfg.limit)) =
      keys.list.map fun key => (key, cfg.requestLimit key) := by
  rw [RateKeys.list, map_cons, RateLimitSettings.requestLimit, keys.source_key]
  refine congrArg (List.cons _) (map_congr_left fun credential hmem => ?_)
  rw [RateLimitSettings.requestLimit,
    keys.credential_key credential (mem_toList.mp hmem), if_pos rfl]

theorem authRetry_spec (h : Shares cfg now used r t) (keys : List String) :
    (authRetryAfter now keys r).isNone = keys.all fun key => !t.locked now key := by
  have hfold : ∀ (keys : List String) (retry : Nat),
      0 < (keys.map (LimitKey.mk .authLockout)).foldl (fun retry key =>
        let ttl := r.pttl now key
        if ttl = -1 then max retry 1
        else if 0 < ttl then max retry (max (ceilSeconds ttl.toNat) 1)
        else retry) retry ↔ 0 < retry ∨ ∃ key ∈ keys, t.locked now key = true := by
    intro keys
    induction keys with
    | nil => simp
    | cons key keys ih =>
      intro retry
      have hpttl : r.pttl now ⟨.authLockout, key⟩ ≠ -1 ∧
          (0 < r.pttl now ⟨.authLockout, key⟩ ↔ t.locked now key = true) := by
        rw [Redis.pttl, h.locks key, Tally.locked]
        cases t.locks key with
        | none => simp
        | some expiry =>
          simp only [map_some, any_some, decide_eq_true_eq]
          split <;> omega
      rw [map_cons, foldl_cons, ih, exists_mem_cons_iff]
      simp only [if_neg hpttl.1]
      split
      next hlocked => exact ⟨fun _ => .inr (.inl (hpttl.2.mp hlocked)), fun _ => .inl (by omega)⟩
      next hfree =>
        have hnot : t.locked now key = false :=
          Bool.eq_false_iff.mpr fun hl => hfree (hpttl.2.mpr hl)
        simp only [hnot, Bool.false_eq_true, false_or]
  have hretry := hfold keys 0
  simp only [lt_irrefl, false_or] at hretry
  rw [authRetryAfter, orNone, authRetryScript, Bool.eq_iff_iff]
  split
  next hzero =>
    refine ⟨fun _ => List.all_eq_true.mpr fun key hkey => ?_, fun _ => rfl⟩
    have hnot : t.locked now key = false := Bool.eq_false_iff.mpr fun hl =>
      absurd hzero (Nat.ne_of_gt (hretry.mpr ⟨key, hkey, hl⟩))
    rw [hnot]
    rfl
  next hsome =>
    refine ⟨fun hn => (nomatch hn), fun hall => ?_⟩
    rcases hretry.mp (Nat.pos_of_ne_zero hsome) with ⟨key, hkey, hl⟩
    have := List.all_eq_true.mp hall key hkey
    rw [hl] at this
    exact Bool.noConfusion this

theorem clearAuth_spec (h : Shares cfg now used r t) (keys : RateKeys) :
    Shares cfg now used (clearAuth keys.credential.toList r)
      (t.forgiven keys.credential.toList) := by
  cases keys.credential with
  | none =>
    have hsame : t.forgiven (none : Option String).toList = t := by simp [Tally.forgiven]
    rw [hsame]
    exact h
  | some credential =>
    have hzsets : ∀ k : LimitKey, (clearAuth [credential] r).zsets k =
        if k = ⟨.authFailures, credential⟩ ∨ k = ⟨.authLockout, credential⟩ then ZSet.empty
        else r.zsets k := by
      intro k
      simp only [clearAuth, flatMap_cons, flatMap_nil, append_nil, deleteScript,
        foldl_cons, foldl_nil, Redis.del, update_apply]
      split <;> split <;> simp_all
    refine ⟨h.requests.of_zsets fun key => ?_, h.runs.of_zsets fun key => ?_, fun key => ?_,
      fun key => ?_⟩
    · exact (hzsets _).trans (if_neg (by simp))
    · exact (hzsets _).trans (if_neg (by simp))
    · change ZTracks _ _ _ ((clearAuth [credential] r).zsets _)
        (if key ∈ [credential] then [] else t.failures key)
      rw [hzsets]
      by_cases heq : key = credential
      · rw [if_pos (.inl (by rw [heq])), if_pos (mem_singleton.mpr heq)]
        exact ztracks_empty rfl
      · rw [if_neg (by simp [heq]), if_neg (by simp [heq])]
        exact h.failures key
    · change (clearAuth [credential] r).locks _ =
        Option.map some (if key ∈ [credential] then none else t.locks key)
      simp only [clearAuth, flatMap_cons, flatMap_nil, append_nil, deleteScript,
        foldl_cons, foldl_nil, Redis.del, update_apply, mem_singleton,
        LimitKey.mk.injEq, true_and, reduceCtorEq, false_and, if_false]
      split
      · rfl
      · exact h.locks key

theorem Shares.answered {c : LimitCall} (h : Shares cfg c.now used r t) (hfresh : c.token ∉ used) :
    (sharedAnswer cfg c r).1.isNone = (policyAnswer cfg c t).1 ∧
      Shares cfg c.now (c.token :: used) (sharedAnswer cfg c r).2 (policyAnswer cfg c t).2 := by
  have hused : ∀ token ∈ used, token ∈ c.token :: used := fun _ => mem_cons_of_mem _
  have hlater := h.later le_rfl hused
  unfold sharedAnswer policyAnswer
  rcases hquery : c.query with _ | _ | _ | outcome
  · have hcheck := @checkWindow_spec _ _ _ _ _ _ cfg.requestLimit _ _ requestLimit_pos c.keys.list_nodup
      hfresh h.requests
    rw [← keyedLimits_eq] at hcheck
    refine ⟨hcheck.1, hcheck.2.1, hlater.runs.of_zsets fun key => hcheck.2.2.1 _ (fun heq => (nomatch heq)),
      hlater.failures.of_zsets fun key => hcheck.2.2.1 _ (fun heq => (nomatch heq)), fun key => ?_⟩
    exact (congrFun hcheck.2.2.2 _).trans (h.locks key)
  · have hcheck := @checkWindow_spec _ _ _ _ _ _ (fun _ => cfg.runLimit) _ _ (fun _ => runLimit_pos)
      c.keys.list_nodup hfresh h.runs
    refine ⟨hcheck.1, hlater.requests.of_zsets fun key => hcheck.2.2.1 _ (fun heq => (nomatch heq)), hcheck.2.1,
      hlater.failures.of_zsets fun key => hcheck.2.2.1 _ (fun heq => (nomatch heq)), fun key => ?_⟩
    exact (congrFun hcheck.2.2.2 _).trans (h.locks key)
  · exact ⟨authRetry_spec h c.keys.list, hlater⟩
  · cases outcome with
    | unauthorized =>
      have hscript := @authFailureScript_spec _ _ (c.token :: used) _
        (max cfg.authFailures.1 1) cfg.lockout failureWindow_pos
        mem_cons_self c.keys.list r t.failures c.keys.list_nodup
        (fun key _ => not_mem_used h.failures hfresh key) hlater.failures
      have hlimit : max cfg.authFailures.1 1 = cfg.authFailures.1 :=
        Nat.max_eq_left cfg.authFailures.2.1
      rw [hlimit] at hscript
      refine ⟨rfl, hlater.requests.of_zsets fun key => ?_, hlater.runs.of_zsets fun key => ?_, ?_,
        fun key => ?_⟩
      · simp only [recordAuthResultShared, recordAuthFailure, hlimit]
        exact hscript.2.1 _ (fun heq => (nomatch heq))
      · simp only [recordAuthResultShared, recordAuthFailure, hlimit]
        exact hscript.2.1 _ (fun heq => (nomatch heq))
      · simp only [recordAuthResultShared, recordAuthFailure, hlimit]
        exact hscript.1
      · simp only [recordAuthResultShared, recordAuthFailure, hlimit]
        refine (hscript.2.2 key).trans ?_
        rw [h.locks key]
        simp only [Tally.refused, apply_ite (Option.map some), map_some]
    | authenticated => exact ⟨rfl, clearAuth_spec hlater c.keys⟩
    | other => exact ⟨rfl, hlater⟩

end Apex.App
