import Apex.Theory.ApexLoad.Durations

/-!
# The Approved Workload

A request asks for exactly the users of the specification, and for exactly its durations
where these are printed with all of their digits. A test that the comparison accepts has the
approved workload.

## Main definitions

* `HasWorkload`: A test with the script, the load and the goals of a specification.
* `CarriesWorkload`: A request that carries a specification's workload.

## Theorems

* `splitVusers_spec`: The users are split evenly and none is added or lost.
* `accepted_hasWorkload`: What the comparison accepts.
-/

namespace Apex.Adapters.ApexLoad

open List

theorem sum_split (b : Int) (r n : Nat) :
    ((range n).map fun index : Nat => b + if (index : Int) < r then 1 else 0).sum =
      n * b + min (n : Int) r := by
  induction n with
  | zero =>
    simp only [range_zero, map_nil, sum_nil]
    omega
  | succ n ih =>
    rw [range_succ, map_append, sum_append, ih, map_singleton, sum_singleton]
    push_cast
    rw [add_mul, one_mul]
    split_ifs <;> omega

theorem splitVusers_spec {total : Int} {n : Nat} (hn : 1 ≤ n) (htotal : (n : Int) ≤ total) :
    ∃ counts, splitVusers total n = .ok counts ∧ counts.length = n ∧ (∀ x ∈ counts, 1 ≤ x) ∧
      (∀ x ∈ counts, ∀ y ∈ counts, x ≤ y + 1) ∧ counts.sum = total := by
  have hpos : (0 : Int) < n := by omega
  have hbase : 1 ≤ total / n := (Int.le_ediv_iff_mul_le hpos).mpr (by omega)
  have hrange : ∀ x ∈ evenSplit total n, total / n ≤ x ∧ x ≤ total / n + 1 := by
    intro x hx
    rcases List.mem_map.mp hx with ⟨index, _, rfl⟩
    split_ifs <;> omega
  refine ⟨evenSplit total n, ?_, ?_, ?_, ?_, ?_⟩
  · rw [splitVusers, if_neg (by omega), if_neg (by omega)]
  · rw [evenSplit, List.length_map, length_range]
  · intro x hx
    have h := hrange x hx
    omega
  · intro x hx y hy
    have h := hrange x hx
    have h' := hrange y hy
    omega
  · have hmod : ((total % n).toNat : Int) = total % n :=
      Int.toNat_of_nonneg (Int.emod_nonneg _ (by omega))
    have hsum := sum_split (total / n) (total % n).toNat n
    rw [hmod] at hsum
    have hlt : total % n < n := Int.emod_lt_of_pos _ hpos
    rw [evenSplit, hsum, min_eq_right (Int.le_of_lt hlt), Int.mul_ediv_add_emod]

def groupsOf (scriptIds : List String) (split : List Int) (ramp : String) : List Group :=
  (scriptIds.zip split).zipIdx.map fun entry =>
    { name := s!"group-{entry.2 + 1}", scriptId := entry.1.1, vusers := entry.1.2, rampUp := ramp }

section Groups

variable {scriptIds : List String} {split : List Int} {ramp : String}

theorem groupsOf_scriptIds (hlen : scriptIds.length = split.length) :
    (groupsOf scriptIds split ramp).map Group.scriptId = scriptIds := by
  have h : (groupsOf scriptIds split ramp).map Group.scriptId =
      ((scriptIds.zip split).zipIdx.map Prod.fst).map Prod.fst := by
    rw [groupsOf, List.map_map, List.map_map]
    rfl
  rw [h, zipIdx_map_fst, map_fst_zip (Nat.le_of_eq hlen)]

theorem groupsOf_vusers (ramp : String) (hlen : scriptIds.length = split.length) :
    (groupsOf scriptIds split ramp).map Group.vusers = split := by
  have h : (groupsOf scriptIds split ramp).map Group.vusers =
      ((scriptIds.zip split).zipIdx.map Prod.fst).map Prod.snd := by
    rw [groupsOf, List.map_map, List.map_map]
    rfl
  rw [h, zipIdx_map_fst, map_snd_zip (Nat.le_of_eq hlen.symm)]

theorem groupsOf_rampUp : ∀ g ∈ groupsOf scriptIds split ramp, g.rampUp = ramp := by
  intro g hg
  rcases List.mem_map.mp hg with ⟨entry, _, rfl⟩
  rfl

end Groups

theorem testRequestBody_ok (name : String) (spec : LoadTestSpec) {scriptIds : List String}
    (hids : 1 ≤ scriptIds.length) (hle : (scriptIds.length : Int) ≤ spec.vusers) :
    ∃ split, splitVusers spec.vusers scriptIds.length = .ok split ∧
      testRequestBody name spec scriptIds = .ok
        ⟨name, String.ofList (durationChars spec.durationS),
          groupsOf scriptIds split (String.ofList (durationChars spec.rampS)),
          goalConfigFromSlas spec.slas⟩ := by
  have hmillion : (86400 : ℚ) < 10 ^ 6 := by norm_num
  have hramp := format_ok spec.rampS_bounds.1 (lt_of_le_of_lt spec.rampS_bounds.2 hmillion)
  have hduration := format_ok spec.durationS_bounds.1.le
    (lt_of_le_of_lt spec.durationS_bounds.2 hmillion)
  rcases splitVusers_spec hids hle with ⟨split, hsplit, _⟩
  refine ⟨split, hsplit, ?_⟩
  rw [testRequestBody, hramp, hduration, hsplit]
  rfl

/-- An object with exactly the goals, apart from fields that are empty. -/
def HasGoals (goals : List (String × ℚ)) (actual : ExactJson) : Prop :=
  ∃ items, actual = .dict items ∧
    (∀ goal ∈ goals, ∃ v, items.lookup goal.1 = some v ∧ v.number? = some goal.2) ∧
    ∀ item ∈ items, (∃ q, (item.1, q) ∈ goals) ∨ emptySerializedField item.2 [.key item.1] = true

theorem matchesItems_goals (goals : List (String × ℚ)) (items : Items) (path : List PathStep) :
    matchesItems (goals.map fun goal => (goal.1, .float goal.2)) items path = true ↔
      ∀ goal ∈ goals, ∃ v, items.lookup goal.1 = some v ∧ v.number? = some goal.2 := by
  induction goals with
  | nil => exact iff_of_true rfl nofun
  | cons goal goals ih =>
    rw [map_cons, forall_mem_cons]
    simp only [matchesItems, Bool.and_eq_true, ih]
    refine and_congr_left fun _ => ?_
    cases hlookup : items.lookup goal.1 with
    | none => exact iff_of_false nofun nofun
    | some w => simp only [approvedContentMatches, beq_iff_eq, Option.some.injEq, exists_eq_left']

theorem goals_match_iff (goals : List (String × ℚ)) (actual : ExactJson) :
    approvedContentMatches (goalJson goals) actual [] = true ↔ HasGoals goals actual := by
  cases actual with
  | dict items =>
    simp only [goalJson, approvedContentMatches, Bool.and_eq_true, matchesItems_goals]
    constructor
    · rintro ⟨hgoals, hrest⟩
      refine ⟨items, rfl, hgoals, fun item hitem => ?_⟩
      rcases Bool.or_eq_true _ _ ▸ List.all_eq_true.mp hrest item hitem with hany | hempty
      · rcases List.any_eq_true.mp hany with ⟨_, hmem, hkey⟩
        rcases List.mem_map.mp hmem with ⟨goal, hgoal, rfl⟩
        rw [← beq_iff_eq.mp hkey]
        exact .inl ⟨goal.2, hgoal⟩
      · exact .inr hempty
    · rintro ⟨_, hsame, hgoals, hrest⟩
      cases hsame
      refine ⟨hgoals, List.all_eq_true.mpr fun item hitem => ?_⟩
      rw [Bool.or_eq_true]
      rcases hrest item hitem with ⟨q, hq⟩ | hempty
      · exact .inl (List.any_eq_true.mpr ⟨_, List.mem_map_of_mem hq, beq_self_eq_true _⟩)
      · exact .inr hempty
  | _ =>
    refine iff_of_false nofun ?_
    rintro ⟨_, hsame, _⟩
    cases hsame

theorem goalKeys_nodup (slas : Dict ℚ) : ((goalConfigFromSlas slas).map Prod.fst).Nodup := by
  have hsub : Sublist ((goalConfigFromSlas slas).map Prod.fst)
      ["target_average_tps", "p95_latency_ms", "max_error_pct"] := by
    have hone : ∀ (o : Option ℚ) (key : String) (f : ℚ → ℚ),
        Sublist (((o.map fun x => (key, f x)).toList).map Prod.fst) [key] := by
      intro o key f
      cases o with
      | none => exact nil_sublist _
      | some x => exact Sublist.refl _
    simp only [goalConfigFromSlas, map_append]
    exact ((hone _ _ id).append (hone _ _ id)).append (hone _ _ _)
  exact hsub.nodup (by decide)

theorem hasGoals_self (slas : Dict ℚ) :
    HasGoals (goalConfigFromSlas slas) (goalJson (goalConfigFromSlas slas)) := by
  refine ⟨_, rfl, fun goal hgoal => ⟨.float goal.2, ?_, rfl⟩, fun item hitem => ?_⟩
  · refine Dict.lookup_of_mem ?_ (List.mem_map.mpr ⟨goal, hgoal, rfl⟩)
    rw [List.map_map]
    exact goalKeys_nodup slas
  · rcases List.mem_map.mp hitem with ⟨goal, hgoal, rfl⟩
    exact .inl ⟨goal.2, hgoal⟩

def HasWorkload (test : Items) (scriptId : String) (spec : LoadTestSpec) : Prop :=
  ∃ group : Items, test.get "groups" = .list [.dict group] ∧ group.get "script_id" = .str scriptId ∧
    group.get "vusers" = .int spec.vusers ∧
    optionalDuration group "ramp_up" = some spec.rampS ∧
    parseGoDurationS (test.get "duration") = some spec.durationS ∧
    HasGoals (goalConfigFromSlas spec.slas) ((test.get "goal_config").orElse (.dict []))

theorem isText_iff {text : String} {v : ExactJson} : v.isText text = true ↔ v = .str text := by
  cases v with
  | str s => simp only [ExactJson.isText, beq_iff_eq, ExactJson.str.injEq]
  | _ => exact iff_of_false nofun nofun

theorem workloadDiffers_false {test group : Items} {scriptId : String} {spec : LoadTestSpec}
    (h : workloadDiffers test group scriptId (approvedWorkload spec) = false) :
    group.get "script_id" = .str scriptId ∧ group.get "vusers" = .int spec.vusers ∧
      optionalDuration group "ramp_up" = some spec.rampS ∧
      parseGoDurationS (test.get "duration") = some spec.durationS ∧
      HasGoals (goalConfigFromSlas spec.slas) ((test.get "goal_config").orElse (.dict [])) := by
  simp only [workloadDiffers, Bool.or_eq_false_iff, Bool.not_eq_false', bne_eq_false_iff_eq] at h
  rcases h with ⟨⟨⟨⟨⟨⟨hscript, husers⟩, hduration⟩, hramp⟩, hgoals⟩, _⟩, _⟩
  refine ⟨isText_iff.mp hscript, ?_, hramp, hduration, (goals_match_iff _ _).mp hgoals⟩
  split at husers
  · next n heq =>
      rw [heq, beq_iff_eq.mp husers]
      rfl
  · cases husers

theorem accepted_hasWorkload {test : Items} {scriptId : String} {spec : LoadTestSpec} {r : Unit}
    (h : requireApprovedTest test scriptId (approvedWorkload spec) = .ok r) :
    HasWorkload test scriptId spec := by
  unfold requireApprovedTest at h
  split at h
  · next group hgroups =>
      rcases bind_ok.mp h with ⟨_, hdiffers, _⟩
      exact ⟨group, hgroups, workloadDiffers_false ((raiseIf_ok _ _ _).mp hdiffers)⟩
  · cases h

section Echo

variable {name duration ramp scriptId : String} {spec : LoadTestSpec}

def echo (name duration ramp scriptId : String) (spec : LoadTestSpec) : RequestBody where
  name
  duration
  groups := groupsOf [scriptId] [spec.vusers] ramp
  goalConfig := goalConfigFromSlas spec.slas

def echoGroup (ramp scriptId : String) (spec : LoadTestSpec) : Items :=
  [("name", .str s!"group-{0 + 1}"), ("script_id", .str scriptId), ("vusers", .int spec.vusers),
    ("ramp_up", .str ramp)]

theorem echo_groups :
    (echo name duration ramp scriptId spec).items.get "groups" =
      .list [.dict (echoGroup ramp scriptId spec)] := rfl

theorem echo_duration :
    (echo name duration ramp scriptId spec).items.get "duration" = .str duration := rfl

theorem echo_missing {key : String} (hkey : key ∉ ["name", "duration", "groups", "goal_config"]) :
    (echo name duration ramp scriptId spec).items.get key = .null := by
  have hnone : (echo name duration ramp scriptId spec).items.lookup key = none := by
    refine lookup_eq_none_iff.mpr fun item hitem => ?_
    have hmem : item.1 ∈ ["name", "duration", "groups", "goal_config"] := by
      rcases mem_append.mp hitem with hitem | hitem
      · have hkeys := List.mem_map_of_mem (f := Prod.fst) hitem
        exact mem_append_left ["goal_config"] hkeys
      · split_ifs at hitem
        · cases hitem
        · rw [mem_singleton.mp hitem]
          exact mem_append_right ["name", "duration", "groups"] mem_cons_self
    refine bne_iff_ne.mpr fun heq => hkey (heq ▸ hmem)
  rw [Items.get, hnone]
  rfl

theorem echo_goals :
    ((echo name duration ramp scriptId spec).items.get "goal_config").orElse (.dict []) =
      goalJson (goalConfigFromSlas spec.slas) := by
  cases hgoals : goalConfigFromSlas spec.slas with
  | nil =>
    rw [RequestBody.items, echo, hgoals]
    rfl
  | cons goal goals =>
    rw [RequestBody.items, echo, hgoals]
    rfl

theorem echo_overrides :
    overridesRuntime (echo name duration ramp scriptId spec).items = false := by
  refine List.any_eq_false.mpr fun key hkey => ?_
  have hall : runtimeOverrides.all (fun key =>
      !(contains ["name", "duration", "groups", "goal_config"] key)) = true := by decide
  have hnot : key ∉ ["name", "duration", "groups", "goal_config"] := by
    intro hmem
    have hnot := List.all_eq_true.mp hall key hkey
    rw [contains_iff_mem.mpr hmem] at hnot
    cases hnot
  rw [echo_missing hnot]
  exact Bool.false_ne_true

theorem optionalDuration_null {items : Items} {key : String} (h : items.get key = .null) :
    optionalDuration items key = some 0 := by
  rw [optionalDuration, h]
  exact parse_zero

theorem echo_launch : launchDiffers (echo name duration ramp scriptId spec).items = false := by
  rw [launchDiffers, optionalDuration_null (echo_missing (by decide)), echo_missing (by decide),
    echo_missing (by decide)]
  rfl

theorem echo_timing :
    timingDiffers (echoGroup ramp scriptId spec) (approvedWorkload spec) = false := by
  have hstart : optionalDuration (echoGroup ramp scriptId spec) "start_offset" = some 0 :=
    optionalDuration_null rfl
  have hdown : optionalDuration (echoGroup ramp scriptId spec) "ramp_down" = some 0 :=
    optionalDuration_null rfl
  simp only [timingDiffers, any_cons, any_nil, hstart, hdown]
  rfl

section

variable (hduration : parseGoDurationS (.str duration) = some spec.durationS)
  (hramp : parseGoDurationS (.str ramp) = some spec.rampS)

include hduration hramp

theorem echo_workload :
    workloadDiffers (echo name duration ramp scriptId spec).items (echoGroup ramp scriptId spec)
      scriptId (approvedWorkload spec) = false := by
  have hscript : ((echoGroup ramp scriptId spec).get "script_id").isText scriptId = true :=
    isText_iff.mpr rfl
  have husers : (echoGroup ramp scriptId spec).get "vusers" = .int spec.vusers := rfl
  have hrampUp : optionalDuration (echoGroup ramp scriptId spec) "ramp_up" = some spec.rampS := by
    have hget : (echoGroup ramp scriptId spec).get "ramp_up" = .str ramp := rfl
    have htruthy : (ExactJson.str ramp).truthy = true :=
      bne_iff_ne.mpr (ne_empty_of_parse hramp)
    rw [optionalDuration, hget, ExactJson.orElse, if_pos htruthy, hramp]
  have hgoals := (goals_match_iff _ _).mpr (hasGoals_self spec.slas)
  rw [workloadDiffers, hscript, husers, echo_duration, hduration, hrampUp, echo_goals,
    echo_missing (by decide), echo_missing (by decide)]
  simp only [approvedWorkload, hgoals, beq_self_eq_true, bne_self_eq_false, Bool.not_true,
    Bool.or_false]

theorem echo_accepted :
    requireApprovedTest (echo name duration ramp scriptId spec).items scriptId
      (approvedWorkload spec) = .ok () := by
  have hgroup : overridesRuntime (echoGroup ramp scriptId spec) = false := rfl
  rw [requireApprovedTest, echo_groups]
  dsimp only
  rw [echo_workload hduration hramp, echo_overrides, hgroup, echo_launch, echo_timing]
  rfl

end

end Echo

/-- A request that carries a specification's workload: its durations, a group for each script
    in order, the users split evenly among them; with one script the comparison accepts its
    echo, and whatever it accepts has this workload. -/
def CarriesWorkload (name : String) (spec : LoadTestSpec) (scriptIds : List String) : Prop :=
  ∃ body, testRequestBody name spec scriptIds = .ok body ∧
    parseGoDurationS (.str body.duration) = some spec.durationS ∧
    (∀ g ∈ body.groups, parseGoDurationS (.str g.rampUp) = some spec.rampS) ∧
    body.groups.map Group.scriptId = scriptIds ∧
    (∀ g ∈ body.groups, 1 ≤ g.vusers) ∧
    (∀ g ∈ body.groups, ∀ g' ∈ body.groups, g.vusers ≤ g'.vusers + 1) ∧
    (body.groups.map Group.vusers).sum = spec.vusers ∧
    ∀ scriptId, scriptIds = [scriptId] →
      requireApprovedTest body.items scriptId (approvedWorkload spec) = .ok () ∧
      ∀ test, requireApprovedTest test scriptId (approvedWorkload spec) = .ok () →
        HasWorkload test scriptId spec

section Request

variable {name : String} {spec : LoadTestSpec} {scriptIds : List String}

theorem seconds_lt {seconds : ℚ} (h : seconds ≤ 86400) : seconds < 10 ^ 6 :=
  lt_of_le_of_lt h (by norm_num)

theorem exact_of_carries (hids : 1 ≤ scriptIds.length)
    (hle : (scriptIds.length : Int) ≤ spec.vusers) (h : CarriesWorkload name spec scriptIds) :
    Exact spec.durationS ∧ Exact spec.rampS := by
  rcases testRequestBody_ok name spec hids hle with ⟨split, _, hbody⟩
  rcases h with ⟨body, hbody', hparsed, hramps, hscripts, _⟩
  cases hbody.symm.trans hbody'
  refine ⟨(parse_format_iff spec.durationS_bounds.1.le
    (seconds_lt spec.durationS_bounds.2)).mp hparsed, ?_⟩
  cases hgroups : groupsOf scriptIds split (String.ofList (durationChars spec.rampS)) with
  | nil =>
    rw [hgroups] at hscripts
    rw [← hscripts] at hids
    cases hids
  | cons g groups =>
    have hg : g ∈ groupsOf scriptIds split (String.ofList (durationChars spec.rampS)) :=
      hgroups ▸ mem_cons_self
    have hparsedRamp := hramps g hg
    rw [groupsOf_rampUp g hg] at hparsedRamp
    exact (parse_format_iff spec.rampS_bounds.1 (seconds_lt spec.rampS_bounds.2)).mp hparsedRamp

theorem carries_of_exact (hids : 1 ≤ scriptIds.length)
    (hle : (scriptIds.length : Int) ≤ spec.vusers) (hexact : Exact spec.durationS)
    (hexactRamp : Exact spec.rampS) : CarriesWorkload name spec scriptIds := by
  have hduration := (parse_format_iff spec.durationS_bounds.1.le
    (seconds_lt spec.durationS_bounds.2)).mpr hexact
  have hramp := (parse_format_iff spec.rampS_bounds.1
    (seconds_lt spec.rampS_bounds.2)).mpr hexactRamp
  rcases testRequestBody_ok name spec hids hle with ⟨split, hsplit, hbody⟩
  rcases splitVusers_spec hids hle with ⟨split', hsplit', hlen, hmin, heven, hsum⟩
  cases hsplit.symm.trans hsplit'
  have husers := groupsOf_vusers (String.ofList (durationChars spec.rampS)) hlen.symm
  have hmem : ∀ g ∈ groupsOf scriptIds split (String.ofList (durationChars spec.rampS)),
      g.vusers ∈ split := by
    intro g hg
    rw [← husers]
    exact List.mem_map_of_mem hg
  refine ⟨_, hbody, hduration, fun g hg => ?_, groupsOf_scriptIds hlen.symm,
    fun g hg => hmin _ (hmem g hg), fun g hg g' hg' => heven _ (hmem g hg) _ (hmem g' hg'), ?_, ?_⟩
  · rw [groupsOf_rampUp g hg]
    exact hramp
  · exact (congrArg sum husers).trans hsum
  · rintro scriptId rfl
    refine ⟨?_, fun test => accepted_hasWorkload⟩
    have hone : split = [spec.vusers] := by
      rcases length_eq_one_iff.mp hlen with ⟨x, rfl⟩
      rw [← hsum, sum_singleton]
    rw [hone]
    exact echo_accepted hduration hramp

end Request

/-- A request carries the workload exactly if both durations have at most six significant
    digits and are printed without an exponent. -/
theorem workload_carried_iff (name : String) (spec : LoadTestSpec) (scriptIds : List String)
    (hids : 1 ≤ scriptIds.length) (hle : (scriptIds.length : Int) ≤ spec.vusers) :
    CarriesWorkload name spec scriptIds ↔ Exact spec.durationS ∧ Exact spec.rampS :=
  ⟨exact_of_carries hids hle, fun h => carries_of_exact hids hle h.1 h.2⟩

def oneUser (durationS : ℚ) (hpos : 0 < durationS) (hle : durationS ≤ 86400) : LoadTestSpec where
  vusers := 1
  rampS := 0
  durationS
  slas := ∅
  vusers_bounds := by decide
  rampS_bounds := by norm_num
  durationS_bounds := ⟨hpos, hle⟩
  slas_length := by decide
  slas_names := nofun
  slas_values := nofun
  error_rate := nofun

theorem workload_carried_sample :
    CarriesWorkload "run" (oneUser (5 / 2) (by norm_num) (by norm_num)) ["script"] := by
  refine (workload_carried_iff _ _ _ (by decide) (by decide)).mpr
    ⟨⟨⟨25, -1, by norm_num, ?_⟩, .inr ?_⟩, exact_zero⟩
  · norm_num [oneUser]
  · norm_num [oneUser]

theorem not_exact_quarter : ¬ Exact (49381 / 4) := by
  rintro ⟨⟨m, e, hm, hsame⟩, _⟩
  have hm' : (m : ℚ) < 1000000 := by exact_mod_cast hm
  rcases Int.lt_or_le e (-1) with hlt | hle
  · -- A smaller unit would need a larger number.
    have hpow : (10 : ℚ) ^ e ≤ 10 ^ (-2 : Int) := zpow_le_zpow_right₀ (by norm_num) (by omega)
    have hnonneg : (0 : ℚ) ≤ m := Nat.cast_nonneg m
    have hbound : (m : ℚ) * 10 ^ e ≤ 1000000 * 10 ^ (-2 : Int) :=
      mul_le_mul hm'.le hpow (zpow_nonneg (by norm_num) _) (by norm_num)
    rw [← hsame] at hbound
    norm_num at hbound
  · -- Ten times the number is not an integer.
    have hten : (10 : ℚ) ≠ 0 := by norm_num
    have hnat : ((e + 1).toNat : Int) = e + 1 := Int.toNat_of_nonneg (by omega)
    have hinteger : (246905 : ℚ) = ((2 * (m * 10 ^ (e + 1).toNat) : Nat) : ℚ) := by
      push_cast
      rw [← zpow_natCast, hnat, zpow_add_one₀ hten]
      linarith
    have hodd : 246905 = 2 * (m * 10 ^ (e + 1).toNat) := by exact_mod_cast hinteger
    omega

/-- Twelve thousand three hundred and forty-five seconds and a quarter do not come back. -/
theorem workload_not_carried :
    ¬ CarriesWorkload "run" (oneUser (49381 / 4) (by norm_num) (by norm_num)) ["script"] :=
  fun h => not_exact_quarter (exact_of_carries (by decide) (by decide) h).1

end Apex.Adapters.ApexLoad
