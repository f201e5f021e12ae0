import Apex.Core.Talk
import Apex.Theory.TestScope.Scopes

/-!
# Binding A Thread Once

Calls that bind scopes to threads, and others that only read, ask the database in any
order. A thread is not bound or it is bound to one scope, with its header and exactly its
rows, and what is bound stays. So a call that finds a binding may rely on it for good,
and returns only if it is its own.

In such a state the query that counts rows, the code that compares them with the
document, and the rule that every application must be accessible say the same.

## Main definitions

* `Unbound`, `Bound`: What the tables hold of a thread.
* `bindingSystem`: The calls over the tables.

## Theorems

* `participantVisibility_iff`, `accessibleThread_iff`: Who may see a thread.
* `thread_access_settled`: What is decided about a bound thread is decided for good.
-/

namespace Apex.Services.TestScope

open List Option
open Domain

variable (digest : Json → String)

def Unbound (s : BindingStore) (threadId : String) : Prop :=
  s.headers threadId = [] ∧ s.members threadId = []

/-- A thread is bound to a scope: one header, its digest, and exactly the rows. -/
def Bound (s : BindingStore) (threadId : String) (scope : TestScopeV1) : Prop :=
  s.headers threadId = [bindingOf digest threadId scope] ∧
    s.members threadId = participantsOf threadId scope

/-- Every thread is bound or not; and what is bound stays. -/
def bindings : Growth BindingStore where
  sound s := ∀ threadId, Unbound s threadId ∨ ∃ scope, Bound digest s threadId scope
  later s s' := ∀ threadId scope, Bound digest s threadId scope → Bound digest s' threadId scope
  refl _ _ _ h := h
  trans h h' threadId scope hbound := h' threadId scope (h threadId scope hbound)

/-- A call: a scope is bound, or something is read. -/
inductive BindingCall where
  | persist (threadId : String) (scope : TestScopeV1)
  | read

def fits : BindingCall → BindingReq → Prop
  | .persist threadId scope, .commit binding rows =>
    binding = bindingOf digest threadId scope ∧ rows = participantsOf threadId scope
  | .read, .commit _ _ => False
  | _, .getBinding _ => True
  | _, .selectParticipants _ => True

def begins : BindingCall → Program BindingReq BindingAns (Except String Unit) → Prop
  | .persist threadId scope, p => p = (persistTestScope digest threadId scope).run
  | .read, p => p.uses (fits digest .read)

/-- Any number of calls, each of which may be begun again. -/
def bindingSystem {ι : Type} (calls : ι → BindingCall) :
    System BindingStore ι BindingReq BindingAns (Except String Unit) where
  respond _ s r a s' := s.responds r a s'
  start i s p s' := s' = s ∧ begins digest (calls i) p

variable {digest}

variable {s s' : BindingStore} {threadId : String} {scope : TestScopeV1} {call : BindingCall}
  {r : BindingReq}

theorem Bound.sameScope {a b : TestScopeV1} (ha : Bound digest s threadId a)
    (hb : Bound digest s threadId b) : SameScope a b := by
  have hheader := ha.1.symm.trans hb.1
  exact sameScope_of_canonicalScope (congrArg RunScopeBinding.scope (singleton_inj.mp hheader))

theorem Bound.not_unbound (h : Bound digest s threadId scope) : ¬ Unbound s threadId := by
  intro hnone
  exact cons_ne_nil _ _ (h.1.symm.trans hnone.1)

theorem headers_eq_nil (h : ((s.bindings.map RunScopeBinding.threadId).contains threadId) = false) :
    s.headers threadId = [] := by
  refine filter_eq_nil_iff.mpr fun b hb hsame => ?_
  rw [contains_eq_mem, decide_eq_false_iff_not] at h
  exact h (List.mem_map.mpr ⟨b, hb, beq_iff_eq.mp hsame⟩)

theorem insert_headers (s : BindingStore) (key threadId : String) (scope : TestScopeV1) :
    (s.insert (bindingOf digest key scope) (participantsOf key scope)).headers threadId =
      s.headers threadId ++ if key = threadId then [bindingOf digest key scope] else [] := by
  rw [BindingStore.headers, BindingStore.insert, filter_append]
  congr 1
  by_cases hsame : key = threadId
  · rw [if_pos hsame]
    exact filter_eq_self.mpr fun b hb => mem_singleton.mp hb ▸ beq_iff_eq.mpr hsame
  · rw [if_neg hsame]
    refine filter_eq_nil_iff.mpr fun b hb h => hsame ?_
    rw [mem_singleton.mp hb] at h
    exact beq_iff_eq.mp h

theorem insert_members (s : BindingStore) (key threadId : String) (scope : TestScopeV1) :
    (s.insert (bindingOf digest key scope) (participantsOf key scope)).members threadId =
      s.members threadId ++ if key = threadId then participantsOf key scope else [] := by
  rw [BindingStore.members, BindingStore.insert, filter_append]
  congr 1
  have hkeys : ∀ p ∈ participantsOf key scope, p.threadId = key := by
    intro p hp
    rcases List.mem_map.mp hp with ⟨q, _, rfl⟩
    rfl
  by_cases hsame : key = threadId
  · rw [if_pos hsame]
    exact filter_eq_self.mpr fun p hp => beq_iff_eq.mpr ((hkeys p hp).trans hsame)
  · rw [if_neg hsame]
    exact filter_eq_nil_iff.mpr fun p hp h =>
      hsame ((hkeys p hp).symm.trans (beq_iff_eq.mp h))

/-- A thread that was not bound is bound to a scope, and no other thread is touched. -/
structure BindsTo (digest : Json → String) (s s' : BindingStore) (threadId : String)
    (scope : TestScopeV1) : Prop where
  before : Unbound s threadId
  after : Bound digest s' threadId scope
  others : ∀ other, other ≠ threadId →
    s'.headers other = s.headers other ∧ s'.members other = s.members other

theorem insert_bindsTo (hsound : (bindings digest).sound s)
    (hfree : s.clashes (bindingOf digest threadId scope) (participantsOf threadId scope) = false) :
    BindsTo digest s (s.insert (bindingOf digest threadId scope) (participantsOf threadId scope))
      threadId scope := by
  have hbefore : Unbound s threadId := by
    rcases hsound threadId with hnone | ⟨other, hbound⟩
    · exact hnone
    · rw [BindingStore.clashes, Bool.or_eq_false_iff] at hfree
      have hnil := headers_eq_nil hfree.1
      exact absurd (hbound.1.symm.trans hnil) (cons_ne_nil _ _)
  refine ⟨hbefore, ?_, fun other hother => ?_⟩
  · rw [Bound, insert_headers, insert_members, if_pos rfl, if_pos rfl, hbefore.1, hbefore.2,
      nil_append, nil_append]
    exact ⟨rfl, rfl⟩
  · rw [insert_headers, insert_members, if_neg (Ne.symm hother), if_neg (Ne.symm hother),
      append_nil, append_nil]
    exact ⟨rfl, rfl⟩

theorem BindsTo.sound (h : BindsTo digest s s' threadId scope)
    (hsound : (bindings digest).sound s) :
    (bindings digest).sound s' := by
  intro other
  by_cases hsame : other = threadId
  · rw [hsame]
    exact Or.inr ⟨scope, h.after⟩
  · rw [Unbound, (h.others other hsame).1, (h.others other hsame).2]
    refine (hsound other).imp id fun ⟨bound, hbound⟩ => ⟨bound, ?_⟩
    rw [Bound, (h.others other hsame).1, (h.others other hsame).2]
    exact hbound

theorem BindsTo.later (h : BindsTo digest s s' threadId scope) : (bindings digest).later s s' := by
  intro other bound hbound
  by_cases hsame : other = threadId
  · exact absurd h.before (hsame ▸ hbound.not_unbound)
  · rw [Bound, (h.others other hsame).1, (h.others other hsame).2]
    exact hbound

theorem responds_changes {a : BindingAns r} (hsound : (bindings digest).sound s)
    (hfits : fits digest call r) (h : s.responds r a s') :
    s' = s ∨ ∃ threadId scope, call = .persist threadId scope ∧
      BindsTo digest s s' threadId scope := by
  cases r with
  | getBinding threadId => exact Or.inl h.1
  | selectParticipants threadId => exact Or.inl h.1
  | commit binding rows =>
    cases call with
    | read => exact hfits.elim
    | persist threadId scope =>
      rcases hfits with ⟨rfl, rfl⟩
      cases a with
      | committed =>
        rcases h with ⟨hfree, rfl⟩
        exact Or.inr ⟨threadId, scope, rfl, insert_bindsTo hsound hfree⟩
      | integrityError => exact Or.inl h.2
      | failed =>
        rcases h with rfl | ⟨hfree, rfl⟩
        · exact Or.inl rfl
        · exact Or.inr ⟨threadId, scope, rfl, insert_bindsTo hsound hfree⟩

theorem responds_grown {a : BindingAns r} (hsound : (bindings digest).sound s)
    (hfits : fits digest call r)
    (h : s.responds r a s') : (bindings digest).sound s' ∧ (bindings digest).later s s' := by
  rcases responds_changes hsound hfits h with rfl | ⟨threadId, scope, -, hbinds⟩
  · exact ⟨hsound, (bindings digest).refl s'⟩
  · exact ⟨hbinds.sound hsound, hbinds.later⟩

/-- What a call returns: the scope that is bound is its own. -/
def boundTo (digest : Json → String) (threadId : String) (scope : TestScopeV1)
    (s : BindingStore) (_ : Unit) : Prop :=
  ∃ stored, Bound digest s threadId stored ∧ SameScope stored scope

/-- What a call has read of a header, and may rely on. -/
def Header (digest : Json → String) (threadId : String) (binding : Option RunScopeBinding)
    (s : BindingStore) : Prop :=
  ∀ b, binding = some b → ∃ stored, Bound digest s threadId stored ∧
    b = bindingOf digest threadId stored

theorem Header.later {binding : Option RunScopeBinding} (h : Header digest threadId binding s)
    (hlater : (bindings digest).later s s') :
    Header digest threadId binding s' := by
  intro b hb
  rcases h b hb with ⟨stored, hbound, heq⟩
  exact ⟨stored, hlater threadId stored hbound, heq⟩

theorem header_of_head? (hsound : (bindings digest).sound s) :
    Header digest threadId (s.headers threadId).head? s := by
  intro b hb
  rcases hsound threadId with hnone | ⟨stored, hbound⟩
  · rw [hnone.1] at hb
    exact nomatch hb
  · rw [hbound.1] at hb
    exact ⟨stored, hbound, (some.inj hb).symm⟩

section Call

variable {threadId : String} {scope : TestScopeV1} {s : BindingStore}

theorem mustEqual_assures {binding : Option RunScopeBinding} {rows : List RunParticipant}
    (hheader : Header digest threadId binding s) :
    (mustEqual digest binding rows scope).run.assures (bindings digest) BindingStore.responds
      (fits digest (.persist threadId scope)) (Action.whenOk (boundTo digest threadId scope)) s := by
  refine Action.settle_assures fun existing hverified => Action.raiseWhen_assures fun hequal => ?_
  cases binding with
  | none => exact nomatch hverified
  | some b =>
    rcases hheader b rfl with ⟨stored, hbound, rfl⟩
    rw [verifiedBinding_bindingOf hverified, canonicalScope_sorted, bne_eq_false_iff_eq] at hequal
    exact ⟨stored, hbound, sameScope_of_canonicalScope hequal⟩

theorem reading_assures {f : Option RunScopeBinding → List RunParticipant → BindingM Unit}
    (h : ∀ s' binding rows, Header digest threadId binding s' →
      (f binding rows).run.assures (bindings digest) BindingStore.responds
        (fits digest (.persist threadId scope)) (Action.whenOk (boundTo digest threadId scope)) s') :
    (getBinding threadId >>= fun binding =>
      selectParticipants threadId >>= fun rows => f binding rows).run.assures (bindings digest)
        BindingStore.responds (fits digest (.persist threadId scope))
        (Action.whenOk (boundTo digest threadId scope)) s := by
  refine Action.ask_assures trivial fun s' binding s'' hsound _ hanswer hsound' _ => ?_
  rcases hanswer with ⟨rfl, rfl⟩
  have hheader : Header digest threadId _ s'' := header_of_head? hsound
  refine Action.ask_assures trivial fun t rows t' _ hlater hanswer' _ hlater' => ?_
  exact h t' _ rows (hheader.later ((bindings digest).trans hlater hlater'))

theorem persistTestScope_assures : (persistTestScope digest threadId scope).run.assures
    (bindings digest) BindingStore.responds (fits digest (.persist threadId scope))
    (Action.whenOk (boundTo digest threadId scope)) s := by
  refine Action.settle_assures fun key hkey => ?_
  have hsame : key = threadId := by
    rw [threadKey, ite_error_ok] at hkey
    exact (Except.ok.inj hkey.2).symm
  subst hsame
  refine reading_assures fun s' binding rows hheader => ?_
  by_cases hfound : (binding.isSome || !rows.isEmpty) = true
  · rw [if_pos hfound]
    exact mustEqual_assures hheader
  · rw [if_neg hfound]
    refine Action.ask_assures ⟨rfl, rfl⟩ fun t outcome t' hsound _ hanswer _ _ => ?_
    cases outcome with
    | committed =>
      rcases hanswer with ⟨hfree, rfl⟩
      exact Action.whenOk_ok ⟨scope, (insert_bindsTo hsound hfree).after, .refl _, rfl, rfl⟩
    | failed => exact Action.whenOk_error
    | integrityError => exact reading_assures fun _ _ _ hheader' => mustEqual_assures hheader'

end Call

theorem loadPersistedTestScope_reads (threadId : String) :
    (loadPersistedTestScope digest threadId).run.uses (fits digest .read) := by
  refine Action.bind_uses Action.settle_uses fun key => ?_
  refine Action.ask_uses trivial fun binding => Action.ask_uses trivial fun rows => ?_
  refine Action.ite_uses trivial ?_
  exact Action.bind_uses Action.settle_uses fun scope => trivial

section Visible

variable {s : BindingStore} {threadId : String} {identity : Auth.ConsumerIdentity}

/-- A thread is not bound, or every application of its scope is accessible. -/
def MayAccess (digest : Json → String) (s : BindingStore) (identity : Auth.ConsumerIdentity)
    (threadId : String) : Prop :=
  Unbound s threadId ∨
    ∃ scope, Bound digest s threadId scope ∧ allowsTestScope identity scope = true

theorem allowsTestScope_unscoped (hunscoped : identity.isUnscoped = true) (scope : TestScopeV1) :
    allowsTestScope identity scope = true := by
  refine List.all_eq_true.mpr fun p _ => ?_
  rw [Auth.ConsumerIdentity.allowsApp, hunscoped, Bool.true_or]

theorem mayAccess_unscoped (hsound : (bindings digest).sound s)
    (hunscoped : identity.isUnscoped = true) : MayAccess digest s identity threadId := by
  refine (hsound threadId).imp id fun ⟨scope, hbound⟩ => ⟨scope, hbound, ?_⟩
  exact allowsTestScope_unscoped hunscoped scope

theorem mayAccess_iff {scope : TestScopeV1} (hbound : Bound digest s threadId scope) :
    MayAccess digest s identity threadId ↔ allowsTestScope identity scope = true := by
  constructor
  · rintro (hnone | ⟨other, hother, hallowed⟩)
    · exact absurd hnone hbound.not_unbound
    · refine List.all_eq_true.mpr fun p hp => List.all_eq_true.mp hallowed p ?_
      exact (hother.sameScope hbound).participants.mem_iff.mpr hp
  · exact fun hallowed => Or.inr ⟨scope, hbound, hallowed⟩

theorem allowedRow_eq (hscoped : identity.isUnscoped = false) (p : RunParticipant) :
    allowedRow identity.scopes p = identity.allowsApp p.projectId (some p.applicationId) := by
  rw [Auth.ConsumerIdentity.allowsApp, hscoped, Bool.false_or]
  refine congrArg (any identity.scopes) (funext fun scope => ?_)
  rcases scope with ⟨project, _ | app⟩
  · simp only [isNone_none, Bool.true_or, Bool.and_true]
    exact Bool.beq_comm
  · simp only [isNone_some, Bool.false_or, map_some, some_beq_some]
    rw [Bool.beq_comm, Bool.beq_comm (a := p.applicationId)]

theorem participantVisibility_iff (hsound : (bindings digest).sound s) :
    participantVisibility s (visibleScopes identity) threadId = true ↔
      MayAccess digest s identity threadId := by
  cases hunscoped : identity.isUnscoped with
  | true =>
    rw [visibleScopes, if_pos hunscoped]
    exact iff_of_true rfl (mayAccess_unscoped hsound hunscoped)
  | false =>
    rw [visibleScopes, if_neg (by rw [hunscoped]; exact Bool.false_ne_true)]
    rcases hsound threadId with hnone | ⟨scope, hbound⟩
    · refine iff_of_true ?_ (Or.inl hnone)
      simp only [participantVisibility, hnone.1, hnone.2]
      rfl
    · rw [mayAccess_iff hbound]
      have hcomplete : ((s.headers threadId).any fun b => decide (0 < b.participantCount)
          && b.participantCount == (s.members b.threadId).length) = true := by
        rw [hbound.1, any_cons, Bool.or_eq_true]
        refine Or.inl (Bool.and_eq_true_iff.mpr ⟨decide_eq_true scope.topology.nonempty, ?_⟩)
        change (scope.participants.length == (s.members threadId).length) = true
        rw [hbound.2, participantsOf, List.length_map]
        exact beq_self_eq_true _
      simp only [participantVisibility, hcomplete, Bool.true_or, Bool.and_true, hbound.2]
      rw [not_any_eq_all_not, List.all_eq_true, participantsOf, List.forall_mem_map,
        allowsTestScope, List.all_eq_true]
      refine forall₂_congr fun p _ => ?_
      rw [Bool.not_not, allowedRow_eq hunscoped]

theorem accessibleThread_iff (hsound : (bindings digest).sound s) :
    accessibleThread digest identity (s.headers threadId).head? (s.members threadId) none = true ↔
      MayAccess digest s identity threadId := by
  rcases hsound threadId with hnone | ⟨scope, hbound⟩
  · refine iff_of_true ?_ (Or.inl hnone)
    rw [hnone.1, hnone.2]
    rfl
  · rw [mayAccess_iff hbound, accessibleThread, hbound.1, head?_cons,
      verifiedBinding_complete (Perm.of_eq hbound.2), isNone_some, Bool.false_and,
      if_neg Bool.false_ne_true]
    simp only [Bool.true_and]
    rw [allowsTestScope, allowsTestScope, List.all_eq_true, List.all_eq_true]
    exact forall_congr' fun p => imp_congr_left (sorted_same scope).participants.mem_iff

theorem accessibleThreadIds_eq (hsound : (bindings digest).sound s) (threads : List String) :
    accessibleThreadIds digest s identity (threads.map fun threadId => (threadId, none)) =
      threads.filter (participantVisibility s (visibleScopes identity)) := by
  rw [accessibleThreadIds]
  cases hunscoped : identity.isUnscoped with
  | true =>
    rw [if_pos rfl, List.map_map, filter_eq_self.mpr fun threadId _ =>
      (participantVisibility_iff hsound).mpr (mayAccess_unscoped hsound hunscoped)]
    exact List.map_id _
  | false =>
    rw [if_neg Bool.false_ne_true, List.filter_map, List.map_map]
    refine (List.map_id _).trans (filter_congr fun threadId _ => ?_)
    rw [Bool.eq_iff_iff, participantVisibility_iff hsound]
    exact accessibleThread_iff hsound

/-- What a caller expects of a thread: nothing, that it is not bound, or what it is bound to. -/
def Expects (digest : Json → String) (s : BindingStore) (threadId : String) : Expectation → Prop
  | none => True
  | some .null => Unbound s threadId
  | some v => ∃ scope stored, modelValidate v = some scope ∧ Bound digest s threadId stored ∧
      SameScope scope stored

theorem accessibleThread_expects (hsound : (bindings digest).sound s) (expected : Expectation) :
    accessibleThread digest identity (s.headers threadId).head? (s.members threadId) expected =
        true ↔ MayAccess digest s identity threadId ∧ Expects digest s threadId expected := by
  cases expected with
  | none => exact (accessibleThread_iff hsound).trans (and_iff_left trivial).symm
  | some v =>
    rcases hsound threadId with hnone | ⟨scope, hbound⟩
    · have hmay : MayAccess digest s identity threadId := Or.inl hnone
      have hfree : ∀ stored, ¬ Bound digest s threadId stored := fun _ h => h.not_unbound hnone
      rw [accessibleThread, hnone.1, hnone.2, and_iff_right hmay]
      cases v <;> simp [Expects, hnone, hfree]
    · have hverdict : _ ↔ MayAccess digest s identity threadId := accessibleThread_iff hsound
      rw [accessibleThread, hbound.1, head?_cons, verifiedBinding_complete (Perm.of_eq hbound.2),
        isNone_some, Bool.false_and, if_neg Bool.false_ne_true] at hverdict ⊢
      simp only [Bool.true_and, Bool.and_eq_true] at hverdict ⊢
      rw [hverdict, and_comm, canonicalScope_sorted]
      refine and_congr_right fun _ => ?_
      cases v with
      | null => exact iff_of_false Bool.false_ne_true hbound.not_unbound
      | _ =>
        simp only [Option.any_eq_true, Expects, beq_iff_eq, canonicalScope_eq_iff]
        refine exists_congr fun other => ⟨fun h => ⟨scope, h.1, hbound, h.2⟩, ?_⟩
        rintro ⟨stored, hread, hstored, hsame⟩
        refine ⟨hread, canonicalScope_eq_iff.mp ((canonicalScope_eq_iff.mpr hsame).trans ?_)⟩
        exact canonicalScope_eq_iff.mpr (hstored.sameScope hbound)

theorem canAccessThread_eq (expected : Expectation) :
    canAccessThread digest s identity threadId expected = (threadKey threadId).map fun _ =>
      identity.isUnscoped || accessibleThread digest identity (s.headers threadId).head?
        (s.members threadId) expected := by
  rw [canAccessThread]
  cases hkey : threadKey threadId with
  | error e => rfl
  | ok key =>
    rw [threadKey, ite_error_ok, Except.ok.injEq] at hkey
    rw [← hkey.2]
    refine congrArg Except.ok ?_
    rw [accessibleThreadIds]
    cases identity.isUnscoped with
    | true => simp
    | false =>
      simp only [Bool.false_eq_true, if_false, filter_singleton, Bool.false_or]
      cases accessibleThread digest identity _ _ expected <;> simp

end Visible

/-- What holds of a run of calls.

    * `once`, `complete`: A thread has one header at most; it is not bound, or bound to one
      scope.
    * `kept`: What is bound before an answer stays bound.
    * `binds`: An answer that changes anything binds the thread of its call.
    * `returns`: A call returns only if the scope that is stored is its own.
    * `refused`: A call with another scope than the stored one changes nothing.
    * `visible`, `selected`: The query, the code and the rule agree. -/
structure Immutable {ι : Type} (digest : Json → String) (calls : ι → BindingCall)
    (events : List (System.Event BindingStore ι BindingReq BindingAns))
    (t : Team BindingStore ι BindingReq BindingAns (Except String Unit)) : Prop where
  once : ∀ threadId, (t.state.headers threadId).length ≤ 1
  complete : ∀ threadId, Unbound t.state threadId ∨ ∃ scope, Bound digest t.state threadId scope
  kept : ∀ e ∈ events, ∀ threadId scope, Bound digest e.before threadId scope →
    Bound digest e.after threadId scope ∧ Bound digest t.state threadId scope
  binds : ∀ e ∈ events, e.after = e.before ∨ ∃ threadId scope,
    calls e.worker = .persist threadId scope ∧ BindsTo digest e.before e.after threadId scope
  returns : ∀ i threadId scope, calls i = .persist threadId scope →
    t.running i = some (.done (.ok ())) → boundTo digest threadId scope t.state ()
  refused : ∀ i threadId scope stored, calls i = .persist threadId scope →
    Bound digest t.state threadId stored → ¬ SameScope stored scope →
      (∀ e ∈ events, e.worker = i → e.after = e.before) ∧ t.running i ≠ some (.done (.ok ()))
  visible : ∀ identity threadId,
    participantVisibility t.state (visibleScopes identity) threadId = true ↔
      MayAccess digest t.state identity threadId
  selected : ∀ identity (threads : List String),
    accessibleThreadIds digest t.state identity (threads.map fun threadId => (threadId, none)) =
      threads.filter (participantVisibility t.state (visibleScopes identity))

def promised (digest : Json → String) :
    BindingCall → BindingStore → Except String Unit → Prop
  | .persist threadId scope => Action.whenOk (boundTo digest threadId scope)
  | .read => fun _ _ => True

theorem promised_later (call : BindingCall) (s s' : BindingStore) (result : Except String Unit)
    (hlater : (bindings digest).later s s') (h : promised digest call s result) :
    promised digest call s' result := by
  cases call with
  | read => exact trivial
  | persist threadId scope =>
    intro u hu
    rcases h u hu with ⟨stored, hbound, hsame⟩
    exact ⟨stored, hlater threadId stored hbound, hsame⟩

theorem begins_assures {p : Program BindingReq BindingAns (Except String Unit)} (s : BindingStore)
    (hstart : begins digest call p) :
    p.assures (bindings digest) BindingStore.responds (fits digest call) (promised digest call) s := by
  cases call with
  | persist threadId scope =>
    have hp : p = (persistTestScope digest threadId scope).run := hstart
    rw [hp]
    exact persistTestScope_assures
  | read => exact Program.assures_of_uses hstart (fun _ _ => trivial) s

variable {ι : Type} [DecidableEq ι]

/-- In every interleaving of calls, what a thread is bound to is immutable, and decides who may
    see it. -/
theorem test_scope_immutable (digest : Json → String) (calls : ι → BindingCall)
    (events : List (System.Event BindingStore ι BindingReq BindingAns))
    (t : Team BindingStore ι BindingReq BindingAns (Except String Unit))
    (hrun : (bindingSystem digest calls).Run .empty events t) :
    Immutable digest calls events t := by
  have hassured := @System.Run.assured _ _ _ _ _ _ (bindings digest)
    (bindingSystem digest calls) (fun i => fits digest (calls i)) (fun i => promised digest (calls i)) _
    (fun _ => Or.inl ⟨rfl, rfl⟩) (fun i => promised_later (calls i))
    (fun i s p s' _ hstart => ⟨hstart.1, begins_assures s hstart.2⟩)
    (fun i s r a s' hsound hfits h => responds_grown hsound hfits h) events t hrun
  rcases hassured with ⟨hsound, hevents, hcalls⟩
  have hbinds : ∀ e ∈ events, e.after = e.before ∨ ∃ threadId scope,
      calls e.worker = .persist threadId scope ∧
        BindsTo digest e.before e.after threadId scope := fun e he =>
    responds_changes (hevents e he).sound (hevents e he).fits (hevents e he).answered
  have hreturns : ∀ i threadId scope, calls i = .persist threadId scope →
      t.running i = some (.done (.ok ())) → boundTo digest threadId scope t.state () := by
    intro i threadId scope hcall hdone
    have hpromised : promised digest (calls i) t.state (.ok ()) := hcalls i _ hdone
    rw [hcall] at hpromised
    exact hpromised () rfl
  refine ⟨fun threadId => ?_, hsound, fun e he threadId scope hbound => ?_, hbinds, hreturns,
    fun i threadId scope stored hcall hstored hother => ⟨fun e he hworker => ?_, fun hdone => ?_⟩,
    fun identity threadId => participantVisibility_iff hsound,
    fun identity threads => accessibleThreadIds_eq hsound threads⟩
  · rcases hsound threadId with hnone | ⟨scope, hbound⟩
    · rw [hnone.1]
      exact Nat.zero_le 1
    · rw [hbound.1]
      exact Nat.le_refl 1
  · have hafter := (hevents e he).grown threadId scope hbound
    exact ⟨hafter, (hevents e he).later threadId scope hafter⟩
  · -- What the call binds stays bound, so it would be what is stored.
    rcases hbinds e he with hsame | ⟨thread, bound, hcall', hbind⟩
    · exact hsame
    · rw [hworker, hcall] at hcall'
      rcases BindingCall.persist.inj hcall' with ⟨rfl, rfl⟩
      have hlast := (hevents e he).later _ _ hbind.after
      exact absurd (hstored.sameScope hlast) hother
  · rcases hreturns i threadId scope hcall hdone with ⟨bound, hbound, hsame⟩
    have hstoredSame := hstored.sameScope hbound
    exact hother ⟨hstoredSame.participants.trans hsame.participants,
      hstoredSame.primary.trans hsame.primary, hstoredSame.entry.trans hsame.entry⟩

def loneScope : TestScopeV1 where
  participants := [{
    id := ⟨"api", by decide, by decide, by decide⟩
    projectId := ⟨"shop", by decide, by decide, by decide, by decide⟩
    applicationId := ⟨"checkout", by decide, by decide, by decide, by decide⟩
    environmentId := ⟨"env-1", by decide, by decide, by decide⟩
    layer := .backend }]
  primaryParticipantId := ⟨"api", by decide, by decide, by decide⟩
  trafficEntryParticipantId := none
  topology := by decide

def someDigest (_ : Json) : String := "0f5a"

/-- What a call asks and is answered where nothing is bound. -/
def bindingTalk : List ((r : BindingReq) × BindingAns r) := [
  ⟨.getBinding "thread", (none : Option RunScopeBinding)⟩,
  ⟨.selectParticipants "thread", ([] : List RunParticipant)⟩,
  ⟨.commit (bindingOf someDigest "thread" loneScope) (participantsOf "thread" loneScope),
    CommitOutcome.committed⟩]

/-- A call binds the scope to a thread, and returns. -/
theorem test_scope_bound : ∃ events t,
    (bindingSystem someDigest fun _ : Unit => .persist "thread" loneScope).Run
        .empty events t ∧
      t.running () = some (.done (.ok ())) ∧
      Immutable someDigest (fun _ => .persist "thread" loneScope) events t := by
  have hidle : (bindingSystem someDigest fun _ : Unit => .persist "thread" loneScope).Run
      .empty [] ⟨.empty, Function.update (fun _ => none) () none⟩ := by
    rw [Function.update_eq_self]
    exact .idle
  have hkey : threadKey "thread" = .ok "thread" := by decide
  have hconverses : (persistTestScope someDigest "thread" loneScope).run.converses bindingTalk
      (.done (.ok ())) :=
    Action.settle_converses hkey (Action.ask_converses (Action.ask_converses ⟨_, rfl, rfl⟩))
  have hhears : (bindingSystem someDigest fun _ : Unit => .persist "thread" loneScope).Hears ()
      .empty bindingTalk (BindingStore.empty.insert (bindingOf someDigest "thread" loneScope)
        (participantsOf "thread" loneScope)) :=
    ⟨.empty, ⟨rfl, rfl⟩, .empty, ⟨rfl, .refl _⟩, _, ⟨by decide, rfl⟩, rfl⟩
  rcases hidle.call ⟨rfl, rfl⟩ hconverses hhears with ⟨events, hrun, -⟩
  exact ⟨_, _, hrun, rfl, test_scope_immutable _ _ _ _ hrun⟩

end Apex.Services.TestScope
