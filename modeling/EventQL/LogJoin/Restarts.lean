import EventQL.LogJoin.Sessions
import EventQL.LogJoin.Lifetime
/-!
The sessions `flush` hands on, across restarts of the process.

A restart keeps the store and rebuilds the deadline map with `importTimeoutList`, from the records
it finds: the deadlines are recomputed, in key order, from the time each record holds, so they may
differ from the ones the old instance set. A tracked lifetime (`trackLife`) makes the calls that
return, as a tracked run does, and the restarts, which keep the pending events and the customer keys
of the accepted lines. Its projection is the lifetime (`trackLife_st`).

A restart keeps what the tracked run keeps (`Tracks`) as long as every customer key has a record
beside it: that record's uid is then one the bootstrap gives a deadline entry again. So the hand-off
of `flush_hands_pending` holds after any number of restarts, for uids that do not begin with `__`,
which the bootstrap skips.

Results:
- `trackLife_st`: the state of a tracked lifetime is the lifetime's;
- `trackLife_tracks`: every state of a tracked lifetime with prefix-free uids that do not begin with
  `__` and distinct draws holds what it keeps, and every customer key has a record;
- `restarts_hand_pending`: after such a lifetime, a returning `flush` hands on, at most once per uid,
  the session of each due uid whose latest customer key is non-empty, with exactly its pending
  events;
- `restarts_envelope_written`: after such a lifetime every session a `flush` hands on has an event,
  so its envelope is written exactly when the join target returns and `dry_run` is off;
- `restart_deadlines`: the deadline a restart sets for a uid is computed from the first of its
  records in key order, whose keys end in a random draw, so a restart may postpone a flush.
-/

namespace EventQL.LogJoin

/-! ## Tracked lifetimes -/

/-- a restart of a tracked process: the store kept, the deadline map rebuilt by the bootstrap, the
pending events and the customer keys of the accepted lines as they were -/
def Tracked.restart (t : Tracked) : Tracked :=
  { t with st := resultState (importTimeoutList { St.init with store := t.st.store }) }

/-- a tracked event: a call that returns, tracked as by `trackStep`, or a restart -/
def trackEvent (cfg : Cfg) (t : Tracked) : Event → Option Tracked
  | .call op => trackStep cfg t op
  | .restart => some t.restart

/-- a tracked lifetime, up to its first call that raises -/
def trackLife (cfg : Cfg) (t : Tracked) : List Event → Option Tracked
  | [] => some t
  | ev :: evs => (trackEvent cfg t ev).bind fun t' => trackLife cfg t' evs

/-- the calls of a lifetime -/
def lifeOps (evs : List Event) : List Op :=
  evs.filterMap fun
    | .call op => some op
    | .restart => none

theorem apply_of_step {cfg : Cfg} {st st' : St} {op : Op} (h : step cfg st op = some st') :
    Event.apply cfg st (.call op) = st' := by
  cases op <;> obtain ⟨_, h⟩ := okState_eq_some.1 h <;> simp only [Event.apply, h, resultState]

/-- **The projection is exact.** The state of a tracked lifetime is the lifetime's. -/
theorem trackLife_st (cfg : Cfg) :
    ∀ {evs : List Event} {t t' : Tracked}, trackLife cfg t evs = some t' → t'.st = life cfg t.st evs
  | [], _, _, h => by cases h; rfl
  | .restart :: evs, t, t', h => by
    have h' : trackLife cfg t.restart evs = some t' := h
    have ih := trackLife_st cfg h'
    exact ih
  | .call op :: _, t, _, h => by
    simp only [trackLife, trackEvent, trackStep, Option.bind_eq_some, Option.map_eq_some'] at h
    obtain ⟨_, ⟨st1, hs, rfl⟩, h⟩ := h
    rw [trackLife_st cfg h, Tracked.next_st, ← apply_of_step hs]
    rfl

theorem lifeOps_cons_subset {ev : Event} {evs : List Event} : lifeOps evs ⊆ lifeOps (ev :: evs) := by
  cases ev
  exacts [List.subset_cons_self _ _, List.Subset.refl _]

theorem uid_mem_lifeUids {cfg : Cfg} {evs : List Event} {op : Op} (hop : op ∈ lifeOps evs) {u : String}
    (hu : op.uid? cfg = some u) : u ∈ lifeUids cfg evs := by
  obtain ⟨ev, hev, hop⟩ := List.mem_filterMap.1 hop
  cases ev with
  | call op' => cases hop; exact List.mem_filterMap.2 ⟨_, hev, hu⟩
  | restart => cases hop

/-! ## What a tracked lifetime keeps -/

/-- the store holds what the tracked process keeps, every customer key has a record beside it, and
every pending event is of one of `us` -/
structure TracksLife (us : List String) (t : Tracked) : Prop where
  tracks : Tracks us t
  custRecord : CustRecord t.st.store
  pendingOwned : ∀ p ∈ t.pending, p.1 ∈ us

theorem accept_pending_uid {cfg : Cfg} {t : Tracked} {st' : St} {op : Op} {customerKey body : String}
    {time rnd : UInt64} (hl : op.line? = some (customerKey, time, body, rnd))
    {p : String × UInt64 × TrackedEvent} (hp : p ∈ (t.accept st' (op.accepted? cfg)).pending) :
    p ∈ t.pending ∨ op.uid? cfg = some p.1 := by
  simp only [Op.accepted?, hl] at hp
  split at hp
  · next uid eid evtype hc _ =>
    split_ifs at hp
    · rcases List.mem_append.1 hp with hp | hp
      · exact .inl hp
      · rw [List.mem_singleton] at hp
        subst hp
        exact .inr (by simp [Op.uid?, hl, hc, Except.toOption])
    · exact .inl hp
  · exact .inl hp

section
variable {us : List String} (hpf : PrefixFree us) (hshape : ∀ u ∈ us, UidShape u ∧ beginsWith u "__" = false)
include hshape

/-- a restart keeps what the tracked process keeps: the bootstrap gives a deadline entry back to
every uid of a record, which had one, and to no other -/
theorem TracksLife.restart {t : Tracked} (ht : TracksLife us t) : TracksLife us t.restart := by
  obtain ⟨st', h, hs, -, hback, hown⟩ := ht.tracks.wellFormed.importTimeoutList_ok fun u hu =>
    ⟨(hshape u (ht.tracks.owned u hu)).1.2, (hshape u (ht.tracks.owned u hu)).2⟩
  have hst : t.restart.st = st' := by simp only [Tracked.restart, h, resultState]
  have hrec : ∀ u, recordsOf u t.restart.st = recordsOf u t.st := fun u => by
    simp only [recordsOf, hst, hs]
  refine ⟨⟨?_, fun u hu => ht.tracks.owned u (hback u (hst ▸ hu)), fun u hu => ?_, fun u hu => ?_⟩, ?_,
    ht.pendingOwned⟩
  · rw [hst]; exact ht.tracks.wellFormed.restart ht.custRecord hs hown
  · rw [hst, hs]; exact ht.tracks.customerKey u (hback u (hst ▸ hu))
  · rw [hrec]; exact ht.tracks.records u hu
  · rw [hst, hs]; exact ht.custRecord

include hpf

/-- **One event of a tracked lifetime keeps what it keeps**, and the draws still to come stay
distinct and fresh for the pending events. -/
theorem TracksLife.event {cfg : Cfg} {ev : Event} {evs : List Event} {t t' : Tracked}
    (ht : TracksLife us t) (hus : ∀ op ∈ lifeOps (ev :: evs), ∀ u, op.uid? cfg = some u → u ∈ us)
    (hnd : (runRnds (lifeOps (ev :: evs))).Nodup)
    (hfresh : ∀ r ∈ runRnds (lifeOps (ev :: evs)), ∀ p ∈ t.pending, p.2.1 ≠ r)
    (h : trackEvent cfg t ev = some t') :
    TracksLife us t' ∧ (runRnds (lifeOps evs)).Nodup ∧ ∀ r ∈ runRnds (lifeOps evs), ∀ p ∈ t'.pending, p.2.1 ≠ r := by
  cases ev with
  | restart => cases h; exact ⟨ht.restart hshape, hnd, hfresh⟩
  | call op =>
    simp only [trackEvent, trackStep, Option.map_eq_some'] at h
    obtain ⟨st1, hs, rfl⟩ := h
    have hop : ∀ u, op.uid? cfg = some u → u ∈ us := hus op (List.mem_cons_self _ _)
    change (runRnds (op :: lifeOps evs)).Nodup at hnd
    change ∀ r ∈ runRnds (op :: lifeOps evs), ∀ p ∈ t.pending, p.2.1 ≠ r at hfresh
    rw [runRnds_cons] at hnd hfresh
    rcases step_ok hs with ⟨_, _, _, rnd, hl, hfit, hins⟩ | ⟨target, rnd, s, handed, rfl, hfl⟩
    · simp only [hl, Option.map_some', Option.toList_some, List.singleton_append, List.nodup_cons,
        List.mem_cons, forall_eq_or_imp] at hnd hfresh
      rw [Tracked.next_of_line hl]
      refine ⟨⟨by rw [← Tracked.next_of_line hl]; exact tracks_insert hl hfit hop hfresh.1 ht.tracks hins,
        by rw [Tracked.accept_st]; exact ht.custRecord.line hins, fun p hp => ?_⟩, hnd.2, fun r hr p hp => ?_⟩
      · rcases accept_pending_uid hl hp with hp | hp
        exacts [ht.pendingOwned p hp, hop _ hp]
      · rcases accept_pending hl hp with hp | hp
        · exact hfresh.2 r hr p hp
        · rw [hp]; rintro rfl; exact hnd.1 hr
    · simp only [Op.line?, Option.map_none', Option.toList_none, List.nil_append] at hnd hfresh
      exact ⟨⟨tracks_flush hpf (fun u hu => (hshape u hu).1) ht.tracks hfl,
          ht.custRecord.flushed (fun u hu => (hshape u (ht.tracks.owned u hu)).1.2) hfl,
          fun p hp => ht.pendingOwned p (List.mem_filter.1 hp).1⟩,
        hnd, fun r hr p hp => hfresh r hr p (List.mem_filter.1 hp).1⟩

/-- **Every state of a tracked lifetime keeps what it keeps.** For a lifetime whose uids are among
the prefix-free `us`, '~'-free and not beginning with `__`, and whose draws are distinct and fresh
for the pending events. -/
theorem trackLife_tracks {cfg : Cfg} :
    ∀ {evs : List Event} {t t' : Tracked}, (∀ op ∈ lifeOps evs, ∀ u, op.uid? cfg = some u → u ∈ us) →
      (runRnds (lifeOps evs)).Nodup → (∀ r ∈ runRnds (lifeOps evs), ∀ p ∈ t.pending, p.2.1 ≠ r) →
      TracksLife us t → trackLife cfg t evs = some t' → TracksLife us t'
  | [], _, _, _, _, _, ht, h => by cases h; exact ht
  | _ :: _, _, _, hus, hnd, hfresh, ht, h => by
    obtain ⟨t1, h1, h⟩ := Option.bind_eq_some.1 h
    obtain ⟨ht1, hnd1, hfresh1⟩ := ht.event hpf hshape hus hnd hfresh h1
    exact trackLife_tracks (fun op hop => hus op (lifeOps_cons_subset hop)) hnd1 hfresh1 ht1 h

end

/-- a tracked lifetime from a fresh instance keeps what it keeps, for prefix-free uids that do not
begin with `__` and distinct draws -/
theorem trackLife_init {cfg : Cfg} {evs : List Event} {t : Tracked} (h : trackLife cfg Tracked.init evs = some t)
    (hpf : PrefixFree (lifeUids cfg evs)) (hus : ∀ u ∈ lifeUids cfg evs, beginsWith u "__" = false)
    (hrnd : (runRnds (lifeOps evs)).Nodup) : TracksLife (lifeUids cfg evs) t :=
  trackLife_tracks hpf (fun u hu => ⟨lifeUids_shape hu, hus u hu⟩) (fun _ hop _ hu => uid_mem_lifeUids hop hu)
    hrnd (fun _ _ _ hp => by cases hp) ⟨tracks_init _, (fun _ _ hv => by cases hv), fun _ hp => by cases hp⟩ h

/-! ## The hand-off across restarts -/

theorem HandOff.complete_due {us : List String} {cfg : Cfg} {target : TrackedSession → Except Error String}
    {rnd : String → BitVec 128} {s : UInt64} {t : Tracked} {handed : List TrackedSession} {st' : St}
    (hoff : HandOff us t s handed st') (hf : flush cfg target rnd s t.st = .ok handed st') {u : String}
    (hu : u ∈ t.st.flushTimes.due s) (hc : t.customerKeyOf u ≠ "") : u ∈ handed.map TrackedSession.uid :=
  hoff.complete u hu (fun hk => by
    obtain ⟨tu, hm, hts⟩ := flush_mem_keys hf hk
    exact FlushTimes.not_mem_due hm hts hu) hc

/-- **Sessions stay exact across restarts.** After a tracked lifetime from a fresh instance, with
any number of restarts, whose uids are prefix-free, clear of the envelope keys and do not begin with
`__`, and whose draws are distinct, a returning `flush` hands on at most one session per uid; each
is that of a due uid, with the customer key of the uid's latest accepted line and exactly its
pending events; and every due uid whose latest customer key is non-empty gets one. -/
theorem restarts_hand_pending {cfg : Cfg} {evs : List Event} {t : Tracked}
    (h : trackLife cfg Tracked.init evs = some t) (hpf : PrefixFree (lifeUids cfg evs))
    (henv : ∀ u ∈ lifeUids cfg evs, ClearOfEnvelopes u ∧ beginsWith u "__" = false)
    (hrnd : (runRnds (lifeOps evs)).Nodup) {target : TrackedSession → Except Error String}
    {rnd : String → BitVec 128} {s : UInt64} {handed : List TrackedSession} {st' : St}
    (hf : flush cfg target rnd s t.st = .ok handed st') :
    (handed.map TrackedSession.uid).Nodup ∧
      (∀ S ∈ handed, S.uid ∈ t.st.flushTimes.due s ∧ S.customerKey = t.customerKeyOf S.uid ∧
        S.events.Perm (t.pendingOf S.uid)) ∧
      ∀ u ∈ t.st.flushTimes.due s, t.customerKeyOf u ≠ "" → u ∈ handed.map TrackedSession.uid := by
  have ht := trackLife_init h hpf (fun u hu => (henv u hu).2) hrnd
  have hoff := flush_handOff hpf (fun _ => lifeUids_shape) (fun u hu => (henv u hu).1) ht.tracks hf
  exact ⟨hoff.nodup, fun S hS => ⟨(hoff.handedOk S hS).1, (hoff.handedOk S hS).2.2.1, (hoff.handedOk S hS).2.2.2.1⟩,
    fun _ hu hc => hoff.complete_due hf hu hc⟩

/-- every uid with a deadline entry has a pending event: its customer key has a record beside it,
and its records are its pending events -/
theorem TracksLife.pendingOf_ne_nil {us : List String} {t : Tracked} (ht : TracksLife us t) {u : String}
    (hu : '~' ∉ u.data) (hk : u ∈ t.st.flushTimes.entries.map Prod.fst) : t.pendingOf u ≠ [] := by
  obtain ⟨evtype, r, w, hr⟩ := ht.custRecord u _ (ht.tracks.customerKey u hk)
  have hmem : (eventKey u evtype r, storedEvent u (eventKey u evtype r, w)) ∈
      (recordsOf u t.st).map fun e => (e.1, storedEvent u e) :=
    List.mem_map_of_mem _ (List.mem_filter.2 ⟨hr, by simp [eventKey_beginsWith, eventKey_not_endsWith_cust]⟩)
  obtain ⟨p, hp, -⟩ := List.mem_map.1 ((ht.tracks.records u hu).subset hmem)
  exact List.ne_nil_of_mem (List.mem_map_of_mem (·.2.2) hp)

/-- **Every session handed on has an event.** After such a lifetime, each session a returning
`flush` hands on has at least one event, so `firstSeenTime().get()` in `onSession` never raises:
the session's envelope is written exactly when the join target returns and `dry_run` is off. -/
theorem restarts_envelope_written {cfg : Cfg} {evs : List Event} {t : Tracked}
    (h : trackLife cfg Tracked.init evs = some t) (hpf : PrefixFree (lifeUids cfg evs))
    (henv : ∀ u ∈ lifeUids cfg evs, ClearOfEnvelopes u ∧ beginsWith u "__" = false)
    (hrnd : (runRnds (lifeOps evs)).Nodup) {target : TrackedSession → Except Error String}
    {rnd : String → BitVec 128} {s : UInt64} {handed : List TrackedSession} {st' : St}
    (hf : flush cfg target rnd s t.st = .ok handed st') :
    ∀ S ∈ handed, S.events ≠ [] ∧
      ((envelopeOf cfg target S).isSome ↔ (target S).toOption.isSome ∧ cfg.dryRun = false) := by
  have ht := trackLife_init h hpf (fun u hu => (henv u hu).2) hrnd
  have hoff := flush_handOff hpf (fun _ => lifeUids_shape) (fun u hu => (henv u hu).1) ht.tracks hf
  intro S hS
  obtain ⟨hdue, -, -, hev, -⟩ := hoff.handedOk S hS
  have hk := FlushTimes.mem_of_mem_due hdue
  have hne : S.events ≠ [] := fun h0 =>
    ht.pendingOf_ne_nil (lifeUids_shape (ht.tracks.owned _ hk)).2 hk (by rw [h0] at hev; exact hev.nil_eq.symm)
  obtain ⟨e, es, hes⟩ := List.exists_cons_of_ne_nil hne
  have hfst : S.firstSeenTime.isSome :=
    List.isSome_min?_of_mem (List.mem_map_of_mem (·.time) (hes ▸ List.mem_cons_self e es))
  refine ⟨hne, ?_⟩
  unfold envelopeOf
  rcases target S with _ | _ <;> by_cases hd : cfg.dryRun <;> simp [hd, hfst, Except.toOption]

/-- the lines of `twoUsers` with a restart between them -/
def restartBetween : List Event :=
  [.call (.insertLogline ⟨"CUST1|1000|c=u1~e1&e=q", by decide⟩ 0), .restart,
    .call (.insertLogline ⟨"CUST2|2000|c=u2~e2&e=q", by decide⟩ 1)]

/-- the tracked lifetime `restartBetween` -/
def restartBetweenTracked : Tracked := (trackLife specCfg Tracked.init restartBetween).getD Tracked.init

theorem restartBetween_tracked : trackLife specCfg Tracked.init restartBetween = some restartBetweenTracked := by
  have h : (trackLife specCfg Tracked.init restartBetween).isSome := by decide
  cases hr : trackLife specCfg Tracked.init restartBetween
  · rw [hr] at h; cases h
  · simp [restartBetweenTracked, hr]

/-- the witness: `restartBetween`, flushed at 4000 s when both uids are due -/
theorem restarts_hand_pending_restartBetween :
    (trackLife specCfg Tracked.init restartBetween).isSome ∧ PrefixFree (lifeUids specCfg restartBetween) ∧
      (∀ u ∈ lifeUids specCfg restartBetween, ClearOfEnvelopes u ∧ beginsWith u "__" = false) ∧
      (runRnds (lifeOps restartBetween)).Nodup ∧
      returned (flush specCfg (fun _ => .ok "") (fun _ => 0) 4000000000 restartBetweenTracked.st) =
        some twoSessions ∧
      (twoSessions.map TrackedSession.uid).Nodup ∧
      (∀ S ∈ twoSessions, S.uid ∈ restartBetweenTracked.st.flushTimes.due 4000000000 ∧
        S.customerKey = restartBetweenTracked.customerKeyOf S.uid ∧
        S.events.Perm (restartBetweenTracked.pendingOf S.uid)) ∧
      ∀ u ∈ restartBetweenTracked.st.flushTimes.due 4000000000, restartBetweenTracked.customerKeyOf u ≠ "" →
        u ∈ twoSessions.map TrackedSession.uid :=
  have h : (trackLife specCfg Tracked.init restartBetween).isSome := by decide
  have hpf : PrefixFree (lifeUids specCfg restartBetween) := by decide
  have henv : ∀ u ∈ lifeUids specCfg restartBetween, ClearOfEnvelopes u ∧ beginsWith u "__" = false := by
    decide
  have hrnd : (runRnds (lifeOps restartBetween)).Nodup := by decide
  have hret : returned (flush specCfg (fun _ => .ok "") (fun _ => 0) 4000000000 restartBetweenTracked.st) =
      some twoSessions := by decide
  ⟨h, hpf, henv, hrnd, hret, restarts_hand_pending restartBetween_tracked hpf henv hrnd (ok_of_returned hret)⟩

/-- the witness: the two sessions of `restartBetween` flushed at 4000 s get their envelopes -/
theorem restarts_envelope_written_restartBetween :
    (trackLife specCfg Tracked.init restartBetween).isSome ∧ PrefixFree (lifeUids specCfg restartBetween) ∧
      (∀ u ∈ lifeUids specCfg restartBetween, ClearOfEnvelopes u ∧ beginsWith u "__" = false) ∧
      (runRnds (lifeOps restartBetween)).Nodup ∧
      returned (flush specCfg (fun _ => .ok "") (fun _ => 0) 4000000000 restartBetweenTracked.st) =
        some twoSessions ∧
      ∀ S ∈ twoSessions, S.events ≠ [] ∧ ((envelopeOf specCfg (fun _ => .ok "") S).isSome ↔
        ((fun _ => .ok "") S : Except Error String).toOption.isSome ∧ specCfg.dryRun = false) :=
  have h : (trackLife specCfg Tracked.init restartBetween).isSome := by decide
  have hpf : PrefixFree (lifeUids specCfg restartBetween) := by decide
  have henv : ∀ u ∈ lifeUids specCfg restartBetween, ClearOfEnvelopes u ∧ beginsWith u "__" = false := by
    decide
  have hrnd : (runRnds (lifeOps restartBetween)).Nodup := by decide
  have hret : returned (flush specCfg (fun _ => .ok "") (fun _ => 0) 4000000000 restartBetweenTracked.st) =
      some twoSessions := by decide
  ⟨h, hpf, henv, hrnd, hret, restarts_envelope_written restartBetween_tracked hpf henv hrnd (ok_of_returned hret)⟩

/-! ## The deadlines a restart sets -/

/-- the deadline the bootstrap computes from a record: the seconds its first varint holds, plus the
idle timeout, in microseconds -/
def recordDeadline (value : String) : Option UInt64 :=
  (readVarUInt value.data).toOption.map fun r => (r.1 + kSessionIdleTimeoutSeconds) * kMicrosPerSecond

/-- a key the bootstrap reads as a record of `u`: not skipped, with `u` before its first '~' -/
def importsFor (u key : String) : Bool := !importSkips key && ((⟨key.data.takeWhile (· ≠ '~')⟩ : String) == u)

theorem FlushTimes.find?_emplace (m : FlushTimes) (k u : String) (t : UInt64) :
    (m.emplace k t).find? u = if u = k then (m.find? u).or (some t) else m.find? u := by
  unfold FlushTimes.emplace
  split_ifs with hk hu hu
  · subst hu
    cases hf : m.find? u with
    | none => exact absurd hk (FlushTimes.find?_eq_none.1 hf)
    | some _ => rfl
  · rfl
  · subst hu
    simp [FlushTimes.find?, List.lookup_append, FlushTimes.find?_eq_none.2 hk]
  · have hb : (u == k) = false := by simpa using hu
    simp [FlushTimes.find?, List.lookup_append, List.lookup_cons, hb]

theorem importEntry_find? {key value : String} (st : St)
    (h : importSkips key = false → ∃ secs rest, readVarUInt value.data = .ok (secs, rest)) :
    ∃ st', importEntry key value st = .ok () st' ∧ ∀ u, st'.flushTimes.find? u =
      (st.flushTimes.find? u).or (if importsFor u key then recordDeadline value else none) := by
  unfold importEntry
  by_cases h1 : beginsWith key "__" = true
  · exact ⟨st, by simp [h1], fun u => by simp [importsFor, importSkips, h1]⟩
  by_cases h2 : endsWith key "~cust" = true
  · exact ⟨st, by simp [h1, h2], fun u => by simp [importsFor, importSkips, h2]⟩
  have hsk : importSkips key = false := by simp [importSkips, h1, h2]
  obtain ⟨secs, rest, hr⟩ := h hsk
  refine ⟨{ st with flushTimes := (st.flushTimes.emplace ⟨key.data.takeWhile fun c => c ≠ '~'⟩
    ((secs + kSessionIdleTimeoutSeconds) * kMicrosPerSecond)) }, ?_, fun u => ?_⟩
  · simp [h1, h2, hr, liftExcept, FlushTimes.emplaceIfLater_eq_emplace]
  · rw [FlushTimes.find?_emplace]
    by_cases hu : u = ⟨key.data.takeWhile fun c => c ≠ '~'⟩
    · subst hu; simp [importsFor, hsk, recordDeadline, hr, Except.toOption]
    · have hb : ((⟨key.data.takeWhile fun c => c ≠ '~'⟩ : String) == u) = false := by simpa using Ne.symm hu
      rw [if_neg hu, importsFor, hsk, hb]
      simp

/-- **The scan keeps the first deadline it reads.** Each uid's deadline after the scan is the one it
had, or else the one computed from the first entry the scan reads as its record. -/
theorem importLoop_find? : ∀ (l : List (String × String)) (st : St),
    (∀ e ∈ l, importSkips e.1 = false → ∃ secs rest, readVarUInt e.2.data = .ok (secs, rest)) →
    ∃ st', importLoop l st = .ok () st' ∧ ∀ u, st'.flushTimes.find? u =
      (st.flushTimes.find? u).or ((l.filter fun e => importsFor u e.1).head?.bind fun e => recordDeadline e.2)
  | [], st, _ => ⟨st, rfl, fun u => by simp⟩
  | (key, value) :: rest, st, h => by
    obtain ⟨st1, h1, hf1⟩ := importEntry_find? st (h _ (List.mem_cons_self _ _))
    obtain ⟨st2, h2, hf2⟩ := importLoop_find? rest st1 fun e he => h e (List.mem_cons_of_mem _ he)
    refine ⟨st2, by simp only [importLoop, M.bind_apply, h1, h2], fun u => ?_⟩
    rw [hf2, hf1, List.filter_cons]
    by_cases hk : importsFor u key = true
    · obtain ⟨secs, r, hr⟩ := h _ (List.mem_cons_self _ _) (by simp_all [importsFor])
      cases st.flushTimes.find? u <;> simp [hk, recordDeadline, hr, Except.toOption]
    · simp [hk]

theorem WellFormed.importsFor_eq {st : St} (hw : WellFormed st)
    (hus : ∀ u ∈ st.flushTimes.entries.map Prod.fst, beginsWith u "__" = false) {u : String}
    (hu : '~' ∉ u.data) {e : String × String} (he : e ∈ st.store.entries) :
    importsFor u e.1 = (beginsWith e.1 (u ++ "~") && !endsWith e.1 "~cust") := by
  rcases hw e he with ⟨r, hr⟩ | ⟨w, hs, hwk, hk | ⟨evtype, r, -, hk, -⟩⟩
  · simp only [hr, importsFor, importSkips_envelopeKey, envelopeKey_not_beginsWith, Bool.not_true, Bool.false_and]
  · simp only [hk, importsFor, importSkips, custKey_endsWith, Bool.or_true, Bool.not_true, Bool.false_and, Bool.and_false]
  · rw [hk, importsFor, importSkips_eventKey (hus w hwk), data_eventKey, takeWhile_owner hs.2,
      eventKey_not_endsWith_cust]
    by_cases hwu : w = u
    · subst hwu; simp [eventKey_beginsWith]
    · have hb : beginsWith (eventKey w evtype r) (u ++ "~") = false :=
        Bool.eq_false_iff.2 fun hb => hwu (owner_unique hs.2 hu (eventKey_beginsWith w evtype r) hb)
      simp [hb, hwu]

/-- **The deadlines a restart sets.** On a well-formed store whose uids do not begin with `__`,
the bootstrap of a fresh instance returns, and sets the deadline of each '~'-free uid from the
first of its records in key order: the seconds that record holds, plus the idle timeout, in
microseconds. Record keys end in a random draw, so this is the time of any one of the uid's
pending events: a restart may move a deadline earlier or later than the one the old instance kept. -/
theorem restart_deadlines {st : St} (hw : WellFormed st)
    (hus : ∀ u ∈ st.flushTimes.entries.map Prod.fst, beginsWith u "__" = false) :
    ∃ st', importTimeoutList { St.init with store := st.store } = .ok () st' ∧
      ∀ u, '~' ∉ u.data → st'.flushTimes.find? u = (recordsOf u st).head?.bind fun e => recordDeadline e.2 := by
  obtain ⟨st', h', hf'⟩ := importLoop_find? st.store.entries { St.init with store := st.store }
    fun e he hsk => by obtain ⟨_, -, -, _, _, -, hd⟩ := hw.read_of_not_skipped he hsk; exact hd.2
  refine ⟨st', h', fun u hu => ?_⟩
  rw [hf', recordsOf, List.filter_congr fun e he => hw.importsFor_eq hus hu he]
  rfl

/-- two events of `u1`, at 1000 s and at 2000 s; the later one draws the smaller key -/
def laterFirst : List Op :=
  [.insertLogline ⟨"CUST1|1000|c=u1~e1&e=q", by decide⟩ 5,
    .insertLogline ⟨"CUST1|2000|c=u1~e2&e=q", by decide⟩ 3]

/-- the state `laterFirst` leaves -/
def laterFirstState : St := (run specCfg St.init laterFirst).getD St.init

/-- the witness: the old instance keeps `u1`'s first deadline, (1000 + 1800)·10^6; the restart
reads the record of the event at 2000 s first and postpones it to (2000 + 1800)·10^6 -/
theorem restart_deadlines_laterFirst :
    WellFormed laterFirstState ∧
      (∀ u ∈ laterFirstState.flushTimes.entries.map Prod.fst, beginsWith u "__" = false) ∧
      laterFirstState.flushTimes.find? "u1" = some 2800000000 ∧
      (recordsOf "u1" laterFirstState).head?.bind (fun e => recordDeadline e.2) = some 3800000000 ∧
      ∃ st', importTimeoutList { St.init with store := laterFirstState.store } = .ok () st' ∧
        ∀ u, '~' ∉ u.data → st'.flushTimes.find? u =
          (recordsOf u laterFirstState).head?.bind fun e => recordDeadline e.2 :=
  have hw : WellFormed laterFirstState := run_wellFormed (run_eq_some_getD (by decide))
  have hus : ∀ u ∈ laterFirstState.flushTimes.entries.map Prod.fst, beginsWith u "__" = false := by decide
  ⟨hw, hus, by decide, by decide, restart_deadlines hw hus⟩

end EventQL.LogJoin
