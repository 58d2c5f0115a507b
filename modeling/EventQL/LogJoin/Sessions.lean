import EventQL.LogJoin.Owners
import Mathlib.Data.List.Sort
/-!
The sessions `flush` hands to the join target, against the events a run accepted.

`flushSession` builds its session from the entries its scan visits: the last customer key among
them, and one event per record whose params decode, in key order (`scan_session`).

A tracked run (`Tracked`, `trackStep`, `trackRun`) makes the calls of a run and keeps beside the
state what the spec speaks of: every event accepted and not yet finalized, with its uid and the
number drawn for its key, and the uid and customer key of every accepted line, latest first. An
accepted line adds its event as the spec states it: the time floored to the second, e, eid and the
stored params (`Op.accepted?`). A `flush` finalizes the uids it finds due.

For a run whose uids are prefix-free and whose draws are distinct, the store holds what the
tracked run keeps (`Tracks`): the customer key of every uid with a deadline entry, and for every
uid one record per pending event. If the uids are also clear of the envelope keys, a `flush` hands
on one session for each due uid whose latest customer key is non-empty, with that customer key and
exactly that uid's pending events in the key order of their records, and no other session; every
due uid, handed on or not, leaves neither its deadline entry nor a record behind.

Results:
- `scan_session`: the session of a scan, from the entries it visits;
- `trackRun_run`: the projection of a tracked run is the run;
- `trackRun_tracks`: every state of a tracked run with prefix-free uids and distinct draws holds
  what the tracked run keeps;
- `flush_hands_pending`: what a returning `flush` hands on and what it finalizes, against the
  pending events;
- `accepted_events_lost`: two lines of one uid whose draws coincide leave one event, and a line
  with an empty customer key is accepted and never handed on.
-/

namespace EventQL.LogJoin

/-! ## What the scan reads -/

/-- the customer key `flushSession` reads from an entry, if it is a customer key -/
def storedCustomerKey (e : String × String) : Option String :=
  if endsWith e.1 "~cust" then some e.2 else none

/-- the event `flushSession` reads from the entry `e` of `uid`: none for a customer key, and for a
record whose params do not decode -/
def storedEvent (uid : String) (e : String × String) : Option TrackedEvent :=
  if endsWith e.1 "~cust" then none
  else match readEventHeader e.2 with
    | .ok (time, evid, rest) =>
      (readLogline rest).toOption.map fun logline =>
        ⟨time, ⟨(e.1.data.drop (uid.length + 1)).take 1⟩, evid, logline⟩
    | .error _ => none

theorem readRecord_ok {uid key value : String} {session s' : TrackedSession} {st st' : St}
    (h : readRecord uid key value session st = .ok s' st') :
    s' = { session with
      customerKey := (storedCustomerKey (key, value)).getD session.customerKey,
      events := session.events ++ (storedEvent uid (key, value)).toList } := by
  unfold readRecord at h
  by_cases hc : endsWith key "~cust" = true
  · rw [if_pos hc] at h
    cases h
    simp [storedCustomerKey, storedEvent, hc]
  rw [if_neg hc] at h
  obtain ⟨evtype, st1, hs, h1⟩ := M.bind_ok h
  obtain ⟨⟨time, evid, rest⟩, st2, hr, h2⟩ := M.bind_ok h1
  obtain ⟨hsub, rfl⟩ := liftExcept_eq_ok hs
  obtain ⟨hhead, rfl⟩ := liftExcept_eq_ok hr
  unfold substr at hsub
  split_ifs at hsub
  cases hsub
  dsimp only at h2
  cases hl : readLogline rest <;> simp only [hl] at h2
  · obtain ⟨_, _, _, h3⟩ := M.bind_ok h2
    cases h3
    simp [storedCustomerKey, storedEvent, hc, hhead, hl, Except.toOption]
  · cases h2
    simp [storedCustomerKey, storedEvent, hc, hhead, hl, Except.toOption, TrackedSession.insertLogline]

theorem getLast?_filterMap_cons_getD {α β : Type} (f : α → Option β) (a : α) (l : List α) (d : β) :
    ((a :: l).filterMap f).getLast?.getD d = (l.filterMap f).getLast?.getD ((f a).getD d) := by
  cases h : f a <;> simp [List.filterMap_cons, h, List.getLast?_cons]

/-- the session a returning scan builds: the events of the records it visits, in order, and the last
customer key among them -/
theorem flushSessionLoop_session {uid : String} :
    ∀ {l : List (String × String)} {session s' : TrackedSession} {st st' : St},
      flushSessionLoop uid l session st = .ok s' st' →
      s' = { session with
        customerKey := (((l.takeWhile fun e => beginsWith e.1 uid).filterMap storedCustomerKey).getLast?.getD
          session.customerKey),
        events := session.events ++ (l.takeWhile fun e => beginsWith e.1 uid).filterMap (storedEvent uid) }
  | [], session, _, _, _, h => by cases h; simp
  | (key, value) :: rest, session, s', st, st', h => by
    rw [flushSessionLoop] at h
    split at h
    next hb =>
      obtain ⟨s1, _, hr, h⟩ := M.bind_ok h
      obtain ⟨_, _, _, h⟩ := M.bind_ok h
      have htw : ((key, value) :: rest).takeWhile (fun e => beginsWith e.1 uid) =
          (key, value) :: rest.takeWhile (fun e => beginsWith e.1 uid) := by
        simp [List.takeWhile_cons, hb]
      rw [flushSessionLoop_session h, readRecord_ok hr, htw, getLast?_filterMap_cons_getD]
      cases he : storedEvent uid (key, value) <;> simp [List.filterMap_cons, he]
    next hb => cases h; simp [List.takeWhile_cons, hb]

/-- **The session of a scan.** `flushSession`'s session has the last customer key among the entries
whose key begins with the uid, and the events of those entries, in key order. -/
theorem scan_session {uid : String} {st st' : St} {session : TrackedSession}
    (h : flushSessionLoop uid (st.store.seek uid) ⟨uid, "", []⟩ st = .ok session st') :
    session = ⟨uid, ((st.store.entries.filter fun e => beginsWith e.1 uid).filterMap
        storedCustomerKey).getLast?.getD "",
      (st.store.entries.filter fun e => beginsWith e.1 uid).filterMap (storedEvent uid)⟩ := by
  rw [flushSessionLoop_session h, Store.takeWhile_seek]
  rfl

theorem flushSession_keeps_other {us : List String} {cfg : Cfg}
    {target : TrackedSession → Except Error String} {rnd : BitVec 128} {v u : String} {st st' : St}
    {r : Option TrackedSession} (hpf : PrefixFree us) (hvU : v ∈ us) (hvs : '~' ∉ v.data) (hu : u ∈ us)
    (huv : u ≠ v) (hf : flushSession cfg target rnd v st = .ok r st') {e : String × String}
    (he : beginsWith e.1 (u ++ "~") = true) : e ∈ st'.store.entries ↔ e ∈ st.store.entries := by
  obtain ⟨-, hout, hin⟩ := flushSession_entries hf
  have hbv : beginsWith e.1 v = false := Bool.eq_false_iff.2 fun hb =>
    huv (hpf v hvU u hu (prefix_of_beginsWith hvs he hb)).symm
  have hne : e.1 ≠ envelopeKey rnd := fun h => by rw [h, envelopeKey_not_beginsWith] at he; cases he
  exact ⟨fun h2 => ((hout e h2).resolve_right hne).1, fun h1 => hin e h1 hbv hne⟩

/-! ## Tracked runs -/

/-- a run's state, with the events it accepted that no `flush` has finalized and the customer keys of
its accepted lines -/
structure Tracked where
  st : St
  /-- each accepted event not yet finalized: its uid, the number drawn for its key, the event -/
  pending : List (String × UInt64 × TrackedEvent)
  /-- the uid and customer key of each accepted line, latest first -/
  custs : List (String × String)

/-- a fresh instance over an empty store -/
def Tracked.init : Tracked := ⟨St.init, [], []⟩

/-- the pending events of `u`, in the order they were accepted -/
def Tracked.pendingOf (t : Tracked) (u : String) : List TrackedEvent :=
  (t.pending.filter (·.1 = u)).map (·.2.2)

/-- the customer key of `u`'s latest accepted line, empty when it has none -/
def Tracked.customerKeyOf (t : Tracked) (u : String) : String := (t.custs.lookup u).getD ""

/-- the event an accepted line stands for, as the spec states it: the uid, the customer key, the
number drawn for the record key, and the event with its time floored to the second, its e, its eid
and its stored params -/
def Op.accepted? (cfg : Cfg) (op : Op) : Option (String × String × UInt64 × TrackedEvent) :=
  match op.line? with
  | none => none
  | some (customerKey, time, body, rnd) =>
    match splitC (cfg.parseQueryString body), checkEvtype (cfg.parseQueryString body) with
    | .ok (uid, eid), .ok evtype =>
      if cfg.shard uid then
        some (uid, customerKey, rnd,
          ⟨time / kMicrosPerSecond * kMicrosPerSecond, evtype, eid, storedParams (cfg.parseQueryString body)⟩)
      else none
    | _, _ => none

/-- the record of a line: its event and customer key when it was accepted -/
def Tracked.accept (t : Tracked) (st' : St) : Option (String × String × UInt64 × TrackedEvent) → Tracked
  | some (uid, customerKey, rnd, ev) => ⟨st', t.pending ++ [(uid, rnd, ev)], (uid, customerKey) :: t.custs⟩
  | none => { t with st := st' }

/-- the record of a call that returned with the state `st'`: a `flush` finalizes the uids due
before it ran -/
def Tracked.next (cfg : Cfg) (t : Tracked) (st' : St) : Op → Tracked
  | .flush _ _ s => ⟨st', t.pending.filter fun p => p.1 ∉ t.st.flushTimes.due s, t.custs⟩
  | op => t.accept st' (op.accepted? cfg)

/-- a tracked call -/
def trackStep (cfg : Cfg) (t : Tracked) (op : Op) : Option Tracked :=
  (step cfg t.st op).map fun st' => t.next cfg st' op

/-- a tracked run -/
def trackRun (cfg : Cfg) (t : Tracked) : List Op → Option Tracked
  | [] => some t
  | op :: ops => (trackStep cfg t op).bind fun t' => trackRun cfg t' ops

@[simp] theorem Tracked.accept_st (t : Tracked) (st' : St) (o : Option (String × String × UInt64 × TrackedEvent)) :
    (t.accept st' o).st = st' := by
  rcases o with _ | ⟨_, _, _, _⟩ <;> rfl

@[simp] theorem Tracked.next_st (cfg : Cfg) (t : Tracked) (st' : St) (op : Op) : (t.next cfg st' op).st = st' := by
  cases op <;> simp [Tracked.next]

theorem Tracked.next_of_line {cfg : Cfg} {t : Tracked} {st' : St} {op : Op}
    {line : String × UInt64 × String × UInt64} (hl : op.line? = some line) :
    t.next cfg st' op = t.accept st' (op.accepted? cfg) := by
  cases op <;> simp_all [Op.line?, Tracked.next]

/-- **The projection is exact.** The states of a tracked run are those of the run. -/
theorem trackRun_run (cfg : Cfg) : ∀ (t : Tracked) (ops : List Op),
    (trackRun cfg t ops).map Tracked.st = run cfg t.st ops
  | _, [] => rfl
  | t, op :: ops => by
    simp only [trackRun, run, trackStep]
    cases step cfg t.st op with
    | none => rfl
    | some st' => simpa using trackRun_run cfg (t.next cfg st' op) ops

theorem accepted?_dropped {cfg : Cfg} {op : Op} {customerKey body uid eid : String} {time rnd : UInt64}
    (hl : op.line? = some (customerKey, time, body, rnd))
    (hc : splitC (cfg.parseQueryString body) = .ok (uid, eid)) (hs : cfg.shard uid = false) :
    op.accepted? cfg = none := by
  simp only [Op.accepted?, hl, hc]
  cases checkEvtype (cfg.parseQueryString body) <;> simp [hs]

theorem accepted?_accepted {cfg : Cfg} {op : Op} {customerKey body uid eid evtype : String}
    {time rnd : UInt64} (hl : op.line? = some (customerKey, time, body, rnd))
    (hc : splitC (cfg.parseQueryString body) = .ok (uid, eid)) (hs : cfg.shard uid = true)
    (hev : checkEvtype (cfg.parseQueryString body) = .ok evtype) :
    op.accepted? cfg = some (uid, customerKey, rnd,
      ⟨time / kMicrosPerSecond * kMicrosPerSecond, evtype, eid, storedParams (cfg.parseQueryString body)⟩) := by
  simp [Op.accepted?, hl, hc, hev, hs]

/-! ## The store holds what the tracked run keeps -/

/-- the records of `u`: the entries whose key begins with `<u>~` and is not its customer key -/
def recordsOf (u : String) (st : St) : List (String × String) :=
  st.store.entries.filter fun e => beginsWith e.1 (u ++ "~") && !endsWith e.1 "~cust"

/-- the store holds what the tracked run keeps -/
structure Tracks (us : List String) (t : Tracked) : Prop where
  /-- every entry is one the calls write -/
  wellFormed : WellFormed t.st
  /-- every uid with a deadline entry is one of `us` -/
  owned : ∀ u ∈ t.st.flushTimes.entries.map Prod.fst, u ∈ us
  /-- a uid with a deadline entry has the customer key of its latest accepted line -/
  customerKey : ∀ u ∈ t.st.flushTimes.entries.map Prod.fst,
    (custKey u, t.customerKeyOf u) ∈ t.st.store.entries
  /-- the records of a uid are its pending events, one each, under the key of its draw -/
  records : ∀ u, '~' ∉ u.data → ((recordsOf u t.st).map fun e => (e.1, storedEvent u e)).Perm
    ((t.pending.filter (·.1 = u)).map fun p => (eventKey u p.2.2.evtype p.2.1, some p.2.2))

theorem tracks_init (us : List String) : Tracks us Tracked.init where
  wellFormed := fun _ he => by cases he
  owned := fun _ hu => by cases hu
  customerKey := fun _ hu => by cases hu
  records := fun _ _ => by simp [recordsOf, Tracked.init, St.init, Store.empty]

theorem storedEvent_eventKey {cfg : Cfg} {body uid eid evtype buf : String} {time rnd : UInt64}
    (hfit : body.length < 2 ^ 64) (hc : splitC (cfg.parseQueryString body) = .ok (uid, eid))
    (hev : checkEvtype (cfg.parseQueryString body) = .ok evtype)
    (hbuf : encodeEvent time eid (storedParams (cfg.parseQueryString body)) = .ok buf) :
    storedEvent uid (eventKey uid evtype rnd, buf) =
      some ⟨time / kMicrosPerSecond * kMicrosPerSecond, evtype, eid, storedParams (cfg.parseQueryString body)⟩ := by
  obtain ⟨⟨rest, h1, h2⟩, -⟩ := accepted_reads hfit hc hbuf
  have hlen : evtype.data.length = 1 := by
    have := checkEvtype_ok hev
    simp only [List.mem_cons, List.mem_singleton, List.not_mem_nil, or_false] at this
    rcases this with rfl | rfl | rfl | rfl <;> rfl
  have hkey : ((eventKey uid evtype rnd).data.drop (uid.length + 1)).take 1 = evtype.data := by
    have : (eventKey uid evtype rnd).data = (uid.data ++ ['~']) ++ (evtype.data ++ '~' :: (hex64 rnd).data) := by
      simp [data_eventKey]
    rw [this, show uid.length + 1 = (uid.data ++ ['~']).length by rw [List.length_append]; rfl, List.drop_left,
      List.take_left' hlen]
  unfold storedEvent
  rw [if_neg (by rw [eventKey_not_endsWith_cust]; decide)]
  simp only [h1, h2, Except.toOption, Option.map_some', hkey]

theorem Store.filter_insert_fresh {s : Store} {k v : String} {p : String × String → Bool}
    (hk : ∀ v', (k, v') ∉ s.entries) (hp : p (k, v) = true) :
    ((s.insert k v).entries.filter p).Perm (s.entries.filter p ++ [(k, v)]) := by
  refine (List.perm_ext_iff_of_nodup ((s.insert k v).nodup.filter _)
    ((s.nodup.filter _).append (List.nodup_singleton _) fun e he he' => ?_)).2 fun ⟨k', v'⟩ => ?_
  · rw [List.mem_singleton] at he'
    subst he'
    exact hk v (List.mem_filter.1 he).1
  simp only [List.mem_filter, Store.mem_insert, List.mem_append, List.mem_singleton]
  constructor
  · rintro ⟨h | ⟨he, -⟩, hpe⟩
    exacts [.inr h, .inl ⟨he, hpe⟩]
  · rintro (⟨he, hpe⟩ | h)
    · exact ⟨.inr ⟨he, fun h' => hk v' (h' ▸ he)⟩, hpe⟩
    · exact ⟨.inl h, h ▸ hp⟩

theorem Store.filter_insert_of_not {s : Store} {k v : String} {p : String × String → Bool}
    (hp : ∀ v', p (k, v') = false) : ((s.insert k v).entries.filter p).Perm (s.entries.filter p) := by
  refine (List.perm_ext_iff_of_nodup ((s.insert k v).nodup.filter _) (s.nodup.filter _)).2 fun ⟨k', v'⟩ => ?_
  simp only [List.mem_filter, Store.mem_insert]
  constructor
  · rintro ⟨h | ⟨he, -⟩, hpe⟩
    · cases h; simp [hp] at hpe
    · exact ⟨he, hpe⟩
  · rintro ⟨he, hpe⟩
    exact ⟨.inr ⟨he, by rintro rfl; simp [hp] at hpe⟩, hpe⟩

theorem customerKeyOf_accept (t : Tracked) (st' : St) (uid customerKey u : String) (rnd : UInt64)
    (ev : TrackedEvent) :
    (t.accept st' (some (uid, customerKey, rnd, ev))).customerKeyOf u =
      if u = uid then customerKey else t.customerKeyOf u := by
  by_cases h : u = uid
  · subst h
    simp [Tracked.accept, Tracked.customerKeyOf, List.lookup_cons]
  · simp [Tracked.accept, Tracked.customerKeyOf, List.lookup_cons, beq_false_of_ne h, h]

theorem WellFormed.recordsOf_eq_nil {st : St} (hw : WellFormed st) {u : String} (hu : '~' ∉ u.data)
    (hn : u ∉ st.flushTimes.entries.map Prod.fst) : recordsOf u st = [] :=
  List.filter_eq_nil_iff.2 fun _ he hp => hn (hw.mem_of_beginsWith hu he (Bool.and_eq_true_iff.1 hp).1)

theorem Tracks.eventKey_fresh {us : List String} {t : Tracked} (ht : Tracks us t) {u evtype : String}
    {rnd : UInt64} (hu : '~' ∉ u.data) (hfresh : ∀ p ∈ t.pending, p.2.1 ≠ rnd) (v : String) :
    (eventKey u evtype rnd, v) ∉ t.st.store.entries := by
  intro hv
  have hmem : (eventKey u evtype rnd, storedEvent u (eventKey u evtype rnd, v)) ∈
      (recordsOf u t.st).map fun e => (e.1, storedEvent u e) :=
    List.mem_map_of_mem _ (List.mem_filter.2 ⟨hv, by simp [eventKey_beginsWith, eventKey_not_endsWith_cust]⟩)
  obtain ⟨p, hp, hpk⟩ := List.mem_map.1 ((ht.records u hu).subset hmem)
  exact hfresh p (List.mem_filter.1 hp).1 (eventKey_inj hu hu (Prod.mk.inj hpk).1).2.2

theorem tracks_insert {us : List String} {cfg : Cfg} {t : Tracked} {op : Op} {customerKey body : String}
    {time rnd : UInt64} {st' : St} (hl : op.line? = some (customerKey, time, body, rnd))
    (hfit : body.length < 2 ^ 64) (hus : ∀ u, op.uid? cfg = some u → u ∈ us)
    (hfresh : ∀ p ∈ t.pending, p.2.1 ≠ rnd) (ht : Tracks us t)
    (h : insertLoglineAt cfg rnd customerKey time body t.st = .ok () st') :
    Tracks us (t.next cfg st' op) := by
  have hw := insertLoglineAt_wellFormed hfit ht.wellFormed h
  rw [Tracked.next_of_line hl]
  rcases insertLoglineAt_ok h with ⟨uid, eid, hc, hsh, rfl⟩ | ⟨uid, eid, evtype, buf, hc, hsh, hev, hbuf, rfl⟩
  · rw [accepted?_dropped hl hc hsh]
    exact ⟨hw, ht.owned, ht.customerKey, ht.records⟩
  rw [accepted?_accepted hl hc hsh hev]
  obtain ⟨_, -, -, -, huid⟩ := splitC_ok hc
  refine ⟨hw, fun u hu => ?_, fun u hu => ?_, fun u hu => ?_⟩
  · rcases FlushTimes.mem_emplace.1 hu with hu | rfl
    exacts [ht.owned u hu, hus _ (uid?_of_line hl hc)]
  · rw [customerKeyOf_accept]
    by_cases hu' : u = uid
    · rw [if_pos hu', hu']
      exact Store.mem_insert.2 (.inl rfl)
    rw [if_neg hu']
    have hold := ht.customerKey u ((FlushTimes.mem_emplace.1 hu).resolve_right hu')
    exact Store.mem_insert.2 (.inr ⟨Store.mem_insert.2 (.inr ⟨hold, eventKey_ne_custKey.symm⟩),
      fun h => hu' (custKey_injective h)⟩)
  -- the customer key is no record
  simp only [Tracked.accept]
  have hcust : ∀ _ : String, (beginsWith (custKey uid) (u ++ "~") && !endsWith (custKey uid) "~cust") = false :=
    fun _ => by simp [custKey_endsWith]
  by_cases hu' : u = uid
  · subst hu'
    have hrec : (recordsOf u { t.st with
        store := (t.st.store.insert (eventKey u evtype rnd) buf).insert (custKey u) customerKey }).Perm
        (recordsOf u t.st ++ [(eventKey u evtype rnd, buf)]) :=
      (Store.filter_insert_of_not hcust).trans (Store.filter_insert_fresh (ht.eventKey_fresh hu hfresh) (by
        simp [eventKey_beginsWith, eventKey_not_endsWith_cust]))
    refine (hrec.map _).trans ?_
    rw [List.map_append, List.filter_append, List.map_append]
    refine (ht.records u hu).append ?_
    simp [storedEvent_eventKey hfit hc hev hbuf]
  · have hother : ∀ _ : String, (beginsWith (eventKey uid evtype rnd) (u ++ "~") &&
        !endsWith (eventKey uid evtype rnd) "~cust") = false := fun _ => by
      rw [Bool.and_eq_false_iff, Bool.eq_false_iff]
      exact .inl fun hb => hu' (owner_unique hu huid hb (eventKey_beginsWith _ _ _))
    refine (((Store.filter_insert_of_not hcust).trans (Store.filter_insert_of_not hother)).map _).trans ?_
    simpa [List.filter_append, Ne.symm hu', recordsOf] using ht.records u hu

theorem flush_recordsOf_of_not_due {us : List String} {cfg : Cfg}
    {target : TrackedSession → Except Error String} {rnd : String → BitVec 128} {s : UInt64}
    {st st' : St} {handed : List TrackedSession} (hpf : PrefixFree us) (hshape : ∀ u ∈ us, UidShape u)
    (hus : ∀ u ∈ st.flushTimes.entries.map Prod.fst, u ∈ us) {u : String} {tu : UInt64}
    (hu : (u, tu) ∈ st.flushTimes.entries) (hts : ¬ tu < s) (h : flush cfg target rnd s st = .ok handed st') :
    (recordsOf u st').Perm (recordsOf u st) := by
  refine (List.perm_ext_iff_of_nodup (st'.store.nodup.filter _) (st.store.nodup.filter _)).2
    fun ⟨k, v⟩ => ?_
  simp only [List.mem_filter, Bool.and_eq_true]
  constructor <;> rintro ⟨he, hb, hc⟩
  exacts [⟨(flush_mem_iff_of_not_due hpf hshape hus hu hts h hb).1 he, hb, hc⟩,
    ⟨(flush_mem_iff_of_not_due hpf hshape hus hu hts h hb).2 he, hb, hc⟩]

/-- a returning `flush` drains the due uids, whose pending events the tracked run drops, and keeps
the records and customer keys of the others -/
theorem tracks_flush {us : List String} {cfg : Cfg} {t : Tracked}
    {target : TrackedSession → Except Error String} {rnd : String → BitVec 128} {s : UInt64}
    {handed : List TrackedSession} {st' : St} (hpf : PrefixFree us) (hshape : ∀ u ∈ us, UidShape u)
    (ht : Tracks us t) (h : flush cfg target rnd s t.st = .ok handed st') :
    Tracks us (t.next cfg st' (.flush target rnd s)) := by
  have hw' := flush_wellFormed ht.wellFormed h
  refine ⟨hw', fun u hu => ?_, fun u hu => ?_, fun u hu => ?_⟩
  · obtain ⟨tu, hm, -⟩ := flush_mem_keys h hu
    exact ht.owned u (List.mem_map_of_mem _ hm)
  · obtain ⟨tu, hm, hts⟩ := flush_mem_keys h hu
    exact (flush_mem_iff_of_not_due hpf hshape ht.owned hm hts h (custKey_beginsWith u)).2
      (ht.customerKey u (List.mem_map_of_mem _ hm))
  simp only [Tracked.next]
  by_cases hdue : u ∈ t.st.flushTimes.due s
  · have h1 : recordsOf u st' = [] := List.filter_eq_nil_iff.2 fun e he hp => by
      simp [flush_drains h u hdue e he] at hp
    have h2 : (t.pending.filter fun p => p.1 ∉ t.st.flushTimes.due s).filter (·.1 = u) = [] :=
      List.filter_eq_nil_iff.2 fun p hp hpu => by
        simp only [List.mem_filter, decide_eq_true_eq] at hp hpu
        exact hp.2 (hpu ▸ hdue)
    rw [h1, h2]
    exact List.Perm.nil
  have hfilt : (t.pending.filter fun p => p.1 ∉ t.st.flushTimes.due s).filter (·.1 = u) =
      t.pending.filter (·.1 = u) := by
    rw [List.filter_filter]
    refine List.filter_congr fun p _ => ?_
    by_cases hp : p.1 = u <;> simp [hp, hdue]
  rw [hfilt]
  refine List.Perm.trans (List.Perm.map _ ?_) (ht.records u hu)
  by_cases hk : u ∈ t.st.flushTimes.entries.map Prod.fst
  · obtain ⟨⟨_, tu⟩, hm, rfl⟩ := List.mem_map.1 hk
    exact flush_recordsOf_of_not_due hpf hshape ht.owned hm
      (fun hlt => hdue (FlushTimes.mem_due.2 ⟨tu, hm, hlt⟩)) h
  -- a uid without a deadline entry has no record before or after
  rw [hw'.recordsOf_eq_nil hu fun hu' => ?_, ht.wellFormed.recordsOf_eq_nil hu hk]
  obtain ⟨tu, hm, -⟩ := flush_mem_keys h hu'
  exact hk (List.mem_map_of_mem _ hm)

theorem accept_pending {cfg : Cfg} {t : Tracked} {st' : St} {op : Op} {customerKey body : String}
    {time rnd : UInt64} (hl : op.line? = some (customerKey, time, body, rnd))
    {p : String × UInt64 × TrackedEvent} (hp : p ∈ (t.accept st' (op.accepted? cfg)).pending) :
    p ∈ t.pending ∨ p.2.1 = rnd := by
  simp only [Op.accepted?, hl] at hp
  split at hp
  · split_ifs at hp
    · rcases List.mem_append.1 hp with hp | hp
      exacts [.inl hp, .inr (by simp at hp; simp [hp])]
    · exact .inl hp
  · exact .inl hp

theorem runRnds_cons (op : Op) (ops : List Op) :
    runRnds (op :: ops) = (op.line?.map fun line => line.2.2.2).toList ++ runRnds ops := by
  simp only [runRnds, List.filterMap_cons]
  cases op.line? <;> rfl

/-- **Every state of a tracked run holds what it keeps.** For a run whose uids are among the
prefix-free `us` and whose draws are distinct and fresh for the pending events. -/
theorem trackRun_tracks {cfg : Cfg} {us : List String} (hpf : PrefixFree us)
    (hshape : ∀ u ∈ us, UidShape u) :
    ∀ {ops : List Op} {t t' : Tracked}, (∀ op ∈ ops, ∀ u, op.uid? cfg = some u → u ∈ us) →
      (runRnds ops).Nodup → (∀ r ∈ runRnds ops, ∀ p ∈ t.pending, p.2.1 ≠ r) → Tracks us t →
      trackRun cfg t ops = some t' → Tracks us t'
  | [], _, _, _, _, _, ht, h => by cases h; exact ht
  | op :: ops, t, t', hus, hnd, hfresh, ht, h => by
    simp only [trackRun, trackStep, Option.bind_eq_some, Option.map_eq_some'] at h
    obtain ⟨_, ⟨st1, hs, rfl⟩, h⟩ := h
    have hus' : ∀ o ∈ ops, ∀ u, o.uid? cfg = some u → u ∈ us := fun o ho => hus o (List.mem_cons_of_mem _ ho)
    rw [runRnds_cons] at hnd hfresh
    rcases step_ok hs with ⟨_, _, _, rnd, hl, hfit, hins⟩ | ⟨target, rnd, s, handed, rfl, hfl⟩
    · simp only [hl, Option.map_some', Option.toList_some, List.singleton_append, List.nodup_cons,
        List.mem_cons, forall_eq_or_imp] at hnd hfresh
      refine trackRun_tracks hpf hshape hus' hnd.2 (fun r hr p hp => ?_)
        (tracks_insert hl hfit (hus op (List.mem_cons_self _ _)) hfresh.1 ht hins) h
      rw [Tracked.next_of_line hl] at hp
      rcases accept_pending hl hp with hp | hp
      · exact hfresh.2 r hr p hp
      · rw [hp]; rintro rfl; exact hnd.1 hr
    · simp only [Op.line?, Option.map_none', Option.toList_none, List.nil_append] at hnd hfresh
      exact trackRun_tracks hpf hshape hus' hnd (fun r hr p hp => hfresh r hr p (List.mem_filter.1 hp).1)
        (tracks_flush hpf hshape ht hfl) h

/-! ## What `flush` hands on -/

theorem storedEvent_of_cust {uid : String} {e : String × String} (h : endsWith e.1 "~cust" = true) :
    storedEvent uid e = none := by
  simp [storedEvent, h]

/-- the events of the entries `<v>~...` are the pending events of `v` -/
theorem events_of_tracks {us : List String} {t : Tracked} (ht : Tracks us t) {v : String}
    (hvs : '~' ∉ v.data) :
    ((t.st.store.entries.filter fun e => beginsWith e.1 (v ++ "~")).filterMap (storedEvent v)).Perm
      (t.pendingOf v) := by
  have hrec : (t.st.store.entries.filter fun e => beginsWith e.1 (v ++ "~")).filterMap (storedEvent v) =
      ((recordsOf v t.st).map fun e => (e.1, storedEvent v e)).filterMap Prod.snd := by
    rw [List.filterMap_map, recordsOf, List.filterMap_filter, List.filterMap_filter]
    refine List.filterMap_congr fun e _ => ?_
    by_cases hc : endsWith e.1 "~cust" = true <;> simp [hc, storedEvent_of_cust]
  rw [hrec]
  refine ((ht.records v hvs).filterMap Prod.snd).trans ?_
  rw [List.filterMap_map, Tracked.pendingOf, ← List.filterMap_eq_map]
  rfl

theorem eq_of_sorted_of_mem_iff {l l' : List (String × String)}
    (hl : l.Pairwise fun x y => KeyLt x.1 y.1) (hl' : l'.Pairwise fun x y => KeyLt x.1 y.1)
    (h : ∀ e, e ∈ l ↔ e ∈ l') : l = l' := by
  haveI : IsAntisymm (String × String) fun x y => KeyLt x.1 y.1 :=
    ⟨fun _ _ h1 h2 => absurd (h1.trans h2) (KeyLt.irrefl _)⟩
  exact List.eq_of_perm_of_sorted
    ((List.perm_ext_iff_of_nodup (Store.nodup ⟨l, hl⟩) (Store.nodup ⟨l', hl'⟩)).2 h) hl hl'

/-- the customer key among the entries `<v>~...` is the customer key of `v`'s latest line -/
theorem storedCustomerKey_of_tracks {us : List String} {t : Tracked} (ht : Tracks us t) {v : String}
    (hvs : '~' ∉ v.data) {e : String × String} (he : e ∈ t.st.store.entries)
    (hb : beginsWith e.1 (v ++ "~") = true) {c : String} (hc : storedCustomerKey e = some c) :
    c = t.customerKeyOf v := by
  obtain ⟨k, val⟩ := e
  unfold storedCustomerKey at hc
  split_ifs at hc with hcust
  cases hc
  rcases ht.wellFormed _ he with ⟨r, hr⟩ | ⟨w, hs, hw, hk | ⟨_, _, -, hk, -⟩⟩
  · rw [hr, envelopeKey_not_beginsWith] at hb; cases hb
  · obtain rfl : w = v := owner_unique hs.2 hvs (by rw [hk]; exact custKey_beginsWith w) hb
    dsimp only at hk
    subst hk
    exact Store.eq_of_mem he (ht.customerKey w hw)
  · rw [hk, eventKey_not_endsWith_cust] at hcust; cases hcust

theorem getLast?_getD_of_forall {l : List String} {c d : String} (hc : c ∈ l) (h : ∀ x ∈ l, x = c) :
    l.getLast?.getD d = c := by
  have hne : l ≠ [] := List.ne_nil_of_mem hc
  rw [List.getLast?_eq_getLast l hne, Option.getD_some]
  exact h _ (List.getLast_mem hne)

/-- the session of a uid whose entries are those of the tracked state: the customer key of its
latest line, and the entries it reads -/
theorem session_of_intact {us : List String} {t : Tracked} (ht : Tracks us t) {v : String}
    (hvk : v ∈ t.st.flushTimes.entries.map Prod.fst) (hvs : '~' ∉ v.data) {st : St}
    (hint : ∀ e, beginsWith e.1 (v ++ "~") = true → (e ∈ st.store.entries ↔ e ∈ t.st.store.entries)) :
    ((st.store.entries.filter fun e => beginsWith e.1 (v ++ "~")).filterMap
        storedCustomerKey).getLast?.getD "" = t.customerKeyOf v ∧
      (st.store.entries.filter fun e => beginsWith e.1 (v ++ "~")) =
        t.st.store.entries.filter fun e => beginsWith e.1 (v ++ "~") := by
  refine ⟨getLast?_getD_of_forall ?_ fun x hx => ?_, eq_of_sorted_of_mem_iff
    (st.store.sorted.sublist (List.filter_sublist _)) (t.st.store.sorted.sublist (List.filter_sublist _))
    fun e => by simp only [List.mem_filter]; exact and_congr_left (hint e)⟩
  · refine List.mem_filterMap.2 ⟨(custKey v, t.customerKeyOf v), List.mem_filter.2
      ⟨(hint _ (custKey_beginsWith v)).2 (ht.customerKey v hvk), custKey_beginsWith v⟩, ?_⟩
    simp [storedCustomerKey, custKey_endsWith]
  · obtain ⟨e, he, hx⟩ := List.mem_filterMap.1 hx
    obtain ⟨he, hb⟩ := List.mem_filter.1 he
    exact storedCustomerKey_of_tracks ht hvs ((hint e hb).1 he) hb hx

/-- the scan of a uid reads its own entries only: an entry that begins with it begins with `<uid>~` -/
theorem scan_own_keys {us : List String} {t : Tracked} (ht : Tracks us t) (hpf : PrefixFree us)
    (hshape : ∀ u ∈ us, UidShape u) {v : String} (hvU : v ∈ us) (henv : ClearOfEnvelopes v) {st : St}
    (hfrom : ∀ e ∈ st.store.entries, e ∈ t.st.store.entries ∨ ∃ r, e.1 = envelopeKey r) :
    st.store.entries.filter (fun e => beginsWith e.1 v) =
      st.store.entries.filter (fun e => beginsWith e.1 (v ++ "~")) := by
  refine List.filter_congr fun e he => Bool.eq_iff_iff.2 ⟨fun hb => ?_, beginsWith_of_append⟩
  have hnenv : ∀ r, e.1 ≠ envelopeKey r := fun r h => by
    rw [h, envelopeKey_not_beginsWith_uid henv] at hb; cases hb
  rcases hfrom e he with he | ⟨r, hr⟩
  · rcases ht.wellFormed.owner he with ⟨r, hr⟩ | ⟨w, -, hw, hkw⟩
    · exact absurd hr (hnenv r)
    · rwa [hpf v hvU w (ht.owned w hw) (prefix_of_beginsWith (hshape v hvU).2 hkw hb)]
  · exact absurd hr (hnenv r)

/-- a `flush` of a tracked state, after some of its due entries: the sessions handed on so far, and
the state reached -/
structure HandOff (us : List String) (t : Tracked) (s : UInt64) (handed : List TrackedSession)
    (st : St) : Prop where
  /-- one session per uid -/
  nodup : (handed.map TrackedSession.uid).Nodup
  /-- a session handed on is that of a due uid already flushed, with its latest customer key and
  its pending events, read in the key order of its records -/
  handedOk : ∀ S ∈ handed, S.uid ∈ t.st.flushTimes.due s ∧ S.uid ∉ st.flushTimes.entries.map Prod.fst ∧
    S.customerKey = t.customerKeyOf S.uid ∧ S.events.Perm (t.pendingOf S.uid) ∧
    S.events = (t.st.store.entries.filter fun e => beginsWith e.1 (S.uid ++ "~")).filterMap (storedEvent S.uid)
  keysSub : ∀ u ∈ st.flushTimes.entries.map Prod.fst, u ∈ t.st.flushTimes.entries.map Prod.fst
  /-- a uid not yet flushed has its entries -/
  intact : ∀ u ∈ st.flushTimes.entries.map Prod.fst, ∀ e, beginsWith e.1 (u ++ "~") = true →
    (e ∈ st.store.entries ↔ e ∈ t.st.store.entries)
  /-- a uid flushed has none -/
  drained : ∀ u ∈ t.st.flushTimes.entries.map Prod.fst, u ∉ st.flushTimes.entries.map Prod.fst →
    ∀ e ∈ st.store.entries, beginsWith e.1 (u ++ "~") = false
  /-- a due uid flushed with a non-empty customer key was handed on -/
  complete : ∀ u ∈ t.st.flushTimes.due s, u ∉ st.flushTimes.entries.map Prod.fst →
    t.customerKeyOf u ≠ "" → u ∈ handed.map TrackedSession.uid
  /-- every entry was there before the flush, or is an envelope -/
  fromRun : ∀ e ∈ st.store.entries, e ∈ t.st.store.entries ∨ ∃ r, e.1 = envelopeKey r

theorem handOff_init (us : List String) (t : Tracked) (s : UInt64) : HandOff us t s [] t.st where
  nodup := List.nodup_nil
  handedOk := fun _ h => by cases h
  keysSub := fun _ h => h
  intact := fun _ _ _ _ => Iff.rfl
  drained := fun _ h h' => absurd h h'
  complete := fun _ h h' => absurd (FlushTimes.mem_of_mem_due h) h'
  fromRun := fun _ h => .inl h

/-- the session `flushSession` builds for a deadline uid `v` in a `flush` of a tracked state: if
`v` is not flushed yet, one with the customer key of its latest line and its pending events in the
key order of their records, handed on unless that key is empty; if it is, none -/
theorem handOff_session {us : List String} {cfg : Cfg} {target : TrackedSession → Except Error String}
    {rnd : BitVec 128} {s : UInt64} {t : Tracked} (hpf : PrefixFree us) (hshape : ∀ u ∈ us, UidShape u)
    (henv : ∀ u ∈ us, ClearOfEnvelopes u) (ht : Tracks us t) {v : String}
    (hvk : v ∈ t.st.flushTimes.entries.map Prod.fst) {handed : List TrackedSession} {st1 st2 : St}
    {r : Option TrackedSession} (hP : HandOff us t s handed st1)
    (hf : flushSession cfg target rnd v st1 = .ok r st2) :
    (r = none ∧ (v ∈ st1.flushTimes.entries.map Prod.fst → t.customerKeyOf v = "")) ∨
      ∃ S, r = some S ∧ v ∈ st1.flushTimes.entries.map Prod.fst ∧ S.uid = v ∧
        S.customerKey = t.customerKeyOf v ∧ S.events.Perm (t.pendingOf v) ∧
        S.events = (t.st.store.entries.filter fun e => beginsWith e.1 (v ++ "~")).filterMap (storedEvent v) := by
  obtain ⟨session, n, hl, hr⟩ := flushSession_ok hf
  have hvU := ht.owned v hvk
  have hsess := scan_session hl
  rw [scan_own_keys ht hpf hshape hvU (henv v hvU) hP.fromRun] at hsess
  by_cases hv1 : v ∈ st1.flushTimes.entries.map Prod.fst
  · obtain ⟨hck, hfilt⟩ := session_of_intact ht hvk (hshape v hvU).2 (hP.intact v hv1)
    subst hsess
    split_ifs at hr with h0
    · exact .inl ⟨hr.1, fun _ => hck ▸ String.ext (List.eq_nil_of_length_eq_zero h0)⟩
    · exact .inr ⟨_, hr.1, hv1, rfl, hck, hfilt ▸ events_of_tracks ht (hshape v hvU).2, by rw [hfilt]⟩
  · have hnil : (st1.store.entries.filter fun e => beginsWith e.1 (v ++ "~")) = [] :=
      List.filter_eq_nil_iff.2 fun e he hb => by rw [hP.drained v hvk hv1 e he] at hb; cases hb
    rw [hnil] at hsess
    split_ifs at hr with h0
    · exact .inl ⟨hr.1, fun h => absurd h hv1⟩
    · rw [hsess] at h0; exact absurd rfl h0

/-- one due entry of the loop: its uid is flushed and its session, if any, handed on -/
theorem handOff_step {us : List String} {cfg : Cfg} {target : TrackedSession → Except Error String}
    {rnd : String → BitVec 128} {s : UInt64} {t : Tracked} (hpf : PrefixFree us)
    (hshape : ∀ u ∈ us, UidShape u) (henv : ∀ u ∈ us, ClearOfEnvelopes u) (ht : Tracks us t)
    {v : String} {tv : UInt64} {handed : List TrackedSession} {st1 st2 : St} {r : Option TrackedSession}
    (hv : (v, tv) ∈ t.st.flushTimes.entries) (hts : tv < s) (hP : HandOff us t s handed st1)
    (hf : flushSession cfg target (rnd v) v st1 = .ok r st2) :
    HandOff us t s (handed ++ r.toList) { st2 with flushTimes := st2.flushTimes.erase v } := by
  obtain ⟨hft, hout, -⟩ := flushSession_entries hf
  have hvk : v ∈ t.st.flushTimes.entries.map Prod.fst := List.mem_map_of_mem _ hv
  have hvU := ht.owned v hvk
  have hkeys : ∀ u, u ∈ (st2.flushTimes.erase v).entries.map Prod.fst ↔
      u ∈ st1.flushTimes.entries.map Prod.fst ∧ u ≠ v := fun u => by rw [FlushTimes.mem_erase, hft]
  have hsession := handOff_session hpf hshape henv ht hvk hP hf
  refine ⟨?_, fun S hS => ?_, fun u hu => hP.keysSub u ((hkeys u).1 hu).1, fun u hu e he => ?_,
    fun u hu hn e he => ?_, fun u hu hn hc => ?_, fun e he => ?_⟩
  · rcases hsession with ⟨rfl, -⟩ | ⟨S, rfl, hv1, huid, -⟩
    · simpa using hP.nodup
    · rw [List.map_append, Option.toList_some, List.map_singleton, huid, List.nodup_append]
      refine ⟨hP.nodup, List.nodup_singleton _, fun x hx hx' => ?_⟩
      rw [List.mem_singleton] at hx'
      subst hx'
      obtain ⟨S', hS', rfl⟩ := List.mem_map.1 hx
      exact (hP.handedOk S' hS').2.1 hv1
  · rcases List.mem_append.1 hS with hS | hS
    · exact ⟨(hP.handedOk S hS).1, fun h => (hP.handedOk S hS).2.1 ((hkeys _).1 h).1, (hP.handedOk S hS).2.2⟩
    rcases hsession with ⟨rfl, -⟩ | ⟨S', rfl, -, huid, hck, hevs, hord⟩
    · cases hS
    · rw [Option.toList_some, List.mem_singleton] at hS
      subst hS
      rw [huid]
      exact ⟨FlushTimes.mem_due.2 ⟨tv, hv, hts⟩, fun h => ((hkeys v).1 h).2 rfl, hck, hevs, hord⟩
  · obtain ⟨hu1, huv⟩ := (hkeys u).1 hu
    have huU := ht.owned u (hP.keysSub u hu1)
    exact (flushSession_keeps_other hpf hvU (hshape v hvU).2 huU huv hf he).trans (hP.intact u hu1 e he)
  · by_cases huv : u = v
    · subst huv; exact flushSession_drains hf e he
    rcases hout e he with ⟨he, -⟩ | h
    · exact hP.drained u hu (fun h1 => hn ((hkeys u).2 ⟨h1, huv⟩)) e he
    · rw [h]; exact envelopeKey_not_beginsWith _ _
  · rw [List.map_append, List.mem_append]
    by_cases huv : u = v
    · subst huv
      rcases hsession with ⟨-, hne⟩ | ⟨S, rfl, -, huid, -⟩
      · by_cases hv1 : u ∈ st1.flushTimes.entries.map Prod.fst
        · exact absurd (hne hv1) hc
        · exact .inl (hP.complete u hu hv1 hc)
      · exact .inr (by simp [huid])
    · exact .inl (hP.complete u hu (fun h1 => hn ((hkeys u).2 ⟨h1, huv⟩)) hc)
  · rcases hout e he with ⟨he, -⟩ | h
    exacts [hP.fromRun e he, .inr ⟨_, h⟩]

/-- every session a returning `flush` hands on has a non-empty customer key -/
theorem flush_handed_customerKey {cfg : Cfg} {target : TrackedSession → Except Error String}
    {rnd : String → BitVec 128} {s : UInt64} {st st' : St} {handed : List TrackedSession}
    (h : flush cfg target rnd s st = .ok handed st') : ∀ S ∈ handed, S.customerKey ≠ "" := by
  rw [flush_apply] at h
  simpa using flushLoop_induct (fun handed _ => ∀ S ∈ handed, S.customerKey ≠ "")
    (fun _ _ hd _ r _ _ _ hS hf => by
      obtain ⟨session, n, -, hr⟩ := flushSession_ok hf
      split_ifs at hr with hck
      · rw [hr.1, Option.toList_none, List.append_nil]; exact hS
      · rw [hr.1, Option.toList_some]
        exact fun S hS' => (List.mem_append.1 hS').elim (hS S) fun h1 =>
          (List.mem_singleton.1 h1) ▸ fun h0 => hck (by rw [h0]; rfl))
    [] (fun _ h => by cases h) h

/-- a returning `flush` of a tracked state hands on what `HandOff` says -/
theorem flush_handOff {us : List String} {cfg : Cfg} {target : TrackedSession → Except Error String}
    {rnd : String → BitVec 128} {s : UInt64} {t : Tracked} {handed : List TrackedSession} {st' : St}
    (hpf : PrefixFree us) (hshape : ∀ u ∈ us, UidShape u) (henv : ∀ u ∈ us, ClearOfEnvelopes u)
    (ht : Tracks us t) (h : flush cfg target rnd s t.st = .ok handed st') : HandOff us t s handed st' := by
  rw [flush_apply] at h
  simpa using flushLoop_induct (HandOff us t s)
    (fun _ _ _ _ _ _ hm hts hP hf => handOff_step hpf hshape henv ht hm hts hP hf) [] (handOff_init us t s) h

/-- **Sessions are exact and per-user.** After a tracked run from a fresh instance whose uids are
prefix-free and clear of the envelope keys, and whose draws are distinct, a returning `flush` hands
on at most one session per uid. Each is that of a due uid, with the non-empty customer key of the
uid's latest accepted line, and exactly its pending events, in the key order of their records.
Every due uid is finalized: its deadline and its records are gone, and it was handed on exactly
when its latest customer key is non-empty. -/
theorem flush_hands_pending {cfg : Cfg} {ops : List Op} {t : Tracked}
    (h : trackRun cfg Tracked.init ops = some t) (hpf : PrefixFree (runUids cfg ops))
    (henv : ∀ u ∈ runUids cfg ops, ClearOfEnvelopes u) (hrnd : (runRnds ops).Nodup)
    {target : TrackedSession → Except Error String} {rnd : String → BitVec 128} {s : UInt64}
    {handed : List TrackedSession} {st' : St} (hf : flush cfg target rnd s t.st = .ok handed st') :
    (handed.map TrackedSession.uid).Nodup ∧
      (∀ S ∈ handed, S.uid ∈ t.st.flushTimes.due s ∧ S.customerKey = t.customerKeyOf S.uid ∧
        S.customerKey ≠ "" ∧ S.events.Perm (t.pendingOf S.uid) ∧
        S.events = (t.st.store.entries.filter fun e => beginsWith e.1 (S.uid ++ "~")).filterMap
          (storedEvent S.uid)) ∧
      ∀ u ∈ t.st.flushTimes.due s, u ∉ st'.flushTimes.entries.map Prod.fst ∧
        (∀ e ∈ st'.store.entries, beginsWith e.1 (u ++ "~") = false) ∧
        (u ∈ handed.map TrackedSession.uid ↔ t.customerKeyOf u ≠ "") := by
  have hshape : ∀ u ∈ runUids cfg ops, UidShape u := fun _ => runUids_shape
  have ht := trackRun_tracks hpf hshape (fun op hop _ hu => List.mem_filterMap.2 ⟨op, hop, hu⟩) hrnd
    (fun _ _ _ hp => by cases hp) (tracks_init _) h
  have hoff := flush_handOff hpf hshape henv ht hf
  have hck := flush_handed_customerKey hf
  have hgone : ∀ u ∈ t.st.flushTimes.due s, u ∉ st'.flushTimes.entries.map Prod.fst := fun u hu hk => by
    obtain ⟨tu, hm, hts⟩ := flush_mem_keys hf hk
    exact FlushTimes.not_mem_due hm hts hu
  refine ⟨hoff.nodup, fun S hS => ?_, fun u hu =>
    ⟨hgone u hu, hoff.drained u (FlushTimes.mem_of_mem_due hu) (hgone u hu), fun hm hc => ?_,
      hoff.complete u hu (hgone u hu)⟩⟩
  · obtain ⟨hdue, -, hcku, hevs, hord⟩ := hoff.handedOk S hS
    exact ⟨hdue, hcku, hck S hS, hevs, hord⟩
  · obtain ⟨S, hS, rfl⟩ := List.mem_map.1 hm
    exact hck S hS ((hoff.handedOk S hS).2.2.1.trans hc)

theorem trackRun_eq_some_getD {cfg : Cfg} {t : Tracked} {ops : List Op} (h : (trackRun cfg t ops).isSome) :
    trackRun cfg t ops = some ((trackRun cfg t ops).getD Tracked.init) := by
  cases hr : trackRun cfg t ops
  · simp [hr] at h
  · rfl

/-- the tracked run `twoUsers` -/
def twoUsersTracked : Tracked := (trackRun specCfg Tracked.init twoUsers).getD Tracked.init

/-- the sessions of `u1` and `u2`, each with its one event -/
def twoSessions : List TrackedSession :=
  [⟨"u1", "CUST1", [⟨1000000000, "q", "e1", []⟩]⟩, ⟨"u2", "CUST2", [⟨2000000000, "q", "e2", []⟩]⟩]

/-- the witness: `twoUsers`, flushed at 4000 s when both uids are due -/
theorem flush_hands_pending_twoUsers :
    (trackRun specCfg Tracked.init twoUsers).isSome ∧ PrefixFree (runUids specCfg twoUsers) ∧
      (∀ u ∈ runUids specCfg twoUsers, ClearOfEnvelopes u) ∧ (runRnds twoUsers).Nodup ∧
      returned (flush specCfg (fun _ => .ok "") (fun _ => 0) 4000000000 twoUsersTracked.st) = some twoSessions ∧
      (twoSessions.map TrackedSession.uid).Nodup ∧
      (∀ S ∈ twoSessions, S.uid ∈ twoUsersTracked.st.flushTimes.due 4000000000 ∧
        S.customerKey = twoUsersTracked.customerKeyOf S.uid ∧ S.customerKey ≠ "" ∧
        S.events.Perm (twoUsersTracked.pendingOf S.uid) ∧
        S.events = (twoUsersTracked.st.store.entries.filter fun e => beginsWith e.1 (S.uid ++ "~")).filterMap
          (storedEvent S.uid)) ∧
      ∀ u ∈ twoUsersTracked.st.flushTimes.due 4000000000,
        u ∉ (resultState (flush specCfg (fun _ => .ok "") (fun _ => 0) 4000000000
          twoUsersTracked.st)).flushTimes.entries.map Prod.fst ∧
        (∀ e ∈ (resultState (flush specCfg (fun _ => .ok "") (fun _ => 0) 4000000000
          twoUsersTracked.st)).store.entries, beginsWith e.1 (u ++ "~") = false) ∧
        (u ∈ twoSessions.map TrackedSession.uid ↔ twoUsersTracked.customerKeyOf u ≠ "") :=
  have h : (trackRun specCfg Tracked.init twoUsers).isSome := by decide
  have hpf : PrefixFree (runUids specCfg twoUsers) := by decide
  have henv : ∀ u ∈ runUids specCfg twoUsers, ClearOfEnvelopes u := by decide
  have hrnd : (runRnds twoUsers).Nodup := by decide
  have hret : returned (flush specCfg (fun _ => .ok "") (fun _ => 0) 4000000000 twoUsersTracked.st) =
      some twoSessions := by decide
  ⟨h, hpf, henv, hrnd, hret, flush_hands_pending (trackRun_eq_some_getD h) hpf henv hrnd (ok_of_returned hret)⟩

/-- two lines of `u1` whose record keys draw the same number, and a line of `u2` with an empty
customer key -/
def lostEvents : List Op :=
  [.insertLogline ⟨"CUST1|1000|c=u1~e1&e=q", by decide⟩ 0,
   .insertLogline ⟨"CUST1|1001|c=u1~e2&e=q", by decide⟩ 0,
   .insertLogline ⟨"|1002|c=u2~e3&e=q", by decide⟩ 1]

/-- the tracked run `lostEvents` -/
def lostEventsTracked : Tracked := (trackRun specCfg Tracked.init lostEvents).getD Tracked.init

/-- all three lines are accepted; at 4000 s, when both uids are due, `flush` hands on one session
with the later event of `u1` only, and none for `u2` -/
theorem accepted_events_lost :
    (trackRun specCfg Tracked.init lostEvents).isSome ∧
      (lostEventsTracked.pendingOf "u1").length = 2 ∧ (lostEventsTracked.pendingOf "u2").length = 1 ∧
      lostEventsTracked.st.flushTimes.due 4000000000 = ["u1", "u2"] ∧
      returned (flush specCfg (fun _ => .ok "") (fun _ => 0) 4000000000 lostEventsTracked.st) =
        some [⟨"u1", "CUST1", [⟨1001000000, "q", "e2", []⟩]⟩] := by
  decide

end EventQL.LogJoin
