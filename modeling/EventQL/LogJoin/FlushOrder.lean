import EventQL.LogJoin.Sessions
import EventQL.LogJoin.Lifetime
/-!
The order in which `flush` visits the deadline map (`src/logjoin/LogJoin.cc`, `LogJoin::flush`).

`flush` walks `sessions_flush_times_` in the map's own iteration order. The map's type is declared
in a header not under `src/`, and the model walks `FlushTimes.entries` in list order. The choice is
immaterial. A due uid's session is read from the keys that begin with the uid, and the flush of
another uid deletes only keys that begin with that other uid and writes only its envelope key: so
every session is the one the store held when the flush began (`flushLoop_closed`). What the flush of
one uid does to the store (`Store.flushUid`) commutes with what the flush of another does when their
envelope keys differ, so the loop over any order of the entries ends in the same state, having
handed on the same sessions.

Results:
- `flushLoop_closed`: over entries of distinct, prefix-free uids clear of the envelope keys whose
  records are readable, `flushLoop` returns the sessions of the due uids as the store held them, and
  the state `flushAll` gives;
- `flush_order_free`: on a well-formed state whose deadline map has prefix-free uids and whose due
  uids draw distinct envelope keys, `flush` returns the sessions of the due uids as the store held
  them, and the loop over any permutation of the deadline map's entries returns the same state,
  with the same sessions up to order;
- `flush_events_by_type`: every session `flush` hands on lists its events in the order of their
  keys `<uid>~<evtype>~<draw>`, grouped by event type rather than by time.
-/

namespace EventQL.LogJoin

/-! ## Stores with the same values -/

namespace Store

theorem filter_eq_of_find? {s t : Store} {p : String → Bool} (h : ∀ k, p k = true → s.find? k = t.find? k) :
    (s.entries.filter fun e => p e.1) = t.entries.filter fun e => p e.1 := by
  refine eq_of_sorted_of_mem_iff (s.sorted.sublist (List.filter_sublist _))
    (t.sorted.sublist (List.filter_sublist _)) fun ⟨k, v⟩ => ?_
  simp only [List.mem_filter, ← find?_eq_some_iff]
  exact ⟨fun ⟨h1, h2⟩ => ⟨(h k h2).symm.trans h1, h2⟩, fun ⟨h1, h2⟩ => ⟨(h k h2).trans h1, h2⟩⟩

theorem ext_find? {s t : Store} (h : ∀ k, s.find? k = t.find? k) : s = t := by
  ext1
  simpa only [List.filter_true] using filter_eq_of_find? (p := fun _ => true) fun k _ => h k

theorem find?_erasePrefix (s : Store) (p k : String) :
    (s.erasePrefix p).find? k = if beginsWith k p then none else s.find? k := by
  apply Option.ext
  intro w
  rw [Option.mem_def, find?_eq_some_iff, mem_erasePrefix]
  split_ifs with h
  · simp [h]
  · rw [Option.mem_def, find?_eq_some_iff]; simp [h]

/-- what the flush of `uid` does to the store: every key that begins with `uid` deleted, then the
envelope entry written, if there is one -/
def flushUid (s : Store) (uid : String) (w : Option (String × String)) : Store :=
  w.elim (s.erasePrefix uid) fun w => (s.erasePrefix uid).insert w.1 w.2

theorem find?_flushUid (s : Store) (uid : String) (w : Option (String × String)) (k : String) :
    (s.flushUid uid w).find? k =
      if w.map Prod.fst = some k then w.map Prod.snd else if beginsWith k uid then none else s.find? k := by
  cases w with
  | none => simp [flushUid, find?_erasePrefix]
  | some w =>
    by_cases hk : k = w.1
    · simp [flushUid, find?_insert, hk]
    · simp [flushUid, find?_insert, find?_erasePrefix, hk, Ne.symm hk]

theorem flushUid_comm (s : Store) (u v : String) (wu wv : Option (String × String))
    (hu : ∀ w ∈ wu, beginsWith w.1 v = false) (hv : ∀ w ∈ wv, beginsWith w.1 u = false)
    (hne : ∀ w ∈ wu, ∀ w' ∈ wv, w.1 ≠ w'.1) :
    (s.flushUid u wu).flushUid v wv = (s.flushUid v wv).flushUid u wu := by
  refine ext_find? fun k => ?_
  simp only [find?_flushUid]
  cases wu <;> cases wv <;> simp only [Option.mem_def, Option.some.injEq, forall_eq', reduceCtorEq,
    false_implies, implies_true, Option.map_none', Option.map_some'] at hu hv hne ⊢ <;> split_ifs <;> simp_all

/-- the session `flushSession` reads for `uid`: the last customer key stored, and the events whose
records decode, in key order -/
def sessionOf (s : Store) (uid : String) : TrackedSession :=
  ⟨uid, ((s.entries.filter fun e => beginsWith e.1 uid).filterMap storedCustomerKey).getLast?.getD "",
    (s.entries.filter fun e => beginsWith e.1 uid).filterMap (storedEvent uid)⟩

theorem sessionOf_congr {s t : Store} {uid : String} (h : ∀ k, beginsWith k uid = true → s.find? k = t.find? k) :
    s.sessionOf uid = t.sessionOf uid := by
  simp only [sessionOf, filter_eq_of_find? h]

end Store

theorem hex128_injective : Function.Injective hex128 := by
  intro r r' h
  have h16 : (16 : Nat) ^ 32 = 2 ^ 128 := by decide
  have := hexDigits_inj (String.ext_iff.1 h)
  rw [h16, Nat.mod_eq_of_lt r.isLt, Nat.mod_eq_of_lt r'.isLt] at this
  exact BitVec.eq_of_toNat_eq this

theorem envelopeKey_injective : Function.Injective envelopeKey := by
  intro r r' h
  have := congrArg String.data h
  simp only [envelopeKey, String.data_append, List.append_cancel_left_eq] at this
  exact hex128_injective (String.ext this)

/-! ## The flush of one uid -/

/-- the session a flush hands on: none for an empty customer key -/
def handedOf (session : TrackedSession) : Option TrackedSession :=
  if session.customerKey.length = 0 then none else some session

/-- the envelope entry the flush of a session writes: none for a dropped session, and none when
`envelopeOf` gives no envelope -/
def envelopeEntry (cfg : Cfg) (target : TrackedSession → Except Error String) (rnd : BitVec 128)
    (session : TrackedSession) : Option (String × String) :=
  if session.customerKey.length = 0 then none
  else (envelopeOf cfg target session).map fun env => (envelopeKey rnd, cfg.encodeEnvelope env)

/-- `flushSession` on readable records: the session of the store handed on, unless dropped, and the
store flushed -/
theorem flushSession_readable {cfg : Cfg} {target : TrackedSession → Except Error String}
    {rnd : BitVec 128} {uid : String} {st : St}
    (h : ∀ e ∈ st.store.entries, beginsWith e.1 uid = true → Readable uid e) :
    flushSession cfg target rnd uid st = .ok (handedOf (st.store.sessionOf uid)) { st with
      store := st.store.flushUid uid (envelopeEntry cfg target rnd (st.store.sessionOf uid)),
      joinedSessions := st.joinedSessions + (handedOf (st.store.sessionOf uid)).toList.length } := by
  obtain ⟨r, st', hf, hc⟩ := flushSession_returns cfg target rnd h
  obtain ⟨session, n, hl, hr⟩ := flushSession_ok hf
  obtain rfl : session = st.store.sessionOf uid := scan_session hl
  rw [hf]
  split_ifs at hr with hck
  · obtain ⟨rfl, rfl⟩ := hr
    have hn : n = 0 := by simpa [SameCounters] using hc
    simp [handedOf, envelopeEntry, hck, Store.flushUid, hn]
  · obtain ⟨rfl, rfl⟩ := hr
    have hn : n = 0 := by simpa [SameCounters] using hc
    cases henv : envelopeOf cfg target (st.store.sessionOf uid) <;>
      simp [handedOf, envelopeEntry, hck, henv, Store.flushUid, hn]

theorem envelopeEntry_key {cfg : Cfg} {target : TrackedSession → Except Error String} {rnd : BitVec 128}
    {session : TrackedSession} {w : String × String} (h : w ∈ envelopeEntry cfg target rnd session) :
    w.1 = envelopeKey rnd := by
  unfold envelopeEntry at h
  split_ifs at h
  · cases h
  · obtain ⟨env, -, rfl⟩ := Option.map_eq_some'.1 h
    rfl

theorem PrefixFree.eq_of_beginsWith {us : List String} (hpf : PrefixFree us) {k u v : String} (hu : u ∈ us)
    (hv : v ∈ us) (hku : beginsWith k u = true) (hkv : beginsWith k v = true) : u = v := by
  rcases List.prefix_or_prefix_of_prefix (beginsWith_iff.1 hku) (beginsWith_iff.1 hkv) with h | h
  exacts [hpf u hu v hv h, (hpf v hv u hu h).symm]

/-! ## The loop -/

/-- what `flush` does for the due `uid` whose session is `session`: the store flushed, the deadline
entry erased, one joined session more if the session is handed on -/
def flushedUid (cfg : Cfg) (target : TrackedSession → Except Error String) (rnd : BitVec 128)
    (uid : String) (session : TrackedSession) (st : St) : St :=
  { st with
    store := st.store.flushUid uid (envelopeEntry cfg target rnd session)
    flushTimes := st.flushTimes.erase uid
    joinedSessions := st.joinedSessions + (handedOf session).toList.length }

/-- the state after the loop over `l`: each due uid flushed, in the order of `l`, with its session as
`s0` holds it -/
def flushAll (cfg : Cfg) (target : TrackedSession → Except Error String) (rnd : String → BitVec 128)
    (s : UInt64) (s0 : Store) (l : List (String × UInt64)) (st : St) : St :=
  (l.filter fun e => e.2 < s).foldl (fun st e => flushedUid cfg target (rnd e.1) e.1 (s0.sessionOf e.1) st) st

/-- the sessions the loop over `l` hands on, each as `s0` holds it -/
def handedAll (s : UInt64) (s0 : Store) (l : List (String × UInt64)) : List TrackedSession :=
  (l.filter fun e => e.2 < s).filterMap fun e => handedOf (s0.sessionOf e.1)

section Loop
variable {cfg : Cfg} {target : TrackedSession → Except Error String} {rnd : String → BitVec 128} {s : UInt64}

theorem find?_flushedUid_other {us : List String} (hpf : PrefixFree us) {u v k : String} (hu : u ∈ us)
    (hv : v ∈ us) (huv : v ≠ u) (hcl : ClearOfEnvelopes v) (hk : beginsWith k v = true)
    (session : TrackedSession) (st : St) :
    (flushedUid cfg target (rnd u) u session st).store.find? k = st.store.find? k := by
  have hku : beginsWith k u = false := Bool.eq_false_iff.2 fun hku => huv (hpf.eq_of_beginsWith hv hu hk hku)
  have hw : (envelopeEntry cfg target (rnd u) session).map Prod.fst ≠ some k := fun h => by
    obtain ⟨w, hw, rfl⟩ := Option.map_eq_some'.1 h
    rw [envelopeEntry_key hw, envelopeKey_not_beginsWith_uid hcl] at hk
    cases hk
  simp only [flushedUid, Store.find?_flushUid, if_neg hw, hku, Bool.false_eq_true, if_false]

theorem flushLoop_cons_of_readable {u : String} {t : UInt64} {rest : List (String × UInt64)} {st st' : St}
    {more : List TrackedSession} (ht : t < s) (h : ∀ e ∈ st.store.entries, beginsWith e.1 u = true → Readable u e)
    (hrest : flushLoop cfg target rnd s rest (flushedUid cfg target (rnd u) u (st.store.sessionOf u) st) =
      .ok more st') :
    flushLoop cfg target rnd s ((u, t) :: rest) st = .ok ((handedOf (st.store.sessionOf u)).toList ++ more) st' := by
  rw [flushLoop, if_pos ht]
  simp only [flushedUid] at hrest
  simp only [M.bind_apply, flushSession_readable h, M.modify_apply, hrest, M.pure_apply]

/-- **The loop in closed form.** Over entries of distinct, prefix-free uids clear of the envelope
keys whose records `s0` holds readable, from a state that agrees with `s0` on their keys, `flushLoop`
returns: it hands on each due uid's session as `s0` holds it, and leaves the state `flushAll`
gives. -/
theorem flushLoop_closed (s0 : Store) :
    ∀ {l : List (String × UInt64)} {st : St}, (l.map Prod.fst).Nodup → PrefixFree (l.map Prod.fst) →
      (∀ e ∈ l, ClearOfEnvelopes e.1 ∧ ∀ x ∈ s0.entries, beginsWith x.1 e.1 = true → Readable e.1 x) →
      (∀ e ∈ l, ∀ k, beginsWith k e.1 = true → st.store.find? k = s0.find? k) →
      flushLoop cfg target rnd s l st = .ok (handedAll s s0 l) (flushAll cfg target rnd s s0 l st)
  | [], _, _, _, _, _ => rfl
  | (u, t) :: rest, st, hnd, hpf, hl, hagree => by
    obtain ⟨hu, hnd⟩ := List.nodup_cons.1 hnd
    have hpf' : PrefixFree (rest.map Prod.fst) := fun a ha b hb =>
      hpf a (List.mem_cons_of_mem _ ha) b (List.mem_cons_of_mem _ hb)
    have hl' := fun e he => hl e (List.mem_cons_of_mem _ he)
    by_cases ht : t < s
    · have hagree' : ∀ e ∈ rest, ∀ k, beginsWith k e.1 = true →
          (flushedUid cfg target (rnd u) u (s0.sessionOf u) st).store.find? k = s0.find? k := fun e he k hk =>
        (find?_flushedUid_other hpf (List.mem_cons_self _ _) (List.mem_cons_of_mem _ (List.mem_map_of_mem _ he))
          (fun h => hu (h ▸ List.mem_map_of_mem _ he)) (hl' e he).1 hk _ st).trans
          (hagree e (List.mem_cons_of_mem _ he) k hk)
      have hread : ∀ x ∈ st.store.entries, beginsWith x.1 u = true → Readable u x := fun x hx hb =>
        (hl _ (List.mem_cons_self _ _)).2 x (Store.find?_eq_some_iff.1
          ((hagree _ (List.mem_cons_self _ _) x.1 hb).symm.trans (Store.find?_eq_some_iff.2 hx))) hb
      have hsess : st.store.sessionOf u = s0.sessionOf u :=
        Store.sessionOf_congr (hagree _ (List.mem_cons_self _ _))
      have ih := flushLoop_closed s0 hnd hpf' hl' hagree'
      rw [← hsess] at ih
      rw [flushLoop_cons_of_readable ht hread ih, hsess]
      simp only [handedAll, flushAll, List.filter_cons, ht, decide_True, if_true, List.foldl_cons,
        List.filterMap_cons]
      cases handedOf (s0.sessionOf u) <;> rfl
    · have ih := flushLoop_closed s0 hnd hpf' hl' fun e he => hagree e (List.mem_cons_of_mem _ he)
      rw [flushLoop, if_neg ht, ih]
      simp only [handedAll, flushAll, List.filter_cons, ht, decide_False, Bool.false_eq_true, if_false]

theorem FlushTimes.erase_comm (m : FlushTimes) (u v : String) : (m.erase u).erase v = (m.erase v).erase u := by
  simp only [FlushTimes.erase, List.filter_filter, Bool.and_comm]

theorem flushedUid_comm (s0 : Store) {u v : String} (hu : ClearOfEnvelopes u) (hv : ClearOfEnvelopes v)
    (hrnd : rnd u = rnd v → u = v) (st : St) :
    flushedUid cfg target (rnd v) v (s0.sessionOf v) (flushedUid cfg target (rnd u) u (s0.sessionOf u) st) =
      flushedUid cfg target (rnd u) u (s0.sessionOf u) (flushedUid cfg target (rnd v) v (s0.sessionOf v) st) := by
  by_cases h : u = v
  · subst h; rfl
  have hstore := Store.flushUid_comm st.store u v (envelopeEntry cfg target (rnd u) (s0.sessionOf u))
    (envelopeEntry cfg target (rnd v) (s0.sessionOf v)) (fun w hw => (envelopeEntry_key hw).symm ▸ envelopeKey_not_beginsWith_uid hv (rnd u))
    (fun w hw => (envelopeEntry_key hw).symm ▸ envelopeKey_not_beginsWith_uid hu (rnd v))
    fun w hw w' hw' hk => h (hrnd (envelopeKey_injective ((envelopeEntry_key hw).symm.trans
      (hk.trans (envelopeEntry_key hw')))))
  simp only [flushedUid, hstore, FlushTimes.erase_comm, Nat.add_right_comm]

theorem flushAll_perm (s0 : Store) {l l' : List (String × UInt64)} (hl : l.Perm l')
    (hcl : ∀ e ∈ l, ClearOfEnvelopes e.1)
    (hrnd : ∀ e ∈ l, ∀ e' ∈ l, e.2 < s → e'.2 < s → rnd e.1 = rnd e'.1 → e.1 = e'.1) (st : St) :
    flushAll cfg target rnd s s0 l st = flushAll cfg target rnd s s0 l' st :=
  (hl.filter _).foldl_eq' (fun x hx y hy z => by
    obtain ⟨hx, hxs⟩ := List.mem_filter.1 hx
    obtain ⟨hy, hys⟩ := List.mem_filter.1 hy
    exact flushedUid_comm s0 (hcl x hx) (hcl y hy)
      (hrnd x hx y hy (of_decide_eq_true hxs) (of_decide_eq_true hys)) z) st

end Loop

/-- **`flush` does not depend on the order of the deadline map.** On a well-formed state whose
deadline map has prefix-free uids without '~' and clear of the envelope keys, and whose due uids
draw distinct envelope keys, `flush` returns the sessions of the due uids as the store held them
(`handedAll`); the loop over any permutation of the map's entries returns too, and leaves the same
state, having handed on the same sessions up to order. -/
theorem flush_order_free {cfg : Cfg} {target : TrackedSession → Except Error String}
    {rnd : String → BitVec 128} {s : UInt64} {st : St} (hw : WellFormed st)
    (hus : ∀ u ∈ st.flushTimes.entries.map Prod.fst, '~' ∉ u.data ∧ ClearOfEnvelopes u)
    (hpf : PrefixFree (st.flushTimes.entries.map Prod.fst))
    (hrnd : ∀ u ∈ st.flushTimes.due s, ∀ v ∈ st.flushTimes.due s, rnd u = rnd v → u = v)
    {l : List (String × UInt64)} (hl : l.Perm st.flushTimes.entries) :
    ∃ handed handed' st', flush cfg target rnd s st = .ok handed st' ∧
      handed = handedAll s st.store st.flushTimes.entries ∧
      flushLoop cfg target rnd s l st = .ok handed' st' ∧ handed'.Perm handed := by
  have hmem : ∀ {l : List (String × UInt64)}, l.Perm st.flushTimes.entries →
      ∀ e ∈ l, e.1 ∈ st.flushTimes.entries.map Prod.fst := fun hl e he => List.mem_map_of_mem _ (hl.subset he)
  have hclosed : ∀ {l : List (String × UInt64)}, l.Perm st.flushTimes.entries →
      flushLoop cfg target rnd s l st = .ok (handedAll s st.store l) (flushAll cfg target rnd s st.store l st) :=
    fun hl => flushLoop_closed st.store ((hl.map Prod.fst).nodup_iff.2 st.flushTimes.nodup)
      (fun a ha b hb => hpf a ((hl.map _).subset ha) b ((hl.map _).subset hb))
      (fun e he => ⟨(hus _ (hmem hl e he)).2, hw.readable (hus _ (hmem hl e he)).1 (hus _ (hmem hl e he)).2⟩)
      fun _ _ _ _ => rfl
  have hdue : ∀ e ∈ l, e.2 < s → e.1 ∈ st.flushTimes.due s := fun e he hs =>
    FlushTimes.mem_due.2 ⟨e.2, hl.subset he, hs⟩
  refine ⟨_, _, _, (flush_apply cfg target rnd s st).trans (hclosed (List.Perm.refl _)), rfl, ?_,
    (hl.filter _).filterMap _⟩
  rw [hclosed hl, flushAll_perm st.store hl (fun e he => (hus _ (hmem hl e he)).2)
    (fun e he e' he' hs hs' => hrnd _ (hdue e he hs) _ (hdue e' he' hs'))]
  rfl

/-! ## The order of a session's events -/

theorem lt_of_append_lt_append {U rx ry : List Char} (h : U ++ rx < U ++ ry) : rx < ry := by
  induction U with
  | nil => exact h
  | cons c U ih =>
    cases h with
    | cons h => exact ih h
    | rel h => exact absurd h (lt_irrefl c)

theorem take_one_le_of_lt {rx ry : List Char} (h : rx < ry) : rx.take 1 ≤ ry.take 1 := by
  refine not_lt.1 fun h' => ?_
  cases rx with
  | nil =>
    cases ry with
    | nil => cases h
    | cons b ry => cases h'
  | cons a rx =>
    cases ry with
    | nil => cases h
    | cons b ry =>
      cases h' with
      | cons hnil => cases hnil
      | rel hba =>
        cases h with
        | cons _ => exact lt_irrefl a hba
        | rel hab => exact lt_asymm hab hba

theorem storedEvent_evtype {uid : String} {e : String × String} {ev : TrackedEvent}
    (h : storedEvent uid e = some ev) : ev.evtype = ⟨(e.1.data.drop (uid.length + 1)).take 1⟩ := by
  unfold storedEvent at h
  split_ifs at h
  split at h
  · obtain ⟨_, -, rfl⟩ := Option.map_eq_some'.1 h
    rfl
  · cases h

/-- the events a session reads from keys `<uid>~<evtype>~<draw>`, in key order, come grouped by
type: each type's events after those of every smaller type -/
theorem Store.sessionOf_evtype_sorted {s : Store} {uid : String}
    (hkeys : ∀ e ∈ s.entries, beginsWith e.1 uid = true → beginsWith e.1 (uid ++ "~") = true) :
    ((s.sessionOf uid).events.map TrackedEvent.evtype).Pairwise (· ≤ ·) := by
  simp only [Store.sessionOf, List.pairwise_map]
  refine List.pairwise_filterMap.2 ((s.sorted.sublist (List.filter_sublist _)).imp_of_mem
    fun {x y} hx hy hxy ev hev ev' hev' => ?_)
  obtain ⟨rx, hrx⟩ := beginsWith_iff.1 (hkeys x (List.mem_filter.1 hx).1 (List.mem_filter.1 hx).2)
  obtain ⟨ry, hry⟩ := beginsWith_iff.1 (hkeys y (List.mem_filter.1 hy).1 (List.mem_filter.1 hy).2)
  have hlen : uid.length + 1 = (uid ++ "~").data.length := by
    rw [String.data_append, List.length_append]
    rfl
  rw [storedEvent_evtype hev, storedEvent_evtype hev', ← hrx, ← hry, hlen, List.drop_left, List.drop_left]
  have hlt : (uid ++ "~").data ++ rx < (uid ++ "~").data ++ ry := by rw [hrx, hry]; exact hxy
  exact String.le_iff_toList_le.2 (take_one_le_of_lt (lt_of_append_lt_append hlt))

theorem WellFormed.keys_of_beginsWith {st : St} (hw : WellFormed st)
    (hus : ∀ u ∈ st.flushTimes.entries.map Prod.fst, '~' ∉ u.data ∧ ClearOfEnvelopes u)
    (hpf : PrefixFree (st.flushTimes.entries.map Prod.fst)) {u : String} (hu : u ∈ st.flushTimes.entries.map Prod.fst) :
    ∀ e ∈ st.store.entries, beginsWith e.1 u = true → beginsWith e.1 (u ++ "~") = true := by
  intro e he hb
  rcases hw.owner he with ⟨r, hr⟩ | ⟨w, -, hwm, hk⟩
  · rw [hr, envelopeKey_not_beginsWith_uid (hus u hu).2] at hb
    cases hb
  · rwa [hpf.eq_of_beginsWith hwm hu (beginsWith_of_append hk) hb] at hk

/-- **A session's events come grouped by type, not in time order.** On a well-formed state whose
deadline map has prefix-free uids without '~' and clear of the envelope keys, `flush` returns, and
every session it hands on lists its events in the order of their keys `<uid>~<evtype>~<draw>`:
grouped by event type, and within a type by the random draw, whatever the times of the events. -/
theorem flush_events_by_type {cfg : Cfg} {target : TrackedSession → Except Error String}
    {rnd : String → BitVec 128} {s : UInt64} {st : St} (hw : WellFormed st)
    (hus : ∀ u ∈ st.flushTimes.entries.map Prod.fst, '~' ∉ u.data ∧ ClearOfEnvelopes u)
    (hpf : PrefixFree (st.flushTimes.entries.map Prod.fst)) :
    ∃ handed st', flush cfg target rnd s st = .ok handed st' ∧
      ∀ S ∈ handed, (S.events.map TrackedEvent.evtype).Pairwise (· ≤ ·) := by
  have hmem : ∀ e ∈ st.flushTimes.entries, e.1 ∈ st.flushTimes.entries.map Prod.fst :=
    fun e he => List.mem_map_of_mem _ he
  refine ⟨_, _, (flush_apply cfg target rnd s st).trans (flushLoop_closed st.store st.flushTimes.nodup hpf
    (fun e he => ⟨(hus _ (hmem e he)).2, hw.readable (hus _ (hmem e he)).1 (hus _ (hmem e he)).2⟩)
    fun _ _ _ _ => rfl), fun S hS => ?_⟩
  obtain ⟨e, he, hS⟩ := List.mem_filterMap.1 hS
  have hS : st.store.sessionOf e.1 = S := by
    unfold handedOf at hS
    split_ifs at hS
    exact Option.some.inj hS
  exact hS ▸ Store.sessionOf_evtype_sorted (hw.keys_of_beginsWith hus hpf (hmem e (List.mem_filter.1 he).1))

/-- a click of `u1` at 2000 s, then two queries at 1000 s and 1500 s, whose draws put the later one
first -/
def typesAndDraws : List Op :=
  [.insertLogline ⟨"CUST1|2000|c=u1~e1&e=c", by decide⟩ 7,
   .insertLogline ⟨"CUST1|1000|c=u1~e2&e=q", by decide⟩ 5,
   .insertLogline ⟨"CUST1|1500|c=u1~e3&e=q", by decide⟩ 3]

/-- the witness: `typesAndDraws` flushed at 5000 s -/
theorem flush_events_by_type_typesAndDraws :
    WellFormed ((run specCfg St.init typesAndDraws).getD St.init) ∧
      (∀ u ∈ ((run specCfg St.init typesAndDraws).getD St.init).flushTimes.entries.map Prod.fst,
        '~' ∉ u.data ∧ ClearOfEnvelopes u) ∧
      PrefixFree (((run specCfg St.init typesAndDraws).getD St.init).flushTimes.entries.map Prod.fst) ∧
      ∃ handed st', flush specCfg (fun _ => .ok "") (fun _ => 0) 5000000000
          ((run specCfg St.init typesAndDraws).getD St.init) = .ok handed st' ∧
        ∀ S ∈ handed, (S.events.map TrackedEvent.evtype).Pairwise (· ≤ ·) :=
  have hw := run_wellFormed (run_eq_some_getD (by decide))
  have hus : ∀ u ∈ ((run specCfg St.init typesAndDraws).getD St.init).flushTimes.entries.map Prod.fst,
      '~' ∉ u.data ∧ ClearOfEnvelopes u := by decide
  have hpf : PrefixFree (((run specCfg St.init typesAndDraws).getD St.init).flushTimes.entries.map Prod.fst) := by
    decide
  ⟨hw, hus, hpf, flush_events_by_type hw hus hpf⟩

/-- the session handed on: the click first, then the query at 1500 s before the one at 1000 s -/
example : ((returned (flush specCfg (fun _ => .ok "") (fun _ => 0) 5000000000
    ((run specCfg St.init typesAndDraws).getD St.init))).getD []).map
      (fun S => S.events.map fun e => (e.evtype, e.time)) =
    [[("c", 2000000000), ("q", 1500000000), ("q", 1000000000)]] := by decide

/-- the state the run `twoUsers` leaves -/
def twoUsersState : St := (run specCfg St.init twoUsers).getD St.init

/-- the witness: `twoUsers` flushed at 4000 s, both uids due and drawing distinct envelope keys, with
the deadline map walked backwards -/
theorem flush_order_free_twoUsers :
    WellFormed twoUsersState ∧
      (∀ u ∈ twoUsersState.flushTimes.entries.map Prod.fst, '~' ∉ u.data ∧ ClearOfEnvelopes u) ∧
      PrefixFree (twoUsersState.flushTimes.entries.map Prod.fst) ∧
      (∀ u ∈ twoUsersState.flushTimes.due 4000000000, ∀ v ∈ twoUsersState.flushTimes.due 4000000000,
        (if u = "u1" then 1 else 2 : BitVec 128) = (if v = "u1" then 1 else 2) → u = v) ∧
      twoUsersState.flushTimes.entries.reverse.Perm twoUsersState.flushTimes.entries ∧
      ∃ handed handed' st', flush specCfg (fun _ => .ok "") (fun u => if u = "u1" then 1 else 2) 4000000000
          twoUsersState = .ok handed st' ∧
        handed = handedAll 4000000000 twoUsersState.store twoUsersState.flushTimes.entries ∧
        flushLoop specCfg (fun _ => .ok "") (fun u => if u = "u1" then 1 else 2) 4000000000
          twoUsersState.flushTimes.entries.reverse twoUsersState = .ok handed' st' ∧ handed'.Perm handed :=
  have hw : WellFormed twoUsersState := run_wellFormed (run_eq_some_getD (by decide))
  have hus : ∀ u ∈ twoUsersState.flushTimes.entries.map Prod.fst, '~' ∉ u.data ∧ ClearOfEnvelopes u := by
    decide
  have hpf : PrefixFree (twoUsersState.flushTimes.entries.map Prod.fst) := by decide
  have hrnd : ∀ u ∈ twoUsersState.flushTimes.due 4000000000, ∀ v ∈ twoUsersState.flushTimes.due 4000000000,
      (if u = "u1" then 1 else 2 : BitVec 128) = (if v = "u1" then 1 else 2) → u = v := by decide
  have hl := List.reverse_perm twoUsersState.flushTimes.entries
  ⟨hw, hus, hpf, hrnd, hl, flush_order_free hw hus hpf hrnd hl⟩

end EventQL.LogJoin
