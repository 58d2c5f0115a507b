import EventQL.LogJoin.Bootstrap
/-!
The life of a `LogJoin` process over its store (`src/logjoin/LogJoin.cc`): calls that return or
raise, the caller going on with the instance either way, and restarts, where a fresh instance over
the same store rebuilds its deadline map with `importTimeoutList`.

An `Event` is a call or a restart; `Event.apply` is the state it leaves, returning or raising, and
`life` folds it. A lifetime's uids are those its lines name in their c parameter.

`flushSession` raises on a key equal to the uid (`substr` past the end) and on a record whose header
does not decode, and counts an invalid line for a record whose parameters do not; on a well-formed
store, for a uid without '~' and clear of the envelope keys, none of these is reachable. The
raising paths of `insertLogline` leave the store as it was. So over a lifetime every store change
comes from a call that returned, and whether the caller commits or aborts its transaction after a
raise changes nothing.

Results:
- `flush_returns`: on a well-formed state whose uids have no '~' and are clear of the envelope
  keys, `flush` returns at every stream time, for every join target and every draw, and leaves the
  log-line counters as they were;
- `flush_again`: after a returning `flush(s)`, a `flush(s')` with `s' ≤ s` hands on nothing and
  changes nothing;
- `flush_dryRun`: with `dry_run` set, `flush` writes no envelope but still deletes every key of
  every due uid;
- `life_inv`: in every state of a lifetime whose uids are clear of the envelope keys and do not
  begin with `__`, the store is well formed, every uid with a deadline entry is one the lifetime's
  lines name, every customer key has a record of its uid beside it, and `loglines_invalid` is at
  most `loglines_total` (`LifeInv`);
- `life_shard`: in every state of such a lifetime every scheduled uid passes the shard test and
  every key of the store is an envelope's or one of such a uid (`ShardOwned`);
- `life_never_raises`: in every state of such a lifetime neither `flush` nor the bootstrap raises;
- `life_keeps_envelopes`: along such a lifetime, a session envelope once in the store keeps its key;
- `life_flush_drains`: in every state of such a lifetime, a `flush` past every deadline returns and
  leaves nothing in the store but session envelopes.
-/

namespace EventQL.LogJoin

/-! ## `flush` returns on a well-formed state -/

/-- the two log-line counters as they were -/
def SameCounters (st st' : St) : Prop :=
  st'.loglinesTotal = st.loglinesTotal ∧ st'.loglinesInvalid = st.loglinesInvalid

theorem SameCounters.refl (st : St) : SameCounters st st := ⟨rfl, rfl⟩

theorem SameCounters.trans ⦃a b c : St⦄ (h1 : SameCounters a b) (h2 : SameCounters b c) :
    SameCounters a c :=
  ⟨h2.1.trans h1.1, h2.2.trans h1.2⟩

/-- an entry `flushSession`'s scan of `uid` reads without raising and without counting an invalid
line: a customer key, or a key longer than the uid whose record decodes -/
def Readable (uid : String) (e : String × String) : Prop :=
  endsWith e.1 "~cust" = true ∨ uid.length < e.1.length ∧
    ∃ time evid rest logline, readEventHeader e.2 = .ok (time, evid, rest) ∧ readLogline rest = .ok logline

theorem readRecord_returns {uid key value : String} (h : Readable uid (key, value))
    (session : TrackedSession) (st : St) : ∃ s', readRecord uid key value session st = .ok s' st := by
  unfold readRecord
  by_cases hc : endsWith key "~cust" = true
  · exact ⟨_, by rw [if_pos hc]; rfl⟩
  obtain ⟨hlen, time, evid, rest, logline, hh, hl⟩ := h.resolve_left hc
  have hsub : substr key (uid.length + 1) = .ok ⟨key.data.drop (uid.length + 1)⟩ := if_pos hlen
  rw [if_neg hc]
  simp only [M.bind_apply, hsub, liftExcept_ok, hh, hl]
  exact ⟨_, rfl⟩

theorem flushSessionLoop_returns {uid : String} :
    ∀ {l : List (String × String)}, (∀ e ∈ l, beginsWith e.1 uid = true → Readable uid e) →
      ∀ (session : TrackedSession) (st : St),
        ∃ s' st', flushSessionLoop uid l session st = .ok s' st' ∧ SameCounters st st'
  | [], _, session, st => ⟨session, st, rfl, SameCounters.refl st⟩
  | (key, value) :: rest, h, session, st => by
    rw [flushSessionLoop]
    split
    next hb =>
      obtain ⟨s1, h1⟩ := readRecord_returns (h _ (List.mem_cons_self _ _) hb) session st
      obtain ⟨s2, st2, h2, hc⟩ := flushSessionLoop_returns (fun e he => h e (List.mem_cons_of_mem _ he)) s1
        { st with store := st.store.erase key }
      exact ⟨s2, st2, by simp only [M.bind_apply, h1, M.modify_apply, h2], hc⟩
    · exact ⟨session, st, rfl, SameCounters.refl st⟩

/-- `flushSession` returns, and counts no invalid line, when every entry its scan can reach is
readable; a raising join target is caught -/
theorem flushSession_returns (cfg : Cfg) (target : TrackedSession → Except Error String)
    (rnd : BitVec 128) {uid : String} {st : St}
    (h : ∀ e ∈ st.store.entries, beginsWith e.1 uid = true → Readable uid e) :
    ∃ r st', flushSession cfg target rnd uid st = .ok r st' ∧ SameCounters st st' := by
  obtain ⟨session, st1, h1, hc⟩ := flushSessionLoop_returns (l := st.store.seek uid)
    (fun e he => h e ((List.dropWhile_suffix _).subset he)) ⟨uid, "", []⟩ st
  obtain ⟨r, st', hf⟩ : ∃ r st', flushSession cfg target rnd uid st = .ok r st' := by
    unfold flushSession
    simp only [M.bind_apply, M.get_apply, h1]
    split_ifs
    · exact ⟨_, _, rfl⟩
    · simp only [M.bind_apply, M.tryCatch_apply]
      cases onSession cfg target rnd session st1 <;> simp
  obtain ⟨_, n, hl, hr⟩ := flushSession_ok hf
  obtain ⟨-, rfl⟩ := EStateM.Result.ok.inj (h1.symm.trans hl)
  have hn : n = 0 := by simpa using hc.2
  refine ⟨r, st', hf, ?_⟩
  split_ifs at hr <;> obtain ⟨-, rfl⟩ := hr <;> exact ⟨rfl, by simp [hn]⟩

/-- on a well-formed store, every entry the scan of a uid without '~' and clear of the envelope keys
reaches is readable -/
theorem WellFormed.readable {st : St} (hw : WellFormed st) {uid : String} (hu : '~' ∉ uid.data)
    (hc : ClearOfEnvelopes uid) : ∀ e ∈ st.store.entries, beginsWith e.1 uid = true → Readable uid e := by
  intro e he hb
  rcases hw e he with ⟨r, hr⟩ | ⟨v, -, -, hk | ⟨evtype, r, -, hk, ⟨⟨time, evid, rest, logline, hh, hl⟩, -⟩⟩⟩
  · rw [hr, envelopeKey_not_beginsWith_uid hc] at hb; cases hb
  · exact .inl (hk ▸ custKey_endsWith v)
  · refine .inr ⟨lt_of_le_of_ne ((beginsWith_iff.1 hb).length_le) fun hlen => hu ?_,
      time, evid, rest, logline, hh, hl⟩
    have heq := (beginsWith_iff.1 hb).eq_of_length hlen
    rw [heq, hk, data_eventKey]
    simp

theorem flushLoop_returns {cfg : Cfg} {target : TrackedSession → Except Error String}
    {rnd : String → BitVec 128} {s : UInt64} :
    ∀ {l : List (String × UInt64)} {st : St}, WellFormed st →
      (∀ e ∈ l, '~' ∉ e.1.data ∧ ClearOfEnvelopes e.1) →
      ∃ more st', flushLoop cfg target rnd s l st = .ok more st' ∧ SameCounters st st'
  | [], st, _, _ => ⟨[], st, rfl, SameCounters.refl st⟩
  | (uid, t) :: rest, st, hw, hl => by
    have hrest := fun e he => hl e (List.mem_cons_of_mem _ he)
    rw [flushLoop]
    split
    · obtain ⟨hu, hc⟩ := hl _ (List.mem_cons_self _ _)
      obtain ⟨r, st1, hf, hc1⟩ := flushSession_returns cfg target (rnd uid) (hw.readable hu hc)
      obtain ⟨more, st2, h2, hc2⟩ : ∃ more st2, flushLoop cfg target rnd s rest
          { st1 with flushTimes := st1.flushTimes.erase uid } = .ok more st2 ∧
            SameCounters { st1 with flushTimes := st1.flushTimes.erase uid } st2 :=
        flushLoop_returns (flushSession_wellFormed hw hf) hrest
      exact ⟨r.toList ++ more, st2, by simp only [M.bind_apply, hf, M.modify_apply, h2, M.pure_apply],
        hc1.trans hc2⟩
    · exact flushLoop_returns hw hrest

/-- **`flush` returns.** On a well-formed state whose uids have no '~' and are clear of the envelope
keys, `flush` returns at every stream time, for every join target and every draw, and counts no log
line: no record it reads fails to decode. -/
theorem flush_returns {st : St} (hw : WellFormed st)
    (hus : ∀ u ∈ st.flushTimes.entries.map Prod.fst, '~' ∉ u.data ∧ ClearOfEnvelopes u)
    (cfg : Cfg) (target : TrackedSession → Except Error String) (rnd : String → BitVec 128)
    (s : UInt64) : ∃ handed st', flush cfg target rnd s st = .ok handed st' ∧
      st'.loglinesTotal = st.loglinesTotal ∧ st'.loglinesInvalid = st.loglinesInvalid := by
  rw [flush_apply]
  exact flushLoop_returns hw fun e he => hus e.1 (List.mem_map_of_mem _ he)

/-- the witness: the state the run `twoUsers` leaves -/
theorem flush_returns_twoUsers :
    WellFormed ((run specCfg St.init twoUsers).getD St.init) ∧
      (∀ u ∈ ((run specCfg St.init twoUsers).getD St.init).flushTimes.entries.map Prod.fst,
        '~' ∉ u.data ∧ ClearOfEnvelopes u) ∧
      ∃ handed st', flush specCfg (fun _ => .ok "") (fun _ => 0) 2801000000
          ((run specCfg St.init twoUsers).getD St.init) = .ok handed st' ∧
        st'.loglinesTotal = ((run specCfg St.init twoUsers).getD St.init).loglinesTotal ∧
        st'.loglinesInvalid = ((run specCfg St.init twoUsers).getD St.init).loglinesInvalid :=
  have hw := run_wellFormed (run_eq_some_getD (by decide))
  have hus : ∀ u ∈ ((run specCfg St.init twoUsers).getD St.init).flushTimes.entries.map Prod.fst,
      '~' ∉ u.data ∧ ClearOfEnvelopes u := by decide
  ⟨hw, hus, flush_returns hw hus specCfg (fun _ => .ok "") (fun _ => 0) 2801000000⟩

/-! ## Flushing again -/

theorem flushLoop_none_due {cfg : Cfg} {target : TrackedSession → Except Error String}
    {rnd : String → BitVec 128} {s : UInt64} :
    ∀ {l : List (String × UInt64)} {st : St}, (∀ e ∈ l, ¬ e.2 < s) → flushLoop cfg target rnd s l st = .ok [] st
  | [], _, _ => rfl
  | _ :: _, _, h => by
    rw [flushLoop, if_neg (h _ (List.mem_cons_self _ _))]
    exact flushLoop_none_due fun e he => h e (List.mem_cons_of_mem _ he)

/-- **Flushing again.** After a returning `flush(s)`, a `flush(s')` at a stream time `s' ≤ s`, with
any join target and any draws, hands on nothing and changes nothing: every entry left in the
deadline map is due at `s` or later. -/
theorem flush_again {cfg : Cfg} {target : TrackedSession → Except Error String} {rnd : String → BitVec 128}
    {s : UInt64} {st st' : St} {handed : List TrackedSession} (h : flush cfg target rnd s st = .ok handed st')
    {s' : UInt64} (hs : s' ≤ s) (target' : TrackedSession → Except Error String)
    (rnd' : String → BitVec 128) : flush cfg target' rnd' s' st' = .ok [] st' := by
  rw [flush_apply]
  refine flushLoop_none_due fun e he => ?_
  rw [flush_flushTimes h] at he
  have hnot := of_decide_eq_true (List.mem_filter.1 he).2
  simp only [UInt64.lt_def, UInt64.le_def, BitVec.lt_def, BitVec.le_def] at hnot hs ⊢
  omega

/-- the witness: `twoUsers` flushed at 4000 s, then at 3000 s with a raising target -/
theorem flush_again_twoUsers :
    (returned (flush specCfg (fun _ => .ok "") (fun _ => 0) 4000000000
        ((run specCfg St.init twoUsers).getD St.init))).isSome ∧ (3000000000 : UInt64) ≤ 4000000000 ∧
      flush specCfg (fun _ => .error ⟨.runtimeError, ""⟩) (fun _ => 1) 3000000000
          (resultState (flush specCfg (fun _ => .ok "") (fun _ => 0) 4000000000
            ((run specCfg St.init twoUsers).getD St.init))) =
        .ok [] (resultState (flush specCfg (fun _ => .ok "") (fun _ => 0) 4000000000
          ((run specCfg St.init twoUsers).getD St.init))) :=
  have hret : (returned (flush specCfg (fun _ => .ok "") (fun _ => 0) 4000000000
      ((run specCfg St.init twoUsers).getD St.init))).isSome := by decide
  have hs : (3000000000 : UInt64) ≤ 4000000000 := by decide
  ⟨hret, hs, flush_again (ok_of_returned (Option.eq_some_of_isSome hret)) hs _ _⟩

/-! ## Dry runs -/

theorem flushSession_dryRun {cfg : Cfg} (hd : cfg.dryRun = true) {target : TrackedSession → Except Error String}
    {rnd : BitVec 128} {uid : String} {st st' : St} {r : Option TrackedSession}
    (h : flushSession cfg target rnd uid st = .ok r st') : st'.store = st.store.erasePrefix uid := by
  obtain ⟨session, n, -, hr⟩ := flushSession_ok h
  have hnone : envelopeOf cfg target session = none := by
    unfold envelopeOf
    cases target session <;> simp [hd]
  split_ifs at hr <;> obtain ⟨-, rfl⟩ := hr
  · rfl
  · simp only [hnone]; rfl

theorem flushLoop_dryRun {cfg : Cfg} (hd : cfg.dryRun = true) {target : TrackedSession → Except Error String}
    {rnd : String → BitVec 128} {s : UInt64} :
    ∀ {l : List (String × UInt64)} {st st' : St} {more : List TrackedSession},
      flushLoop cfg target rnd s l st = .ok more st' → ∀ e, e ∈ st'.store.entries ↔
        e ∈ st.store.entries ∧ ∀ u ∈ (l.filter fun e => e.2 < s).map Prod.fst, beginsWith e.1 u = false
  | [], _, _, _, h, e => by cases h; simp
  | (uid, t) :: rest, st, st', more, h, e => by
    by_cases ht : t < s
    · obtain ⟨r, st1, more', hf, hl, -⟩ := flushLoop_cons_ok ht h
      rw [flushLoop_dryRun hd hl e]
      show e ∈ st1.store.entries ∧ _ ↔ _
      rw [flushSession_dryRun hd hf, Store.mem_erasePrefix]
      simp [List.filter_cons, ht, and_assoc]
    · rw [flushLoop, if_neg ht] at h
      rw [flushLoop_dryRun hd h e]
      simp [List.filter_cons, ht]

/-- **A dry run deletes.** With `dry_run` set, a returning `flush(s)` writes no envelope, and still
deletes every key that begins with a due uid: the store it leaves is exactly the old one without
those keys, so the due sessions' events are gone from it without having been queued. -/
theorem flush_dryRun {cfg : Cfg} (hd : cfg.dryRun = true) {target : TrackedSession → Except Error String}
    {rnd : String → BitVec 128} {s : UInt64} {st st' : St} {handed : List TrackedSession}
    (h : flush cfg target rnd s st = .ok handed st') (e : String × String) :
    e ∈ st'.store.entries ↔ e ∈ st.store.entries ∧ ∀ u ∈ st.flushTimes.due s, beginsWith e.1 u = false :=
  flushLoop_dryRun hd ((flush_apply cfg target rnd s st).symm.trans h) e

/-- `twoUsers` in a dry run -/
def dryTwoUsers : Cfg := { specCfg with dryRun := true }

/-- the witness: `twoUsers` flushed at 2801 s in a dry run; the record of `u1` is gone, and no
envelope was written -/
theorem flush_dryRun_twoUsers :
    dryTwoUsers.dryRun = true ∧
      (returned (flush dryTwoUsers (fun _ => .ok "") (fun _ => 0) 2801000000
        ((run specCfg St.init twoUsers).getD St.init))).isSome ∧
      ((resultState (flush dryTwoUsers (fun _ => .ok "") (fun _ => 0) 2801000000
        ((run specCfg St.init twoUsers).getD St.init))).store.entries.map Prod.fst).length = 2 ∧
      ∀ e, e ∈ (resultState (flush dryTwoUsers (fun _ => .ok "") (fun _ => 0) 2801000000
          ((run specCfg St.init twoUsers).getD St.init))).store.entries ↔
        e ∈ ((run specCfg St.init twoUsers).getD St.init).store.entries ∧
          ∀ u ∈ ((run specCfg St.init twoUsers).getD St.init).flushTimes.due 2801000000,
            beginsWith e.1 u = false :=
  have hd : dryTwoUsers.dryRun = true := rfl
  have hret : (returned (flush dryTwoUsers (fun _ => .ok "") (fun _ => 0) 2801000000
      ((run specCfg St.init twoUsers).getD St.init))).isSome := by decide
  ⟨hd, hret, by decide, flush_dryRun hd (ok_of_returned (Option.eq_some_of_isSome hret))⟩

/-! ## Calls that raise -/

theorem insertLoglineAt_error_named {cfg : Cfg} {rnd : UInt64} {customerKey : String} {time : UInt64}
    {logLine : String} {st st' : St} {e : Error}
    (h : insertLoglineAt cfg rnd customerKey time logLine st = .error e st') :
    st'.store = st.store ∧ (st'.flushTimes = st.flushTimes ∨
      ∃ uid eid t, splitC (cfg.parseQueryString logLine) = .ok (uid, eid) ∧ cfg.shard uid = true ∧
        st'.flushTimes = st.flushTimes.emplace uid t) := by
  rw [insertLoglineAt_apply] at h
  simp only at h
  split at h
  · cases h; exact ⟨rfl, .inl rfl⟩
  next _ uid eid hc =>
    split at h
    next hs =>
      split at h
      · cases h; exact ⟨rfl, .inl rfl⟩
      · rw [appendToSession_apply] at h
        rcases hev : encodeEvent time eid (storedParams (cfg.parseQueryString logLine)) with _ | buf <;>
          simp only [hev] at h <;> cases h
        exact ⟨rfl, .inr ⟨uid, eid, _, hc, hs, rfl⟩⟩
    · cases h

theorem resultState_insertLogline (cfg : Cfg) (rnd : UInt64) (line : StdString) (st : St) :
    ((Op.insertLogline line rnd).line? = none ∧ resultState (insertLogline cfg rnd line.val st) = st) ∨
      ∃ customerKey time body, (Op.insertLogline line rnd).line? = some (customerKey, time, body, rnd) ∧
        body.length < 2 ^ 64 ∧
        resultState (insertLogline cfg rnd line.val st) = resultState (insertLoglineAt cfg rnd customerKey time body st) := by
  rw [insertLogline_apply]
  rcases hl : splitLogline line.val with _ | ⟨customerKey, timestr, body⟩
  · exact .inl ⟨by simp [Op.line?, hl], rfl⟩
  dsimp only
  rcases ht : stoul timestr with e | secs
  · exact .inl ⟨by simp [Op.line?, hl, ht], rfl⟩
  exact .inr ⟨customerKey, _, body, by simp [Op.line?, hl, ht],
    lt_of_le_of_lt (splitLogline_body hl) line.fits, rfl⟩

/-! ## Customer keys and their records -/

/-- every customer key has a record of its uid beside it -/
def CustRecord (s : Store) : Prop :=
  ∀ u v, (custKey u, v) ∈ s.entries → ∃ evtype r w, (eventKey u evtype r, w) ∈ s.entries

theorem Store.key_mem_insert {s : Store} {k v k' v' : String} (h : (k', v') ∈ s.entries) :
    ∃ w, (k', w) ∈ (s.insert k v).entries := by
  by_cases hk : k' = k
  · exact ⟨v, Store.mem_insert.2 (.inl (by rw [hk]))⟩
  · exact ⟨v', Store.mem_insert.2 (.inr ⟨h, hk⟩)⟩

theorem beginsWith_custKey_of_eventKey {u v evtype : String} {r : UInt64} (hu : '~' ∉ u.data)
    (h : beginsWith (eventKey v evtype r) u = true) : beginsWith (custKey v) u = true := by
  rw [beginsWith_iff, data_custKey]
  exact (prefix_of_beginsWith hu (eventKey_beginsWith v evtype r) h).trans (List.prefix_append _ _)

theorem CustRecord.line {cfg : Cfg} {rnd : UInt64} {customerKey : String} {time : UInt64} {body : String}
    {st st' : St} (hc : CustRecord st.store) (h : insertLoglineAt cfg rnd customerKey time body st = .ok () st') :
    CustRecord st'.store := by
  rcases insertLoglineAt_ok h with ⟨_, _, -, -, rfl⟩ | ⟨uid, eid, evtype, buf, -, -, -, -, rfl⟩
  · exact hc
  intro v x hv
  rcases Store.mem_insert.1 hv with h | ⟨hv, -⟩
  · obtain rfl := custKey_injective (Prod.mk.inj_iff.1 h).1
    exact ⟨evtype, rnd, buf, Store.mem_insert.2 (.inr ⟨Store.mem_insert.2 (.inl rfl), eventKey_ne_custKey⟩)⟩
  rcases Store.mem_insert.1 hv with h | ⟨hv, -⟩
  · exact absurd (Prod.mk.inj_iff.1 h).1.symm eventKey_ne_custKey
  obtain ⟨evtype', r, w, hw⟩ := hc v x hv
  obtain ⟨w1, hw1⟩ := Store.key_mem_insert (k := eventKey uid evtype rnd) (v := buf) hw
  obtain ⟨w2, hw2⟩ := Store.key_mem_insert (k := custKey uid) (v := customerKey) hw1
  exact ⟨evtype', r, w2, hw2⟩

theorem CustRecord.flushSession {cfg : Cfg} {target : TrackedSession → Except Error String}
    {rnd : BitVec 128} {uid : String} {st st' : St} {r : Option TrackedSession} (hu : '~' ∉ uid.data)
    (hc : CustRecord st.store) (hf : flushSession cfg target rnd uid st = .ok r st') :
    CustRecord st'.store := by
  obtain ⟨-, hout, hkeep⟩ := flushSession_entries hf
  intro v x hv
  rcases hout _ hv with ⟨hv, hb⟩ | h
  · obtain ⟨evtype, r, w, hr⟩ := hc v x hv
    refine ⟨evtype, r, w, hkeep _ hr ?_ eventKey_ne_envelopeKey⟩
    rw [Bool.eq_false_iff]
    intro he
    simp [beginsWith_custKey_of_eventKey hu he] at hb
  · exact absurd h custKey_ne_envelopeKey

theorem CustRecord.flushed {cfg : Cfg} {target : TrackedSession → Except Error String}
    {rnd : String → BitVec 128} {s : UInt64} {st st' : St} {handed : List TrackedSession}
    (hu : ∀ u ∈ st.flushTimes.entries.map Prod.fst, '~' ∉ u.data) (hc : CustRecord st.store)
    (h : LogJoin.flush cfg target rnd s st = .ok handed st') : CustRecord st'.store :=
  flushLoop_induct (fun _ st => CustRecord st.store)
    (fun uid _ _ _ _ st1 hm _ hc hf => show CustRecord st1.store from
      hc.flushSession (hu uid (List.mem_map_of_mem _ hm)) hf)
    [] hc ((flush_apply cfg target rnd s st).symm.trans h)

theorem flushSession_keys {cfg : Cfg} {target : TrackedSession → Except Error String}
    {rnd : BitVec 128} {uid : String} {st st' : St} {r : Option TrackedSession}
    (hf : flushSession cfg target rnd uid st = .ok r st') {k v : String} (he : (k, v) ∈ st.store.entries)
    (hb : beginsWith k uid = false) : ∃ v', (k, v') ∈ st'.store.entries := by
  obtain ⟨session, n, -, hr⟩ := flushSession_ok hf
  have hkeep : (k, v) ∈ (st.store.erasePrefix uid).entries := Store.mem_erasePrefix.2 ⟨he, hb⟩
  split_ifs at hr <;> obtain ⟨-, rfl⟩ := hr
  · exact ⟨v, hkeep⟩
  cases envelopeOf cfg target session with
  | none => exact ⟨v, hkeep⟩
  | some env => exact Store.key_mem_insert hkeep

theorem insertLoglineAt_keys {cfg : Cfg} {rnd : UInt64} {customerKey : String} {time : UInt64} {body : String}
    {st : St} {k v : String} (h : (k, v) ∈ st.store.entries) :
    ∃ v', (k, v') ∈ (resultState (insertLoglineAt cfg rnd customerKey time body st)).store.entries := by
  rcases hr : insertLoglineAt cfg rnd customerKey time body st with ⟨⟨⟩, st'⟩ | ⟨e, st'⟩ <;>
    simp only [resultState]
  · rcases insertLoglineAt_ok hr with ⟨_, _, -, -, rfl⟩ | ⟨uid, eid, evtype, buf, -, -, -, -, rfl⟩
    · exact ⟨v, h⟩
    obtain ⟨w, hw⟩ := Store.key_mem_insert (k := eventKey uid evtype rnd) (v := buf) h
    exact Store.key_mem_insert hw
  · exact ⟨v, (insertLoglineAt_error_named hr).1 ▸ h⟩

/-! ## The bootstrap -/

section
variable {R : St → St → Prop} (hrefl : ∀ s, R s s) (htrans : ∀ ⦃a b c⦄, R a b → R b c → R a c)
  (hft : ∀ (s : St) m, R s { s with flushTimes := m })
include hrefl htrans hft

/-- the bootstrap writes the deadline map only: it keeps every relation such a write keeps -/
theorem importEntry_keeps (key value : String) : Keeps R (importEntry key value) := by
  unfold importEntry
  split_ifs
  · exact Keeps.pure hrefl ()
  · exact Keeps.pure hrefl ()
  · exact Keeps.bind htrans (Keeps.liftExcept hrefl _) fun _ => Keeps.modify fun s => hft s _

theorem importLoop_keeps : ∀ l, Keeps R (importLoop l)
  | [] => Keeps.pure hrefl ()
  | (key, value) :: rest =>
    Keeps.bind htrans (importEntry_keeps hrefl htrans hft key value) fun _ => importLoop_keeps rest

theorem importTimeoutList_keeps : Keeps R importTimeoutList :=
  Keeps.bind htrans (Keeps.get hrefl) fun st => importLoop_keeps hrefl htrans hft st.store.entries

end

/-- the bootstrap leaves the counters alone -/
theorem importTimeoutList_counters : Keeps SameCounters importTimeoutList :=
  importTimeoutList_keeps SameCounters.refl SameCounters.trans fun _ _ => SameCounters.refl _

/-- on a well-formed store whose uids are '~'-free and do not begin with `__`, `importTimeoutList` on
a fresh instance returns, leaves the store and the counters alone, and gives a deadline entry to the
uids of the store's records: each had one before -/
theorem WellFormed.importTimeoutList_ok {st : St} (hw : WellFormed st)
    (hus : ∀ u ∈ st.flushTimes.entries.map Prod.fst, '~' ∉ u.data ∧ beginsWith u "__" = false) :
    ∃ st', importTimeoutList { St.init with store := st.store } = .ok () st' ∧ st'.store = st.store ∧
      SameCounters { St.init with store := st.store } st' ∧
      (∀ u ∈ st'.flushTimes.entries.map Prod.fst, u ∈ st.flushTimes.entries.map Prod.fst) ∧
      ∀ u ∈ st.flushTimes.entries.map Prod.fst, ∀ evtype r w,
        (eventKey u evtype r, w) ∈ st.store.entries → u ∈ st'.flushTimes.entries.map Prod.fst := by
  obtain ⟨st', h, hs, hu⟩ := importLoop_ok st.store.entries { St.init with store := st.store }
    fun e he hsk => by obtain ⟨_, -, -, _, _, -, hd⟩ := hw.read_of_not_skipped he hsk; exact hd.2
  have hcount := importTimeoutList_counters { St.init with store := st.store }
  rw [show importTimeoutList { St.init with store := st.store } = .ok () st' from h] at hcount
  refine ⟨st', h, hs, hcount, fun u h' => ?_, fun u hu' evtype r w he => (hu u).2 (.inr ⟨_, he, ?_, ?_⟩)⟩
  · obtain ⟨e, he, hsk, rfl⟩ := ((hu u).1 h').resolve_left (by simp [St.init, FlushTimes.empty])
    obtain ⟨w, hsh, hw, evtype, r, hk, -⟩ := hw.read_of_not_skipped he hsk
    rwa [hk, data_eventKey, takeWhile_owner hsh.2]
  · exact importSkips_eventKey (hus u hu').2
  · rw [data_eventKey, takeWhile_owner (hus u hu').1]

/-- after the bootstrap, a store whose customer keys have records is well formed again: every uid of
a record or a customer key has its deadline entry back -/
theorem WellFormed.restart {st st' : St} (hw : WellFormed st) (hc : CustRecord st.store)
    (hs : st'.store = st.store)
    (hown : ∀ u ∈ st.flushTimes.entries.map Prod.fst, ∀ evtype r w,
      (eventKey u evtype r, w) ∈ st.store.entries → u ∈ st'.flushTimes.entries.map Prod.fst) :
    WellFormed st' := by
  rintro ⟨k, v⟩ he
  rw [hs] at he
  rcases hw _ he with h | ⟨u, hsh, hu, hk⟩
  · exact .inl h
  refine .inr ⟨u, hsh, ?_, hk⟩
  rcases hk with rfl | ⟨evtype, r, -, rfl, -⟩
  · obtain ⟨evtype, r, w, hr⟩ := hc u v he
    exact hown u hu evtype r w hr
  · exact hown u hu evtype r v he

/-! ## Lifetimes -/

/-- what happens to a `LogJoin` process: a call on its instance, or a restart, a fresh instance over
the same store that runs `importTimeoutList` -/
inductive Event where
  | call (op : Op)
  | restart

/-- the state an event leaves, whether its call returns or raises; a restart keeps the store and
starts the deadline map and the counters afresh -/
def Event.apply (cfg : Cfg) (st : St) : Event → St
  | .call (.insertLogline line rnd) => resultState (insertLogline cfg rnd line.val st)
  | .call (.insertLoglineAt customerKey time line rnd) =>
    resultState (insertLoglineAt cfg rnd customerKey time line.val st)
  | .call (.flush target rnd s) => resultState (flush cfg target rnd s st)
  | .restart => resultState (importTimeoutList { St.init with store := st.store })

/-- the state after a sequence of events -/
def life (cfg : Cfg) (st : St) (evs : List Event) : St := evs.foldl (Event.apply cfg) st

/-- the uid an event's line names -/
def Event.uid? (cfg : Cfg) : Event → Option String
  | .call op => op.uid? cfg
  | .restart => none

/-- the uids the lines of a lifetime name -/
def lifeUids (cfg : Cfg) (evs : List Event) : List String := evs.filterMap (Event.uid? cfg)

theorem life_append (cfg : Cfg) (st : St) (evs evs' : List Event) :
    life cfg st (evs ++ evs') = life cfg (life cfg st evs) evs' :=
  List.foldl_append _ _ _ _

/-- what holds in every state of a lifetime whose lines name uids of `us`: the restart needs the
customer keys' records, to give their uids a deadline entry again -/
structure LifeInv (us : List String) (st : St) : Prop where
  wellFormed : WellFormed st
  named : ∀ u ∈ st.flushTimes.entries.map Prod.fst, u ∈ us
  custRecord : CustRecord st.store
  counted : st.loglinesInvalid ≤ st.loglinesTotal

/-- every uid with a deadline entry passes the shard test: the instance schedules no uid of another
shard -/
def ShardOwned (cfg : Cfg) (st : St) : Prop := ∀ u ∈ st.flushTimes.entries.map Prod.fst, cfg.shard u = true

section
variable {us : List String} {cfg : Cfg}

theorem LifeInv.init (us : List String) : LifeInv us St.init where
  wellFormed := fun _ he => by cases he
  named := fun _ hu => by simp [St.init, FlushTimes.empty] at hu
  custRecord := fun _ _ hv => by cases hv
  counted := Nat.le_refl 0

theorem LifeInv.of_store {st st' : St} (hinv : LifeInv us st) (hs : st'.store = st.store)
    (hft : ∀ u ∈ st.flushTimes.entries.map Prod.fst, u ∈ st'.flushTimes.entries.map Prod.fst)
    (hnamed : ∀ u ∈ st'.flushTimes.entries.map Prod.fst, u ∈ us)
    (hcount : st'.loglinesInvalid ≤ st'.loglinesTotal) : LifeInv us st' where
  wellFormed e he := (hinv.wellFormed e (hs ▸ he)).mono fun u hu _ => hft u hu
  named := hnamed
  custRecord := hs ▸ hinv.custRecord
  counted := hcount

theorem LifeInv.named_emplace {st : St} (hinv : LifeInv us st) {uid : String} (hu : uid ∈ us) (t : UInt64) :
    ∀ u ∈ (st.flushTimes.emplace uid t).entries.map Prod.fst, u ∈ us := fun u h =>
  (FlushTimes.mem_emplace.1 h).elim (hinv.named u) (· ▸ hu)

/-- a line's body keeps the invariant, returning or raising, when the uid the line names is one of
`us` -/
theorem LifeInv.line {st : St} (hinv : LifeInv us st) {rnd : UInt64} {customerKey : String}
    {time : UInt64} {body : String} (hfit : body.length < 2 ^ 64)
    (hus : ∀ uid eid, splitC (cfg.parseQueryString body) = .ok (uid, eid) → uid ∈ us) :
    LifeInv us (resultState (insertLoglineAt cfg rnd customerKey time body st)) := by
  rcases hr : insertLoglineAt cfg rnd customerKey time body st with ⟨⟨⟩, st'⟩ | ⟨e, st'⟩ <;>
    simp only [resultState]
  · rcases insertLoglineAt_ok hr with ⟨_, _, -, -, rfl⟩ | ⟨uid, eid, evtype, buf, hc, -, -, -, rfl⟩
    · exact ⟨hinv.wellFormed, hinv.named, hinv.custRecord, Nat.le_succ_of_le hinv.counted⟩
    exact ⟨insertLoglineAt_wellFormed hfit hinv.wellFormed hr, hinv.named_emplace (hus uid eid hc) _,
      hinv.custRecord.line hr, Nat.le_succ_of_le hinv.counted⟩
  · obtain ⟨-, -, ht, hi, -⟩ := insertLoglineAt_error hr
    have hcount : st'.loglinesInvalid ≤ st'.loglinesTotal := by
      rw [ht, hi]; exact Nat.succ_le_succ hinv.counted
    obtain ⟨hs, hft | ⟨uid, eid, t, hc, -, hft⟩⟩ := insertLoglineAt_error_named hr <;>
      refine hinv.of_store hs (fun u hu => ?_) ?_ hcount <;> rw [hft]
    exacts [hu, hinv.named, FlushTimes.mem_emplace.2 (.inl hu), hinv.named_emplace (hus uid eid hc) t]

theorem ShardOwned.line {st : St} (hsh : ShardOwned cfg st) (rnd : UInt64) (customerKey : String)
    (time : UInt64) (body : String) :
    ShardOwned cfg (resultState (insertLoglineAt cfg rnd customerKey time body st)) := by
  have hemp : ∀ {uid : String} (t : UInt64), cfg.shard uid = true → ShardOwned cfg { st with
      flushTimes := st.flushTimes.emplace uid t } := fun t hs u hu =>
    (FlushTimes.mem_emplace.1 hu).elim (hsh u) (· ▸ hs)
  rcases hr : insertLoglineAt cfg rnd customerKey time body st with ⟨⟨⟩, st'⟩ | ⟨e, st'⟩ <;>
    simp only [resultState]
  · rcases insertLoglineAt_ok hr with ⟨_, _, -, -, rfl⟩ | ⟨uid, _, _, _, -, hs, -, -, rfl⟩
    exacts [hsh, hemp _ hs]
  · obtain ⟨-, hft | ⟨uid, _, t, -, hs, hft⟩⟩ := insertLoglineAt_error_named hr <;>
      unfold ShardOwned <;> rw [hft]
    exacts [hsh, hemp t hs]

section
variable (hus : ∀ u ∈ us, UidShape u ∧ ClearOfEnvelopes u ∧ beginsWith u "__" = false)
include hus

/-- on a state of the invariant `flush` returns -/
theorem LifeInv.flush_ok {st : St} (hinv : LifeInv us st) (target : TrackedSession → Except Error String)
    (rnd : String → BitVec 128) (s : UInt64) :
    ∃ handed st', flush cfg target rnd s st = .ok handed st' ∧ SameCounters st st' := by
  rw [flush_apply]
  refine flushLoop_returns hinv.wellFormed fun e he => ?_
  have h := hus e.1 (hinv.named e.1 (List.mem_map_of_mem _ he))
  exact ⟨h.1.2, h.2.1⟩

theorem LifeInv.flush {st : St} (hinv : LifeInv us st) (target : TrackedSession → Except Error String)
    (rnd : String → BitVec 128) (s : UInt64) : LifeInv us (resultState (flush cfg target rnd s st)) := by
  obtain ⟨handed, st', h, ht, hi⟩ := hinv.flush_ok hus target rnd s
  rw [h]
  show LifeInv us st'
  refine ⟨flush_wellFormed hinv.wellFormed h, fun u hu => hinv.named u ?_, ?_, ht ▸ hi ▸ hinv.counted⟩
  · rw [flush_flushTimes h] at hu
    exact List.map_subset _ (List.filter_sublist _).subset hu
  · exact hinv.custRecord.flushed (fun u hu => (hus u (hinv.named u hu)).1.2) h

theorem LifeInv.bootable {st : St} (hinv : LifeInv us st) :
    ∀ u ∈ st.flushTimes.entries.map Prod.fst, '~' ∉ u.data ∧ beginsWith u "__" = false := fun u hu =>
  ⟨(hus u (hinv.named u hu)).1.2, (hus u (hinv.named u hu)).2.2⟩

/-- a restart keeps the invariant: the bootstrap returns, and every uid with a customer key or a
record gets a deadline entry again -/
theorem LifeInv.restart {st : St} (hinv : LifeInv us st) :
    LifeInv us (resultState (importTimeoutList { St.init with store := st.store })) := by
  obtain ⟨st', h, hs, hcount, hback, hown⟩ := hinv.wellFormed.importTimeoutList_ok (hinv.bootable hus)
  rw [h]
  exact ⟨hinv.wellFormed.restart hinv.custRecord hs hown, fun u hu => hinv.named u (hback u hu),
    hs ▸ hinv.custRecord, hcount.2 ▸ Nat.zero_le _⟩

/-- **Step.** Every event keeps the invariant when the uid its line names is one of `us`. -/
theorem LifeInv.apply {st : St} (hinv : LifeInv us st) :
    ∀ {ev : Event}, (∀ u, ev.uid? cfg = some u → u ∈ us) → LifeInv us (ev.apply cfg st)
  | .restart, _ => hinv.restart hus
  | .call (.flush target rnd s), _ => hinv.flush hus target rnd s
  | .call (.insertLoglineAt customerKey time line rnd), hev =>
    hinv.line line.fits fun uid eid hc => hev uid (uid?_of_line rfl hc)
  | .call (.insertLogline line rnd), hev => by
    rcases resultState_insertLogline cfg rnd line st with ⟨-, h⟩ | ⟨customerKey, time, body, hl, hfit, h⟩ <;>
      simp only [Event.apply, h]
    exacts [hinv, hinv.line hfit fun uid eid hc => hev uid (uid?_of_line hl hc)]

/-- **Run.** The invariant holds after every sequence of events whose lines name uids of `us`. -/
theorem LifeInv.along : ∀ {evs : List Event} {st : St}, (∀ ev ∈ evs, ∀ u, ev.uid? cfg = some u → u ∈ us) →
    LifeInv us st → LifeInv us (life cfg st evs)
  | [], _, _, hinv => hinv
  | ev :: evs, st, hev, hinv => show LifeInv us (life cfg (ev.apply cfg st) evs) from
    LifeInv.along (fun ev' hev' => hev ev' (List.mem_cons_of_mem _ hev'))
      (hinv.apply hus (hev ev (List.mem_cons_self _ _)))

theorem LifeInv.apply_keys {st : St} (hinv : LifeInv us st) {k : String}
    (hk : ∀ u ∈ us, beginsWith k u = false) {v : String} (h : (k, v) ∈ st.store.entries) :
    ∀ ev : Event, ∃ v', (k, v') ∈ (ev.apply cfg st).store.entries
  | .restart => by
    obtain ⟨st', h', hs, -⟩ := hinv.wellFormed.importTimeoutList_ok (hinv.bootable hus)
    exact ⟨v, by simp only [Event.apply, h', resultState, hs, h]⟩
  | .call (.flush target rnd s) => by
    obtain ⟨handed, st', hf, -⟩ := hinv.flush_ok hus target rnd s
    show ∃ v', (k, v') ∈ (resultState (LogJoin.flush cfg target rnd s st)).store.entries
    rw [hf]
    exact flushLoop_induct (fun _ st1 => ∃ v', (k, v') ∈ st1.store.entries)
      (fun uid _ _ _ _ _ hm _ ⟨v', hv'⟩ hf => flushSession_keys hf hv'
        (hk uid (hinv.named uid (List.mem_map_of_mem _ hm))))
      [] ⟨v, h⟩ ((flush_apply cfg target rnd s st).symm.trans hf)
  | .call (.insertLoglineAt customerKey time line rnd) => insertLoglineAt_keys h
  | .call (.insertLogline line rnd) => by
    rcases resultState_insertLogline cfg rnd line st with ⟨-, h'⟩ | ⟨customerKey, time, body, -, -, h'⟩ <;>
      simp only [Event.apply, h']
    exacts [⟨v, h⟩, insertLoglineAt_keys h]

/-- the keys that no uid of `us` begins stay keys along every sequence of events whose lines name
uids of `us` -/
theorem LifeInv.along_keys {k : String} (hk : ∀ u ∈ us, beginsWith k u = false) :
    ∀ {evs : List Event} {st : St}, (∀ ev ∈ evs, ∀ u, ev.uid? cfg = some u → u ∈ us) → LifeInv us st →
      (∃ v, (k, v) ∈ st.store.entries) → ∃ v, (k, v) ∈ (life cfg st evs).store.entries
  | [], _, _, _, h => h
  | ev :: evs, st, hev, hinv, ⟨_, h⟩ => show ∃ v, (k, v) ∈ (life cfg (ev.apply cfg st) evs).store.entries from
    LifeInv.along_keys hk (fun ev' hev' => hev ev' (List.mem_cons_of_mem _ hev'))
      (hinv.apply hus (hev ev (List.mem_cons_self _ _))) (hinv.apply_keys hus hk h ev)

/-- every event on a state of the invariant keeps every scheduled uid in the shard: `flush` only
erases deadline entries, and a restart schedules only uids that had one -/
theorem ShardOwned.apply {st : St} (hinv : LifeInv us st) (hsh : ShardOwned cfg st) :
    ∀ ev : Event, ShardOwned cfg (ev.apply cfg st)
  | .restart => by
    obtain ⟨st', h, -, -, hback, -⟩ := hinv.wellFormed.importTimeoutList_ok (hinv.bootable hus)
    simp only [Event.apply, h, resultState]
    exact fun u hu => hsh u (hback u hu)
  | .call (.flush target rnd s) => by
    obtain ⟨handed, st', h, -⟩ : ∃ handed st', flush cfg target rnd s st = .ok handed st' ∧ SameCounters st st' :=
      hinv.flush_ok hus target rnd s
    simp only [Event.apply, h, resultState]
    intro u hu
    rw [flush_flushTimes h] at hu
    exact hsh u (((List.filter_sublist _).map _).subset hu)
  | .call (.insertLoglineAt customerKey time line rnd) => hsh.line rnd customerKey time line.val
  | .call (.insertLogline line rnd) => by
    rcases resultState_insertLogline cfg rnd line st with ⟨-, h⟩ | ⟨customerKey, time, body, -, -, h⟩ <;>
      simp only [Event.apply, h]
    exacts [hsh, hsh.line rnd customerKey time body]

/-- the run lemma: along every sequence of events whose lines name uids of `us` -/
theorem ShardOwned.along : ∀ {evs : List Event} {st : St}, (∀ ev ∈ evs, ∀ u, ev.uid? cfg = some u → u ∈ us) →
    LifeInv us st → ShardOwned cfg st → ShardOwned cfg (life cfg st evs)
  | [], _, _, _, hsh => hsh
  | ev :: evs, st, hev, hinv, hsh => show ShardOwned cfg (life cfg (ev.apply cfg st) evs) from
    ShardOwned.along (fun ev' hev' => hev ev' (List.mem_cons_of_mem _ hev'))
      (hinv.apply hus (hev ev (List.mem_cons_self _ _))) (hsh.apply hus hinv ev)

end

end

theorem lifeUids_shape {cfg : Cfg} {evs : List Event} {u : String} (h : u ∈ lifeUids cfg evs) : UidShape u := by
  obtain ⟨ev, -, h⟩ := List.mem_filterMap.1 h
  cases ev with
  | call op => exact uid?_shape h
  | restart => cases h

/-- **The lifetime invariant.** In every state of a lifetime whose uids are clear of the envelope keys
and do not begin with `__`, whatever its calls returned or raised and however often it restarted, the
store is well formed, every uid with a deadline entry is one the lifetime's lines name, every
customer key has a record of its uid beside it, and `loglines_invalid` is at most
`loglines_total`: `flush` never counts a stored record as invalid. -/
theorem life_inv {cfg : Cfg} {evs : List Event}
    (hus : ∀ u ∈ lifeUids cfg evs, ClearOfEnvelopes u ∧ beginsWith u "__" = false) :
    LifeInv (lifeUids cfg evs) (life cfg St.init evs) :=
  LifeInv.along (fun u hu => ⟨lifeUids_shape hu, hus u hu⟩)
    (fun ev hev _ hu => List.mem_filterMap.2 ⟨ev, hev, hu⟩) (LifeInv.init _)

/-- `u1` at 1000 s, flushed at 2801 s with the envelope key drawn from 0 -/
def envelopeQueued : List Event :=
  [.call (.insertLogline ⟨"CUST1|1000|c=u1~e1&e=q", by decide⟩ 0),
    .call (.flush (fun _ => .ok "") (fun _ => 0) 2801000000)]

/-- then a restart, `u2` at 2000 s, a flush at 3801 s that draws the same key, and a restart -/
def afterQueued : List Event :=
  [.restart, .call (.insertLogline ⟨"CUST2|2000|c=u2~e2&e=q", by decide⟩ 1),
    .call (.flush (fun _ => .ok "") (fun _ => 0) 3801000000), .restart]

/-- the witness: the lifetime `envelopeQueued ++ afterQueued` -/
theorem life_inv_restarts :
    (∀ u ∈ lifeUids specCfg (envelopeQueued ++ afterQueued), ClearOfEnvelopes u ∧ beginsWith u "__" = false) ∧
      LifeInv (lifeUids specCfg (envelopeQueued ++ afterQueued)) (life specCfg St.init (envelopeQueued ++ afterQueued)) :=
  have hus : ∀ u ∈ lifeUids specCfg (envelopeQueued ++ afterQueued),
      ClearOfEnvelopes u ∧ beginsWith u "__" = false := by decide
  ⟨hus, life_inv hus⟩

/-- **Shard isolation.** In every state of a lifetime whose uids are clear of the envelope keys and
do not begin with `__`, whatever its calls returned or raised and however often it restarted, every
uid with a deadline entry passes the shard test, and every key of the store is a session envelope's
or begins with `<u>~` for such a uid: the instance never stores, schedules or flushes a uid of
another shard. -/
theorem life_shard {cfg : Cfg} {evs : List Event}
    (hus : ∀ u ∈ lifeUids cfg evs, ClearOfEnvelopes u ∧ beginsWith u "__" = false) :
    (∀ u ∈ (life cfg St.init evs).flushTimes.entries.map Prod.fst, cfg.shard u = true) ∧
      ∀ e ∈ (life cfg St.init evs).store.entries,
        (∃ r, e.1 = envelopeKey r) ∨ ∃ u, cfg.shard u = true ∧ beginsWith e.1 (u ++ "~") = true := by
  have hshape : ∀ u ∈ lifeUids cfg evs, UidShape u ∧ ClearOfEnvelopes u ∧ beginsWith u "__" = false :=
    fun u hu => ⟨lifeUids_shape hu, hus u hu⟩
  have hev : ∀ ev ∈ evs, ∀ u, ev.uid? cfg = some u → u ∈ lifeUids cfg evs :=
    fun ev hev _ hu => List.mem_filterMap.2 ⟨ev, hev, hu⟩
  have hsh := ShardOwned.along hshape hev (LifeInv.init _) fun _ hu => by cases hu
  refine ⟨hsh, fun e he => ?_⟩
  rcases (LifeInv.along hshape hev (LifeInv.init _)).wellFormed.owner he with h | ⟨w, -, hw, hk⟩
  exacts [.inl h, .inr ⟨w, hsh w hw, hk⟩]

/-- `specCfg` on a shard without `u2` -/
def shardWithoutU2 : Cfg := { specCfg with shard := fun u => u != "u2" }

/-- the witness: the lifetime `envelopeQueued ++ afterQueued` on a shard without `u2`, whose line is
dropped -/
theorem life_shard_withoutU2 :
    (∀ u ∈ lifeUids shardWithoutU2 (envelopeQueued ++ afterQueued),
        ClearOfEnvelopes u ∧ beginsWith u "__" = false) ∧
      (∀ u ∈ (life shardWithoutU2 St.init (envelopeQueued ++ afterQueued)).flushTimes.entries.map Prod.fst,
        shardWithoutU2.shard u = true) ∧
      ∀ e ∈ (life shardWithoutU2 St.init (envelopeQueued ++ afterQueued)).store.entries,
        (∃ r, e.1 = envelopeKey r) ∨ ∃ u, shardWithoutU2.shard u = true ∧ beginsWith e.1 (u ++ "~") = true :=
  have hus : ∀ u ∈ lifeUids shardWithoutU2 (envelopeQueued ++ afterQueued),
      ClearOfEnvelopes u ∧ beginsWith u "__" = false := by decide
  ⟨hus, life_shard hus⟩

/-- **Neither `flush` nor the bootstrap raises.** In every state of such a lifetime, `flush` returns
at every stream time, for every join target and every draw, and a restart's `importTimeoutList`
returns. -/
theorem life_never_raises {cfg : Cfg} {evs : List Event}
    (hus : ∀ u ∈ lifeUids cfg evs, ClearOfEnvelopes u ∧ beginsWith u "__" = false)
    (target : TrackedSession → Except Error String) (rnd : String → BitVec 128) (s : UInt64) :
    (∃ handed st', flush cfg target rnd s (life cfg St.init evs) = .ok handed st') ∧
      ∃ st', importTimeoutList { St.init with store := (life cfg St.init evs).store } = .ok () st' := by
  have hus' : ∀ u ∈ lifeUids cfg evs, UidShape u ∧ ClearOfEnvelopes u ∧ beginsWith u "__" = false :=
    fun u hu => ⟨lifeUids_shape hu, hus u hu⟩
  have hinv := LifeInv.along hus' (fun ev hev _ hu => List.mem_filterMap.2 ⟨ev, hev, hu⟩) (LifeInv.init _)
  obtain ⟨st', h, -⟩ := hinv.wellFormed.importTimeoutList_ok (hinv.bootable hus')
  obtain ⟨handed, st'', hf, -⟩ := hinv.flush_ok hus' target rnd s
  exact ⟨⟨handed, st'', hf⟩, st', h⟩

/-- the witness: the lifetime `envelopeQueued ++ afterQueued`, flushed at 5000 s -/
theorem life_never_raises_restarts :
    (∀ u ∈ lifeUids specCfg (envelopeQueued ++ afterQueued), ClearOfEnvelopes u ∧ beginsWith u "__" = false) ∧
      (∃ handed st', flush specCfg (fun _ => .error ⟨.runtimeError, ""⟩) (fun _ => 1) 5000000000
        (life specCfg St.init (envelopeQueued ++ afterQueued)) = .ok handed st') ∧
      ∃ st', importTimeoutList { St.init with store := (life specCfg St.init (envelopeQueued ++ afterQueued)).store } =
        .ok () st' :=
  have hus : ∀ u ∈ lifeUids specCfg (envelopeQueued ++ afterQueued),
      ClearOfEnvelopes u ∧ beginsWith u "__" = false := by decide
  ⟨hus, life_never_raises hus (fun _ => .error ⟨.runtimeError, ""⟩) (fun _ => 1) 5000000000⟩

/-- **Queued envelopes stay.** Along a lifetime whose uids are clear of the envelope keys and do
not begin with `__`, a session envelope once in the store keeps its key there through every later
call and restart; a later `flush` that draws the same key overwrites its value. -/
theorem life_keeps_envelopes {cfg : Cfg} {evs evs' : List Event}
    (hus : ∀ u ∈ lifeUids cfg (evs ++ evs'), ClearOfEnvelopes u ∧ beginsWith u "__" = false)
    {r : BitVec 128} {v : String} (h : (envelopeKey r, v) ∈ (life cfg St.init evs).store.entries) :
    ∃ v', (envelopeKey r, v') ∈ (life cfg St.init (evs ++ evs')).store.entries := by
  have hus' : ∀ u ∈ lifeUids cfg (evs ++ evs'), UidShape u ∧ ClearOfEnvelopes u ∧ beginsWith u "__" = false :=
    fun u hu => ⟨lifeUids_shape hu, hus u hu⟩
  have hev : ∀ ev ∈ evs ++ evs', ∀ u, ev.uid? cfg = some u → u ∈ lifeUids cfg (evs ++ evs') :=
    fun ev hev _ hu => List.mem_filterMap.2 ⟨ev, hev, hu⟩
  rw [life_append]
  exact LifeInv.along_keys hus' (fun u hu => envelopeKey_not_beginsWith_uid (hus u hu).1 r)
    (fun ev h' => hev ev (List.mem_append_right _ h'))
    (LifeInv.along hus' (fun ev h' => hev ev (List.mem_append_left _ h')) (LifeInv.init _)) ⟨v, h⟩

/-- **Flushing past every deadline drains the store.** In every state of such a lifetime, a `flush`
at a stream time above every deadline returns, leaves no deadline entry, and leaves nothing in the
store but session envelopes: every record and customer key has been read and deleted. -/
theorem life_flush_drains {cfg : Cfg} {evs : List Event}
    (hus : ∀ u ∈ lifeUids cfg evs, ClearOfEnvelopes u ∧ beginsWith u "__" = false)
    (target : TrackedSession → Except Error String) (rnd : String → BitVec 128) {s : UInt64}
    (hs : ∀ e ∈ (life cfg St.init evs).flushTimes.entries, e.2 < s) :
    ∃ handed st', flush cfg target rnd s (life cfg St.init evs) = .ok handed st' ∧
      st'.flushTimes.entries = [] ∧ ∀ e ∈ st'.store.entries, ∃ r, e.1 = envelopeKey r := by
  have hus' : ∀ u ∈ lifeUids cfg evs, UidShape u ∧ ClearOfEnvelopes u ∧ beginsWith u "__" = false :=
    fun u hu => ⟨lifeUids_shape hu, hus u hu⟩
  have hinv : LifeInv (lifeUids cfg evs) (life cfg St.init evs) :=
    LifeInv.along hus' (fun ev hev _ hu => List.mem_filterMap.2 ⟨ev, hev, hu⟩) (LifeInv.init _)
  obtain ⟨handed, st', hf, -⟩ : ∃ handed st', flush cfg target rnd s (life cfg St.init evs) = .ok handed st' ∧
      SameCounters (life cfg St.init evs) st' := hinv.flush_ok hus' target rnd s
  have hnil : st'.flushTimes.entries = [] := by
    rw [flush_flushTimes hf, List.filter_eq_nil_iff]
    exact fun e he => by simpa using hs e he
  refine ⟨handed, st', hf, hnil, fun e he => ?_⟩
  rcases flush_wellFormed hinv.wellFormed hf e he with h | ⟨u, -, hu, -⟩
  · exact h
  · rw [hnil] at hu; cases hu

/-- `u1` flushed with its envelope, a restart, and a line of `u2`, pending -/
def u2Pending : List Event := envelopeQueued ++ [.restart, .call (.insertLogline ⟨"CUST2|2000|c=u2~e2&e=q", by decide⟩ 1)]

/-- the witness: `u2Pending`, flushed at 5000 s, past the deadline of `u2` at 3800 s -/
theorem life_flush_drains_u2Pending :
    (∀ u ∈ lifeUids specCfg u2Pending, ClearOfEnvelopes u ∧ beginsWith u "__" = false) ∧
      (∀ e ∈ (life specCfg St.init u2Pending).flushTimes.entries, e.2 < 5000000000) ∧
      ∃ handed st', flush specCfg (fun _ => .ok "") (fun _ => 1) 5000000000 (life specCfg St.init u2Pending) =
          .ok handed st' ∧ st'.flushTimes.entries = [] ∧ ∀ e ∈ st'.store.entries, ∃ r, e.1 = envelopeKey r :=
  have hus : ∀ u ∈ lifeUids specCfg u2Pending, ClearOfEnvelopes u ∧ beginsWith u "__" = false := by decide
  have hs : ∀ e ∈ (life specCfg St.init u2Pending).flushTimes.entries, e.2 < 5000000000 := by decide
  ⟨hus, hs, life_flush_drains hus (fun _ => .ok "") (fun _ => 1) hs⟩

set_option maxRecDepth 4000 in
/-- the witness: the envelope `envelopeQueued` writes keeps its key through `afterQueued` -/
theorem life_keeps_envelopes_restarts :
    (∀ u ∈ lifeUids specCfg (envelopeQueued ++ afterQueued), ClearOfEnvelopes u ∧ beginsWith u "__" = false) ∧
      (envelopeKey 0, ((life specCfg St.init envelopeQueued).store.find? (envelopeKey 0)).getD "") ∈
        (life specCfg St.init envelopeQueued).store.entries ∧
      ∃ v', (envelopeKey 0, v') ∈ (life specCfg St.init (envelopeQueued ++ afterQueued)).store.entries :=
  have hus : ∀ u ∈ lifeUids specCfg (envelopeQueued ++ afterQueued),
      ClearOfEnvelopes u ∧ beginsWith u "__" = false := by decide
  have h : (envelopeKey 0, ((life specCfg St.init envelopeQueued).store.find? (envelopeKey 0)).getD "") ∈
      (life specCfg St.init envelopeQueued).store.entries := by decide
  ⟨hus, h, life_keeps_envelopes hus h⟩

end EventQL.LogJoin
