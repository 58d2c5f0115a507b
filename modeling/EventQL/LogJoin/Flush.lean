import EventQL.LogJoin.Ingress
/-!
What `flush`, `flushSession` and `onSession` (`src/logjoin/LogJoin.cc`) do to the store, the
deadline map and the counters.

The frame of every call is stated with `Keeps`: each primitive step (a record read, the `del` of a
visited key, the envelope `update`, the erase of a deadline entry) keeps a relation, and the bind
and `tryCatch` lemmas carry it through the loops, for a call that returns and for one that raises.

Results:
- `flushSession_ok`: a returning `flushSession` deleted every key that begins with the uid and,
  when the customer key it read is non-empty, handed the session to the target and counted it,
  whether or not an envelope was written (`envelopeOf`);
- `flush_flushTimes`: a returning `flush` leaves exactly the deadline entries that were not due;
- `flush_frame`: whatever `flush` does, returning or raising, it changes the store only at keys
  that begin with a due uid and at the envelope keys drawn for due uids;
- `flush_overwrites_envelope`: an envelope key drawn a second time overwrites the envelope
  already under it;
- `flush_joined_sessions`: a returning `flush` counts in `joined_sessions` every session it hands
  on, one per due uid with a non-empty customer key, whether or not an envelope was written;
- `joined_without_envelope`: a raising join target still counts a joined session;
- `flushSession_header_raises`: an empty event record aborts `flushSession` with
  `kBufferOverflowError`, raised outside the `try` block, and no session is counted;
- `flush_uid_equal_to_envelope`: a uid equal to an envelope key makes `flush` raise
  `std::out_of_range` on a state that successful calls reach, with the uid's entry left in place.
-/

namespace EventQL.LogJoin

/-! ## What each call keeps -/

section
variable {R : St → St → Prop} (hrefl : ∀ s, R s s) (htrans : ∀ ⦃a b c⦄, R a b → R b c → R a c)
include hrefl htrans

theorem readRecord_keeps (hinv : ∀ s : St, R s { s with loglinesInvalid := s.loglinesInvalid + 1 })
    (uid key value : String) (session : TrackedSession) : Keeps R (readRecord uid key value session) := by
  unfold readRecord
  split
  · exact Keeps.pure hrefl _
  · refine Keeps.bind htrans (Keeps.liftExcept hrefl _) fun _ =>
      Keeps.bind htrans (Keeps.liftExcept hrefl _) fun _ => ?_
    split
    split
    · exact Keeps.pure hrefl _
    · exact Keeps.bind htrans (Keeps.modify hinv) fun _ => Keeps.pure hrefl _

theorem flushSessionLoop_keeps {uid : String}
    (hinv : ∀ s : St, R s { s with loglinesInvalid := s.loglinesInvalid + 1 })
    (herase : ∀ (s : St) k, beginsWith k uid = true → R s { s with store := s.store.erase k }) :
    ∀ (l : List (String × String)) (session : TrackedSession), Keeps R (flushSessionLoop uid l session)
  | [], _ => Keeps.pure hrefl _
  | (key, value) :: rest, session => by
    rw [flushSessionLoop]
    split
    next hb =>
      exact Keeps.bind htrans (readRecord_keeps hrefl htrans hinv uid key value session) fun s =>
        Keeps.bind htrans (Keeps.modify fun st => herase st key hb) fun _ =>
          flushSessionLoop_keeps hinv herase rest s
    · exact Keeps.pure hrefl _

theorem onSession_keeps {rnd : BitVec 128}
    (hins : ∀ (s : St) v, R s { s with store := s.store.insert (envelopeKey rnd) v })
    (cfg : Cfg) (target : TrackedSession → Except Error String) (session : TrackedSession) :
    Keeps R (onSession cfg target rnd session) := by
  unfold onSession
  refine Keeps.bind htrans (Keeps.liftExcept hrefl _) fun _ => ?_
  split
  · exact Keeps.pure hrefl _
  · exact Keeps.bind htrans (Keeps.liftExcept hrefl _) fun _ => Keeps.modify fun s => hins s _

theorem flushSession_keeps {uid : String} {rnd : BitVec 128}
    (hinv : ∀ s : St, R s { s with loglinesInvalid := s.loglinesInvalid + 1 })
    (herase : ∀ (s : St) k, beginsWith k uid = true → R s { s with store := s.store.erase k })
    (hins : ∀ (s : St) v, R s { s with store := s.store.insert (envelopeKey rnd) v })
    (hjoin : ∀ s : St, R s { s with joinedSessions := s.joinedSessions + 1 })
    (cfg : Cfg) (target : TrackedSession → Except Error String) :
    Keeps R (flushSession cfg target rnd uid) := by
  unfold flushSession
  refine Keeps.bind htrans (Keeps.get hrefl) fun _ =>
    Keeps.bind htrans (flushSessionLoop_keeps hrefl htrans hinv herase _ _) fun session => ?_
  split
  · exact Keeps.pure hrefl _
  · exact Keeps.bind htrans (Keeps.tryCatch htrans (onSession_keeps hrefl htrans hins _ _ _)
      fun _ => Keeps.pure hrefl _) fun _ =>
        Keeps.bind htrans (Keeps.modify hjoin) fun _ => Keeps.pure hrefl _

theorem flushLoop_keeps {cfg : Cfg} {target : TrackedSession → Except Error String}
    {rnd : String → BitVec 128} {s : UInt64}
    (hft : ∀ (st : St) u, R st { st with flushTimes := st.flushTimes.erase u }) :
    ∀ (l : List (String × UInt64)),
      (∀ e ∈ l, e.2 < s → Keeps R (flushSession cfg target (rnd e.1) e.1)) →
      Keeps R (flushLoop cfg target rnd s l)
  | [], _ => Keeps.pure hrefl _
  | (uid, t) :: rest, h => by
    have hrest := flushLoop_keeps hft rest fun e he => h e (List.mem_cons_of_mem _ he)
    rw [flushLoop]
    split
    next ht =>
      exact Keeps.bind htrans (h _ (List.mem_cons_self _ _) ht) fun _ =>
        Keeps.bind htrans (Keeps.modify fun st => hft st uid) fun _ =>
          Keeps.bind htrans hrest fun _ => Keeps.pure hrefl _
    · exact hrest

end

/-! ## A returning `flushSession` -/

theorem readRecord_state (uid key value : String) (session : TrackedSession) (st : St) :
    ∃ n, resultState (readRecord uid key value session st) =
      { st with loglinesInvalid := st.loglinesInvalid + n } :=
  @readRecord_keeps (fun a b => ∃ n, b = { a with loglinesInvalid := a.loglinesInvalid + n })
    (fun _ => ⟨0, rfl⟩) (fun ⦃_ _ _⦄ ⟨n, hn⟩ ⟨m, hm⟩ => ⟨n + m, by subst hn hm; simp [Nat.add_assoc]⟩)
    (fun _ => ⟨1, rfl⟩) uid key value session st

/-- a returning scan deleted the keys it visited, the entries up to the first key that does not
begin with the uid, and moved no other field but `loglines_invalid` -/
theorem flushSessionLoop_ok {uid : String} :
    ∀ {l : List (String × String)} {session session' : TrackedSession} {st st' : St},
      flushSessionLoop uid l session st = .ok session' st' →
      ∃ n, st' = { st with
        store := st.store.eraseAll ((l.takeWhile fun e => beginsWith e.1 uid).map Prod.fst),
        loglinesInvalid := st.loglinesInvalid + n }
  | [], _, _, _, _, h => by cases h; exact ⟨0, by simp⟩
  | (key, value) :: rest, session, session', st, st', h => by
    rw [flushSessionLoop] at h
    split at h
    next hb =>
      obtain ⟨s1, st1, hr, h⟩ := M.bind_ok h
      obtain ⟨n1, hn1⟩ := readRecord_state uid key value session st
      rw [hr] at hn1
      subst hn1
      obtain ⟨_, _, hm, h⟩ := M.bind_ok h
      rw [M.modify_apply] at hm
      cases hm
      obtain ⟨n2, rfl⟩ := flushSessionLoop_ok h
      exact ⟨n1 + n2, by simp [List.takeWhile_cons, hb, Store.eraseAll_erase, Nat.add_assoc]⟩
    next hb => cases h; exact ⟨0, by simp [List.takeWhile_cons, hb]⟩

/-- the envelope `onSession` writes for a session: none when the target raises, in a dry run, or
for a session without events, whose `firstSeenTime().get()` raises -/
def envelopeOf (cfg : Cfg) (target : TrackedSession → Except Error String)
    (session : TrackedSession) : Option SessionEnvelope :=
  match target session with
  | .error _ => none
  | .ok sessionData =>
    if cfg.dryRun then none
    else session.firstSeenTime.map fun time => ⟨session.customerKey, session.uid, time, sessionData⟩

/-- `onSession` inside `flushSession`'s `try`: it returns, having written the envelope if there is
one -/
theorem onSession_caught (cfg : Cfg) (target : TrackedSession → Except Error String)
    (rnd : BitVec 128) (session : TrackedSession) (st : St) :
    (tryCatch (onSession cfg target rnd session) fun _ => pure ()) st =
      .ok () { st with store := (envelopeOf cfg target session).elim st.store fun env =>
        st.store.insert (envelopeKey rnd) (cfg.encodeEnvelope env) } := by
  simp only [M.tryCatch_apply, onSession, envelopeOf, M.bind_apply]
  cases target session with
  | error e => rfl
  | ok data =>
    by_cases hd : cfg.dryRun
    · simp [hd]
    · cases session.firstSeenTime <;> simp [hd, optionGet]

/-- **A returning `flushSession`.** The scan returned with every key that begins with the uid
deleted; a session whose customer key is empty is dropped, any other is handed on and counted in
`joined_sessions`, with its envelope written when `envelopeOf` gives one. -/
theorem flushSession_ok {cfg : Cfg} {target : TrackedSession → Except Error String}
    {rnd : BitVec 128} {uid : String} {st st' : St} {r : Option TrackedSession}
    (h : flushSession cfg target rnd uid st = .ok r st') :
    ∃ session n, flushSessionLoop uid (st.store.seek uid) ⟨uid, "", []⟩ st =
        .ok session { st with store := st.store.erasePrefix uid, loglinesInvalid := st.loglinesInvalid + n } ∧
      if session.customerKey.length = 0 then
        r = none ∧ st' = { st with store := st.store.erasePrefix uid, loglinesInvalid := st.loglinesInvalid + n }
      else
        r = some session ∧ st' = { st with
          store := (envelopeOf cfg target session).elim (st.store.erasePrefix uid) fun env =>
            (st.store.erasePrefix uid).insert (envelopeKey rnd) (cfg.encodeEnvelope env),
          loglinesInvalid := st.loglinesInvalid + n, joinedSessions := st.joinedSessions + 1 } := by
  obtain ⟨_, _, hg, h⟩ := M.bind_ok h
  rw [M.get_apply] at hg
  cases hg
  obtain ⟨session, st1, hl, h⟩ := M.bind_ok h
  obtain ⟨n, rfl⟩ := flushSessionLoop_ok hl
  rw [Store.eraseAll_scan] at hl h
  refine ⟨session, n, hl, ?_⟩
  split_ifs at h ⊢
  · cases h; exact ⟨rfl, rfl⟩
  · simp only [onSession_caught, M.bind_apply, M.modify_apply, M.pure_apply] at h
    cases h; exact ⟨rfl, rfl⟩

/-! ## A returning `flush` -/

theorem flushSession_flushTimes (cfg : Cfg) (target : TrackedSession → Except Error String)
    (rnd : BitVec 128) (uid : String) (st : St) :
    (resultState (flushSession cfg target rnd uid st)).flushTimes = st.flushTimes :=
  @flushSession_keeps (fun a b => b.flushTimes = a.flushTimes) (fun _ => rfl)
    (fun ⦃_ _ _⦄ h1 h2 => h2.trans h1) uid rnd (fun _ => rfl) (fun _ _ _ => rfl) (fun _ _ => rfl)
    (fun _ => rfl) cfg target st

section
variable {cfg : Cfg} {target : TrackedSession → Except Error String} {rnd : String → BitVec 128}
  {s : UInt64}

theorem flushLoop_cons_ok {uid : String} {t : UInt64} {rest : List (String × UInt64)} {st st' : St}
    {more : List TrackedSession} (ht : t < s)
    (h : flushLoop cfg target rnd s ((uid, t) :: rest) st = .ok more st') :
    ∃ r st1 more', flushSession cfg target (rnd uid) uid st = .ok r st1 ∧
      flushLoop cfg target rnd s rest { st1 with flushTimes := st1.flushTimes.erase uid } = .ok more' st' ∧
      more = r.toList ++ more' := by
  rw [flushLoop, if_pos ht] at h
  obtain ⟨r, st1, hf, h⟩ := M.bind_ok h
  obtain ⟨_, _, hm, h⟩ := M.bind_ok h
  rw [M.modify_apply] at hm
  cases hm
  obtain ⟨more', st2, hl, h⟩ := M.bind_ok h
  cases h
  exact ⟨r, st1, more', hf, hl, rfl⟩

/-- a property of the sessions handed on so far and of the state, kept by every due step, holds
after a returning loop -/
theorem flushLoop_induct (P : List TrackedSession → St → Prop) :
    ∀ {l : List (String × UInt64)},
      (∀ uid t handed st r st', (uid, t) ∈ l → t < s → P handed st →
        flushSession cfg target (rnd uid) uid st = .ok r st' →
        P (handed ++ r.toList) { st' with flushTimes := st'.flushTimes.erase uid }) →
      ∀ (handed : List TrackedSession) {st more st'}, P handed st →
        flushLoop cfg target rnd s l st = .ok more st' → P (handed ++ more) st'
  | [], _, handed, st, more, st', hp, h => by cases h; simpa using hp
  | (uid, t) :: rest, hstep, handed, st, more, st', hp, h => by
    by_cases ht : t < s
    · obtain ⟨r, st1, more', hf, hl, rfl⟩ := flushLoop_cons_ok ht h
      simpa [List.append_assoc] using
        flushLoop_induct P (fun u t' hd s0 r s1 hm => hstep u t' hd s0 r s1 (List.mem_cons_of_mem _ hm))
          _ (hstep uid t handed st r st1 (List.mem_cons_self _ _) ht hp hf) hl
    · rw [flushLoop, if_neg ht] at h
      exact flushLoop_induct P (fun u t' hd s0 r s1 hm => hstep u t' hd s0 r s1 (List.mem_cons_of_mem _ hm))
        _ hp h

theorem flushLoop_flushTimes :
    ∀ {l : List (String × UInt64)} {st st' : St} {more : List TrackedSession},
      flushLoop cfg target rnd s l st = .ok more st' →
      st'.flushTimes.entries =
        st.flushTimes.entries.filter fun e => e.1 ∉ (l.filter fun e => e.2 < s).map Prod.fst
  | [], _, _, _, h => by cases h; simp
  | (uid, t) :: rest, st, st', more, h => by
    by_cases ht : t < s
    · obtain ⟨r, st1, more', hf, hl, rfl⟩ := flushLoop_cons_ok ht h
      have h1 := flushSession_flushTimes cfg target (rnd uid) uid st
      rw [hf] at h1
      rw [flushLoop_flushTimes hl]
      simp [resultState] at h1
      rw [List.filter_cons_of_pos (by simpa using ht)]
      simp [FlushTimes.erase, h1, List.filter_filter, Bool.beq_eq_decide_eq]
      exact List.filter_congr fun _ _ => Bool.and_comm _ _
    · rw [flushLoop, if_neg ht] at h
      rw [flushLoop_flushTimes h, List.filter_cons_of_neg (by simpa using ht)]

end

/-- **Deadline map after `flush`.** A returning `flush(s)` leaves exactly the entries whose
deadline is not below `s`, unchanged. -/
theorem flush_flushTimes {cfg : Cfg} {target : TrackedSession → Except Error String}
    {rnd : String → BitVec 128} {s : UInt64} {st st' : St} {handed : List TrackedSession}
    (h : flush cfg target rnd s st = .ok handed st') :
    st'.flushTimes.entries = st.flushTimes.entries.filter fun e => ¬ e.2 < s := by
  obtain ⟨_, _, hg, h⟩ := M.bind_ok h
  rw [M.get_apply] at hg
  cases hg
  rw [flushLoop_flushTimes h]
  refine List.filter_congr fun e he => ?_
  have hkey : e.1 ∈ (st.flushTimes.entries.filter fun e => e.2 < s).map Prod.fst ↔ e.2 < s := by
    simp only [List.mem_map, List.mem_filter, decide_eq_true_eq]
    constructor
    · rintro ⟨e', ⟨he', ht⟩, hk⟩
      rwa [List.inj_on_of_nodup_map st.flushTimes.nodup he' he hk] at ht
    · exact fun ht => ⟨e, ⟨he, ht⟩, rfl⟩
  simp [hkey]

/-! ## The store frame of `flush` -/

/-- the store differs from the old one only at keys that begin with a uid of `us` or are in
`ks` -/
def StoreFrame (us ks : List String) (st st' : St) : Prop :=
  ∀ k, (∀ u ∈ us, beginsWith k u = false) → k ∉ ks → st'.store.find? k = st.store.find? k

section
variable {us ks : List String}

theorem StoreFrame.refl (st : St) : StoreFrame us ks st st := fun _ _ _ => rfl

theorem StoreFrame.trans ⦃a b c : St⦄ (h1 : StoreFrame us ks a b) (h2 : StoreFrame us ks b c) :
    StoreFrame us ks a c := fun k hk hks => (h2 k hk hks).trans (h1 k hk hks)

theorem StoreFrame.of_store {st st' : St} (h : st'.store = st.store) : StoreFrame us ks st st' :=
  fun _ _ _ => by rw [h]

theorem StoreFrame.erase {uid : String} (hu : uid ∈ us) (st : St) (k : String)
    (hk : beginsWith k uid = true) : StoreFrame us ks st { st with store := st.store.erase k } := by
  intro k' hk' _
  have hne : k' ≠ k := by rintro rfl; simp [hk' uid hu] at hk
  simp [Store.find?_erase, hne]

theorem StoreFrame.insert {key : String} (hkey : key ∈ ks) (st : St) (v : String) :
    StoreFrame us ks st { st with store := st.store.insert key v } := by
  intro k' _ hk'
  have hne : k' ≠ key := by rintro rfl; exact hk' hkey
  simp [Store.find?_insert, hne]

theorem StoreFrame.find?_eq {rnd : String → BitVec 128} {st st' : St} {k : String}
    (h : StoreFrame us (us.map fun u => envelopeKey (rnd u)) st st')
    (hk : ∀ u ∈ us, beginsWith k u = false ∧ k ≠ envelopeKey (rnd u)) :
    st'.store.find? k = st.store.find? k :=
  h k (fun u hu => (hk u hu).1) fun hk' => by
    obtain ⟨u, hu, he⟩ := List.mem_map.1 hk'
    exact (hk u hu).2 he.symm

theorem flushSession_storeFrame {uid : String} {rnd : BitVec 128} (hu : uid ∈ us)
    (hkey : envelopeKey rnd ∈ ks) (cfg : Cfg) (target : TrackedSession → Except Error String) :
    Keeps (StoreFrame us ks) (flushSession cfg target rnd uid) :=
  flushSession_keeps StoreFrame.refl StoreFrame.trans (fun _ => StoreFrame.of_store rfl)
    (StoreFrame.erase hu) (StoreFrame.insert hkey) (fun _ => StoreFrame.of_store rfl) cfg target

end

theorem flush_apply (cfg : Cfg) (target : TrackedSession → Except Error String)
    (rnd : String → BitVec 128) (s : UInt64) (st : St) :
    flush cfg target rnd s st = flushLoop cfg target rnd s st.flushTimes.entries st := rfl

/-- the frame of `flush` as a relation the whole call keeps -/
theorem flush_storeFrame (cfg : Cfg) (target : TrackedSession → Except Error String)
    (rnd : String → BitVec 128) (s : UInt64) (st : St) :
    StoreFrame (st.flushTimes.due s) ((st.flushTimes.due s).map fun u => envelopeKey (rnd u)) st
      (resultState (flush cfg target rnd s st)) := by
  rw [flush_apply]
  refine flushLoop_keeps StoreFrame.refl StoreFrame.trans (fun _ _ => StoreFrame.of_store rfl) _
    (fun e he ht => ?_) st
  have hu : e.1 ∈ st.flushTimes.due s := List.mem_map_of_mem _ (List.mem_filter.2 ⟨he, decide_eq_true ht⟩)
  exact flushSession_storeFrame hu (List.mem_map_of_mem (fun u => envelopeKey (rnd u)) hu) cfg target

theorem readRecord_uid {uid key value : String} {session s' : TrackedSession} {st st' : St}
    (h : readRecord uid key value session st = .ok s' st') : s'.uid = session.uid := by
  unfold readRecord at h
  split at h
  · cases h; rfl
  · obtain ⟨_, _, _, h⟩ := M.bind_ok h
    obtain ⟨⟨_, _, rest⟩, _, _, h⟩ := M.bind_ok h
    dsimp only at h
    cases hl : readLogline rest <;> simp only [hl] at h
    · obtain ⟨_, _, _, h⟩ := M.bind_ok h
      cases h; rfl
    · cases h; rfl

theorem flushSessionLoop_uid {uid : String} :
    ∀ {l : List (String × String)} {session s' : TrackedSession} {st st' : St},
      flushSessionLoop uid l session st = .ok s' st' → s'.uid = session.uid
  | [], _, _, _, _, h => by cases h; rfl
  | (key, value) :: rest, session, s', st, st', h => by
    rw [flushSessionLoop] at h
    split at h
    · obtain ⟨s1, _, hr, h⟩ := M.bind_ok h
      obtain ⟨_, _, _, h⟩ := M.bind_ok h
      exact (flushSessionLoop_uid h).trans (readRecord_uid hr)
    · cases h; rfl

/-- **Join accounting.** A returning `flush(s)` hands on only sessions of due uids whose customer
key is non-empty, and `joined_sessions` grows by exactly their number, whether or not the target
returned and an envelope was written; the store changes only at keys that begin with a due uid and
at the envelope key drawn for each due uid, so at most one envelope is written per due uid. -/
theorem flush_joined_sessions {cfg : Cfg} {target : TrackedSession → Except Error String}
    {rnd : String → BitVec 128} {s : UInt64} {st st' : St} {handed : List TrackedSession}
    (h : flush cfg target rnd s st = .ok handed st') :
    st'.joinedSessions = st.joinedSessions + handed.length ∧
      (∀ S ∈ handed, S.uid ∈ st.flushTimes.due s ∧ S.customerKey.length ≠ 0) ∧
      ∀ k, (∀ u ∈ st.flushTimes.due s, beginsWith k u = false ∧ k ≠ envelopeKey (rnd u)) →
        st'.store.find? k = st.store.find? k := by
  have hframe := flush_storeFrame cfg target rnd s st
  rw [h] at hframe
  rw [flush_apply] at h
  have hloop := flushLoop_induct (fun handed st1 => st1.joinedSessions = st.joinedSessions + handed.length ∧
    ∀ S ∈ handed, S.uid ∈ st.flushTimes.due s ∧ S.customerKey.length ≠ 0) ?_ [] ⟨rfl, by simp⟩ h
  · exact ⟨hloop.1, hloop.2, fun k hk => hframe.find?_eq hk⟩
  intro uid t hd st1 r st2 hm ht ⟨hj, hS⟩ hf
  obtain ⟨session, n, hl, hr⟩ := flushSession_ok hf
  split_ifs at hr with hck
  · obtain ⟨rfl, rfl⟩ := hr
    exact ⟨by simpa using hj, by simpa using hS⟩
  · obtain ⟨rfl, rfl⟩ := hr
    refine ⟨by simp [hj, Nat.add_assoc], fun S hS' => ?_⟩
    rcases List.mem_append.1 hS' with hS' | hS'
    · exact hS S hS'
    · simp only [Option.toList_some, List.mem_singleton] at hS'
      subst hS'
      exact ⟨(flushSessionLoop_uid hl) ▸ List.mem_map_of_mem _ (List.mem_filter.2 ⟨hm, decide_eq_true ht⟩), hck⟩

/-- one event of `u1` at 1000 s -/
def oneEventOfU1 : M Unit := insertLogline specCfg 0 "CUST1|1000|c=u1~e1&e=q"

/-- a join target that raises on every session -/
def failingTarget (_ : TrackedSession) : Except Error String := .error ⟨.runtimeError, "join failed"⟩

/-- the witness: `u1` due at 2801 s, flushed with the failing target -/
theorem flush_joined_sessions_failingTarget :
    returned (flush specCfg failingTarget (fun _ => 0) 2801000000 (resultState (oneEventOfU1 St.init))) =
        some [⟨"u1", "CUST1", [⟨1000000000, "q", "e1", []⟩]⟩] ∧
      (resultState (flush specCfg failingTarget (fun _ => 0) 2801000000
        (resultState (oneEventOfU1 St.init)))).joinedSessions =
        (resultState (oneEventOfU1 St.init)).joinedSessions + 1 :=
  have h : returned (flush specCfg failingTarget (fun _ => 0) 2801000000 (resultState (oneEventOfU1 St.init))) =
      some [⟨"u1", "CUST1", [⟨1000000000, "q", "e1", []⟩]⟩] := by decide
  ⟨h, (flush_joined_sessions (ok_of_returned h)).1⟩

/-- the target raised and no envelope is written (the store ends empty), yet `joined_sessions`
is one -/
theorem joined_without_envelope :
    (resultState ((oneEventOfU1 *> flush specCfg failingTarget (fun _ => 0) 2801000000)
        St.init)).joinedSessions = 1 ∧
      (resultState ((oneEventOfU1 *> flush specCfg failingTarget (fun _ => 0) 2801000000)
        St.init)).store.entries = [] := by
  decide

/-! ## Failures of `flush` -/

/-- the customer key of `u1` and an event record that is empty -/
def emptyRecordStore : St :=
  { St.init with store := (Store.empty.insert "u1~cust" "CUST1").insert "u1~q~0000000000000000" "" }

/-- the time varint of the empty record is read outside the `try` block: `flushSession` raises
`kBufferOverflowError`, with the customer key already deleted and the record left, and no session
is handed on or counted -/
theorem flushSession_header_raises :
    raised (flushSession specCfg (fun _ => .ok "") 0 "u1" emptyRecordStore) = some bufferOverflow ∧
      (resultState (flushSession specCfg (fun _ => .ok "") 0 "u1" emptyRecordStore)).joinedSessions = 0 ∧
      (resultState (flushSession specCfg (fun _ => .ok "") 0 "u1" emptyRecordStore)).store.entries.map
        Prod.fst = ["u1~q~0000000000000000"] := by
  decide

/-- `u1` flushed at 2801 s, which writes the envelope `__sessionq-0…0`; then a line whose uid is
that key -/
def envelopeAsUid : M Unit := do
  insertLogline specCfg 0 "CUST1|1000|c=u1~e1&e=q"
  let _ ← flush specCfg (fun _ => .ok "") (fun _ => 0) 2801000000
  insertLogline specCfg 1 ("CUST1|4000|c=" ++ envelopeKey 0 ++ "~e1&e=q")

set_option maxRecDepth 4000 in
/-- the calls of `envelopeAsUid` all return; then `flush(6000·10^6)` scans from the uid, meets the
envelope key equal to it, and `key_str.substr(uid.length() + 1)` raises `std::out_of_range`: the
due uid keeps its deadline entry and its records -/
theorem flush_uid_equal_to_envelope :
    raised (envelopeAsUid St.init) = none ∧
      raised ((envelopeAsUid *> flush specCfg (fun _ => .ok "") (fun _ => 0) 6000000000) St.init) =
        some ⟨.outOfRange, ""⟩ ∧
      (resultState ((envelopeAsUid *> flush specCfg (fun _ => .ok "") (fun _ => 0) 6000000000)
        St.init)).flushTimes.find? (envelopeKey 0) = some 5800000000 := by
  decide

end EventQL.LogJoin
