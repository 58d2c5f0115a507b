import EventQL.LogJoin.Flush
/-!
Runs of a `LogJoin` instance: calls made on it one after another, each returning normally, from a
fresh instance over an empty store; and what every state of a run satisfies.

A call is an `Op`: `insertLogline` on a raw line, `insertLogline` on a customer key, a time and a
body, or `flush` with a join target, the random numbers it draws and a stream time. Lines are
`std::string`s, shorter than 2^64 bytes (`StdString`). `step` is the state after a call that
returned; `run` folds it and is `none` once a call raised.

Results:
- `step_ok`: a call that returned passed its line to `insertLoglineAt` (`Op.line?`), or flushed;
- `accepted_reads`: the record of an accepted line decodes to its time floored to the second, its
  eid and its stored params;
- `run_wellFormed`: in every state of a run, every key is an envelope key, the customer key of a
  uid, or the key `<uid>~<e>~<hex64>` of a record that both readers decode, e one of q, v, c, u,
  the uid non-empty, without '~' and with a deadline entry (`WellFormed`);
- `flush_drains`: a returning `flush(s)` leaves no key `<uid>~...` of a uid that was due;
- `run_records_finalized`: so in every state of a run, every key but an envelope key belongs to a
  uid with a deadline entry, and a returning `flush` at a stream time above that deadline deletes it;
- `deadline_never_due`: an event at 2^64 - 1 - 1800·10^6 µs gets the deadline 2^64 - 1 (the sum
  wraps no further), which no stream time exceeds: no `flush` ever finalizes it.
-/

namespace EventQL.LogJoin

/-! ## Runs -/

/-- a `std::string`: shorter than 2^64 bytes -/
structure StdString where
  val : String
  fits : val.length < 2 ^ 64

/-- a call on a `LogJoin` instance, with the random numbers it draws -/
inductive Op where
  | insertLogline (line : StdString) (rnd : UInt64)
  | insertLoglineAt (customerKey : String) (time : UInt64) (line : StdString) (rnd : UInt64)
  | flush (target : TrackedSession → Except Error String) (rnd : String → BitVec 128)
      (streamTime : UInt64)

/-- the state a call leaves when it returns -/
def okState {α : Type} : EStateM.Result Error St α → Option St
  | .ok _ s => some s
  | .error _ _ => none

theorem okState_eq_some {α : Type} {r : EStateM.Result Error St α} {st : St} :
    okState r = some st ↔ ∃ a, r = .ok a st := by
  cases r <;> simp [okState]

/-- the state after a call that returned -/
def step (cfg : Cfg) (st : St) : Op → Option St
  | .insertLogline line rnd => okState (insertLogline cfg rnd line.val st)
  | .insertLoglineAt customerKey time line rnd =>
    okState (insertLoglineAt cfg rnd customerKey time line.val st)
  | .flush target rnd s => okState (flush cfg target rnd s st)

/-- the state after calls that all returned -/
def run (cfg : Cfg) : St → List Op → Option St
  | st, [] => some st
  | st, op :: ops => (step cfg st op).bind fun st' => run cfg st' ops

/-- a property that every returning call of a run keeps holds in every state of the run -/
theorem run_induct {cfg : Cfg} (P : St → Prop) {ops : List Op}
    (hstep : ∀ st op st', op ∈ ops → P st → step cfg st op = some st' → P st') :
    ∀ {st st' : St}, P st → run cfg st ops = some st' → P st' := by
  induction ops with
  | nil => intro st st' hp h; cases h; exact hp
  | cons op ops ih =>
    intro st st' hp h
    simp only [run, Option.bind_eq_some] at h
    obtain ⟨st1, h1, h⟩ := h
    exact ih (fun s o s' ho => hstep s o s' (List.mem_cons_of_mem _ ho))
      (hstep st op st1 (List.mem_cons_self _ _) hp h1) h

/-- the line a call hands to `insertLoglineAt`: customer key, time, body and the number drawn for
the record key; none for a `flush`, and for a raw line the wrapper rejects -/
def Op.line? : Op → Option (String × UInt64 × String × UInt64)
  | .insertLogline line rnd =>
    match splitLogline line.val with
    | some (customerKey, timestr, body) =>
      match stoul timestr with
      | .ok secs => some (customerKey, secs * kMicrosPerSecond, body, rnd)
      | .error _ => none
    | none => none
  | .insertLoglineAt customerKey time line rnd => some (customerKey, time, line.val, rnd)
  | .flush .. => none

theorem step_ok {cfg : Cfg} {st st' : St} {op : Op} (h : step cfg st op = some st') :
    (∃ customerKey time body rnd, op.line? = some (customerKey, time, body, rnd) ∧
      body.length < 2 ^ 64 ∧ insertLoglineAt cfg rnd customerKey time body st = .ok () st') ∨
    ∃ target rnd s handed, op = .flush target rnd s ∧ flush cfg target rnd s st = .ok handed st' := by
  cases op with
  | insertLogline line rnd =>
    obtain ⟨⟨⟩, hs⟩ := okState_eq_some.1 h
    obtain ⟨customerKey, _, body, secs, hl, ht, hs⟩ := insertLogline_ok hs
    exact .inl ⟨customerKey, _, body, rnd, by simp [Op.line?, hl, ht],
      lt_of_le_of_lt (splitLogline_body hl) line.fits, hs⟩
  | insertLoglineAt customerKey time line rnd =>
    obtain ⟨⟨⟩, hs⟩ := okState_eq_some.1 h
    exact .inl ⟨customerKey, time, line.val, rnd, rfl, line.fits, hs⟩
  | flush target rnd s =>
    obtain ⟨handed, hs⟩ := okState_eq_some.1 h
    exact .inr ⟨target, rnd, s, handed, rfl, hs⟩

/-- the uid a call's line names in its c parameter -/
def Op.uid? (cfg : Cfg) (op : Op) : Option String :=
  op.line?.bind fun line => (splitC (cfg.parseQueryString line.2.2.1)).toOption.map Prod.fst

/-- the uids the lines of a run name -/
def runUids (cfg : Cfg) (ops : List Op) : List String := ops.filterMap (Op.uid? cfg)

/-- the numbers the lines of a run draw for their record keys -/
def runRnds (ops : List Op) : List UInt64 := ops.filterMap fun op => op.line?.map fun line => line.2.2.2

/-! ## Keys -/

/-- a uid as `insertLogline` takes it from the c parameter: non-empty, without '~' -/
def UidShape (u : String) : Prop := u.length ≠ 0 ∧ '~' ∉ u.data

/-- a record both readers decode without raising: `flushSession`'s reads, outside and inside its
`try` block, and `importTimeoutList`'s varint -/
def Decodes (value : String) : Prop :=
  (∃ time evid rest logline, readEventHeader value = .ok (time, evid, rest) ∧
    readLogline rest = .ok logline) ∧
  ∃ secs rest, readVarUInt value.data = .ok (secs, rest)

/-- an entry of one of the kinds the calls write, the uid of a record with a deadline entry -/
def WellFormedEntry (m : FlushTimes) (k v : String) : Prop :=
  (∃ r, k = envelopeKey r) ∨
  ∃ u, UidShape u ∧ u ∈ m.entries.map Prod.fst ∧
    (k = custKey u ∨ ∃ evtype r, evtype ∈ ["q", "v", "c", "u"] ∧ k = eventKey u evtype r ∧ Decodes v)

/-- every entry of the store is well formed -/
def WellFormed (st : St) : Prop := ∀ e ∈ st.store.entries, WellFormedEntry st.flushTimes e.1 e.2

theorem beginsWith_of_append {k u v : String} (h : beginsWith k (u ++ v) = true) :
    beginsWith k u = true := by
  rw [beginsWith_iff, String.data_append] at *
  exact (List.prefix_append _ _).trans h

theorem custKey_beginsWith (u : String) : beginsWith (custKey u) (u ++ "~") = true := by
  rw [beginsWith_iff]
  simp [custKey]

theorem eventKey_beginsWith (u evtype : String) (r : UInt64) :
    beginsWith (eventKey u evtype r) (u ++ "~") = true := by
  rw [beginsWith_iff]
  simp [eventKey]

theorem tilde_not_mem_envelopeKey (r : BitVec 128) : '~' ∉ (envelopeKey r).data := by
  simp only [envelopeKey, hex128, String.data_append, List.mem_append, not_or]
  exact ⟨by decide, tilde_not_mem_hexDigits _ _⟩

/-- an envelope key has no '~': it begins with no `<uid>~` -/
theorem envelopeKey_not_beginsWith (r : BitVec 128) (u : String) :
    beginsWith (envelopeKey r) (u ++ "~") = false := by
  rw [Bool.eq_false_iff, ne_eq, beginsWith_iff, String.data_append]
  intro h
  exact tilde_not_mem_envelopeKey r (h.subset (by simp))

theorem WellFormedEntry.mono {m m' : FlushTimes} {k v : String}
    (hm : ∀ u ∈ m.entries.map Prod.fst, beginsWith k u = true → u ∈ m'.entries.map Prod.fst)
    (h : WellFormedEntry m k v) : WellFormedEntry m' k v := by
  rcases h with h | ⟨u, hs, hu, hk⟩
  · exact .inl h
  refine .inr ⟨u, hs, hm u hu (@beginsWith_of_append k u "~" ?_), hk⟩
  rcases hk with rfl | ⟨_, _, -, rfl, -⟩
  exacts [custKey_beginsWith u, eventKey_beginsWith _ _ _]

/-! ## The invariant -/

/-- the record of an accepted line decodes to the line's time floored to the second, its eid and
its stored params -/
theorem accepted_reads {cfg : Cfg} {logLine uid eid buf : String} {time : UInt64}
    (hfit : logLine.length < 2 ^ 64) (hc : splitC (cfg.parseQueryString logLine) = .ok (uid, eid))
    (hbuf : encodeEvent time eid (storedParams (cfg.parseQueryString logLine)) = .ok buf) :
    (∃ rest, readEventHeader buf = .ok (time / kMicrosPerSecond * kMicrosPerSecond, eid, rest) ∧
      readLogline rest = .ok (storedParams (cfg.parseQueryString logLine))) ∧
    ∃ rest, readVarUInt buf.data = .ok (time / kMicrosPerSecond, rest) := by
  obtain ⟨c, hcm, hcd, -, -⟩ := splitC_ok hc
  have hvals := cfg.parseQueryString_fits logLine hfit
  have heid : eid.length < 2 ^ 64 := by
    have : c.length < 2 ^ 64 := hvals _ hcm
    have hlen : c.length = uid.length + 1 + eid.length := by
      simp only [String.length, hcd, List.length_append, List.length_cons]; omega
    omega
  exact encodeEvent_reads hbuf heid fun p hp => hvals p (List.mem_of_mem_filter hp)

theorem insertLoglineAt_wellFormed {cfg : Cfg} {rnd : UInt64} {customerKey : String} {time : UInt64}
    {logLine : String} {st st' : St} (hfit : logLine.length < 2 ^ 64) (hw : WellFormed st)
    (h : insertLoglineAt cfg rnd customerKey time logLine st = .ok () st') : WellFormed st' := by
  rcases insertLoglineAt_ok h with ⟨_, _, -, -, rfl⟩ | ⟨uid, eid, evtype, buf, hc, -, hev, hbuf, rfl⟩
  · exact hw
  obtain ⟨_, -, -, hl, ht⟩ := splitC_ok hc
  obtain ⟨⟨rest, h1, h2⟩, h3⟩ := accepted_reads hfit hc hbuf
  have hdec : Decodes buf := ⟨⟨_, _, _, _, h1, h2⟩, _, h3⟩
  have hmem : uid ∈ (st.flushTimes.emplace uid (time + kSessionIdleTimeoutSeconds * kMicrosPerSecond)).entries.map
      Prod.fst := FlushTimes.mem_emplace.2 (.inr rfl)
  intro e he
  rcases Store.mem_insert.1 he with rfl | ⟨he, -⟩
  · exact .inr ⟨uid, ⟨hl, ht⟩, hmem, .inl rfl⟩
  rcases Store.mem_insert.1 he with rfl | ⟨he, -⟩
  · exact .inr ⟨uid, ⟨hl, ht⟩, hmem, .inr ⟨evtype, rnd, checkEvtype_ok hev, rfl, hdec⟩⟩
  · exact (hw e he).mono fun u hu _ => FlushTimes.mem_emplace.2 (.inl hu)

theorem flushSession_entries {cfg : Cfg} {target : TrackedSession → Except Error String}
    {rnd : BitVec 128} {uid : String} {st st' : St} {r : Option TrackedSession}
    (h : flushSession cfg target rnd uid st = .ok r st') :
    st'.flushTimes = st.flushTimes ∧
      (∀ e ∈ st'.store.entries, (e ∈ st.store.entries ∧ beginsWith e.1 uid = false) ∨ e.1 = envelopeKey rnd) ∧
      ∀ e ∈ st.store.entries, beginsWith e.1 uid = false → e.1 ≠ envelopeKey rnd → e ∈ st'.store.entries := by
  obtain ⟨session, n, -, hr⟩ := flushSession_ok h
  have hkeep : ∀ e ∈ st.store.entries, beginsWith e.1 uid = false → e ∈ (st.store.erasePrefix uid).entries :=
    fun e he hb => Store.mem_erasePrefix.2 ⟨he, hb⟩
  split_ifs at hr <;> obtain ⟨-, rfl⟩ := hr
  · exact ⟨rfl, fun e he => .inl (Store.mem_erasePrefix.1 he), fun e he hb _ => hkeep e he hb⟩
  cases envelopeOf cfg target session with
  | none => exact ⟨rfl, fun e he => .inl (Store.mem_erasePrefix.1 he), fun e he hb _ => hkeep e he hb⟩
  | some env =>
    refine ⟨rfl, fun e he => ?_, fun e he hb hne => Store.mem_insert.2 (.inr ⟨hkeep e he hb, hne⟩)⟩
    rcases Store.mem_insert.1 he with rfl | ⟨he, -⟩
    exacts [.inr rfl, .inl (Store.mem_erasePrefix.1 he)]

theorem flushSession_wellFormed {cfg : Cfg} {target : TrackedSession → Except Error String}
    {rnd : BitVec 128} {uid : String} {st st' : St} {r : Option TrackedSession} (hw : WellFormed st)
    (hf : flushSession cfg target rnd uid st = .ok r st') :
    WellFormed { st' with flushTimes := st'.flushTimes.erase uid } := by
  obtain ⟨hft, hout, -⟩ := flushSession_entries hf
  intro e he
  rcases hout e he with ⟨he, hb⟩ | h
  · exact (hw e he).mono fun u hu hku => FlushTimes.mem_erase.2 ⟨hft ▸ hu, by rintro rfl; simp [hku] at hb⟩
  · exact .inl ⟨_, h⟩

theorem flush_wellFormed {cfg : Cfg} {target : TrackedSession → Except Error String}
    {rnd : String → BitVec 128} {s : UInt64} {st st' : St} {handed : List TrackedSession}
    (hw : WellFormed st) (h : flush cfg target rnd s st = .ok handed st') : WellFormed st' :=
  flushLoop_induct (fun _ st => WellFormed st) (fun _ _ _ _ _ _ _ _ hw1 hf => flushSession_wellFormed hw1 hf)
    [] hw ((flush_apply cfg target rnd s st).symm.trans h)

/-- every state of a run is well formed -/
theorem run_wellFormed {cfg : Cfg} {ops : List Op} {st : St} (h : run cfg St.init ops = some st) :
    WellFormed st := by
  refine run_induct WellFormed (fun st op st' _ hw hs => ?_) (fun e he => by cases he) h
  rcases step_ok hs with ⟨_, _, _, _, -, hfit, hs⟩ | ⟨_, _, _, _, -, hs⟩
  exacts [insertLoglineAt_wellFormed hfit hw hs, flush_wellFormed hw hs]

/-! ## Finalization -/

theorem FlushTimes.mem_due {m : FlushTimes} {s : UInt64} {u : String} :
    u ∈ m.due s ↔ ∃ t, (u, t) ∈ m.entries ∧ t < s := by
  simp [FlushTimes.due]

theorem FlushTimes.mem_of_mem_due {m : FlushTimes} {s : UInt64} {u : String} (h : u ∈ m.due s) :
    u ∈ m.entries.map Prod.fst := by
  obtain ⟨t, ht, -⟩ := FlushTimes.mem_due.1 h
  exact List.mem_map_of_mem _ ht

theorem FlushTimes.not_mem_due {m : FlushTimes} {s t : UInt64} {u : String} (ht : (u, t) ∈ m.entries)
    (hts : ¬ t < s) : u ∉ m.due s := by
  intro h
  obtain ⟨t', ht', hts'⟩ := FlushTimes.mem_due.1 h
  cases List.inj_on_of_nodup_map m.nodup ht ht' rfl
  exact hts hts'

theorem flush_mem_keys {cfg : Cfg} {target : TrackedSession → Except Error String}
    {rnd : String → BitVec 128} {s : UInt64} {st st' : St} {handed : List TrackedSession}
    (h : flush cfg target rnd s st = .ok handed st') {u : String}
    (hu : u ∈ st'.flushTimes.entries.map Prod.fst) : ∃ tu, (u, tu) ∈ st.flushTimes.entries ∧ ¬ tu < s := by
  obtain ⟨⟨u, tu⟩, hm, rfl⟩ := List.mem_map.1 hu
  rw [flush_flushTimes h, List.mem_filter, decide_eq_true_eq] at hm
  exact ⟨tu, hm⟩

theorem flushSession_drains {cfg : Cfg} {target : TrackedSession → Except Error String}
    {rnd : BitVec 128} {v : String} {st st' : St} {r : Option TrackedSession}
    (hf : flushSession cfg target rnd v st = .ok r st') :
    ∀ e ∈ st'.store.entries, beginsWith e.1 (v ++ "~") = false := by
  intro e he
  rcases (flushSession_entries hf).2.1 e he with ⟨-, hb⟩ | h
  · exact Bool.eq_false_iff.2 fun h' => by rw [beginsWith_of_append h'] at hb; cases hb
  · rw [h]; exact envelopeKey_not_beginsWith _ _

/-- **Scan and drain.** A returning `flush(s)` leaves no key `<uid>~...` of a uid that was due. -/
theorem flush_drains {cfg : Cfg} {target : TrackedSession → Except Error String}
    {rnd : String → BitVec 128} {s : UInt64} {st st' : St} {handed : List TrackedSession}
    (h : flush cfg target rnd s st = .ok handed st') :
    ∀ u ∈ st.flushTimes.due s, ∀ e ∈ st'.store.entries, beginsWith e.1 (u ++ "~") = false := by
  have hloop := h
  rw [flush_apply] at hloop
  have := flushLoop_induct (fun _ st1 => ∀ u ∈ st.flushTimes.due s, u ∉ st1.flushTimes.entries.map Prod.fst →
    ∀ e ∈ st1.store.entries, beginsWith e.1 (u ++ "~") = false) ?_ []
    (fun u hu hn => absurd (FlushTimes.mem_of_mem_due hu) hn) hloop
  · intro u hu
    refine this u hu fun hn => ?_
    obtain ⟨tu, hm, hts⟩ := flush_mem_keys h hn
    exact FlushTimes.not_mem_due hm hts hu
  intro uid t _ st1 r st2 _ _ hP hf u hu hn e he
  obtain ⟨hft2, hout, -⟩ := flushSession_entries hf
  by_cases hequ : u = uid
  · subst hequ; exact flushSession_drains hf e he
  rcases hout e he with ⟨he, -⟩ | h
  · exact hP u hu (fun hm => hn (FlushTimes.mem_erase.2 ⟨hft2 ▸ hm, hequ⟩)) e he
  · rw [h]; exact envelopeKey_not_beginsWith _ _

/-- **No orphaned records.** In every state of a run, every key is well formed, and every key but
an envelope key belongs to a uid with a deadline entry: a `flush` at any stream time above that
deadline, when it returns, deletes the key. -/
theorem run_records_finalized {cfg : Cfg} {ops : List Op} {st : St} (h : run cfg St.init ops = some st) :
    WellFormed st ∧ ∀ e ∈ st.store.entries, (∃ r, e.1 = envelopeKey r) ∨
      ∃ u t, (u, t) ∈ st.flushTimes.entries ∧ beginsWith e.1 (u ++ "~") = true ∧
        ∀ target rnd s handed st', t < s → flush cfg target rnd s st = .ok handed st' →
          ∀ e' ∈ st'.store.entries, beginsWith e'.1 (u ++ "~") = false := by
  have hw := run_wellFormed h
  refine ⟨hw, fun e he => ?_⟩
  rcases hw e he with h | ⟨u, -, hu, hk⟩
  · exact .inl h
  obtain ⟨⟨u', t⟩, ht, rfl⟩ := List.mem_map.1 hu
  refine .inr ⟨u', t, ht, ?_, fun target rnd s handed st' hts hf =>
    flush_drains hf u' (FlushTimes.mem_due.2 ⟨t, ht, hts⟩)⟩
  rcases hk with h | ⟨_, _, -, h, -⟩ <;> rw [h]
  exacts [custKey_beginsWith _, eventKey_beginsWith _ _ _]

/-- two lines of `u1` and `u2` -/
def twoUsers : List Op :=
  [.insertLogline ⟨"CUST1|1000|c=u1~e1&e=q", by decide⟩ 0,
   .insertLogline ⟨"CUST2|2000|c=u2~e2&e=q", by decide⟩ 1]

theorem run_eq_some_getD {cfg : Cfg} {st : St} {ops : List Op} (h : (run cfg st ops).isSome) :
    run cfg st ops = some ((run cfg st ops).getD St.init) := by
  cases hr : run cfg st ops
  · simp [hr] at h
  · rfl

/-- the witness: the state after `twoUsers` -/
theorem run_records_finalized_twoUsers :
    (run specCfg St.init twoUsers).isSome ∧
      WellFormed ((run specCfg St.init twoUsers).getD St.init) :=
  have h : (run specCfg St.init twoUsers).isSome := by decide
  ⟨h, (run_records_finalized (run_eq_some_getD h)).1⟩

/-- an event of `u1` at 2^64 - 1 - 1800·10^6 µs, through the overload that takes the time -/
def lastEvent : Op := .insertLoglineAt "CUST1" 18446744071909551615 ⟨"c=u1~e1&e=q", by decide⟩ 0

/-- the state after `lastEvent` -/
def lastEventState : St := (run specCfg St.init [lastEvent]).getD St.init

/-- the event is stored with the deadline 2^64 - 1, and every `flush`, at any stream time and with
any target, returns without finalizing it -/
theorem deadline_never_due :
    (run specCfg St.init [lastEvent]).isSome ∧
      lastEventState.flushTimes.entries = [("u1", 18446744073709551615)] ∧
      lastEventState.store.entries.length = 2 ∧
      ∀ target rnd s, flush specCfg target rnd s lastEventState = .ok [] lastEventState := by
  have hft : lastEventState.flushTimes.entries = [("u1", 18446744073709551615)] := by decide
  refine ⟨by decide, hft, by decide, fun target rnd s => ?_⟩
  have hs : ¬ (18446744073709551615 : UInt64) < s := by
    rw [UInt64.lt_iff_toNat, show (18446744073709551615 : UInt64).toNat = 2 ^ 64 - 1 from rfl]
    have := UInt64.toNat_lt s
    omega
  rw [flush_apply, hft]
  simp [flushLoop, hs]

end EventQL.LogJoin
