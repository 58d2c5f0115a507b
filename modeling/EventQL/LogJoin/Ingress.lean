import EventQL.LogJoin.Core
/-!
What an `insertLogline` call does, and what its failures leave behind.

`appendToSession_apply`, `insertLoglineAt_apply` and `insertLogline_apply` say once, case by
case, what each ingress function does to the state; everything below is derived from them.

Results:
- `emplaceIfLater_eq_emplace`: the deadline update of `appendToSession` is `emplace` whatever the
  old deadline, so an entry is never moved: `appendToSession` checks `old < flush_at` and then
  calls `emplace`, which does nothing for a key that is present;
- `insertLogline_failure_atomicity`: a failure of the wrapper changes nothing, not even a counter;
  a failure in the body raises with the store unchanged and `loglines_invalid` one higher, and
  with the deadline map unchanged except after an unregistered parameter name, which raises only
  once `appendToSession` has created the uid's entry; a uid outside the shard returns normally
  with only `loglines_total` changed;
- `insertLogline_unregistered_param`: the line `CUST1|1000|c=u1~e1&e=q&foo=bar` raises with a new
  deadline entry for `u1`;
- `deadline_not_advanced`: a second event of `u1` at 2500 s leaves the deadline of its first, at
  1000 s, in place (the spec's scenario 2 expects it advanced to (2500 + 1800)·10^6);
- `insertLogline_raises`: every exception is the wrapper's, `std::stoul`'s, a parse error of the c
  or e checks, or an unregistered stored name; the text `e param invalid` is never raised;
- `insertLogline_wireLine`: on the wire line `<customer>|<seconds>|<body>`, the customer key without
  '|' and the seconds a decimal numeral below 2^64, `insertLogline` is `insertLoglineAt` with those
  fields, whatever '|' the body holds (`splitLogline_eq_some`: the wrapper accepts exactly such
  lines).
-/

namespace EventQL.LogJoin

/-! ## The deadline update -/

theorem FlushTimes.emplace_of_mem {m : FlushTimes} {uid : String} (t : UInt64)
    (h : uid ∈ m.entries.map Prod.fst) : m.emplace uid t = m := by
  simp [emplace, h]

theorem FlushTimes.find?_eq_none {m : FlushTimes} {uid : String} :
    m.find? uid = none ↔ uid ∉ m.entries.map Prod.fst := by
  simp only [find?, List.lookup_eq_none_iff, bne_iff_ne, ne_eq, List.mem_map, Prod.exists,
    exists_and_right, exists_eq_right, not_exists]
  exact ⟨fun h x hx => h _ hx rfl, fun h p hp e => h p.2 (e ▸ hp)⟩

/-- `if (old == end || old < t) emplace(uid, t)` is `emplace(uid, t)`: the comparison never
matters, since `emplace` leaves a present key alone -/
theorem FlushTimes.emplaceIfLater_eq_emplace (m : FlushTimes) (uid : String) (t : UInt64) :
    m.emplaceIfLater uid t = m.emplace uid t := by
  unfold emplaceIfLater
  split_ifs with h
  · rfl
  · cases hf : m.find? uid with
    | none => simp [hf] at h
    | some old =>
      refine (emplace_of_mem t ?_).symm
      by_contra hn
      rw [← find?_eq_none] at hn
      simp [hn] at hf

/-! ## Spec lemmas -/

section
variable (cfg : Cfg) (rnd : UInt64) (customerKey : String) (time : UInt64) (st : St)

theorem appendToSession_apply (uid evid evtype : String) (logline : ParamList) :
    appendToSession rnd customerKey time uid evid evtype logline st =
      let flushAt := time + kSessionIdleTimeoutSeconds * kMicrosPerSecond
      let st' := { st with flushTimes := st.flushTimes.emplace uid flushAt }
      match encodeEvent time evid logline with
      | .error e => .error e st'
      | .ok buf =>
        .ok () { st' with store := ((st'.store.insert (eventKey uid evtype rnd) buf).insert
          (custKey uid) customerKey) } := by
  simp only [appendToSession, M.bind_apply, M.modify_apply, FlushTimes.emplaceIfLater_eq_emplace]
  cases encodeEvent time evid logline <;> rfl

theorem insertLoglineAt_apply (logLine : String) :
    insertLoglineAt cfg rnd customerKey time logLine st =
      let params := cfg.parseQueryString logLine
      let st1 := { st with loglinesTotal := st.loglinesTotal + 1 }
      match splitC params with
      | .error e => .error e { st1 with loglinesInvalid := st1.loglinesInvalid + 1 }
      | .ok (uid, eid) =>
        if cfg.shard uid then
          match checkEvtype params with
          | .error e => .error e { st1 with loglinesInvalid := st1.loglinesInvalid + 1 }
          | .ok evtype =>
            match appendToSession rnd customerKey time uid eid evtype (storedParams params) st1 with
            | .ok a s => .ok a s
            | .error e s => .error e { s with loglinesInvalid := s.loglinesInvalid + 1 }
        else .ok () st1 := by
  simp only [insertLoglineAt]
  rcases splitC (cfg.parseQueryString logLine) with e | ⟨uid, eid⟩
  · simp
  · by_cases hs : cfg.shard uid
    · rcases checkEvtype (cfg.parseQueryString logLine) with e | evtype
      · simp [hs]
      · simp only [hs, ite_true, liftExcept_ok, M.bind_apply, M.tryCatch_apply, M.modify_apply]
        split <;> simp [*]
    · simp [hs]

theorem insertLogline_apply (logLine : String) :
    insertLogline cfg rnd logLine st =
      match splitLogline logLine with
      | none => .error ⟨.runtimeError, "invalid logline: " ++ logLine⟩ st
      | some (customerKey, timestr, body) =>
        match stoul timestr with
        | .error e => .error e st
        | .ok secs => insertLoglineAt cfg rnd customerKey (secs * kMicrosPerSecond) body st := by
  unfold insertLogline
  rcases splitLogline logLine with _ | ⟨customerKey, timestr, body⟩
  · rfl
  · dsimp only
    rcases stoul timestr with e | secs <;> rfl

end

/-! ## Parsing -/

theorem span_ne_eq {c x : Char} {l u rest : List Char} (h : l.span (· ≠ c) = (u, x :: rest)) :
    l = u ++ c :: rest ∧ c ∉ u := by
  rw [List.span_eq_take_drop, Prod.mk.injEq] at h
  obtain ⟨hu, hd⟩ := h
  have hx : x = c := by
    have key : ∀ d, l.dropWhile (fun y => decide (y ≠ c)) = d → ∀ w : d ≠ [], decide (d.head w ≠ c) = false := by
      rintro d rfl w; exact List.head_dropWhile_not _ l w
    simpa using key _ hd (List.cons_ne_nil _ _)
  subst hx hu
  refine ⟨by rw [← hd, List.takeWhile_append_dropWhile], fun hm => ?_⟩
  simpa using List.mem_takeWhile_imp hm

theorem splitC_ok {params : ParamList} {uid eid : String} (h : splitC params = .ok (uid, eid)) :
    ∃ c, ("c", c) ∈ params ∧ c.data = uid.data ++ '~' :: eid.data ∧ uid.length ≠ 0 ∧ '~' ∉ uid.data := by
  unfold splitC at h
  split at h
  · cases h
  next c hc =>
    split at h
    · cases h
    next u rest hsp =>
      obtain ⟨hc', hu⟩ := span_ne_eq hsp
      split_ifs at h with hl
      cases h
      obtain ⟨l₁, l₂, hl', -⟩ := List.lookup_eq_some_iff.1 hc
      exact ⟨c, by rw [hl']; simp, hc', fun h0 => hl (.inl h0), hu⟩

theorem checkEvtype_ok {params : ParamList} {evtype : String} (h : checkEvtype params = .ok evtype) :
    evtype ∈ ["q", "v", "c", "u"] := by
  unfold checkEvtype at h
  split at h
  · cases h
  · split_ifs at h
    obtain ⟨data⟩ := evtype
    split at h <;> cases h <;> simp_all

theorem splitLogline_body {logLine customerKey timestr body : String}
    (h : splitLogline logLine = some (customerKey, timestr, body)) : body.length ≤ logLine.length := by
  unfold splitLogline at h
  split at h
  · cases h
  next ck rest hs1 =>
    split at h
    · cases h
    next ts b hs2 =>
      cases h
      obtain ⟨h1, -⟩ := span_ne_eq hs1
      obtain ⟨h2, -⟩ := span_ne_eq hs2
      simp only [String.length, h1, h2, List.length_append, List.length_cons]
      omega

/-! ## Inversion -/

section
variable {cfg : Cfg} {rnd : UInt64} {customerKey : String} {time : UInt64} {logLine : String}
  {st st' : St} {e : Error}

/-- a returning `insertLoglineAt` dropped a uid outside the shard, or accepted the line: one
`emplace`, then the event record and the customer key -/
theorem insertLoglineAt_ok (h : insertLoglineAt cfg rnd customerKey time logLine st = .ok () st') :
    let params := cfg.parseQueryString logLine
    (∃ uid eid, splitC params = .ok (uid, eid) ∧ cfg.shard uid = false ∧
      st' = { st with loglinesTotal := st.loglinesTotal + 1 }) ∨
    ∃ uid eid evtype buf, splitC params = .ok (uid, eid) ∧ cfg.shard uid = true ∧
      checkEvtype params = .ok evtype ∧ encodeEvent time eid (storedParams params) = .ok buf ∧
      st' = { st with
        store := (st.store.insert (eventKey uid evtype rnd) buf).insert (custKey uid) customerKey,
        flushTimes := st.flushTimes.emplace uid (time + kSessionIdleTimeoutSeconds * kMicrosPerSecond),
        loglinesTotal := st.loglinesTotal + 1 } := by
  rw [insertLoglineAt_apply] at h
  simp only at h ⊢
  split at h
  · cases h
  next _ uid eid hc =>
    split at h
    next hs =>
      split at h
      · cases h
      next _ evtype he =>
        rw [appendToSession_apply] at h
        rcases hev : encodeEvent time eid (storedParams (cfg.parseQueryString logLine)) with _ | buf <;>
          simp only [hev] at h <;> cases h
        exact .inr ⟨uid, eid, evtype, buf, hc, hs, he, hev, rfl⟩
    next hs =>
      cases h
      exact .inl ⟨uid, eid, hc, by simpa using hs, rfl⟩

/-- the failure that is not atomic: `getPixelParamID` raises on an unregistered name after
`appendToSession` has put a deadline entry in place -/
def UnregisteredParam (e : Error) (m m' : FlushTimes) : Prop :=
  ∃ name uid t, ¬ Registered name ∧ e = ⟨.indexError, "invalid pixel param: " ++ name⟩ ∧
    m' = m.emplace uid t

/-- what a raising `insertLoglineAt` leaves: the store and `joined_sessions` untouched, both
log-line counters one higher, the deadline map untouched or changed by an unregistered name -/
theorem insertLoglineAt_error (h : insertLoglineAt cfg rnd customerKey time logLine st = .error e st') :
    st'.store = st.store ∧ st'.joinedSessions = st.joinedSessions ∧
      st'.loglinesTotal = st.loglinesTotal + 1 ∧ st'.loglinesInvalid = st.loglinesInvalid + 1 ∧
      (st'.flushTimes = st.flushTimes ∨ UnregisteredParam e st.flushTimes st'.flushTimes) := by
  rw [insertLoglineAt_apply] at h
  simp only at h
  split at h
  · cases h; simp
  next _ uid eid _ =>
    split at h
    · split at h
      · cases h; simp
      next _ evtype _ =>
        rw [appendToSession_apply] at h
        rcases hev : encodeEvent time eid (storedParams (cfg.parseQueryString logLine)) with _ | buf <;>
          simp only [hev] at h <;> cases h
        obtain ⟨p, -, hp, rfl⟩ := encodeEvent_error hev
        exact ⟨rfl, rfl, rfl, rfl, .inr ⟨p.1, _, _, hp, rfl, rfl⟩⟩
    · cases h

/-- the wrapper returns only through the body, at the time the line carries -/
theorem insertLogline_ok (h : insertLogline cfg rnd logLine st = .ok () st') :
    ∃ customerKey timestr body secs, splitLogline logLine = some (customerKey, timestr, body) ∧
      stoul timestr = .ok secs ∧
      insertLoglineAt cfg rnd customerKey (secs * kMicrosPerSecond) body st = .ok () st' := by
  rw [insertLogline_apply] at h
  split at h
  · cases h
  next _ customerKey timestr body hl =>
    split at h
    · cases h
    next _ secs ht => exact ⟨customerKey, timestr, body, secs, hl, ht, h⟩

/-- the wrapper raises with the state untouched, or the body raised -/
theorem insertLogline_error (h : insertLogline cfg rnd logLine st = .error e st') :
    st' = st ∨ ∃ customerKey time body, insertLoglineAt cfg rnd customerKey time body st = .error e st' := by
  rw [insertLogline_apply] at h
  split at h
  · cases h; exact .inl rfl
  · split at h
    · cases h; exact .inl rfl
    · exact .inr ⟨_, _, _, h⟩

end

/-! ## Failure atomicity -/

/-- **Ingress failures.** A raise of the wrapper (no two '|', or a time `std::stoul` rejects)
changes nothing, not even a counter. A raise of the body leaves the store as it was and
increments `loglines_total` and `loglines_invalid` by one each; it leaves the deadline map as it
was too, except when the raise is `getPixelParamID`'s on an unregistered name, after which one
`emplace` has been done. A uid outside the shard returns with only `loglines_total` changed. -/
theorem insertLogline_failure_atomicity (cfg : Cfg) (rnd : UInt64) (logLine : String) (st : St) :
    (splitLogline logLine = none →
      insertLogline cfg rnd logLine st = .error ⟨.runtimeError, "invalid logline: " ++ logLine⟩ st) ∧
    ∀ customerKey timestr body, splitLogline logLine = some (customerKey, timestr, body) →
      (∀ e, stoul timestr = .error e → insertLogline cfg rnd logLine st = .error e st) ∧
      ∀ secs, stoul timestr = .ok secs →
        (∀ e st', insertLogline cfg rnd logLine st = .error e st' →
          st'.store = st.store ∧ st'.joinedSessions = st.joinedSessions ∧
          st'.loglinesTotal = st.loglinesTotal + 1 ∧ st'.loglinesInvalid = st.loglinesInvalid + 1 ∧
          (st'.flushTimes = st.flushTimes ∨ UnregisteredParam e st.flushTimes st'.flushTimes)) ∧
        ∀ uid eid, splitC (cfg.parseQueryString body) = .ok (uid, eid) → cfg.shard uid = false →
          insertLogline cfg rnd logLine st = .ok () { st with loglinesTotal := st.loglinesTotal + 1 } := by
  refine ⟨fun hl => by rw [insertLogline_apply, hl], fun customerKey timestr body hl =>
    ⟨fun e ht => by rw [insertLogline_apply, hl]; simp only [ht], fun secs ht => ?_⟩⟩
  have hbody : insertLogline cfg rnd logLine st =
      insertLoglineAt cfg rnd customerKey (secs * kMicrosPerSecond) body st := by
    rw [insertLogline_apply, hl]; simp only [ht]
  refine ⟨fun e st' h => insertLoglineAt_error (hbody ▸ h), fun uid eid hc hs => ?_⟩
  simp [hbody, insertLoglineAt_apply, hc, hs]

/-- the witness: a line without '|' and a line whose time is not a number raise and change nothing;
a line without a c param raises in the body and counts once as invalid; a uid outside the shard is
dropped -/
theorem insertLogline_failure_atomicity_cases :
    insertLogline specCfg 0 "garbage" St.init =
        .error ⟨.runtimeError, "invalid logline: " ++ "garbage"⟩ St.init ∧
      insertLogline specCfg 0 "CUST1|soon|e=q" St.init = .error ⟨.invalidArgument, ""⟩ St.init ∧
      (resultState (insertLogline specCfg 0 "CUST1|1000|e=q" St.init)).loglinesInvalid = 1 ∧
      insertLogline { specCfg with shard := fun _ => false } 0 "CUST1|1000|c=u1~e1&e=q" St.init =
        .ok () { St.init with loglinesTotal := 1 } :=
  have hraise : insertLogline specCfg 0 "CUST1|1000|e=q" St.init =
      .error ⟨.parseError, "c param is missing"⟩ (resultState (insertLogline specCfg 0 "CUST1|1000|e=q" St.init)) :=
    rfl
  ⟨(insertLogline_failure_atomicity specCfg 0 "garbage" St.init).1 rfl,
    ((insertLogline_failure_atomicity specCfg 0 "CUST1|soon|e=q" St.init).2 "CUST1" "soon" "e=q" rfl).1 _ rfl,
    ((((insertLogline_failure_atomicity specCfg 0 "CUST1|1000|e=q" St.init).2 "CUST1" "1000" "e=q"
      rfl).2 1000 rfl).1 _ _ hraise).2.2.2.1,
    (((insertLogline_failure_atomicity { specCfg with shard := fun _ => false } 0 "CUST1|1000|c=u1~e1&e=q"
      St.init).2 "CUST1" "1000" "c=u1~e1&e=q" rfl).2 1000 rfl).2 "u1" "e1" rfl rfl⟩

/-- a line with an unregistered parameter name raises after `appendToSession` has made a deadline
entry for its uid -/
theorem insertLogline_unregistered_param :
    raised (insertLogline specCfg 0 "CUST1|1000|c=u1~e1&e=q&foo=bar" St.init) =
        some ⟨.indexError, "invalid pixel param: foo"⟩ ∧
      (resultState (insertLogline specCfg 0 "CUST1|1000|c=u1~e1&e=q&foo=bar" St.init)).flushTimes.entries =
        [("u1", 2800000000)] := by
  decide

/-! ## What ingress raises -/

/-- `std::stoul` raises `std::invalid_argument` or `std::out_of_range`, whose text is the library's -/
theorem stoul_error {str : String} {e : Error} (h : stoul str = .error e) :
    (e.kind = .invalidArgument ∨ e.kind = .outOfRange) ∧ e.message = "" := by
  simp only [stoul] at h
  split_ifs at h <;> cases h <;> simp

theorem splitC_error {params : ParamList} {e : Error} (h : splitC params = .error e) :
    e = ⟨.parseError, "c param is missing"⟩ ∨ e = ⟨.parseError, "c param is invalid"⟩ := by
  unfold splitC at h
  split at h
  · cases h; exact .inl rfl
  · split at h
    · cases h; exact .inr rfl
    · split_ifs at h; cases h; exact .inr rfl

/-- the second length check of the e param never raises: the first has raised already -/
theorem checkEvtype_error {params : ParamList} {e : Error} (h : checkEvtype params = .error e) :
    e = ⟨.parseError, "e param is missing"⟩ ∨ e = ⟨.parseError, "invalid e param"⟩ := by
  unfold checkEvtype at h
  split at h
  · cases h; exact .inl rfl
  · split_ifs at h
    · cases h; exact .inl rfl
    · split at h <;> cases h; exact .inr rfl

/-- the parse errors of the c and e checks -/
def ingressParseErrors : List String :=
  ["c param is missing", "c param is invalid", "e param is missing", "invalid e param"]

/-- what the body raises: a parse error of the c or e checks, or an unregistered stored name -/
theorem insertLoglineAt_raises {cfg : Cfg} {rnd : UInt64} {customerKey : String} {time : UInt64}
    {logLine : String} {st st' : St} {e : Error}
    (h : insertLoglineAt cfg rnd customerKey time logLine st = .error e st') :
    e.kind = .parseError ∧ e.message ∈ ingressParseErrors ∨
      ∃ p ∈ storedParams (cfg.parseQueryString logLine), ¬ Registered p.1 ∧
        e = ⟨.indexError, "invalid pixel param: " ++ p.1⟩ := by
  rw [insertLoglineAt_apply] at h
  simp only at h
  split at h
  · cases h; rcases splitC_error ‹_› with rfl | rfl <;> simp [ingressParseErrors]
  next _ uid eid _ =>
    split at h
    · split at h
      · cases h; rcases checkEvtype_error ‹_› with rfl | rfl <;> simp [ingressParseErrors]
      next _ evtype _ =>
        rw [appendToSession_apply] at h
        rcases hev : encodeEvent time eid (storedParams (cfg.parseQueryString logLine)) with _ | buf <;>
          simp only [hev] at h <;> cases h
        exact .inr (encodeEvent_error hev)
    · cases h

/-- **What ingress raises.** Every exception `insertLogline` lets through is the wrapper's
`invalid logline: <line>`, one of `std::stoul`'s, a parse error of the c or e checks, or
`invalid pixel param: <name>` for a stored parameter of the line whose name the constructor did not
register. The source's second length check of the e param, with the text `e param invalid`, is never
reached. -/
theorem insertLogline_raises {cfg : Cfg} {rnd : UInt64} {logLine : String} {st st' : St} {e : Error}
    (h : insertLogline cfg rnd logLine st = .error e st') :
    e = ⟨.runtimeError, "invalid logline: " ++ logLine⟩ ∨
      (e.kind = .invalidArgument ∨ e.kind = .outOfRange) ∧ e.message = "" ∨
      e.kind = .parseError ∧ e.message ∈ ingressParseErrors ∨
      ∃ customerKey timestr body, splitLogline logLine = some (customerKey, timestr, body) ∧
        ∃ p ∈ storedParams (cfg.parseQueryString body), ¬ Registered p.1 ∧
          e = ⟨.indexError, "invalid pixel param: " ++ p.1⟩ := by
  rw [insertLogline_apply] at h
  split at h
  · cases h; exact .inl rfl
  next _ customerKey timestr body hl =>
    split at h
    · next _ e' he => cases h; exact .inr (.inl (stoul_error he))
    · rcases insertLoglineAt_raises h with he | he
      · exact .inr (.inr (.inl he))
      · exact .inr (.inr (.inr ⟨customerKey, timestr, body, hl, he⟩))

/-- the witness: an e param outside q, v, c, u -/
theorem insertLogline_raises_badEvtype :
    insertLogline specCfg 0 "CUST1|1000|c=u1~e1&e=x" St.init =
        .error ⟨.parseError, "invalid e param"⟩ { St.init with loglinesTotal := 1, loglinesInvalid := 1 } ∧
      ((⟨.parseError, "invalid e param"⟩ : Error) = ⟨.runtimeError, "invalid logline: CUST1|1000|c=u1~e1&e=x"⟩ ∨
      ((ErrorKind.parseError = .invalidArgument ∨ ErrorKind.parseError = .outOfRange) ∧ "invalid e param" = "") ∨
      ErrorKind.parseError = .parseError ∧ "invalid e param" ∈ ingressParseErrors ∨
      ∃ customerKey timestr body, splitLogline "CUST1|1000|c=u1~e1&e=x" = some (customerKey, timestr, body) ∧
        ∃ p ∈ storedParams (specCfg.parseQueryString body), ¬ Registered p.1 ∧
          (⟨.parseError, "invalid e param"⟩ : Error) = ⟨.indexError, "invalid pixel param: " ++ p.1⟩) :=
  have h : insertLogline specCfg 0 "CUST1|1000|c=u1~e1&e=x" St.init =
      .error ⟨.parseError, "invalid e param"⟩ { St.init with loglinesTotal := 1, loglinesInvalid := 1 } :=
    rfl
  ⟨h, insertLogline_raises h⟩

/-! ## The wire form -/

/-- Modelled from the spec: the pipe wrapper `<customer>|<unix_seconds_decimal>|<query_string>`,
whose body may hold further '|' -/
def wireLine (customerKey secs body : String) : String := customerKey ++ "|" ++ secs ++ "|" ++ body

theorem span_ne_append {c : Char} {u rest : List Char} (hu : c ∉ u) :
    (u ++ c :: rest).span (· ≠ c) = (u, c :: rest) := by
  have hpos : ∀ a ∈ u, decide (a ≠ c) = true := fun a ha => decide_eq_true fun h => hu (h ▸ ha)
  rw [List.span_eq_take_drop, List.takeWhile_append_of_pos hpos, List.dropWhile_append_of_pos hpos]
  simp [List.takeWhile_cons, List.dropWhile_cons]

/-- **The wrapper's split.** `splitLogline` accepts exactly the wire lines whose customer key and
seconds hold no '|', and returns their three fields -/
theorem splitLogline_eq_some {line customerKey secs body : String} :
    splitLogline line = some (customerKey, secs, body) ↔
      line = wireLine customerKey secs body ∧ '|' ∉ customerKey.data ∧ '|' ∉ secs.data := by
  constructor
  · intro h
    unfold splitLogline at h
    split at h
    · cases h
    next ck rest hs1 =>
      split at h
      · cases h
      next ts b hs2 =>
        cases h
        obtain ⟨h1, hck⟩ := span_ne_eq hs1
        obtain ⟨h2, hts⟩ := span_ne_eq hs2
        refine ⟨String.ext ?_, hck, hts⟩
        simp [wireLine, h1, h2]
  · rintro ⟨rfl, hck, hts⟩
    have hdata : (wireLine customerKey secs body).data =
        customerKey.data ++ '|' :: (secs.data ++ '|' :: body.data) := by simp [wireLine]
    simp only [splitLogline, hdata, span_ne_append hck, span_ne_append hts]

/-- `std::stoul` reads a decimal numeral below 2^64 as its value -/
theorem stoul_digits {secs : String} (hne : secs.data ≠ []) (hd : ∀ c ∈ secs.data, c.isDigit = true)
    (hlt : decimalValue secs.data < 2 ^ 64) : stoul secs = .ok (UInt64.ofNat (decimalValue secs.data)) := by
  obtain ⟨c, t, hct⟩ := List.exists_cons_of_ne_nil hne
  have hc := hd c (hct ▸ List.mem_cons_self c t)
  have hsp : isSpace c = false := by
    cases h : isSpace c
    · rfl
    · simp only [isSpace, Bool.or_eq_true, decide_eq_true_eq] at h
      rcases h with ((((h | h) | h) | h) | h) | h <;> subst h <;> exact absurd hc (by decide)
  have h1 : c ≠ '-' := fun h => absurd (h ▸ hc) (by decide)
  have h2 : c ≠ '+' := fun h => absurd (h ▸ hc) (by decide)
  have hdrop : secs.data.dropWhile isSpace = c :: t := by rw [hct, List.dropWhile_cons, if_neg (by simp [hsp])]
  have htake : (c :: t).takeWhile Char.isDigit = c :: t := List.takeWhile_eq_self_iff.2 (hct ▸ hd)
  simp only [stoul, hdrop]
  simp only [List.cons.injEq, h1, h2, false_and, imp_false, not_false_eq_true, implies_true, htake]
  rw [← hct]
  simp only [hne, not_le.2 hlt, if_false, Bool.false_eq_true]

/-- **The wire form's round trip.** `insertLogline` on the wire line of a customer key without '|',
a decimal numeral of seconds below 2^64 and any body, '|' included, does what `insertLoglineAt`
does with that customer key, the seconds in microseconds and that body -/
theorem insertLogline_wireLine (cfg : Cfg) (rnd : UInt64) {customerKey secs body : String}
    (hck : '|' ∉ customerKey.data) (hne : secs.data ≠ []) (hd : ∀ c ∈ secs.data, c.isDigit = true)
    (hlt : decimalValue secs.data < 2 ^ 64) :
    insertLogline cfg rnd (wireLine customerKey secs body) =
      insertLoglineAt cfg rnd customerKey (UInt64.ofNat (decimalValue secs.data) * kMicrosPerSecond) body := by
  have hts : '|' ∉ secs.data := fun h => absurd (hd '|' h) (by decide)
  rw [insertLogline, splitLogline_eq_some.2 ⟨rfl, hck, hts⟩]
  simp only [stoul_digits hne hd hlt]

/-- the witness: `CUST1|1000|c=u1~e1&e=q|x`, whose body holds a '|' -/
theorem insertLogline_wireLine_barInBody :
    '|' ∉ "CUST1".data ∧ "1000".data ≠ [] ∧ (∀ c ∈ "1000".data, c.isDigit = true) ∧
      decimalValue "1000".data < 2 ^ 64 ∧
      insertLogline specCfg 0 (wireLine "CUST1" "1000" "c=u1~e1&e=q|x") =
        insertLoglineAt specCfg 0 "CUST1" (UInt64.ofNat (decimalValue "1000".data) * kMicrosPerSecond)
          "c=u1~e1&e=q|x" :=
  ⟨by decide, by decide, by decide, by decide,
    insertLogline_wireLine specCfg 0 (by decide) (by decide) (by decide) (by decide)⟩

/-! ## The deadline is never advanced -/

theorem FlushTimes.find?_emplace_of_find? {m : FlushTimes} {uid : String} {t : UInt64}
    (u : String) (t' : UInt64) (h : m.find? uid = some t) : (m.emplace u t').find? uid = some t := by
  unfold emplace
  split
  · exact h
  · simp only [find?] at h ⊢
    simp [List.lookup_append, h]

/-- a uid's deadline, once set, survives every `insertLogline` call, returning or raising: a later
event never moves it -/
theorem insertLogline_keeps_deadline (cfg : Cfg) (rnd : UInt64) (logLine : String) {st : St}
    {uid : String} {t : UInt64} (h : st.flushTimes.find? uid = some t) :
    (resultState (insertLogline cfg rnd logLine st)).flushTimes.find? uid = some t := by
  rcases hr : insertLogline cfg rnd logLine st with ⟨⟨⟩, st'⟩ | ⟨e, st'⟩ <;> simp only [resultState]
  · obtain ⟨_, _, _, _, -, -, h'⟩ := insertLogline_ok hr
    rcases insertLoglineAt_ok h' with ⟨_, _, -, -, rfl⟩ | ⟨_, _, _, _, -, -, -, -, rfl⟩
    · exact h
    · exact FlushTimes.find?_emplace_of_find? _ _ h
  · rcases insertLogline_error hr with rfl | ⟨_, _, _, h'⟩
    · exact h
    obtain ⟨-, -, -, -, h' | ⟨_, _, _, -, -, h'⟩⟩ := insertLoglineAt_error h' <;> rw [h']
    · exact h
    · exact FlushTimes.find?_emplace_of_find? _ _ h

/-- two events of `u1`, at 1000 s and at 2500 s -/
def twoEventsOfU1 : M Unit := do
  insertLogline specCfg 0 "CUST1|1000|c=u1~e1&e=q"
  insertLogline specCfg 1 "CUST1|2500|c=u1~e2&e=q"

/-- the deadline of `u1` stays at (1000 + 1800)·10^6, and `flush(2801·10^6)` hands its session
to the target, where the spec's scenario 2 expects no output -/
theorem deadline_not_advanced :
    (resultState (twoEventsOfU1 St.init)).flushTimes.find? "u1" = some 2800000000 ∧
      (returned ((twoEventsOfU1 *> flush specCfg (fun _ => .ok "") (fun _ => 0) 2801000000)
        St.init)).map List.length = some 1 := by
  have hsecond : twoEventsOfU1 St.init = insertLogline specCfg 1 "CUST1|2500|c=u1~e2&e=q"
      (resultState (insertLogline specCfg 0 "CUST1|1000|c=u1~e1&e=q" St.init)) := rfl
  rw [hsecond]
  exact ⟨insertLogline_keeps_deadline specCfg 1 _ (by decide), by decide⟩

end EventQL.LogJoin
