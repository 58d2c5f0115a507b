import EventQL.LogJoin.Lifetime
/-!
The ingress counters over whole lifetimes (`src/logjoin/LogJoin.cc`: `stat_loglines_total_` and
`stat_loglines_invalid_`, counted by `LogJoin::insertLogline` and `LogJoin::flushSession`).

`insertLogline(customer_key, time, log_line)` counts every line it is given in `loglines_total`
before its `try` block, and once more in `loglines_invalid` when the block raises: the c param does
not split, or the uid is this shard's and the e param or the record's encoding fails. Whether it
raises is a matter of the line alone (`bodyRaises`). The wrapper `insertLogline(log_line)` raises
before that, on a line without two '|' or with a time `std::stoul` rejects, and counts nothing.
`flushSession` counts a record whose params do not decode, which a reachable store never holds. A
restart is a fresh instance, whose counters start at zero.

Results:
- `LifeInv.apply_counters`, `LifeInv.along_counters`: on a state of the lifetime invariant every
  event changes the counters as `Event.count` says, and so does every sequence of events;
- `life_counts`: after every lifetime whose uids are clear of the envelope keys and do not begin
  with `__`, `loglines_total` is the number of lines since the last restart that reached the body,
  and `loglines_invalid` the number of those whose body raised, each counted once (`lifeCount`).
-/

namespace EventQL.LogJoin

/-- whether the body of a line raises inside `insertLogline`'s `try` block: the c param does not
split, or the uid is this shard's and the e param or the record's encoding fails -/
def bodyRaises (cfg : Cfg) (time : UInt64) (body : String) : Bool :=
  let params := cfg.parseQueryString body
  match splitC params with
  | .error _ => true
  | .ok (uid, eid) =>
    cfg.shard uid && match checkEvtype params, encodeEvent time eid (storedParams params) with
      | .ok _, .ok _ => false
      | _, _ => true

/-- `loglines_total` and `loglines_invalid` -/
def St.counters (st : St) : Nat × Nat := (st.loglinesTotal, st.loglinesInvalid)

/-- the counters after an event, read from the event alone: a restart starts both afresh; a line
that reaches the body counts once in `loglines_total`, and once in `loglines_invalid` when its body
raises; a wrapper that raises and a flush count nothing -/
def Event.count (cfg : Cfg) (c : Nat × Nat) : Event → Nat × Nat
  | .restart => (0, 0)
  | .call op =>
    match op.line? with
    | some (_, time, body, _) => (c.1 + 1, c.2 + if bodyRaises cfg time body then 1 else 0)
    | none => c

/-- the counters a lifetime's events account for -/
def lifeCount (cfg : Cfg) (evs : List Event) : Nat × Nat := evs.foldl (Event.count cfg) (0, 0)

theorem Except.error_or_ok {ε α : Type} (r : Except ε α) : (∃ e, r = .error e) ∨ ∃ a, r = .ok a := by
  cases r <;> simp

/-- the body of a line counts it, and counts it as invalid exactly when it raises -/
theorem insertLoglineAt_counters (cfg : Cfg) (rnd : UInt64) (customerKey : String) (time : UInt64)
    (body : String) (st : St) :
    (resultState (insertLoglineAt cfg rnd customerKey time body st)).counters =
      (st.loglinesTotal + 1, st.loglinesInvalid + if bodyRaises cfg time body then 1 else 0) := by
  rw [insertLoglineAt_apply]
  rcases Except.error_or_ok (splitC (cfg.parseQueryString body)) with ⟨e, hc⟩ | ⟨⟨uid, eid⟩, hc⟩
  · simp [bodyRaises, St.counters, resultState, hc]
  rcases Bool.eq_false_or_eq_true (cfg.shard uid) with hs | hs
  · rcases Except.error_or_ok (checkEvtype (cfg.parseQueryString body)) with ⟨e, hev⟩ | ⟨evtype, hev⟩
    · simp [bodyRaises, St.counters, resultState, hc, hs, hev]
    rcases Except.error_or_ok (encodeEvent time eid (storedParams (cfg.parseQueryString body))) with
      ⟨e, henc⟩ | ⟨buf, henc⟩ <;> simp [bodyRaises, St.counters, resultState, appendToSession_apply, hc, hs, hev, henc]
  · simp [bodyRaises, St.counters, resultState, hc, hs]

section
variable {us : List String} {cfg : Cfg}
  (hus : ∀ u ∈ us, UidShape u ∧ ClearOfEnvelopes u ∧ beginsWith u "__" = false)
include hus

/-- **Step.** On a state of the lifetime invariant an event changes the counters as `Event.count`
says: a flush returns there without counting a record as invalid -/
theorem LifeInv.apply_counters {st : St} (hinv : LifeInv us st) :
    ∀ ev : Event, (ev.apply cfg st).counters = Event.count cfg st.counters ev
  | .restart => by
    obtain ⟨ht, hi⟩ := importTimeoutList_counters { St.init with store := st.store }
    simp only [Event.apply, Event.count, St.counters, ht, hi]
    rfl
  | .call (.flush target rnd s) => by
    obtain ⟨handed, st', h, ht, hi⟩ : ∃ handed st', LogJoin.flush cfg target rnd s st = .ok handed st' ∧ SameCounters st st' :=
      hinv.flush_ok hus target rnd s
    simp only [Event.apply, h, resultState, Event.count, Op.line?, St.counters, ht, hi]
  | .call (.insertLoglineAt customerKey time line rnd) =>
    insertLoglineAt_counters cfg rnd customerKey time line.val st
  | .call (.insertLogline line rnd) => by
    rcases resultState_insertLogline cfg rnd line st with ⟨hl, h⟩ | ⟨customerKey, time, body, hl, -, h⟩ <;>
      simp only [Event.apply, Event.count, hl, h]
    exact insertLoglineAt_counters cfg rnd customerKey time body st

/-- **Run.** Along every sequence of events whose lines name uids of `us` -/
theorem LifeInv.along_counters : ∀ {evs : List Event} {st : St},
    (∀ ev ∈ evs, ∀ u, ev.uid? cfg = some u → u ∈ us) → LifeInv us st →
      (life cfg st evs).counters = evs.foldl (Event.count cfg) st.counters
  | [], _, _, _ => rfl
  | ev :: evs, st, hev, hinv => by
    show (life cfg (ev.apply cfg st) evs).counters = evs.foldl (Event.count cfg) (Event.count cfg st.counters ev)
    rw [← hinv.apply_counters hus ev]
    exact LifeInv.along_counters (fun ev' hev' => hev ev' (List.mem_cons_of_mem _ hev'))
      (hinv.apply hus (hev ev (List.mem_cons_self _ _)))

end

/-- **The counters count each line once.** After every lifetime whose uids are clear of the
envelope keys and do not begin with `__`, whatever its calls returned or raised and however often
it restarted: `loglines_total` is the number of lines since the last restart that passed the pipe
wrapper, and `loglines_invalid` the number of those whose body raised. A line the wrapper rejects
counts in neither, and no flush counts a line as invalid. -/
theorem life_counts {cfg : Cfg} {evs : List Event}
    (hus : ∀ u ∈ lifeUids cfg evs, ClearOfEnvelopes u ∧ beginsWith u "__" = false) :
    (life cfg St.init evs).counters = lifeCount cfg evs :=
  LifeInv.along_counters (fun u hu => ⟨lifeUids_shape hu, hus u hu⟩)
    (fun ev hev _ hu => List.mem_filterMap.2 ⟨ev, hev, hu⟩) (LifeInv.init _)

/-- a line of `u1`, a line without its time, a line without a c param, a flush at 5000 s, a restart,
and a line of `u2` whose event type is not one of q, v, c, u -/
def countedLines : List Event :=
  [.call (.insertLogline ⟨"CUST1|1000|c=u1~e1&e=q", by decide⟩ 0),
    .call (.insertLogline ⟨"CUST1|1000", by decide⟩ 1),
    .call (.insertLogline ⟨"CUST1|1000|e=q", by decide⟩ 2),
    .call (.flush (fun _ => .ok "") (fun _ => 0) 5000000000), .restart,
    .call (.insertLogline ⟨"CUST2|5000|c=u2~e2&e=x", by decide⟩ 3)]

/-- the witness: after the restart one line reached the body, and its body raised -/
theorem life_counts_countedLines :
    (∀ u ∈ lifeUids specCfg countedLines, ClearOfEnvelopes u ∧ beginsWith u "__" = false) ∧
      lifeCount specCfg countedLines = (1, 1) ∧
      (life specCfg St.init countedLines).counters = lifeCount specCfg countedLines :=
  have hus : ∀ u ∈ lifeUids specCfg countedLines, ClearOfEnvelopes u ∧ beginsWith u "__" = false := by
    decide
  ⟨hus, by decide, life_counts hus⟩

end EventQL.LogJoin
