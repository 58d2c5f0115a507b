import EventQL.LogJoin.FlushOrder
/-!
Dry-run mode (`src/logjoin/LogJoin.cc`: `dry_run_`, read by `LogJoin::onSession`).

With `dry_run_` set, `onSession` still calls the join target, then returns before it builds and
writes the session envelope. Nothing else reads the flag. A dry-run instance therefore runs in
lockstep with an instance over the same constructor arguments without it: the calls of a lifetime
return or raise alike, the two keep the same deadline map and counters, and the dry-run store is the
other store without its output queue (`DryOf`). Every flush hands the join target the same sessions.

The proof relates the two instances call by call. `Sim R x` says that `x`, run from two states `R`
relates, returns the same value or raises the same exception in two states `R` relates; it is closed
under the monad's operations, as `Keeps` is for one state. A line and the bootstrap's scan are
`Sim DryOf`. `flush` reads the store, and is related through the closed form of one uid's flush
(`flushSession_readable`).

Results:
- `insertLogline_sim`, `importLoop_sim`: a line and the bootstrap's scan in lockstep;
- `DryOf.flushLoop`: on a well-formed store, the two flushes return and hand on the same sessions;
- `DryOf.apply`, `DryOf.along`: every event, and every sequence of events, keeps `DryOf`;
- `dryRun_lockstep`: over every lifetime whose uids are clear of the envelope keys and do not begin
  with `__`.
-/

namespace EventQL.LogJoin

/-! ## Calls in lockstep -/

section Lockstep
variable {α β : Type} {R : St → St → Prop}

/-- two results of one call alike: the same value returned, or the same exception raised, in states
`R` relates -/
def Lockstep (R : St → St → Prop) : EStateM.Result Error St α → EStateM.Result Error St α → Prop
  | .ok a s, .ok a' s' => a = a' ∧ R s s'
  | .error e s, .error e' s' => e = e' ∧ R s s'
  | _, _ => False

theorem Lockstep.resultState {r r' : EStateM.Result Error St α} (h : Lockstep R r r') :
    R (resultState r) (resultState r') := by
  cases r <;> cases r' <;> first | exact h.2 | exact h.elim

/-- a call that runs alike from any two states `R` relates -/
def Sim (R : St → St → Prop) (x : M α) : Prop := ∀ s s', R s s' → Lockstep R (x s) (x s')

theorem Sim.pure (a : α) : Sim R (pure a) := fun _ _ h => ⟨rfl, h⟩

theorem Sim.throw (e : Error) : Sim R (throw e : M α) := fun _ _ h => ⟨rfl, h⟩

theorem Sim.liftExcept (r : Except Error α) : Sim R (liftExcept r) := by
  intro _ _ h
  cases r <;> exact ⟨rfl, h⟩

theorem Sim.modify {f : St → St} (hf : ∀ s s', R s s' → R (f s) (f s')) : Sim R (modify f) :=
  fun s s' h => ⟨rfl, hf s s' h⟩

theorem Sim.bind {x : M α} {f : α → M β} (hx : Sim R x) (hf : ∀ a, Sim R (f a)) : Sim R (x >>= f) := by
  intro s s' h
  have hxs := hx s s' h
  rw [M.bind_apply, M.bind_apply]
  rcases hr : x s with ⟨a, t⟩ | ⟨e, t⟩ <;> rcases hr' : x s' with ⟨a', t'⟩ | ⟨e', t'⟩ <;>
    rw [hr, hr'] at hxs
  · obtain ⟨rfl, ht⟩ := hxs
    exact hf a t t' ht
  · exact hxs.elim
  · exact hxs.elim
  · obtain ⟨rfl, ht⟩ := hxs
    exact ⟨rfl, ht⟩

theorem Sim.tryCatch {x : M α} {h : Error → M α} (hx : Sim R x) (hh : ∀ e, Sim R (h e)) :
    Sim R (tryCatch x h) := by
  intro s s' hs
  have hxs := hx s s' hs
  rw [M.tryCatch_apply, M.tryCatch_apply]
  rcases hr : x s with ⟨a, t⟩ | ⟨e, t⟩ <;> rcases hr' : x s' with ⟨a', t'⟩ | ⟨e', t'⟩ <;>
    rw [hr, hr'] at hxs
  · obtain ⟨rfl, ht⟩ := hxs
    exact ⟨rfl, ht⟩
  · exact hxs.elim
  · exact hxs.elim
  · obtain ⟨rfl, ht⟩ := hxs
    exact hh e t t' ht

end Lockstep

/-! ## The relation -/

/-- a dry-run instance's state beside that of an instance without it: the dry-run store holds no
envelope and agrees with the other on every other key; the deadline maps and counters are equal -/
structure DryOf (sd sn : St) : Prop where
  store : ∀ k, (∀ r, k ≠ envelopeKey r) → sd.store.find? k = sn.store.find? k
  noEnvelope : ∀ r, sd.store.find? (envelopeKey r) = none
  flushTimes : sd.flushTimes = sn.flushTimes
  loglinesTotal : sd.loglinesTotal = sn.loglinesTotal
  loglinesInvalid : sd.loglinesInvalid = sn.loglinesInvalid
  joinedSessions : sd.joinedSessions = sn.joinedSessions

namespace DryOf
variable {sd sn : St}

theorem addTotal (h : DryOf sd sn) :
    DryOf { sd with loglinesTotal := sd.loglinesTotal + 1 } { sn with loglinesTotal := sn.loglinesTotal + 1 } :=
  { h with loglinesTotal := congrArg (· + 1) h.loglinesTotal }

theorem addInvalid (h : DryOf sd sn) :
    DryOf { sd with loglinesInvalid := sd.loglinesInvalid + 1 }
      { sn with loglinesInvalid := sn.loglinesInvalid + 1 } :=
  { h with loglinesInvalid := congrArg (· + 1) h.loglinesInvalid }

theorem setFlushTimes (h : DryOf sd sn) (f : FlushTimes → FlushTimes) :
    DryOf { sd with flushTimes := f sd.flushTimes } { sn with flushTimes := f sn.flushTimes } :=
  { h with flushTimes := congrArg f h.flushTimes }

theorem insert (h : DryOf sd sn) {k : String} (v : String) (hk : ∀ r, k ≠ envelopeKey r) :
    DryOf { sd with store := sd.store.insert k v } { sn with store := sn.store.insert k v } where
  store k' hk' := by
    simp only [Store.find?_insert]
    split_ifs
    · rfl
    · exact h.store k' hk'
  noEnvelope r := by
    simp only [Store.find?_insert, if_neg (hk r).symm]
    exact h.noEnvelope r
  flushTimes := h.flushTimes
  loglinesTotal := h.loglinesTotal
  loglinesInvalid := h.loglinesInvalid
  joinedSessions := h.joinedSessions

end DryOf

/-! ## A line and the bootstrap in lockstep -/

theorem appendToSession_sim (rnd : UInt64) (customerKey : String) (time : UInt64) (uid evid evtype : String)
    (logline : ParamList) : Sim DryOf (appendToSession rnd customerKey time uid evid evtype logline) :=
  Sim.bind (Sim.modify fun _ _ h => h.setFlushTimes fun m => m.emplaceIfLater uid _) fun _ =>
    Sim.bind (Sim.liftExcept _) fun buf => Sim.modify fun _ _ h =>
      DryOf.insert (DryOf.insert h buf fun _ => eventKey_ne_envelopeKey) customerKey
        fun _ => custKey_ne_envelopeKey

theorem insertLoglineAt_sim (cfg : Cfg) (rnd : UInt64) (customerKey : String) (time : UInt64)
    (logLine : String) : Sim DryOf (insertLoglineAt cfg rnd customerKey time logLine) := by
  refine Sim.bind (Sim.modify fun _ _ h => h.addTotal) fun _ => Sim.tryCatch ?_ fun e =>
    Sim.bind (Sim.modify fun _ _ h => h.addInvalid) fun _ => Sim.throw e
  refine Sim.bind (Sim.liftExcept _) fun ⟨_, _⟩ => ?_
  dsimp only
  split_ifs
  · exact Sim.bind (Sim.liftExcept _) fun evtype => appendToSession_sim rnd customerKey time _ _ evtype _
  · exact Sim.pure _

theorem insertLogline_sim (cfg : Cfg) (rnd : UInt64) (logLine : String) :
    Sim DryOf (insertLogline cfg rnd logLine) := by
  unfold insertLogline
  split
  · exact Sim.throw _
  · split
    · exact Sim.throw _
    · exact insertLoglineAt_sim cfg rnd _ _ _

theorem importEntry_sim (key value : String) : Sim DryOf (importEntry key value) := by
  unfold importEntry
  split_ifs
  · exact Sim.pure _
  · exact Sim.pure _
  · exact Sim.bind (Sim.liftExcept _) fun ⟨_, _⟩ => Sim.modify fun _ _ h =>
    h.setFlushTimes fun m => m.emplaceIfLater _ _

theorem importLoop_sim : ∀ l, Sim DryOf (importLoop l)
  | [] => Sim.pure _
  | (key, value) :: rest => Sim.bind (importEntry_sim key value) fun _ => importLoop_sim rest

theorem importLoop_filter : ∀ l : List (String × String),
    importLoop (l.filter fun e => !beginsWith e.1 "__") = importLoop l
  | [] => rfl
  | (key, value) :: rest => by
    rcases Bool.eq_false_or_eq_true (beginsWith key "__") with h | h
    · simp only [List.filter_cons, h, Bool.not_true, Bool.false_eq_true, if_false, importLoop_filter rest]
      simp only [importLoop, importEntry, h, if_true, pure_bind]
    · simp only [List.filter_cons, h, Bool.not_false, if_true, importLoop, importLoop_filter rest]

theorem envelopeKey_beginsWith (r : BitVec 128) : beginsWith (envelopeKey r) "__" = true := by
  rw [beginsWith_iff, envelopeKey, String.data_append]
  exact (by decide : "__".data <+: "__sessionq-".data).trans (List.prefix_append _ _)

theorem DryOf.restart {sd sn : St} (h : DryOf sd sn) :
    DryOf (resultState (importTimeoutList { St.init with store := sd.store }))
      (resultState (importTimeoutList { St.init with store := sn.store })) := by
  have hl : (sd.store.entries.filter fun e => !beginsWith e.1 "__") =
      sn.store.entries.filter fun e => !beginsWith e.1 "__" :=
    Store.filter_eq_of_find? (p := fun k => !beginsWith k "__") fun k hk => h.store k fun r hr => by
      simp [hr, envelopeKey_beginsWith] at hk
  have h0 : DryOf { St.init with store := sd.store } { St.init with store := sn.store } :=
    ⟨h.store, h.noEnvelope, rfl, rfl, rfl, rfl⟩
  simp only [importTimeoutList, M.bind_apply, M.get_apply]
  rw [← importLoop_filter sd.store.entries, ← importLoop_filter sn.store.entries, hl]
  exact (importLoop_sim _ _ _ h0).resultState

theorem LifeInv.scheduled {us : List String} {st : St} (hinv : LifeInv us st)
    (hus : ∀ u ∈ us, UidShape u ∧ ClearOfEnvelopes u ∧ beginsWith u "__" = false) :
    ∀ u ∈ st.flushTimes.entries.map Prod.fst, '~' ∉ u.data ∧ ClearOfEnvelopes u := fun u hu =>
  ⟨(hus u (hinv.named u hu)).1.2, (hus u (hinv.named u hu)).2.1⟩

/-! ## Flush in lockstep -/

theorem envelopeEntry_dryRun (cfg : Cfg) (target : TrackedSession → Except Error String) (rnd : BitVec 128)
    (session : TrackedSession) : envelopeEntry { cfg with dryRun := true } target rnd session = none := by
  cases h : target session <;> simp [envelopeEntry, envelopeOf, h]

namespace DryOf
variable {sd sn : St}

theorem sessionOf (h : DryOf sd sn) {u : String} (hc : ClearOfEnvelopes u) :
    sd.store.sessionOf u = sn.store.sessionOf u :=
  Store.sessionOf_congr fun k hk => h.store k fun r hr => by
    rw [hr, envelopeKey_not_beginsWith_uid hc] at hk
    cases hk

theorem readable (h : DryOf sd sn) {u : String} (hc : ClearOfEnvelopes u)
    (hr : ∀ e ∈ sn.store.entries, beginsWith e.1 u = true → Readable u e) :
    ∀ e ∈ sd.store.entries, beginsWith e.1 u = true → Readable u e := fun e he hb =>
  hr e (Store.find?_eq_some_iff.1 ((h.store e.1 fun r hr => by
    rw [hr, envelopeKey_not_beginsWith_uid hc] at hb
    cases hb).symm.trans (Store.find?_eq_some_iff.2 he))) hb

theorem flushed (h : DryOf sd sn) (cfg : Cfg) (target : TrackedSession → Except Error String) (rnd : BitVec 128)
    (u : String) (session : TrackedSession) :
    DryOf (flushedUid { cfg with dryRun := true } target rnd u session sd) (flushedUid cfg target rnd u session sn) where
  store k hk := by
    have hw : (envelopeEntry cfg target rnd session).map Prod.fst ≠ some k := fun hw => by
      obtain ⟨w, hmem, rfl⟩ := Option.map_eq_some'.1 hw
      exact hk rnd (envelopeEntry_key hmem)
    simp only [flushedUid, Store.find?_flushUid, envelopeEntry_dryRun, Option.map_none', if_neg hw,
      reduceCtorEq, if_false]
    split_ifs
    · rfl
    · exact h.store k hk
  noEnvelope r := by
    simp only [flushedUid, Store.find?_flushUid, envelopeEntry_dryRun, Option.map_none', reduceCtorEq, if_false]
    split_ifs
    · rfl
    · exact h.noEnvelope r
  flushTimes := by simp only [flushedUid, h.flushTimes]
  loglinesTotal := h.loglinesTotal
  loglinesInvalid := h.loglinesInvalid
  joinedSessions := by simp only [flushedUid, h.joinedSessions]

/-- **The loop in lockstep.** Over due uids without '~' and clear of the envelope keys, on a
well-formed store, the dry-run flush and the other return, hand on the same sessions, and leave
related states -/
theorem flushLoop (cfg : Cfg) (target : TrackedSession → Except Error String) (rnd : String → BitVec 128)
    (s : UInt64) : ∀ {l : List (String × UInt64)} {sd sn : St}, DryOf sd sn → WellFormed sn →
      (∀ e ∈ l, '~' ∉ e.1.data ∧ ClearOfEnvelopes e.1) →
      ∃ handed sd' sn', LogJoin.flushLoop { cfg with dryRun := true } target rnd s l sd = .ok handed sd' ∧
        LogJoin.flushLoop cfg target rnd s l sn = .ok handed sn' ∧ DryOf sd' sn'
  | [], sd, sn, h, _, _ => ⟨[], sd, sn, rfl, rfl, h⟩
  | (u, t) :: rest, sd, sn, h, hw, hl => by
    have hrest := fun e he => hl e (List.mem_cons_of_mem _ he)
    obtain ⟨hu, hc⟩ := hl _ (List.mem_cons_self _ _)
    by_cases ht : t < s
    · have hrn := hw.readable hu hc
      have hs := h.sessionOf hc
      have hfn : flushSession cfg target (rnd u) u sn = .ok _ _ := flushSession_readable hrn
      obtain ⟨more, sd', sn', hd, hn, h'⟩ := DryOf.flushLoop cfg target rnd s
        (h.flushed cfg target (rnd u) u (sn.store.sessionOf u)) (flushSession_wellFormed hw hfn) hrest
      refine ⟨_, sd', sn', ?_, flushLoop_cons_of_readable ht hrn hn, h'⟩
      rw [← hs] at hd ⊢
      exact flushLoop_cons_of_readable ht (h.readable hc hrn) hd
    · rw [LogJoin.flushLoop, if_neg ht, LogJoin.flushLoop, if_neg ht]
      exact DryOf.flushLoop cfg target rnd s h hw hrest

/-- `flush` in lockstep, on a well-formed store whose scheduled uids are '~'-free and clear of the
envelope keys -/
theorem flush (h : DryOf sd sn) (hw : WellFormed sn)
    (hus : ∀ u ∈ sn.flushTimes.entries.map Prod.fst, '~' ∉ u.data ∧ ClearOfEnvelopes u) (cfg : Cfg)
    (target : TrackedSession → Except Error String) (rnd : String → BitVec 128) (s : UInt64) :
    ∃ handed sd' sn', LogJoin.flush { cfg with dryRun := true } target rnd s sd = .ok handed sd' ∧
      LogJoin.flush cfg target rnd s sn = .ok handed sn' ∧ DryOf sd' sn' := by
  rw [flush_apply, flush_apply, h.flushTimes]
  exact DryOf.flushLoop cfg target rnd s h hw fun e he => hus e.1 (List.mem_map_of_mem _ he)

section
variable {us : List String} {cfg : Cfg}
  (hus : ∀ u ∈ us, UidShape u ∧ ClearOfEnvelopes u ∧ beginsWith u "__" = false)
include hus

/-- **Step.** Every event keeps the relation, when the other instance's state is one of the lifetime
invariant -/
theorem apply (h : DryOf sd sn) (hinv : LifeInv us sn) :
    ∀ ev : Event, DryOf (ev.apply { cfg with dryRun := true } sd) (ev.apply cfg sn)
  | .restart => h.restart
  | .call (.flush target rnd s) => by
    obtain ⟨handed, sd', sn', hd, hn, h'⟩ := h.flush hinv.wellFormed (hinv.scheduled hus) cfg target rnd s
    simp only [Event.apply, hd, hn, resultState]
    exact h'
  | .call (.insertLoglineAt customerKey time line rnd) =>
    (insertLoglineAt_sim cfg rnd customerKey time line.val sd sn h).resultState
  | .call (.insertLogline line rnd) => (insertLogline_sim cfg rnd line.val sd sn h).resultState

/-- **Run.** Along every sequence of events whose lines name uids of `us` -/
theorem along : ∀ {evs : List Event} {sd sn : St}, (∀ ev ∈ evs, ∀ u, ev.uid? cfg = some u → u ∈ us) →
    DryOf sd sn → LifeInv us sn → DryOf (life { cfg with dryRun := true } sd evs) (life cfg sn evs)
  | [], _, _, _, h, _ => h
  | ev :: evs, sd, sn, hev, h, hinv =>
    show DryOf (life { cfg with dryRun := true } (ev.apply { cfg with dryRun := true } sd) evs)
      (life cfg (ev.apply cfg sn) evs) from
    DryOf.along (fun ev' hev' => hev ev' (List.mem_cons_of_mem _ hev')) (h.apply hus hinv ev)
      (hinv.apply hus (hev ev (List.mem_cons_self _ _)))

end

end DryOf

/-- **A dry run differs only in the output queue.** Over every lifetime whose uids are clear of the
envelope keys and do not begin with `__`, whatever its calls returned or raised and however often it
restarted, an instance with `dry_run_` set and one over the same arguments without it keep the same
deadline map and counters, and the dry-run store is the other store without its envelopes; a flush
on each returns and hands the join target the same sessions. -/
theorem dryRun_lockstep {cfg : Cfg} {evs : List Event}
    (hus : ∀ u ∈ lifeUids cfg evs, ClearOfEnvelopes u ∧ beginsWith u "__" = false) :
    DryOf (life { cfg with dryRun := true } St.init evs) (life cfg St.init evs) ∧
      ∀ target rnd s, ∃ handed sd sn,
        flush { cfg with dryRun := true } target rnd s (life { cfg with dryRun := true } St.init evs) =
          .ok handed sd ∧ flush cfg target rnd s (life cfg St.init evs) = .ok handed sn := by
  have hus' : ∀ u ∈ lifeUids cfg evs, UidShape u ∧ ClearOfEnvelopes u ∧ beginsWith u "__" = false :=
    fun u hu => ⟨lifeUids_shape hu, hus u hu⟩
  have hev : ∀ ev ∈ evs, ∀ u, ev.uid? cfg = some u → u ∈ lifeUids cfg evs :=
    fun ev hev _ hu => List.mem_filterMap.2 ⟨ev, hev, hu⟩
  have hinv := LifeInv.along hus' hev (LifeInv.init _)
  have h0 : DryOf St.init St.init := ⟨fun _ _ => rfl, fun _ => rfl, rfl, rfl, rfl, rfl⟩
  have h := DryOf.along hus' hev h0 (LifeInv.init _)
  refine ⟨h, fun target rnd s => ?_⟩
  obtain ⟨handed, sd, sn, hd, hn, -⟩ := h.flush hinv.wellFormed (hinv.scheduled hus') cfg target rnd s
  exact ⟨handed, sd, sn, hd, hn⟩

/-- the witness: `u1` flushed, a restart, `u2` flushed and a restart, in dry-run mode and not -/
theorem dryRun_lockstep_envelopeQueued :
    (∀ u ∈ lifeUids specCfg (envelopeQueued ++ afterQueued), ClearOfEnvelopes u ∧ beginsWith u "__" = false) ∧
      DryOf (life { specCfg with dryRun := true } St.init (envelopeQueued ++ afterQueued))
        (life specCfg St.init (envelopeQueued ++ afterQueued)) ∧
      ∀ target rnd s, ∃ handed sd sn,
        flush { specCfg with dryRun := true } target rnd s
            (life { specCfg with dryRun := true } St.init (envelopeQueued ++ afterQueued)) = .ok handed sd ∧
          flush specCfg target rnd s (life specCfg St.init (envelopeQueued ++ afterQueued)) = .ok handed sn :=
  have hus : ∀ u ∈ lifeUids specCfg (envelopeQueued ++ afterQueued),
      ClearOfEnvelopes u ∧ beginsWith u "__" = false := by decide
  ⟨hus, dryRun_lockstep hus⟩

/-- the instance without dry run has queued the envelope of `u1` under the key drawn from 0; the
dry-run store is empty -/
example : (life specCfg St.init envelopeQueued).store.entries.map Prod.fst = [envelopeKey 0] ∧
    (life { specCfg with dryRun := true } St.init envelopeQueued).store.entries = [] := by decide

end EventQL.LogJoin
