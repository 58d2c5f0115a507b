import EventQL.LogJoin.Restarts
/-!
Where every accepted event goes, over a whole lifetime with restarts.

A ledger runs beside a tracked lifetime. It writes down every event a `flush` hands to the join
target, with its uid, and every event a `flush` finalizes without handing it on: those of a due uid
whose latest customer key is empty, whose records `flushSession` deletes and whose session it
drops. Restarts write nothing: the bootstrap keeps the store, so the pending events stay pending.

A `flush` splits the pending events three ways (`flush_partition`): the sessions it hands on hold
exactly the events of the due uids with a customer key, the ledger's dropped events are those of the
due uids without one, and the events of the uids not due stay pending. So nothing is delivered twice
and nothing is lost but the dropped events: what the lines accepted is, as a multiset, what was
delivered, dropped, or is still pending.

Results:
- `flush_partition`: a returning `flush` of a tracked state splits its pending events into the
  events of the sessions it hands on, the dropped events, and the events left pending;
- `ledger_conserves`: after any ledgered lifetime from a fresh instance with prefix-free uids that do
  not begin with `__` and distinct draws, the accepted events are a permutation of the delivered,
  the dropped and the pending ones;
- `ledger_drains`: after such a lifetime, a `flush` later than every deadline returns and leaves
  nothing pending, every accepted event delivered or dropped;
- `ledger_flush_batches`: after such a lifetime, flushing at `s1` and then at a later `s2` leaves
  the same events pending as one flush at `s2`, and delivers and drops the same events.
-/

namespace EventQL.LogJoin

/-! ## The ledger -/

/-- the events of a session, each with its uid -/
def TrackedSession.pairs (S : TrackedSession) : List (String × TrackedEvent) := S.events.map fun e => (S.uid, e)

/-- a pending event with its uid -/
def pendingPair (p : String × UInt64 × TrackedEvent) : String × TrackedEvent := (p.1, p.2.2)

/-- the pending events of a tracked process, each with its uid -/
def Tracked.pairs (t : Tracked) : List (String × TrackedEvent) := t.pending.map pendingPair

/-- the events the lines of a lifetime accepted, each with its uid -/
def lifeAccepted (cfg : Cfg) (evs : List Event) : List (String × TrackedEvent) :=
  (lifeOps evs).filterMap fun op => (op.accepted? cfg).map fun a => (a.1, a.2.2.2)

/-- the sessions an event hands to the join target: those of a `flush` that returns -/
def Event.handed (cfg : Cfg) (st : St) : Event → List TrackedSession
  | .call (.flush target rnd s) => (returned (flush cfg target rnd s st)).getD []
  | _ => []

/-- the events a `flush` finalizes without handing them on: the pending events of the due uids
whose latest customer key is empty -/
def Event.dropped (t : Tracked) : Event → List (String × TrackedEvent)
  | .call (.flush _ _ s) =>
    (t.pending.filter fun p => p.1 ∈ t.st.flushTimes.due s ∧ t.customerKeyOf p.1 = "").map pendingPair
  | _ => []

/-- a tracked process with the events its flushes delivered and dropped -/
structure Ledger where
  t : Tracked
  /-- every event handed to the join target, with its uid, in the order handed -/
  delivered : List (String × TrackedEvent)
  /-- every event finalized without being handed on, with its uid -/
  dropped : List (String × TrackedEvent)

/-- a fresh instance, nothing delivered or dropped -/
def Ledger.init : Ledger := ⟨Tracked.init, [], []⟩

/-- a ledgered event: tracked as by `trackEvent`, its deliveries and drops written down -/
def Ledger.step (cfg : Cfg) (L : Ledger) (ev : Event) : Option Ledger :=
  (trackEvent cfg L.t ev).map fun t =>
    ⟨t, L.delivered ++ (ev.handed cfg L.t.st).flatMap TrackedSession.pairs, L.dropped ++ ev.dropped L.t⟩

/-- a ledgered lifetime, up to its first call that raises -/
def ledgerLife (cfg : Cfg) (L : Ledger) : List Event → Option Ledger
  | [] => some L
  | ev :: evs => (L.step cfg ev).bind fun L' => ledgerLife cfg L' evs

/-- what a ledger accounts for: the delivered, the dropped and the pending events -/
def Ledger.counted (L : Ledger) : List (String × TrackedEvent) := L.delivered ++ L.dropped ++ L.t.pairs

theorem Ledger.step_t {cfg : Cfg} {L L' : Ledger} {ev : Event} (h : L.step cfg ev = some L') :
    trackEvent cfg L.t ev = some L'.t := by
  obtain ⟨_, ht, rfl⟩ := Option.map_eq_some'.1 h
  exact ht

theorem ledgerLife_t (cfg : Cfg) :
    ∀ {evs : List Event} {L L' : Ledger}, ledgerLife cfg L evs = some L' → trackLife cfg L.t evs = some L'.t
  | [], _, _, h => by cases h; rfl
  | _ :: _, _, _, h => by
    obtain ⟨L1, h1, h⟩ := Option.bind_eq_some.1 h
    exact Option.bind_eq_some.2 ⟨L1.t, Ledger.step_t h1, ledgerLife_t cfg h⟩

theorem lifeAccepted_append (cfg : Cfg) (evs evs' : List Event) :
    lifeAccepted cfg (evs ++ evs') = lifeAccepted cfg evs ++ lifeAccepted cfg evs' := by
  simp only [lifeAccepted, lifeOps, List.filterMap_append]

/-! ## What a flush does to the pending events -/

section Partition

variable {α : Type}

theorem filter_or_perm {p q r : α → Bool} :
    ∀ {l : List α}, (∀ x ∈ l, ¬ (p x ∧ q x)) → (∀ x ∈ l, r x = (p x || q x)) →
      (l.filter r).Perm (l.filter p ++ l.filter q)
  | [], _, _ => List.Perm.nil
  | x :: l, hpq, hr => by
    have ih := filter_or_perm (fun y hy => hpq y (List.mem_cons_of_mem x hy))
      (fun y hy => hr y (List.mem_cons_of_mem x hy))
    rw [List.filter_cons, List.filter_cons, List.filter_cons, hr x (List.mem_cons_self x l)]
    cases hp : p x <;> cases hq : q x
    · simpa using ih
    · simpa using (ih.cons x).trans List.perm_middle.symm
    · simpa using ih.cons x
    · exact absurd ⟨hp, hq⟩ (hpq x (List.mem_cons_self x l))

theorem perm_filter_three (p q : α → Bool) (l : List α) :
    l.Perm (l.filter p ++ (l.filter fun x => q x && !p x) ++ l.filter fun x => !q x && !p x) := by
  have h2 := List.filter_append_perm q (l.filter fun x => !p x)
  rw [List.filter_filter, List.filter_filter] at h2
  simpa only [List.append_assoc] using
    (List.filter_append_perm p l).symm.trans (h2.symm.append_left (l.filter p))

end Partition

theorem flatMap_pairs_perm {t : Tracked} :
    ∀ {H : List TrackedSession}, (H.map TrackedSession.uid).Nodup →
      (∀ S ∈ H, S.events.Perm (t.pendingOf S.uid)) →
      (H.flatMap TrackedSession.pairs).Perm
        ((t.pending.filter fun p => p.1 ∈ H.map TrackedSession.uid).map pendingPair)
  | [], _, _ => by simp
  | S :: H, hnd, hev => by
    obtain ⟨hS, hnd⟩ := List.nodup_cons.1 hnd
    have ih := flatMap_pairs_perm hnd fun S' h => hev S' (List.mem_cons_of_mem _ h)
    have hown : S.pairs.Perm ((t.pending.filter fun p => p.1 = S.uid).map pendingPair) := by
      have hmap := (hev S (List.mem_cons_self _ _)).map fun e => (S.uid, e)
      rw [Tracked.pendingOf, List.map_map] at hmap
      exact hmap.trans (List.Perm.of_eq (List.map_congr_left fun p hp =>
        congrArg (·, p.2.2) (of_decide_eq_true (List.mem_filter.1 hp).2).symm))
    rw [List.flatMap_cons, List.map_cons]
    refine (hown.append ih).trans ?_
    rw [← List.map_append]
    refine ((filter_or_perm (fun p _ h => hS ?_) (fun p _ => ?_)).map pendingPair).symm
    · simp only [Bool.and_eq_true, decide_eq_true_eq] at h
      exact h.1 ▸ h.2
    · simp only [List.mem_cons, Bool.decide_or]

/-- the sessions a returning `flush` of a tracked state hands on hold exactly the pending events of
the due uids with a customer key -/
theorem flush_delivered {us : List String} {cfg : Cfg} {target : TrackedSession → Except Error String}
    {rnd : String → BitVec 128} {s : UInt64} {t : Tracked} {handed : List TrackedSession} {st' : St}
    (hpf : PrefixFree us) (hshape : ∀ u ∈ us, UidShape u) (henv : ∀ u ∈ us, ClearOfEnvelopes u)
    (ht : Tracks us t) (hf : flush cfg target rnd s t.st = .ok handed st') :
    (handed.flatMap TrackedSession.pairs).Perm
      ((t.pending.filter fun p => p.1 ∈ t.st.flushTimes.due s ∧ t.customerKeyOf p.1 ≠ "").map pendingPair) := by
  have hoff := flush_handOff hpf hshape henv ht hf
  have hck := flush_handed_customerKey hf
  have hmem : ∀ u, u ∈ handed.map TrackedSession.uid ↔
      u ∈ t.st.flushTimes.due s ∧ t.customerKeyOf u ≠ "" := fun u => by
    refine ⟨fun hu => ?_, fun ⟨hu, hc⟩ => hoff.complete_due hf hu hc⟩
    obtain ⟨S, hS, rfl⟩ := List.mem_map.1 hu
    exact ⟨(hoff.handedOk S hS).1, (hoff.handedOk S hS).2.2.1 ▸ hck S hS⟩
  refine (flatMap_pairs_perm hoff.nodup fun S hS => (hoff.handedOk S hS).2.2.2.1).trans (List.Perm.of_eq ?_)
  exact congrArg _ (List.filter_congr fun p _ => by simp only [hmem])

/-- **A flush splits the pending events three ways.** A returning `flush` of a tracked state hands
on exactly the pending events of the due uids with a customer key, drops those of the due uids
without one, and leaves the rest pending. -/
theorem flush_partition {us : List String} {cfg : Cfg} {target : TrackedSession → Except Error String}
    {rnd : String → BitVec 128} {s : UInt64} {t : Tracked} {handed : List TrackedSession} {st' : St}
    (hpf : PrefixFree us) (hshape : ∀ u ∈ us, UidShape u) (henv : ∀ u ∈ us, ClearOfEnvelopes u)
    (ht : Tracks us t) (hf : flush cfg target rnd s t.st = .ok handed st') :
    t.pairs.Perm (handed.flatMap TrackedSession.pairs ++ Event.dropped t (.call (.flush target rnd s)) ++
      (t.next cfg st' (.flush target rnd s)).pairs) := by
  have hsplit := (perm_filter_three
    (fun p => decide (p.1 ∈ t.st.flushTimes.due s ∧ t.customerKeyOf p.1 ≠ ""))
    (fun p => decide (p.1 ∈ t.st.flushTimes.due s)) t.pending).map pendingPair
  rw [List.map_append, List.map_append] at hsplit
  refine hsplit.trans (List.Perm.append (List.Perm.append (flush_delivered hpf hshape henv ht hf).symm
    (List.Perm.of_eq ?_)) (List.Perm.of_eq ?_))
  · refine congrArg _ (List.filter_congr fun p _ => ?_)
    by_cases hd : p.1 ∈ t.st.flushTimes.due s <;> by_cases hc : t.customerKeyOf p.1 = "" <;> simp [hd, hc]
  · refine congrArg _ (List.filter_congr fun p _ => ?_)
    by_cases hd : p.1 ∈ t.st.flushTimes.due s <;> simp [hd]

/-- a `flush` of a ledgered process that keeps what a tracked lifetime keeps returns, and the ledger
writes down what it hands on and what it drops -/
theorem Ledger.step_flush {us : List String} {cfg : Cfg} {L : Ledger} (ht : TracksLife us L.t)
    (hshape : ∀ u ∈ us, UidShape u ∧ ClearOfEnvelopes u ∧ beginsWith u "__" = false)
    (target : TrackedSession → Except Error String) (rnd : String → BitVec 128) (s : UInt64) :
    ∃ handed st', flush cfg target rnd s L.t.st = .ok handed st' ∧
      L.step cfg (.call (.flush target rnd s)) = some ⟨L.t.next cfg st' (.flush target rnd s),
        L.delivered ++ handed.flatMap TrackedSession.pairs,
        L.dropped ++ Event.dropped L.t (.call (.flush target rnd s))⟩ := by
  obtain ⟨handed, st', hf, -⟩ : ∃ handed st', flush cfg target rnd s L.t.st = .ok handed st' ∧
      SameCounters L.t.st st' := by
    rw [flush_apply]
    refine flushLoop_returns ht.tracks.wellFormed fun e he => ?_
    have hu := hshape e.1 (ht.tracks.owned e.1 (List.mem_map_of_mem _ he))
    exact ⟨hu.1.2, hu.2.1⟩
  refine ⟨handed, st', hf, ?_⟩
  simp only [Ledger.step, trackEvent, trackStep, LogJoin.step, hf, okState, Option.map_some', Event.handed, returned,
    Option.getD_some]

/-! ## Conservation over a lifetime -/

section
variable {us : List String} (hpf : PrefixFree us)
  (hshape : ∀ u ∈ us, UidShape u ∧ ClearOfEnvelopes u ∧ beginsWith u "__" = false)
include hpf hshape

theorem Ledger.step_counted {cfg : Cfg} {L L' : Ledger} {ev : Event} (ht : TracksLife us L.t)
    (h : L.step cfg ev = some L') : (L.counted ++ lifeAccepted cfg [ev]).Perm L'.counted := by
  obtain ⟨t', h', rfl⟩ := Option.map_eq_some'.1 h
  cases ev with
  | restart => cases h'; simp [Ledger.counted, lifeAccepted, lifeOps, Event.handed, Event.dropped, Tracked.restart, Tracked.pairs]
  | call op =>
    simp only [trackEvent, trackStep, Option.map_eq_some'] at h'
    obtain ⟨st1, hs, rfl⟩ := h'
    rcases step_ok hs with ⟨_, _, _, _, hl, -, -⟩ | ⟨target, rnd, s, handed, rfl, hfl⟩
    · rw [Tracked.next_of_line hl]
      cases op with
      | flush => cases hl
      | _ =>
        simp only [Ledger.counted, lifeAccepted, lifeOps, List.filterMap_cons, List.filterMap_nil]
        rcases hacc : Op.accepted? cfg _ with _ | ⟨uid, customerKey, rnd, e⟩ <;>
          simp [Tracked.accept, Tracked.pairs, Event.handed, Event.dropped, pendingPair]
    · have hpart := flush_partition hpf (fun u hu => (hshape u hu).1) (fun u hu => (hshape u hu).2.1)
        ht.tracks hfl
      simp only [Ledger.counted, lifeAccepted, lifeOps, List.filterMap_cons, List.filterMap_nil,
        Op.accepted?, Op.line?, Option.map_none', Event.handed, hfl, returned, Option.getD_some, List.append_nil]
      refine (hpart.append_left _).trans ?_
      simp only [List.append_assoc]
      exact (List.perm_append_comm_assoc _ _ _).append_left _

/-- **Every ledgered lifetime accounts for what its lines accepted**, from a state that keeps what a
tracked lifetime keeps and whose pending draws are fresh. -/
theorem ledgerLife_counted {cfg : Cfg} :
    ∀ {evs : List Event} {L L' : Ledger}, (∀ op ∈ lifeOps evs, ∀ u, op.uid? cfg = some u → u ∈ us) →
      (runRnds (lifeOps evs)).Nodup → (∀ r ∈ runRnds (lifeOps evs), ∀ p ∈ L.t.pending, p.2.1 ≠ r) →
      TracksLife us L.t → ledgerLife cfg L evs = some L' → (L.counted ++ lifeAccepted cfg evs).Perm L'.counted
  | [], _, _, _, _, _, _, h => by cases h; simp [lifeAccepted, lifeOps]
  | ev :: evs, _, _, hus, hnd, hfresh, ht, h => by
    obtain ⟨L1, h1, h⟩ := Option.bind_eq_some.1 h
    obtain ⟨ht1, hnd1, hfresh1⟩ :=
      ht.event hpf (fun u hu => ⟨(hshape u hu).1, (hshape u hu).2.2⟩) hus hnd hfresh (Ledger.step_t h1)
    have ih := ledgerLife_counted (fun op hop => hus op (lifeOps_cons_subset hop)) hnd1 hfresh1 ht1 h
    rw [show ev :: evs = [ev] ++ evs from rfl, lifeAccepted_append, ← List.append_assoc]
    exact ((Ledger.step_counted hpf hshape ht h1).append_right _).trans ih

end

theorem TracksLife.pending_mem_keys {us : List String} {t : Tracked} (ht : TracksLife us t)
    (hshape : ∀ u ∈ us, '~' ∉ u.data) {p : String × UInt64 × TrackedEvent} (hp : p ∈ t.pending) :
    p.1 ∈ t.st.flushTimes.entries.map Prod.fst := by
  have hu := hshape p.1 (ht.pendingOwned p hp)
  by_contra hn
  have hrec := ht.tracks.records p.1 hu
  rw [ht.tracks.wellFormed.recordsOf_eq_nil hu hn, List.map_nil] at hrec
  have hmem : (eventKey p.1 p.2.2.evtype p.2.1, some p.2.2) ∈
      (t.pending.filter (·.1 = p.1)).map fun q => (eventKey p.1 q.2.2.evtype q.2.1, some q.2.2) :=
    List.mem_map_of_mem _ (List.mem_filter.2 ⟨hp, by simp⟩)
  rw [← hrec.nil_eq] at hmem
  exact List.not_mem_nil _ hmem

/-- a ledgered lifetime from a fresh instance keeps what a tracked lifetime keeps, and accounts for
what its lines accepted -/
theorem ledgerLife_init {cfg : Cfg} {evs : List Event} {L : Ledger}
    (h : ledgerLife cfg Ledger.init evs = some L) (hpf : PrefixFree (lifeUids cfg evs))
    (henv : ∀ u ∈ lifeUids cfg evs, ClearOfEnvelopes u ∧ beginsWith u "__" = false)
    (hrnd : (runRnds (lifeOps evs)).Nodup) :
    TracksLife (lifeUids cfg evs) L.t ∧ (lifeAccepted cfg evs).Perm L.counted :=
  ⟨trackLife_init (ledgerLife_t cfg h) hpf (fun u hu => (henv u hu).2) hrnd, by
    simpa [Ledger.counted, Ledger.init, Tracked.init, Tracked.pairs] using
      ledgerLife_counted hpf (fun u hu => ⟨lifeUids_shape hu, henv u hu⟩)
        (fun _ hop _ hu => uid_mem_lifeUids hop hu) hrnd (fun _ _ _ hp => by cases hp)
        ⟨tracks_init _, (fun _ _ hv => by cases hv), fun _ hp => by cases hp⟩ h⟩

/-- **Every accepted event is delivered once, dropped, or still pending.** After a ledgered lifetime
from a fresh instance, with any number of restarts, whose uids are prefix-free, clear of the
envelope keys and do not begin with `__`, and whose draws are distinct, the events its lines
accepted are, as a multiset, the events handed to the join target, the events of due uids without a
customer key, and the events still pending. -/
theorem ledger_conserves {cfg : Cfg} {evs : List Event} {L : Ledger}
    (h : ledgerLife cfg Ledger.init evs = some L) (hpf : PrefixFree (lifeUids cfg evs))
    (henv : ∀ u ∈ lifeUids cfg evs, ClearOfEnvelopes u ∧ beginsWith u "__" = false)
    (hrnd : (runRnds (lifeOps evs)).Nodup) :
    (lifeAccepted cfg evs).Perm (L.delivered ++ L.dropped ++ L.t.pairs) :=
  (ledgerLife_init h hpf henv hrnd).2

/-- a line of `u1`, a line of `u3` with an empty customer key, a restart, a later line of `u2`, and a
flush at 4000 s: `u1`'s event is delivered, `u3`'s dropped, `u2`'s still pending -/
def threeWays : List Event :=
  [.call (.insertLogline ⟨"CUST1|1000|c=u1~e1&e=q", by decide⟩ 0),
    .call (.insertLogline ⟨"|1000|c=u3~e3&e=q", by decide⟩ 2), .restart,
    .call (.insertLogline ⟨"CUST2|5000|c=u2~e2&e=q", by decide⟩ 1),
    .call (.flush (fun _ => .ok "") (fun _ => 0) 4000000000)]

/-- the ledger of `threeWays` -/
def threeWaysLedger : Ledger := (ledgerLife specCfg Ledger.init threeWays).getD Ledger.init

theorem ledgerLife_getD {cfg : Cfg} {L : Ledger} {evs : List Event} (h : (ledgerLife cfg L evs).isSome) :
    ledgerLife cfg L evs = some ((ledgerLife cfg L evs).getD L) := by
  obtain ⟨L', hL⟩ := Option.isSome_iff_exists.1 h
  rw [hL]
  rfl

theorem ledger_conserves_threeWays :
    (ledgerLife specCfg Ledger.init threeWays).isSome ∧ PrefixFree (lifeUids specCfg threeWays) ∧
      (∀ u ∈ lifeUids specCfg threeWays, ClearOfEnvelopes u ∧ beginsWith u "__" = false) ∧
      (runRnds (lifeOps threeWays)).Nodup ∧
      threeWaysLedger.delivered = [("u1", ⟨1000000000, "q", "e1", []⟩)] ∧
      threeWaysLedger.dropped = [("u3", ⟨1000000000, "q", "e3", []⟩)] ∧
      threeWaysLedger.t.pairs = [("u2", ⟨5000000000, "q", "e2", []⟩)] ∧
      (lifeAccepted specCfg threeWays).Perm
        (threeWaysLedger.delivered ++ threeWaysLedger.dropped ++ threeWaysLedger.t.pairs) :=
  have h : (ledgerLife specCfg Ledger.init threeWays).isSome := by decide
  have hpf : PrefixFree (lifeUids specCfg threeWays) := by decide
  have henv : ∀ u ∈ lifeUids specCfg threeWays, ClearOfEnvelopes u ∧ beginsWith u "__" = false := by decide
  have hrnd : (runRnds (lifeOps threeWays)).Nodup := by decide
  have hL : ledgerLife specCfg Ledger.init threeWays = some threeWaysLedger := ledgerLife_getD h
  ⟨h, hpf, henv, hrnd, by decide, by decide, by decide, ledger_conserves hL hpf henv hrnd⟩

/-- **A late flush leaves nothing pending.** After such a ledgered lifetime, a `flush` at a stream
time later than every deadline returns; after it no event is pending, and the events the lines
accepted are, as a multiset, the events handed to the join target and the events of due uids
without a customer key. -/
theorem ledger_drains {cfg : Cfg} {evs : List Event} {L : Ledger}
    (h : ledgerLife cfg Ledger.init evs = some L) (hpf : PrefixFree (lifeUids cfg evs))
    (henv : ∀ u ∈ lifeUids cfg evs, ClearOfEnvelopes u ∧ beginsWith u "__" = false)
    (hrnd : (runRnds (lifeOps evs)).Nodup) (target : TrackedSession → Except Error String)
    (rnd : String → BitVec 128) {s : UInt64} (hs : ∀ e ∈ L.t.st.flushTimes.entries, e.2 < s) :
    ∃ L', L.step cfg (.call (.flush target rnd s)) = some L' ∧ L'.t.pending = [] ∧
      (lifeAccepted cfg evs).Perm (L'.delivered ++ L'.dropped) := by
  have hshape : ∀ u ∈ lifeUids cfg evs, UidShape u ∧ ClearOfEnvelopes u ∧ beginsWith u "__" = false :=
    fun u hu => ⟨lifeUids_shape hu, henv u hu⟩
  obtain ⟨ht, hrun⟩ := ledgerLife_init h hpf henv hrnd
  obtain ⟨handed, st', -, hstep⟩ := Ledger.step_flush ht hshape target rnd s
  have hnil : (L.t.next cfg st' (.flush target rnd s)).pending = [] :=
    List.filter_eq_nil_iff.2 fun p hp hnd => by
      obtain ⟨⟨u, tu⟩, hd, rfl⟩ := List.mem_map.1 (ht.pending_mem_keys (fun u hu => (hshape u hu).1.2) hp)
      exact of_decide_eq_true hnd (FlushTimes.mem_due.2 ⟨tu, hd, hs _ hd⟩)
  refine ⟨_, hstep, hnil, ?_⟩
  have hflush := Ledger.step_counted hpf hshape ht hstep
  have hnone : lifeAccepted cfg [.call (.flush target rnd s)] = [] := rfl
  rw [hnone, List.append_nil] at hflush
  simpa [Ledger.counted, Tracked.pairs, hnil] using hrun.trans hflush

/-- the witness: `threeWays`, flushed again at 7000 s, after `u2`'s deadline -/
theorem ledger_drains_threeWays :
    (ledgerLife specCfg Ledger.init threeWays).isSome ∧ PrefixFree (lifeUids specCfg threeWays) ∧
      (∀ u ∈ lifeUids specCfg threeWays, ClearOfEnvelopes u ∧ beginsWith u "__" = false) ∧
      (runRnds (lifeOps threeWays)).Nodup ∧
      (∀ e ∈ threeWaysLedger.t.st.flushTimes.entries, e.2 < 7000000000) ∧
      ∃ L', threeWaysLedger.step specCfg (.call (.flush (fun _ => .ok "") (fun _ => 1) 7000000000)) = some L' ∧
        L'.t.pending = [] ∧ (lifeAccepted specCfg threeWays).Perm (L'.delivered ++ L'.dropped) :=
  have h : (ledgerLife specCfg Ledger.init threeWays).isSome := by decide
  have hpf : PrefixFree (lifeUids specCfg threeWays) := by decide
  have henv : ∀ u ∈ lifeUids specCfg threeWays, ClearOfEnvelopes u ∧ beginsWith u "__" = false := by decide
  have hrnd : (runRnds (lifeOps threeWays)).Nodup := by decide
  have hs : ∀ e ∈ threeWaysLedger.t.st.flushTimes.entries, e.2 < 7000000000 := by decide
  have hL : ledgerLife specCfg Ledger.init threeWays = some threeWaysLedger := ledgerLife_getD h
  ⟨h, hpf, henv, hrnd, hs, ledger_drains hL hpf henv hrnd (fun _ => .ok "") (fun _ => 1) hs⟩

/-! ## Two flushes and one -/

theorem FlushTimes.due_split {m m' : FlushTimes} {s1 s2 : UInt64} (hs : s1 ≤ s2)
    (hm : m'.entries = m.entries.filter fun e => ¬ e.2 < s1) (u : String) :
    (u ∈ m.due s2 ↔ u ∈ m.due s1 ∨ u ∈ m'.due s2) ∧ (u ∈ m'.due s2 → u ∉ m.due s1) := by
  have hmem : ∀ {t}, (u, t) ∈ m'.entries ↔ (u, t) ∈ m.entries ∧ ¬ t < s1 := by
    intro t
    rw [hm, List.mem_filter, decide_eq_true_iff]
  have hlt : ∀ t : UInt64, t < s1 → t < s2 := fun t h => by
    simp only [UInt64.lt_def, UInt64.le_def, BitVec.lt_def, BitVec.le_def] at h hs ⊢
    omega
  refine ⟨⟨fun hu => ?_, ?_⟩, fun hu => ?_⟩
  · obtain ⟨t, ht, h2⟩ := FlushTimes.mem_due.1 hu
    by_cases h1 : t < s1
    exacts [.inl (FlushTimes.mem_due.2 ⟨t, ht, h1⟩), .inr (FlushTimes.mem_due.2 ⟨t, hmem.2 ⟨ht, h1⟩, h2⟩)]
  · rintro (hu | hu) <;> obtain ⟨t, ht, h⟩ := FlushTimes.mem_due.1 hu
    · exact FlushTimes.mem_due.2 ⟨t, ht, hlt t h⟩
    · exact FlushTimes.mem_due.2 ⟨t, (hmem.1 ht).1, h⟩
  · obtain ⟨t, ht, -⟩ := FlushTimes.mem_due.1 hu
    exact FlushTimes.not_mem_due (hmem.1 ht).1 (hmem.1 ht).2

section Batches

variable {D1 D2 D2' : List String} (hsplit : ∀ u, (u ∈ D2 ↔ u ∈ D1 ∨ u ∈ D2') ∧ (u ∈ D2' → u ∉ D1))
  (P : List (String × UInt64 × TrackedEvent))
include hsplit

theorem filter_due_batches (q : String → Prop) [DecidablePred q] :
    ((P.filter fun p => p.1 ∈ D1 ∧ q p.1) ++
        (P.filter fun p => p.1 ∉ D1).filter fun p => p.1 ∈ D2' ∧ q p.1).Perm
      (P.filter fun p => p.1 ∈ D2 ∧ q p.1) := by
  rw [List.filter_filter]
  refine (filter_or_perm (fun p _ h => ?_) (fun p _ => ?_)).symm
  · simp only [Bool.and_eq_true, decide_eq_true_eq] at h
    exact h.2.2 h.1.1
  · by_cases h1 : p.1 ∈ D1 <;> simp [h1, (hsplit p.1).1]

theorem filter_not_due_batches :
    ((P.filter fun p => p.1 ∉ D1).filter fun p => p.1 ∉ D2') = P.filter fun p => p.1 ∉ D2 := by
  rw [List.filter_filter]
  exact List.filter_congr fun p _ => by by_cases h1 : p.1 ∈ D1 <;> simp [h1, (hsplit p.1).1]

end Batches

/-- **Two flushes deliver what one does.** After a ledgered lifetime as in `ledger_conserves`, a
`flush` at `s1` and then one at a later `s2` return, and so does a single `flush` at `s2` in their
place. The two ways leave the same events pending and, as multisets, deliver the same events and
drop the same events: flushing more often changes only when, not what, the join target receives. -/
theorem ledger_flush_batches {cfg : Cfg} {evs : List Event} {L : Ledger}
    (h : ledgerLife cfg Ledger.init evs = some L) (hpf : PrefixFree (lifeUids cfg evs))
    (henv : ∀ u ∈ lifeUids cfg evs, ClearOfEnvelopes u ∧ beginsWith u "__" = false)
    (hrnd : (runRnds (lifeOps evs)).Nodup) (target1 target2 target : TrackedSession → Except Error String)
    (rnd1 rnd2 rnd : String → BitVec 128) {s1 s2 : UInt64} (hs : s1 ≤ s2) :
    ∃ L1 L12 L2, L.step cfg (.call (.flush target1 rnd1 s1)) = some L1 ∧
      L1.step cfg (.call (.flush target2 rnd2 s2)) = some L12 ∧
      L.step cfg (.call (.flush target rnd s2)) = some L2 ∧
      L12.t.pending = L2.t.pending ∧ L12.delivered.Perm L2.delivered ∧ L12.dropped.Perm L2.dropped := by
  have hshape : ∀ u ∈ lifeUids cfg evs, UidShape u ∧ ClearOfEnvelopes u ∧ beginsWith u "__" = false :=
    fun u hu => ⟨lifeUids_shape hu, henv u hu⟩
  have ht := (ledgerLife_init h hpf henv hrnd).1
  obtain ⟨H1, st1, hf1, hL1⟩ := Ledger.step_flush ht hshape target1 rnd1 s1
  have hnd1 : (runRnds (lifeOps [Event.call (.flush target1 rnd1 s1)])).Nodup := List.nodup_nil
  have ht1 := (ht.event hpf (fun u hu => ⟨(hshape u hu).1, (hshape u hu).2.2⟩)
    (fun _ hop _ hu => by obtain rfl := List.mem_singleton.1 hop; cases hu) hnd1
    (fun _ hr => absurd hr (List.not_mem_nil _)) (Ledger.step_t hL1)).1
  obtain ⟨H12, st12, hf12, hL12⟩ := Ledger.step_flush ht1 hshape target2 rnd2 s2
  obtain ⟨H2, st2, hf2, hL2⟩ := Ledger.step_flush ht hshape target rnd s2
  have hsplit := FlushTimes.due_split hs (flush_flushTimes hf1)
  have hsh : ∀ u ∈ lifeUids cfg evs, UidShape u := fun u hu => (hshape u hu).1
  have hcl : ∀ u ∈ lifeUids cfg evs, ClearOfEnvelopes u := fun u hu => (hshape u hu).2.1
  refine ⟨_, _, _, hL1, hL12, hL2, filter_not_due_batches hsplit L.t.pending, ?_, ?_⟩
  · show (L.delivered ++ H1.flatMap TrackedSession.pairs ++ H12.flatMap TrackedSession.pairs).Perm
      (L.delivered ++ H2.flatMap TrackedSession.pairs)
    rw [List.append_assoc]
    refine List.Perm.append_left _ (((flush_delivered hpf hsh hcl ht.tracks hf1).append
      (flush_delivered hpf hsh hcl ht1.tracks hf12)).trans (List.Perm.trans ?_
        (flush_delivered hpf hsh hcl ht.tracks hf2).symm))
    rw [← List.map_append]
    exact (filter_due_batches hsplit L.t.pending fun u => L.t.customerKeyOf u ≠ "").map pendingPair
  · show (L.dropped ++ Event.dropped L.t (.call (.flush target1 rnd1 s1)) ++
      Event.dropped (L.t.next cfg st1 (.flush target1 rnd1 s1)) (.call (.flush target2 rnd2 s2))).Perm
        (L.dropped ++ Event.dropped L.t (.call (.flush target rnd s2)))
    rw [List.append_assoc, Event.dropped, Event.dropped, Event.dropped, ← List.map_append]
    exact ((filter_due_batches hsplit L.t.pending fun u => L.t.customerKeyOf u = "").map pendingPair).append_left _

/-- the ledger of `threeWays` before its flush: `u1`, `u3` and `u2` pending -/
def threeWaysUnflushed : Ledger := (ledgerLife specCfg Ledger.init threeWays.dropLast).getD Ledger.init

/-- the witness: flushing `threeWays` before its flush at 4000 s and then at 7000 s, or once at
7000 s -/
theorem ledger_flush_batches_threeWays :
    (ledgerLife specCfg Ledger.init threeWays.dropLast).isSome ∧
      PrefixFree (lifeUids specCfg threeWays.dropLast) ∧
      (∀ u ∈ lifeUids specCfg threeWays.dropLast, ClearOfEnvelopes u ∧ beginsWith u "__" = false) ∧
      (runRnds (lifeOps threeWays.dropLast)).Nodup ∧ (4000000000 : UInt64) ≤ 7000000000 ∧
      ∃ L1 L12 L2,
        threeWaysUnflushed.step specCfg (.call (.flush (fun _ => .ok "") (fun _ => 0) 4000000000)) = some L1 ∧
        L1.step specCfg (.call (.flush (fun _ => .ok "") (fun _ => 1) 7000000000)) = some L12 ∧
        threeWaysUnflushed.step specCfg (.call (.flush (fun _ => .ok "") (fun _ => 0) 7000000000)) = some L2 ∧
        L12.t.pending = L2.t.pending ∧ L12.delivered.Perm L2.delivered ∧ L12.dropped.Perm L2.dropped :=
  have h : (ledgerLife specCfg Ledger.init threeWays.dropLast).isSome := by decide
  have hpf : PrefixFree (lifeUids specCfg threeWays.dropLast) := by decide
  have henv : ∀ u ∈ lifeUids specCfg threeWays.dropLast, ClearOfEnvelopes u ∧ beginsWith u "__" = false := by
    decide
  have hrnd : (runRnds (lifeOps threeWays.dropLast)).Nodup := by decide
  ⟨h, hpf, henv, hrnd, by decide, ledger_flush_batches (ledgerLife_getD h) hpf henv hrnd _ _ _ _ _ _ (by decide)⟩

end EventQL.LogJoin
