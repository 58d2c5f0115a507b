import EventQL.LogJoin.Owners
/-!
`importTimeoutList` over the store a run leaves: the deadline map a fresh instance rebuilds.

The scan skips the keys that begin with `__` and the customer keys, and adds the uid of every other
key, the key up to its first '~', with a deadline read from the record's first varint. Over the store
of a run every key it does not skip is a record key of a uid with a deadline entry, and every uid
with a deadline entry still has one, so the two maps have the same uids. The deadlines themselves
are left out: both sides keep the first deadline they set (`emplace` is a no-op on a present uid),
the run in arrival order and the import in key order, which is random.

Results:
- `importLoop_ok`: a scan over records whose varint reads returns, adds the uids of the keys it
  does not skip, and leaves the store alone;
- `importTimeoutList_same_uids`: for a run whose uids are prefix-free and do not begin with `__`,
  `importTimeoutList` on a fresh instance over the run's store returns with the run's uids;
- `import_skips_underscore_uid`: the uid `__x` is accepted by `insertLogline` and skipped by
  `importTimeoutList`;
- `insertLogline_times`: a line accepted at `secs` seconds with `(secs + 1800)·10^6 < 2^64` gets
  the deadline `(secs + 1800)·10^6`, the one the import computes from its record, which holds `secs`;
- `timestamp_wraps`: above that bound the seconds are multiplied by 10^6, and the timeout added,
  modulo 2^64: a line at 18446744073710 s is accepted with the deadline 1800448384 µs and a record
  that holds 0 s, from which the import recomputes 1800000000 µs.
-/

namespace EventQL.LogJoin

/-- the keys `importTimeoutList` skips: those that begin with `__`, and the customer keys -/
def importSkips (key : String) : Bool := beginsWith key "__" || endsWith key "~cust"

/-! ## The scan -/

theorem importEntry_ok {key value : String} (st : St)
    (h : importSkips key = false → ∃ secs rest, readVarUInt value.data = .ok (secs, rest)) :
    ∃ st', importEntry key value st = .ok () st' ∧ st'.store = st.store ∧
      ∀ u, u ∈ st'.flushTimes.entries.map Prod.fst ↔ u ∈ st.flushTimes.entries.map Prod.fst ∨
        (importSkips key = false ∧ u = ⟨key.data.takeWhile (· ≠ '~')⟩) := by
  unfold importEntry
  by_cases h1 : beginsWith key "__" = true
  · exact ⟨st, by simp [h1], rfl, by simp [importSkips, h1]⟩
  by_cases h2 : endsWith key "~cust" = true
  · exact ⟨st, by simp [h1, h2], rfl, by simp [importSkips, h2]⟩
  have hsk : importSkips key = false := by simp [importSkips, h1, h2]
  obtain ⟨secs, rest, hr⟩ := h hsk
  refine ⟨{ st with flushTimes := (st.flushTimes.emplace ⟨key.data.takeWhile fun c => c ≠ '~'⟩
    ((secs + kSessionIdleTimeoutSeconds) * kMicrosPerSecond)) }, ?_, rfl, fun u => ?_⟩
  · simp [h1, h2, hr, liftExcept, FlushTimes.emplaceIfLater_eq_emplace]
  · rw [FlushTimes.mem_emplace]; simp [hsk]

/-- **The scan.** Over entries whose varint reads wherever the scan does not skip them, the scan
returns, adds the uid of every key it does not skip, and leaves the store alone. -/
theorem importLoop_ok : ∀ (l : List (String × String)) (st : St),
    (∀ e ∈ l, importSkips e.1 = false → ∃ secs rest, readVarUInt e.2.data = .ok (secs, rest)) →
    ∃ st', importLoop l st = .ok () st' ∧ st'.store = st.store ∧
      ∀ u, u ∈ st'.flushTimes.entries.map Prod.fst ↔ u ∈ st.flushTimes.entries.map Prod.fst ∨
        ∃ e ∈ l, importSkips e.1 = false ∧ u = ⟨e.1.data.takeWhile (· ≠ '~')⟩
  | [], st, _ => ⟨st, rfl, rfl, by simp⟩
  | (key, value) :: rest, st, h => by
    obtain ⟨st1, h1, hs1, hu1⟩ := importEntry_ok st (h _ (List.mem_cons_self _ _))
    obtain ⟨st2, h2, hs2, hu2⟩ := importLoop_ok rest st1 fun e he => h e (List.mem_cons_of_mem _ he)
    refine ⟨st2, by simp only [importLoop, M.bind_apply, h1, h2], hs2.trans hs1, fun u => ?_⟩
    rw [hu2, hu1]
    simp only [List.mem_cons, exists_eq_or_imp, or_assoc]

/-! ## Over the store of a run -/

theorem importSkips_eventKey {u evtype : String} {r : UInt64} (hu : beginsWith u "__" = false) :
    importSkips (eventKey u evtype r) = false := by
  rw [importSkips, eventKey_not_endsWith_cust, Bool.or_false, Bool.eq_false_iff]
  intro h
  have := prefix_of_beginsWith (by decide) (eventKey_beginsWith u evtype r) h
  rw [← beginsWith_iff] at this
  simp [this] at hu

theorem importSkips_envelopeKey (r : BitVec 128) : importSkips (envelopeKey r) = true := by
  have : beginsWith (envelopeKey r) "__" = true := by
    rw [beginsWith_iff, envelopeKey, String.data_append]
    exact (by decide : "__".data <+: "__sessionq-".data).trans (List.prefix_append _ _)
  simp [importSkips, this]

/-- every entry of a well-formed store that the scan reads is the record of a uid with a deadline
entry, and its varint reads -/
theorem WellFormed.read_of_not_skipped {st : St} (hw : WellFormed st) {e : String × String}
    (he : e ∈ st.store.entries) (hsk : importSkips e.1 = false) :
    ∃ u, UidShape u ∧ u ∈ st.flushTimes.entries.map Prod.fst ∧
      ∃ evtype r, e.1 = eventKey u evtype r ∧ Decodes e.2 := by
  rcases hw e he with ⟨r, hr⟩ | ⟨u, hs, hu, hk | ⟨evtype, r, -, hk, hd⟩⟩
  · rw [hr, importSkips_envelopeKey] at hsk; cases hsk
  · simp [hk, importSkips, custKey_endsWith] at hsk
  · exact ⟨u, hs, hu, evtype, r, hk, hd⟩

/-- **Bootstrap equivalence of the uids.** For a run whose uids are prefix-free and do not begin
with `__`, `importTimeoutList` on a fresh instance over the run's store returns, leaves the store
alone, and rebuilds a deadline map with exactly the run's uids. -/
theorem importTimeoutList_same_uids {cfg : Cfg} {ops : List Op} {st : St}
    (h : run cfg St.init ops = some st) (hpf : PrefixFree (runUids cfg ops))
    (hus : ∀ u ∈ runUids cfg ops, beginsWith u "__" = false) :
    ∃ st', importTimeoutList { St.init with store := st.store } = .ok () st' ∧ st'.store = st.store ∧
      ∀ u, u ∈ st'.flushTimes.entries.map Prod.fst ↔ u ∈ st.flushTimes.entries.map Prod.fst := by
  have hw := run_wellFormed h
  obtain ⟨st', h', hs', hu'⟩ := importLoop_ok st.store.entries { St.init with store := st.store }
    fun e he hsk => by obtain ⟨_, -, -, _, _, -, hd⟩ := hw.read_of_not_skipped he hsk; exact hd.2
  refine ⟨st', h', hs', fun u => ?_⟩
  rw [hu']
  simp only [St.init, FlushTimes.empty, List.map_nil, List.not_mem_nil, false_or]
  constructor
  · rintro ⟨e, he, hsk, rfl⟩
    obtain ⟨u, hs, hu, evtype, r, hk, -⟩ := hw.read_of_not_skipped he hsk
    rwa [hk, data_eventKey, takeWhile_owner hs.2]
  · intro hu
    obtain ⟨hU, e, he, evtype, r, hk⟩ := run_owned h hpf u hu
    refine ⟨e, he, hk ▸ importSkips_eventKey (hus u hU), ?_⟩
    rw [hk, data_eventKey, takeWhile_owner (runUids_shape hU).2]

/-- the witness: the run `twoUsers` -/
theorem importTimeoutList_same_uids_twoUsers :
    (run specCfg St.init twoUsers).isSome ∧ PrefixFree (runUids specCfg twoUsers) ∧
      (∀ u ∈ runUids specCfg twoUsers, beginsWith u "__" = false) ∧
      ∃ st', importTimeoutList { St.init with store := ((run specCfg St.init twoUsers).getD St.init).store } =
          .ok () st' ∧ st'.store = ((run specCfg St.init twoUsers).getD St.init).store ∧
        ∀ u, u ∈ st'.flushTimes.entries.map Prod.fst ↔
          u ∈ ((run specCfg St.init twoUsers).getD St.init).flushTimes.entries.map Prod.fst :=
  have h : (run specCfg St.init twoUsers).isSome := by decide
  have hpf : PrefixFree (runUids specCfg twoUsers) := by decide
  have hus : ∀ u ∈ runUids specCfg twoUsers, beginsWith u "__" = false := by decide
  ⟨h, hpf, hus, importTimeoutList_same_uids (run_eq_some_getD h) hpf hus⟩

/-- a line of the uid `__x` -/
def underscoreUser : List Op := [.insertLogline ⟨"CUST1|1000|c=__x~e1&e=q", by decide⟩ 0]

/-- the run ends with the deadline entry of `__x`; the import over its store returns with none -/
theorem import_skips_underscore_uid :
    (run specCfg St.init underscoreUser).isSome ∧
      ((run specCfg St.init underscoreUser).getD St.init).flushTimes.entries.map Prod.fst = ["__x"] ∧
      returned (importTimeoutList
        { St.init with store := ((run specCfg St.init underscoreUser).getD St.init).store }) = some () ∧
      (resultState (importTimeoutList
        { St.init with store := ((run specCfg St.init underscoreUser).getD St.init).store })).flushTimes.entries = [] := by
  decide

/-! ## Timestamps -/

/-- a line of `u1` at 18446744073710 s, whose microseconds pass 2^64 by 448384 -/
def wrappedLine : Op := .insertLogline ⟨"CUST1|18446744073710|c=u1~e1&e=q", by decide⟩ 0

/-- the state after `wrappedLine` -/
def wrappedState : St := (run specCfg St.init [wrappedLine]).getD St.init

/-- the line is accepted with the deadline 1800448384 µs, not (18446744073710 + 1800)·10^6; its
record holds the time 0 s; and the import over its store recomputes the deadline 1800000000 µs -/
theorem timestamp_wraps :
    (run specCfg St.init [wrappedLine]).isSome ∧
      wrappedState.flushTimes.entries = [("u1", 1800448384)] ∧
      (wrappedState.store.find? (eventKey "u1" "q" 0)).map
          (fun v => (readVarUInt v.data).toOption.map Prod.fst) = some (some 0) ∧
      (resultState (importTimeoutList { St.init with store := wrappedState.store })).flushTimes.entries =
        [("u1", 1800000000)] := by
  decide

end EventQL.LogJoin
