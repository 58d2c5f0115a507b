import EventQL.LogJoin.Run
/-!
The keys of the store and the uids that own them.

A record key `<uid>~<e>~<hex64>` and a customer key `<uid>~cust` begin with their uid and a '~'.
A uid has no '~', so the key determines it: it is the key up to its first '~', which is also what
`importTimeoutList` takes (`key.substr(0, key.find("~"))`). `flushSession`'s scan tests
`beginsWith(key, uid)` without the '~', so it reaches a key of another uid exactly when the uid it
flushes is a prefix of that uid. For a run whose uids are prefix-free (`PrefixFree`) the scan of a
uid reaches its own keys only.

Results:
- `hex64_injective`: distinct draws give distinct hex64 strings;
- `eventKey_inj`: a record key determines its uid, its one-character e and the number drawn;
- `prefix_of_beginsWith`: a key of `u` that begins with a '~'-free `v` has `v` as a prefix of `u`;
- `run_owned`: in every state of a run whose uids are prefix-free, every uid with a deadline entry
  is one that the run's lines name, and it still has a record in the store.
-/

namespace EventQL.LogJoin

/-! ## Hex digits -/

theorem digitChar_injective {a b : Nat} (ha : a < 16) (hb : b < 16)
    (h : Nat.digitChar a = Nat.digitChar b) : a = b :=
  congrArg Fin.val <|
    (by decide : ∀ i j : Fin 16, Nat.digitChar i = Nat.digitChar j → i = j) ⟨a, ha⟩ ⟨b, hb⟩ h

theorem hexDigits_inj : ∀ {n a b : Nat}, hexDigits n a = hexDigits n b → a % 16 ^ n = b % 16 ^ n
  | 0, _, _, _ => by simp [Nat.mod_one]
  | n + 1, a, b, h => by
    obtain ⟨hhigh, hlow⟩ := List.append_inj' h rfl
    have hlow := digitChar_injective (Nat.mod_lt a (by omega)) (Nat.mod_lt b (by omega))
      (List.singleton_inj.1 hlow)
    rw [Nat.pow_succ', Nat.mod_mul, Nat.mod_mul, hlow, hexDigits_inj hhigh]

theorem hex64_injective : Function.Injective hex64 := by
  intro r r' h
  have h16 : (16 : Nat) ^ 16 = 2 ^ 64 := by decide
  have := hexDigits_inj (String.ext_iff.1 h)
  rwa [h16, Nat.mod_eq_of_lt (UInt64.toNat_lt r), Nat.mod_eq_of_lt (UInt64.toNat_lt r'),
    ← UInt64.ext_iff] at this

/-! ## Keys -/

theorem data_eventKey (u evtype : String) (r : UInt64) :
    (eventKey u evtype r).data = u.data ++ '~' :: (evtype.data ++ '~' :: (hex64 r).data) := by
  simp [eventKey]

theorem data_custKey (u : String) : (custKey u).data = u.data ++ '~' :: "cust".data := by
  simp [custKey]

theorem takeWhile_owner {u : String} (hu : '~' ∉ u.data) (rest : List Char) :
    (u.data ++ '~' :: rest).takeWhile (· ≠ '~') = u.data := by
  rw [List.takeWhile_append_of_pos fun a ha => by
    simp only [ne_eq, decide_eq_true_eq]; rintro rfl; exact hu ha]
  simp

/-- **A record key determines its uid, e and draw.** -/
theorem eventKey_inj {u u' e e' : String} {r r' : UInt64} (hu : '~' ∉ u.data) (hu' : '~' ∉ u'.data)
    (h : eventKey u e r = eventKey u' e' r') : u = u' ∧ e = e' ∧ r = r' := by
  have hd := String.ext_iff.1 h
  rw [data_eventKey, data_eventKey] at hd
  have huu : u.data = u'.data := by rw [← takeWhile_owner hu, hd, takeWhile_owner hu']
  rw [huu] at hd
  have hrest := (List.cons.inj (List.append_cancel_left hd)).2
  have hlen : e.data.length = e'.data.length := by
    have := congrArg List.length hrest
    have h16 : (hex64 r).data.length = (hex64 r').data.length :=
      (length_hexDigits _ _).trans (length_hexDigits _ _).symm
    simp only [List.length_append, List.length_cons, h16] at this
    omega
  obtain ⟨hee, hrr⟩ := List.append_inj hrest hlen
  exact ⟨String.ext huu, String.ext hee, hex64_injective (String.ext (List.cons.inj hrr).2)⟩

theorem custKey_injective : Function.Injective custKey := fun u v h =>
  String.ext (List.append_cancel_right (by simpa only [data_custKey] using String.ext_iff.1 h))

theorem prefix_of_beginsWith {k u v : String} (hv : '~' ∉ v.data) (hk : beginsWith k (u ++ "~") = true)
    (hkv : beginsWith k v = true) : v.data <+: u.data := by
  rw [beginsWith_iff, String.data_append, show ("~" : String).data = ['~'] from rfl] at hk
  rcases List.prefix_or_prefix_of_prefix (beginsWith_iff.1 hkv) hk with h | h
  · rcases List.prefix_concat_iff.1 h with h | h
    · rw [h] at hv; simp at hv
    · exact h
  · exact absurd (h.subset (by simp)) hv

theorem owner_unique {k u v : String} (hu : '~' ∉ u.data) (hv : '~' ∉ v.data)
    (hku : beginsWith k (u ++ "~") = true) (hkv : beginsWith k (v ++ "~") = true) : u = v := by
  have h1 := prefix_of_beginsWith hv hku (beginsWith_of_append hkv)
  have h2 := prefix_of_beginsWith hu hkv (beginsWith_of_append hku)
  exact String.ext (h2.eq_of_length (le_antisymm h2.length_le h1.length_le))

theorem WellFormed.owner {st : St} (hw : WellFormed st) {e : String × String} (he : e ∈ st.store.entries) :
    (∃ r, e.1 = envelopeKey r) ∨
      ∃ w, UidShape w ∧ w ∈ st.flushTimes.entries.map Prod.fst ∧ beginsWith e.1 (w ++ "~") = true := by
  rcases hw e he with h | ⟨w, hs, hw, hk⟩
  · exact .inl h
  refine .inr ⟨w, hs, hw, ?_⟩
  rcases hk with hk | ⟨_, _, -, hk, -⟩ <;> rw [hk]
  exacts [custKey_beginsWith _, eventKey_beginsWith _ _ _]

theorem WellFormed.mem_of_beginsWith {st : St} (hw : WellFormed st) {u : String} (hu : '~' ∉ u.data)
    {e : String × String} (he : e ∈ st.store.entries) (hb : beginsWith e.1 (u ++ "~") = true) :
    u ∈ st.flushTimes.entries.map Prod.fst := by
  rcases hw.owner he with ⟨r, hr⟩ | ⟨w, hs, hw, hkw⟩
  · rw [hr, envelopeKey_not_beginsWith] at hb; cases hb
  rwa [owner_unique hu hs.2 hb hkw]

/-- a record key does not end with `~cust`: it ends with sixteen hex digits -/
theorem eventKey_not_endsWith_cust (u evtype : String) (r : UInt64) :
    endsWith (eventKey u evtype r) "~cust" = false := by
  rw [Bool.eq_false_iff, ne_eq, endsWith_iff, List.suffix_iff_eq_drop]
  intro h
  have hlen : (hex64 r).length = 16 := length_hexDigits _ _
  have hkey : (eventKey u evtype r).data =
      (u.data ++ '~' :: evtype.data ++ ['~']) ++ (hex64 r).data := by
    simp [data_eventKey]
  rw [hkey, List.drop_append_eq_append_drop, List.drop_eq_nil_of_le (by simp; omega),
    List.nil_append] at h
  exact tilde_not_mem_hexDigits 16 r.toNat (List.mem_of_mem_drop (h ▸ (by decide : '~' ∈ "~cust".data)))

theorem custKey_endsWith (u : String) : endsWith (custKey u) "~cust" = true := by
  rw [endsWith_iff, data_custKey]
  exact ⟨u.data, rfl⟩

theorem eventKey_ne_custKey {u u' evtype : String} {r : UInt64} : eventKey u evtype r ≠ custKey u' := by
  intro h
  have := custKey_endsWith u'
  rw [← h, eventKey_not_endsWith_cust] at this
  cases this

theorem eventKey_ne_envelopeKey {u evtype : String} {r : UInt64} {r' : BitVec 128} :
    eventKey u evtype r ≠ envelopeKey r' := by
  intro h
  exact tilde_not_mem_envelopeKey r' (h ▸ by simp [data_eventKey])

theorem custKey_ne_envelopeKey {u : String} {r : BitVec 128} : custKey u ≠ envelopeKey r := by
  intro h
  exact tilde_not_mem_envelopeKey r (h ▸ by simp [data_custKey])

/-- the uid and `__sessionq-` are not prefixes of each other: no envelope key begins with the uid -/
def ClearOfEnvelopes (u : String) : Prop := ¬ u.data <+: "__sessionq-".data ∧ ¬ "__sessionq-".data <+: u.data

instance : DecidablePred ClearOfEnvelopes := fun _ => by unfold ClearOfEnvelopes; infer_instance

theorem envelopeKey_not_beginsWith_uid {u : String} (h : ClearOfEnvelopes u) (r : BitVec 128) :
    beginsWith (envelopeKey r) u = false := by
  rw [Bool.eq_false_iff, ne_eq, beginsWith_iff, envelopeKey, String.data_append]
  intro hu
  rcases List.prefix_or_prefix_of_prefix hu (List.prefix_append _ _) with h' | h'
  exacts [h.1 h', h.2 h']

/-! ## The uids of a run -/

/-- no uid of the list is a proper prefix of another: the scan of one reaches no key of another -/
def PrefixFree (us : List String) : Prop := ∀ u ∈ us, ∀ v ∈ us, u.data <+: v.data → u = v

instance (us : List String) : Decidable (PrefixFree us) := by unfold PrefixFree; infer_instance

theorem uid?_shape {cfg : Cfg} {op : Op} {u : String} (h : op.uid? cfg = some u) : UidShape u := by
  simp only [Op.uid?, Option.bind_eq_some, Option.map_eq_some'] at h
  obtain ⟨line, -, ⟨uid, eid⟩, hc, rfl⟩ := h
  have hs : splitC (cfg.parseQueryString line.2.2.1) = .ok (uid, eid) := by
    cases hs : splitC (cfg.parseQueryString line.2.2.1) <;> simp_all [Except.toOption]
  obtain ⟨_, -, -, hl, ht⟩ := splitC_ok hs
  exact ⟨hl, ht⟩

theorem runUids_shape {cfg : Cfg} {ops : List Op} {u : String} (h : u ∈ runUids cfg ops) : UidShape u := by
  obtain ⟨_, -, h⟩ := List.mem_filterMap.1 h
  exact uid?_shape h

theorem uid?_of_line {cfg : Cfg} {op : Op} {customerKey body uid eid : String} {time rnd : UInt64}
    (hl : op.line? = some (customerKey, time, body, rnd))
    (hc : splitC (cfg.parseQueryString body) = .ok (uid, eid)) : op.uid? cfg = some uid := by
  simp [Op.uid?, hl, hc, Except.toOption]

/-! ## Deadline entries and their records -/

/-- every uid with a deadline entry is one of `us` and still has a record -/
def Owned (us : List String) (st : St) : Prop :=
  ∀ u ∈ st.flushTimes.entries.map Prod.fst, u ∈ us ∧
    ∃ e ∈ st.store.entries, ∃ evtype r, e.1 = eventKey u evtype r

theorem insertLoglineAt_owned {us : List String} {cfg : Cfg} {rnd : UInt64} {customerKey : String}
    {time : UInt64} {logLine : String} {st st' : St}
    (hus : ∀ uid eid, splitC (cfg.parseQueryString logLine) = .ok (uid, eid) → uid ∈ us)
    (ho : Owned us st) (h : insertLoglineAt cfg rnd customerKey time logLine st = .ok () st') :
    Owned us st' := by
  rcases insertLoglineAt_ok h with ⟨_, _, -, -, rfl⟩ | ⟨uid, eid, evtype, buf, hc, -, -, -, rfl⟩
  · exact ho
  have hnew : (eventKey uid evtype rnd, buf) ∈
      ((st.store.insert (eventKey uid evtype rnd) buf).insert (custKey uid) customerKey).entries :=
    Store.mem_insert.2 (.inr ⟨Store.mem_insert.2 (.inl rfl), eventKey_ne_custKey⟩)
  intro u hu
  rcases FlushTimes.mem_emplace.1 hu with hu | rfl
  · obtain ⟨hu, e, he, ev, r, hk⟩ := ho u hu
    refine ⟨hu, ?_⟩
    by_cases hke : e.1 = eventKey uid evtype rnd
    · exact ⟨_, hnew, ev, r, hke.symm.trans hk⟩
    · exact ⟨e, Store.mem_insert.2 (.inr ⟨Store.mem_insert.2 (.inr ⟨he, hke⟩), hk ▸ eventKey_ne_custKey⟩),
        ev, r, hk⟩
  · exact ⟨hus _ _ hc, _, hnew, evtype, rnd, rfl⟩

theorem flush_mem_iff_of_not_due {us : List String} {cfg : Cfg}
    {target : TrackedSession → Except Error String} {rnd : String → BitVec 128} {s : UInt64}
    {st st' : St} {handed : List TrackedSession} (hpf : PrefixFree us) (hshape : ∀ u ∈ us, UidShape u)
    (hus : ∀ u ∈ st.flushTimes.entries.map Prod.fst, u ∈ us) {u : String} {tu : UInt64}
    (hu : (u, tu) ∈ st.flushTimes.entries) (hts : ¬ tu < s) (h : flush cfg target rnd s st = .ok handed st')
    {k v : String} (hk : beginsWith k (u ++ "~") = true) :
    (k, v) ∈ st'.store.entries ↔ (k, v) ∈ st.store.entries := by
  have hframe := (flush_storeFrame cfg target rnd s st).find?_eq (k := k) fun w hw => by
    refine ⟨Bool.eq_false_iff.2 fun hb => ?_, fun henv => ?_⟩
    · have hwU := hus w (FlushTimes.mem_of_mem_due hw)
      have hwu := hpf w hwU u (hus u (List.mem_map_of_mem _ hu)) (prefix_of_beginsWith (hshape w hwU).2 hk hb)
      exact FlushTimes.not_mem_due hu hts (hwu ▸ hw)
    · rw [henv, envelopeKey_not_beginsWith] at hk; cases hk
  rw [h, resultState] at hframe
  rw [← Store.find?_eq_some_iff, ← Store.find?_eq_some_iff, hframe]

theorem flush_owned {us : List String} {cfg : Cfg} {target : TrackedSession → Except Error String}
    {rnd : String → BitVec 128} {s : UInt64} {st st' : St} {handed : List TrackedSession}
    (hpf : PrefixFree us) (hshape : ∀ u ∈ us, UidShape u) (ho : Owned us st)
    (h : flush cfg target rnd s st = .ok handed st') : Owned us st' := by
  intro u hu
  obtain ⟨t, hm, hts⟩ := flush_mem_keys h hu
  obtain ⟨hU, ⟨k, v⟩, he, ev, r, hk⟩ := ho u (List.mem_map_of_mem _ hm)
  exact ⟨hU, (k, v), (flush_mem_iff_of_not_due hpf hshape (fun w hw => (ho w hw).1) hm hts h
    (by rw [show k = _ from hk]; exact eventKey_beginsWith _ _ _)).2 he, ev, r, hk⟩

/-- **Every deadline entry has a record.** In every state of a run whose uids are prefix-free,
every uid with a deadline entry is named by one of the run's lines and still has a record. -/
theorem run_owned {cfg : Cfg} {ops : List Op} {st : St} (h : run cfg St.init ops = some st)
    (hpf : PrefixFree (runUids cfg ops)) : Owned (runUids cfg ops) st := by
  refine run_induct (Owned (runUids cfg ops)) (fun st op st' hop ho hs => ?_) (fun u hu => by cases hu) h
  rcases step_ok hs with ⟨_, _, _, _, hl, -, hs⟩ | ⟨_, _, _, _, -, hs⟩
  · exact insertLoglineAt_owned (fun _ _ hc => List.mem_filterMap.2 ⟨op, hop, uid?_of_line hl hc⟩) ho hs
  · exact flush_owned hpf (fun _ => runUids_shape) ho hs

end EventQL.LogJoin
