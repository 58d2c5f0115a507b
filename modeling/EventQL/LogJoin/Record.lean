import EventQL.LogJoin.Basic
/-!
The event record of `LogJoin::appendToSession` and the two readers of it, in `flushSession` and
`importTimeoutList` (`src/logjoin/LogJoin.cc`).

`util::BinaryMessageWriter` and `util::BinaryMessageReader` are libstx, not under src/. They are
modelled from the spec's record format: a varint is seven bits a byte, lowest first, with the high
bit set on every byte but the last; the reader raises `kBufferOverflowError` when a read runs past
the end of the buffer. A varint of more than ten bytes shifts past 64 bits in the C++ (undefined);
the model drops those bits, like the tenth byte's bits above bit 63.

A record is: the event time in seconds, the eid's length and bytes, then one (id, length, bytes)
triple per stored parameter. `flushSession` reads the time, the length and the eid before its
`try` block (`readEventHeader`) and the triples inside it (`readLogline`).

Results:
- `readVarUInt_appendVarUInt`: a varint reads back as written, whatever follows it;
- `encodeEvent_roundtrip`: for every time, every eid and every list of registered parameters, the
  record decodes without raising to (floor(t/10^6)*10^6, eid, the same parameters in order), and the
  first varint `importTimeoutList` reads is floor(t/10^6).
-/

namespace EventQL.LogJoin

/-! ## Varints -/

/-- `kBufferOverflowError`: a read past the end of the buffer -/
def bufferOverflow : Error := ⟨.bufferOverflowError, ""⟩

/-- the bytes of the varint of `v`, with room for `fuel` bytes -/
def varUIntBytes : Nat → Nat → List Char
  | 0, _ => []
  | fuel + 1, v =>
    if v < 128 then [Char.ofNat v] else Char.ofNat (v % 128 + 128) :: varUIntBytes fuel (v / 128)

/-- Modelled from the spec: `BinaryMessageWriter::appendVarUInt`; ten bytes hold any `uint64_t`. -/
def appendVarUInt (v : UInt64) : List Char := varUIntBytes 10 v.toNat

/-- the varint at the front of the buffer, unbounded, and the bytes after it -/
def readVarUIntGo : List Char → Except Error (Nat × List Char)
  | [] => .error bufferOverflow
  | c :: rest =>
    if c.toNat < 128 then .ok (c.toNat, rest)
    else match readVarUIntGo rest with
      | .ok (v, rest') => .ok (c.toNat % 128 + 128 * v, rest')
      | .error e => .error e

/-- Modelled from the spec: `BinaryMessageReader::readVarUInt` -/
def readVarUInt (buf : List Char) : Except Error (UInt64 × List Char) :=
  (readVarUIntGo buf).map fun r => (UInt64.ofNat r.1, r.2)

/-- Modelled from the spec: `BinaryMessageReader::read(size)` -/
def read (n : Nat) (buf : List Char) : Except Error (List Char × List Char) :=
  if n ≤ buf.length then .ok (buf.take n, buf.drop n) else .error bufferOverflow

theorem toNat_ofNat_byte {n : Nat} (h : n < 256) : (Char.ofNat n).toNat = n := by
  rw [Char.ofNat, dif_pos (Or.inl (by omega))]
  simp only [Char.toNat, Char.ofNatAux, UInt32.toNat, BitVec.toNat_ofNatLt]

theorem readVarUIntGo_last {v : Nat} (rest : List Char) (hv : v < 128) :
    readVarUIntGo (Char.ofNat v :: rest) = .ok (v, rest) := by
  rw [readVarUIntGo, toNat_ofNat_byte (by omega), if_pos hv]

theorem readVarUIntGo_varUIntBytes (fuel v : Nat) (rest : List Char) (h : v < 128 ^ (fuel + 1)) :
    readVarUIntGo (varUIntBytes (fuel + 1) v ++ rest) = .ok (v, rest) := by
  induction fuel generalizing v with
  | zero =>
    rw [varUIntBytes, if_pos (by omega), List.singleton_append, readVarUIntGo_last _ (by omega)]
  | succ fuel ih =>
    by_cases hv : v < 128
    · rw [varUIntBytes, if_pos hv, List.singleton_append, readVarUIntGo_last _ hv]
    · have hq : v / 128 < 128 ^ (fuel + 1) := by rw [Nat.pow_succ] at h; omega
      rw [varUIntBytes, if_neg hv, List.cons_append, readVarUIntGo,
        toNat_ofNat_byte (by omega), if_neg (by omega), ih _ hq]
      dsimp only
      congr 2; omega

theorem readVarUInt_appendVarUInt (v : UInt64) (rest : List Char) :
    readVarUInt (appendVarUInt v ++ rest) = .ok (v, rest) := by
  have h : v.toNat < 128 ^ (9 + 1) := Nat.lt_of_lt_of_le (UInt64.toNat_lt v) (by decide)
  simp only [readVarUInt, appendVarUInt, readVarUIntGo_varUIntBytes 9 _ rest h, Except.map]
  congr
  exact UInt64.toNat.inj (by rw [UInt64.toNat_ofNat', Nat.mod_eq_of_lt (UInt64.toNat_lt v)])

theorem appendVarUInt_ne_nil (v : UInt64) : appendVarUInt v ≠ [] := by
  rw [appendVarUInt, varUIntBytes]; split <;> simp

/-! ## The event record -/

/-- the (id, length, bytes) triples of `appendToSession`'s loop; an unregistered name raises -/
def appendParams : ParamList → Except Error (List Char)
  | [] => .ok []
  | (name, value) :: rest => do
    let id ← getPixelParamID name
    let tail ← appendParams rest
    pure (appendVarUInt (UInt64.ofNat id) ++ appendVarUInt (UInt64.ofNat value.length) ++
      value.data ++ tail)

/-- the record `appendToSession` builds in its `BinaryMessageWriter` -/
def encodeEvent (time : UInt64) (evid : String) (logline : ParamList) : Except Error String := do
  let params ← appendParams logline
  pure ⟨appendVarUInt (time / kMicrosPerSecond) ++ appendVarUInt (UInt64.ofNat evid.length) ++
    evid.data ++ params⟩

/-- the reads `flushSession` makes before its `try` block: the time (seconds times 10^6), the
eid's length and the eid; returns the unread bytes -/
def readEventHeader (value : String) : Except Error (UInt64 × String × List Char) := do
  let (secs, r1) ← readVarUInt value.data
  let (len, r2) ← readVarUInt r1
  let (evid, r3) ← read len.toNat r2
  pure (secs * kMicrosPerSecond, ⟨evid⟩, r3)

/-- the loop inside `flushSession`'s `try` block, while bytes remain; the id is narrowed to the
`uint32_t` that `getPixelParamName` takes. Each pass consumes at least one byte, so `fuel` equal
to the buffer's length never runs out. -/
def readLoglineGo : Nat → List Char → Except Error ParamList
  | 0, _ => .ok []
  | fuel + 1, buf =>
    if buf.length = 0 then .ok []
    else do
      let (id, r1) ← readVarUInt buf
      let key ← getPixelParamName (id.toNat % 2 ^ 32)
      let (len, r2) ← readVarUInt r1
      let (val, r3) ← read len.toNat r2
      let rest ← readLoglineGo fuel r3
      pure ((key, ⟨val⟩) :: rest)

/-- the parameter triples of a record -/
def readLogline (buf : List Char) : Except Error ParamList := readLoglineGo buf.length buf

/-! ## Round trip -/

theorem appendParams_ok {ps : ParamList} (h : ∀ p ∈ ps, Registered p.1) :
    ∃ bs, appendParams ps = .ok bs := by
  induction ps with
  | nil => exact ⟨[], rfl⟩
  | cons p ps ih =>
    obtain ⟨id, hid⟩ := getPixelParamID_registered (h p (by simp))
    obtain ⟨bs, hbs⟩ := ih fun q hq => h q (by simp [hq])
    exact ⟨appendVarUInt (UInt64.ofNat id) ++ appendVarUInt (UInt64.ofNat p.2.length) ++ p.2.data ++ bs,
      by simp [appendParams, hid, hbs, bind, Except.bind, pure, Except.pure]⟩

theorem appendParams_error {ps : ParamList} {e : Error} (h : appendParams ps = .error e) :
    ∃ p ∈ ps, ¬ Registered p.1 ∧ e = ⟨.indexError, "invalid pixel param: " ++ p.1⟩ := by
  induction ps with
  | nil => cases h
  | cons p ps ih =>
    simp only [appendParams, bind, Except.bind] at h
    split at h
    · cases h
      exact ⟨p, List.mem_cons_self _ _, getPixelParamID_error ‹_›⟩
    · split at h
      · cases h
        obtain ⟨q, hq, h⟩ := ih ‹_›
        exact ⟨q, List.mem_cons_of_mem _ hq, h⟩
      · cases h

theorem encodeEvent_error {t : UInt64} {evid : String} {logline : ParamList} {e : Error}
    (h : encodeEvent t evid logline = .error e) :
    ∃ p ∈ logline, ¬ Registered p.1 ∧ e = ⟨.indexError, "invalid pixel param: " ++ p.1⟩ := by
  simp only [encodeEvent, bind, Except.bind] at h
  split at h
  · cases h; exact appendParams_error ‹_›
  · cases h

theorem read_string (s : String) (rest : List Char) (h : s.length < 2 ^ 64) :
    read (UInt64.ofNat s.length).toNat (s.data ++ rest) = .ok (s.data, rest) := by
  rw [read, UInt64.toNat_ofNat', Nat.mod_eq_of_lt h, ← String.length_data,
    if_pos (by simp)]
  simp

theorem readLoglineGo_appendParams {ps : ParamList} (hlen : ∀ p ∈ ps, p.2.length < 2 ^ 64) :
    ∀ {bs : List Char}, appendParams ps = .ok bs →
      ps.length ≤ bs.length ∧ ∀ fuel, ps.length ≤ fuel → readLoglineGo fuel bs = .ok ps := by
  induction ps with
  | nil =>
    intro bs h
    cases h
    exact ⟨le_refl _, fun fuel _ => by cases fuel <;> simp [readLoglineGo]⟩
  | cons p ps ih =>
    obtain ⟨name, value⟩ := p
    intro bs h
    simp only [appendParams, bind, Except.bind] at h
    split at h; · cases h
    rename_i id hid
    split at h; · cases h
    rename_i tail htail
    cases h
    obtain ⟨hid32, hname⟩ := getPixelParamID_ok hid
    obtain ⟨hl, ht⟩ := ih (fun q hq => hlen q (by simp [hq])) htail
    have hpos : 0 < (appendVarUInt (UInt64.ofNat id)).length :=
      List.length_pos.2 (appendVarUInt_ne_nil _)
    have hid' : (UInt64.ofNat id).toNat % 2 ^ 32 = id := by
      rw [UInt64.toNat_ofNat', Nat.mod_eq_of_lt (show id < 2 ^ 64 by omega),
        Nat.mod_eq_of_lt hid32]
    have hv : value.length < 2 ^ 64 := hlen (name, value) (by simp)
    simp only [List.length_cons, List.length_append] at hl ⊢
    refine ⟨by omega, fun fuel hf => ?_⟩
    obtain ⟨fuel, rfl⟩ : ∃ f, fuel = f + 1 := ⟨fuel - 1, by omega⟩
    rw [readLoglineGo, if_neg (by simp only [List.length_append]; omega)]
    simp only [List.append_assoc, readVarUInt_appendVarUInt, bind, Except.bind, hid', hname,
      read_string value tail hv, ht fuel (by omega), pure, Except.pure]

/-- a record `encodeEvent` built reads back, through `flushSession`'s reads, as the time floored
to the second, the eid and the parameters, and its first varint is the time in seconds -/
theorem encodeEvent_reads {t : UInt64} {evid : String} {logline : ParamList} {value : String}
    (h : encodeEvent t evid logline = .ok value) (hevid : evid.length < 2 ^ 64)
    (hvals : ∀ p ∈ logline, p.2.length < 2 ^ 64) :
    (∃ rest, readEventHeader value = .ok (t / kMicrosPerSecond * kMicrosPerSecond, evid, rest) ∧
      readLogline rest = .ok logline) ∧
    ∃ rest, readVarUInt value.data = .ok (t / kMicrosPerSecond, rest) := by
  simp only [encodeEvent, bind, Except.bind] at h
  split at h
  · cases h
  next bs hbs =>
    cases h
    obtain ⟨hl, hread⟩ := readLoglineGo_appendParams hvals hbs
    refine ⟨⟨bs, ?_, hread _ hl⟩, appendVarUInt (UInt64.ofNat evid.length) ++ (evid.data ++ bs), ?_⟩
    · simp only [readEventHeader, List.append_assoc, readVarUInt_appendVarUInt, bind, Except.bind,
        read_string evid bs hevid, pure, Except.pure]
    · simp only [pure, Except.pure, List.append_assoc, readVarUInt_appendVarUInt]

/-- **Record round trip.** For every time, every eid and every list of registered parameters
(every length a `size_t`), the record `appendToSession` stores decodes, through `flushSession`'s
reads, without raising, to the time floored to the second, the eid and the same parameters in the
same order; the first varint `importTimeoutList` reads is the time in seconds. -/
theorem encodeEvent_roundtrip (t : UInt64) (evid : String) (logline : ParamList)
    (hreg : ∀ p ∈ logline, Registered p.1) (hevid : evid.length < 2 ^ 64)
    (hvals : ∀ p ∈ logline, p.2.length < 2 ^ 64) :
    ∃ value, encodeEvent t evid logline = .ok value ∧
      (∃ rest, readEventHeader value = .ok (t / kMicrosPerSecond * kMicrosPerSecond, evid, rest) ∧
        readLogline rest = .ok logline) ∧
      ∃ rest, readVarUInt value.data = .ok (t / kMicrosPerSecond, rest) := by
  obtain ⟨bs, hbs⟩ := appendParams_ok hreg
  have h : encodeEvent t evid logline = .ok ⟨appendVarUInt (t / kMicrosPerSecond) ++
      appendVarUInt (UInt64.ofNat evid.length) ++ evid.data ++ bs⟩ := by
    simp [encodeEvent, hbs, bind, Except.bind, pure, Except.pure]
  exact ⟨_, h, encodeEvent_reads h hevid hvals⟩

/-- the witness: an event at 1000.5 s with a two-byte eid and one parameter -/
theorem encodeEvent_roundtrip_one_param :
    (∀ p ∈ [("qstr~en", "hello")], Registered p.1) ∧ "e1".length < 2 ^ 64 ∧
      (∀ p ∈ [("qstr~en", "hello")], p.2.length < 2 ^ 64) ∧
      ∃ value, encodeEvent 1000500000 "e1" [("qstr~en", "hello")] = .ok value ∧
        (∃ rest, readEventHeader value = .ok (1000500000 / kMicrosPerSecond * kMicrosPerSecond, "e1", rest) ∧
          readLogline rest = .ok [("qstr~en", "hello")]) ∧
        ∃ rest, readVarUInt value.data = .ok (1000500000 / kMicrosPerSecond, rest) :=
  ⟨by decide, by decide, by decide,
    encodeEvent_roundtrip 1000500000 "e1" [("qstr~en", "hello")] (by decide) (by decide) (by decide)⟩

end EventQL.LogJoin
