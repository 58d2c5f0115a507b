import EventQL.LogJoin.State
/-!
`src/logjoin/LogJoin.cc`, function by function: `insertLogline` (both overloads),
`appendToSession`, `flush`, `flushSession`, `onSession` and `importTimeoutList`.

Each is a call in `M`: it passes the `St` along and may raise; a raise keeps the state reached at
the `throw`. The random numbers a call draws (`rnd_.hex64()`, `rnd_.hex128()`) are its inputs,
and so is the join target, a function that returns the session data or raises.

Cursor loops run over the entries the cursor visits, taken when the cursor is opened: the loops
only delete the entry they are on, so the live cursor sees the same sequence.
`flushSession` takes no stream time: the source passes one and never reads it.
-/

namespace EventQL.LogJoin

/-! ## Ingress -/

/-- C `isspace` -/
def isSpace (c : Char) : Bool :=
  c = ' ' || c = '\t' || c = '\n' || c = '\x0b' || c = '\x0c' || c = '\r'

/-- the value of a run of decimal digits -/
def decimalValue (ds : List Char) : Nat := ds.foldl (fun acc c => 10 * acc + (c.toNat - 48)) 0

/-- `std::stoul(str)` in base 10 (`strtoul`): leading white space, an optional sign, then the
longest run of digits. No digit raises `std::invalid_argument`, a value above 2^64 - 1 raises
`std::out_of_range`, and a minus sign negates the value modulo 2^64. -/
def stoul (str : String) : Except Error UInt64 :=
  let s := str.data.dropWhile isSpace
  let (neg, s) : Bool × List Char := match s with
    | '-' :: t => (true, t)
    | '+' :: t => (false, t)
    | t => (false, t)
  let digits := s.takeWhile Char.isDigit
  if digits = [] then .error ⟨.invalidArgument, ""⟩
  else if 2 ^ 64 ≤ decimalValue digits then .error ⟨.outOfRange, ""⟩
  else .ok (if neg then 0 - UInt64.ofNat (decimalValue digits) else UInt64.ofNat (decimalValue digits))

/-- `<customer_key>|<seconds>|<body>` split at its first two '|' -/
def splitLogline (logLine : String) : Option (String × String × String) :=
  match logLine.data.span (· ≠ '|') with
  | (_, []) => none
  | (customerKey, _ :: rest) =>
    match rest.span (· ≠ '|') with
    | (_, []) => none
    | (timestr, _ :: body) => some (⟨customerKey⟩, ⟨timestr⟩, ⟨body⟩)

/-- the c param split at its first '~' into uid and eid, both non-empty -/
def splitC (params : ParamList) : Except Error (String × String) :=
  match getParam params "c" with
  | none => .error ⟨.parseError, "c param is missing"⟩
  | some c =>
    match c.data.span (· ≠ '~') with
    | (_, []) => .error ⟨.parseError, "c param is invalid"⟩
    | (uid, _ :: eid) =>
      if uid.length = 0 ∨ eid.length = 0 then .error ⟨.parseError, "c param is invalid"⟩
      else .ok (⟨uid⟩, ⟨eid⟩)

/-- the e param: one character, one of q, v, c, u; the second length check is the source's -/
def checkEvtype (params : ParamList) : Except Error String :=
  match getParam params "e" with
  | none => .error ⟨.parseError, "e param is missing"⟩
  | some evtype =>
    if evtype.length ≠ 1 then .error ⟨.parseError, "e param is missing"⟩
    else if evtype.length ≠ 1 then .error ⟨.parseError, "e param invalid"⟩
    else match evtype.data with
      | ['q'] | ['v'] | ['c'] | ['u'] => .ok evtype
      | _ => .error ⟨.parseError, "invalid e param"⟩

/-- `stored_params`: every parameter but c, e and v, in order -/
def storedParams (params : ParamList) : ParamList :=
  params.filter fun p => p.1 ≠ "c" ∧ p.1 ≠ "e" ∧ p.1 ≠ "v"

/-- the key of an event record: `<uid>~<evtype>~<hex64>` -/
def eventKey (uid evtype : String) (rnd : UInt64) : String := uid ++ "~" ++ evtype ++ "~" ++ hex64 rnd

/-- the key of a user's customer key: `<uid>~cust` -/
def custKey (uid : String) : String := uid ++ "~cust"

/-- `LogJoin::appendToSession` -/
def appendToSession (rnd : UInt64) (customerKey : String) (time : UInt64) (uid evid evtype : String)
    (logline : ParamList) : M Unit := do
  let flushAt := time + kSessionIdleTimeoutSeconds * kMicrosPerSecond
  modify fun st => { st with flushTimes := st.flushTimes.emplaceIfLater uid flushAt }
  let buf ← liftExcept (encodeEvent time evid logline)
  modify fun st =>
    { st with store := (st.store.insert (eventKey uid evtype rnd) buf).insert (custKey uid) customerKey }

/-- `LogJoin::insertLogline(customer_key, time, log_line, txn)` -/
def insertLoglineAt (cfg : Cfg) (rnd : UInt64) (customerKey : String) (time : UInt64)
    (logLine : String) : M Unit := do
  let params := cfg.parseQueryString logLine
  modify fun st => { st with loglinesTotal := st.loglinesTotal + 1 }
  tryCatch
    (do
      let (uid, eid) ← liftExcept (splitC params)
      if cfg.shard uid then
        let evtype ← liftExcept (checkEvtype params)
        appendToSession rnd customerKey time uid eid evtype (storedParams params))
    (fun e => do
      modify fun st => { st with loglinesInvalid := st.loglinesInvalid + 1 }
      throw e)

/-- `LogJoin::insertLogline(log_line, txn)` -/
def insertLogline (cfg : Cfg) (rnd : UInt64) (logLine : String) : M Unit :=
  match splitLogline logLine with
  | none => throw ⟨.runtimeError, "invalid logline: " ++ logLine⟩
  | some (customerKey, timestr, body) =>
    match stoul timestr with
    | .error e => throw e
    | .ok secs => insertLoglineAt cfg rnd customerKey (secs * kMicrosPerSecond) body

/-! ## Flush -/

/-- `std::string::substr(pos)`: raises `std::out_of_range` when `pos` is past the end -/
def substr (s : String) (pos : Nat) : Except Error String :=
  if pos ≤ s.length then .ok ⟨s.data.drop pos⟩ else .error ⟨.outOfRange, ""⟩

/-- one record under `flushSession`'s cursor: a customer key, or an event whose header is read
outside the `try` block and whose parameters inside it -/
def readRecord (uid key value : String) (session : TrackedSession) : M TrackedSession :=
  if endsWith key "~cust" then pure { session with customerKey := value }
  else do
    let evtype ← liftExcept (substr key (uid.length + 1))
    let (time, evid, rest) ← liftExcept (readEventHeader value)
    match readLogline rest with
    | .ok logline => pure (session.insertLogline time ⟨evtype.data.take 1⟩ evid logline)
    | .error _ => do
      modify fun st => { st with loglinesInvalid := st.loglinesInvalid + 1 }
      pure session

/-- `flushSession`'s cursor loop over the entries from `getFirstOrGreater(uid)` on: while the key
begins with `uid`, read the record and `del` it -/
def flushSessionLoop (uid : String) : List (String × String) → TrackedSession → M TrackedSession
  | [], session => pure session
  | (key, value) :: rest, session =>
    if beginsWith key uid then do
      let session ← readRecord uid key value session
      modify fun st => { st with store := st.store.erase key }
      flushSessionLoop uid rest session
    else pure session

/-- the envelope key `__sessionq-<hex128>` -/
def envelopeKey (rnd : BitVec 128) : String := "__sessionq-" ++ hex128 rnd

/-- Modelled from the spec: stx's `Option::get` raises on an empty option. -/
def optionGet (o : Option UInt64) : Except Error UInt64 :=
  match o with
  | some t => .ok t
  | none => .error ⟨.runtimeError, ""⟩

/-- `LogJoin::onSession` -/
def onSession (cfg : Cfg) (target : TrackedSession → Except Error String) (rnd : BitVec 128)
    (session : TrackedSession) : M Unit := do
  let sessionData ← liftExcept (target session)
  if cfg.dryRun then pure ()
  else do
    let time ← liftExcept (optionGet session.firstSeenTime)
    let envelope : SessionEnvelope := ⟨session.customerKey, session.uid, time, sessionData⟩
    modify fun st => { st with store := st.store.insert (envelopeKey rnd) (cfg.encodeEnvelope envelope) }

/-- `LogJoin::flushSession`; its result is the session handed to the join target, if any -/
def flushSession (cfg : Cfg) (target : TrackedSession → Except Error String) (rnd : BitVec 128)
    (uid : String) : M (Option TrackedSession) := do
  let st ← get
  let session ← flushSessionLoop uid (st.store.seek uid) ⟨uid, "", []⟩
  if session.customerKey.length = 0 then pure none
  else do
    tryCatch (onSession cfg target rnd session) (fun _ => pure ())
    modify fun st => { st with joinedSessions := st.joinedSessions + 1 }
    pure (some session)

/-- `flush`'s loop over the deadline map: each entry due before `streamTime` is flushed, then
erased -/
def flushLoop (cfg : Cfg) (target : TrackedSession → Except Error String) (rnd : String → BitVec 128)
    (streamTime : UInt64) : List (String × UInt64) → M (List TrackedSession)
  | [] => pure []
  | (uid, t) :: rest =>
    if t < streamTime then do
      let handed ← flushSession cfg target (rnd uid) uid
      modify fun st => { st with flushTimes := st.flushTimes.erase uid }
      let more ← flushLoop cfg target rnd streamTime rest
      pure (handed.toList ++ more)
    else flushLoop cfg target rnd streamTime rest

/-- `LogJoin::flush`; its result is the sessions handed to the join target, in order. The
envelope of the session of `uid` is keyed by `rnd uid`. -/
def flush (cfg : Cfg) (target : TrackedSession → Except Error String) (rnd : String → BitVec 128)
    (streamTime : UInt64) : M (List TrackedSession) := do
  let st ← get
  flushLoop cfg target rnd streamTime st.flushTimes.entries

/-! ## Bootstrap -/

/-- one entry of `importTimeoutList`'s scan. The uid is the key up to its first '~' (a key
without one is undefined behaviour in the source; the model keeps the whole key). -/
def importEntry (key value : String) : M Unit :=
  if beginsWith key "__" then pure ()
  else if endsWith key "~cust" then pure ()
  else do
    let sid : String := ⟨key.data.takeWhile (· ≠ '~')⟩
    let (time, _) ← liftExcept (readVarUInt value.data)
    let ftime := (time + kSessionIdleTimeoutSeconds) * kMicrosPerSecond
    modify fun st => { st with flushTimes := st.flushTimes.emplaceIfLater sid ftime }

/-- `importTimeoutList`'s scan from `getFirst` to the end of the store -/
def importLoop : List (String × String) → M Unit
  | [] => pure ()
  | (key, value) :: rest => do
    importEntry key value
    importLoop rest

/-- `LogJoin::importTimeoutList` -/
def importTimeoutList : M Unit := do
  let st ← get
  importLoop st.store.entries

end EventQL.LogJoin
