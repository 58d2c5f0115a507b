import EventQL.LogJoin.Record
import EventQL.LogJoin.Store
import Mathlib.Data.List.Nodup
/-!
The state a `LogJoin` instance owns (`src/logjoin/LogJoin.cc`) and the session it hands to its
join target.

- `FlushTimes` is `sessions_flush_times_` (declared in `LogJoin.h`, not under src/), a map from
  uid to deadline: one entry per uid (a field of the structure), iterated in list order. Its
  `emplace` is that of the standard associative containers: it inserts only when the key is
  absent and otherwise leaves the map unchanged.
- `St` is that map, the store seen through the caller's transaction, and the three counters
  LogJoin increments itself (`joined_queries` and `joined_item_visits` belong to the target).
- `Cfg` is what the constructor takes (`shard`, `dry_run`) and the two libstx functions not
  under src/ that the model leaves open: `URI::parseQueryString` and the envelope serializer
  `msg::encode`. Every result holds for every choice of them.
- `M` is a call of the C++: state passing with exceptions, where an exception keeps the state
  as it was at the `throw` (the C++ has no rollback of its own).
- `hex64`/`hex128` are `Random::hex64`/`hex128` applied to the random number they draw; the
  number is an input of the calls that draw it.
-/

namespace EventQL.LogJoin

/-! ## Sessions -/

/-- one event of a `TrackedSession` -/
structure TrackedEvent where
  time : UInt64
  evtype : String
  evid : String
  logline : ParamList
  deriving DecidableEq, Repr

/-- `TrackedSession`: the user, the customer key and the events, in the order they were read -/
structure TrackedSession where
  uid : String
  customerKey : String
  events : List TrackedEvent
  deriving DecidableEq, Repr

/-- Modelled from the spec: `TrackedSession::insertLogline` (not under src/) appends the event. -/
def TrackedSession.insertLogline (s : TrackedSession) (time : UInt64) (evtype evid : String)
    (logline : ParamList) : TrackedSession :=
  { s with events := s.events ++ [⟨time, evtype, evid, logline⟩] }

/-- Modelled from the spec: `TrackedSession::firstSeenTime` (not under src/), the earliest event
time, none for a session without events. -/
def TrackedSession.firstSeenTime (s : TrackedSession) : Option UInt64 := (s.events.map (·.time)).min?

/-- the `SessionEnvelope` message `onSession` fills -/
structure SessionEnvelope where
  customer : String
  sessionId : String
  time : UInt64
  sessionData : String
  deriving DecidableEq, Repr

/-! ## The deadline map -/

/-- `sessions_flush_times_`: uid ↦ flush deadline in microseconds, one entry per uid -/
structure FlushTimes where
  entries : List (String × UInt64)
  nodup : (entries.map Prod.fst).Nodup

namespace FlushTimes

/-- the empty map -/
def empty : FlushTimes := ⟨[], List.nodup_nil⟩

/-- `find(uid)` -/
def find? (m : FlushTimes) (uid : String) : Option UInt64 := m.entries.lookup uid

/-- `emplace(uid, t)`: a no-op when `uid` already has an entry -/
def emplace (m : FlushTimes) (uid : String) (t : UInt64) : FlushTimes :=
  if h : uid ∈ m.entries.map Prod.fst then m
  else ⟨m.entries ++ [(uid, t)], by
    rw [List.map_append, List.nodup_append]
    exact ⟨m.nodup, List.nodup_singleton _, by simpa using h⟩⟩

/-- `old = find(uid); if (old == end || old < t) emplace(uid, t)`, the update `appendToSession`
and `importTimeoutList` both write -/
def emplaceIfLater (m : FlushTimes) (uid : String) (t : UInt64) : FlushTimes :=
  if (m.find? uid).all (· < t) then m.emplace uid t else m

theorem mem_emplace {m : FlushTimes} {uid u : String} {t : UInt64} :
    u ∈ (m.emplace uid t).entries.map Prod.fst ↔ u ∈ m.entries.map Prod.fst ∨ u = uid := by
  unfold emplace
  split
  · exact ⟨.inl, fun h => h.elim id (· ▸ ‹_›)⟩
  · simp

/-- the uids `flush(s)` finalizes: those whose deadline is below `s` -/
def due (m : FlushTimes) (s : UInt64) : List String := (m.entries.filter fun e => e.2 < s).map Prod.fst

/-- `erase(iter)` on the entry of `uid` -/
def erase (m : FlushTimes) (uid : String) : FlushTimes :=
  ⟨m.entries.filter (fun e => e.1 ≠ uid), (List.filter_sublist _).map _ |>.nodup m.nodup⟩

theorem mem_erase {m : FlushTimes} {uid u : String} :
    u ∈ (m.erase uid).entries.map Prod.fst ↔ u ∈ m.entries.map Prod.fst ∧ u ≠ uid := by
  simp only [erase, List.mem_map, List.mem_filter, decide_eq_true_eq]
  constructor
  · rintro ⟨e, ⟨he, hne⟩, rfl⟩; exact ⟨⟨e, he, rfl⟩, hne⟩
  · rintro ⟨⟨e, he, rfl⟩, hne⟩; exact ⟨e, ⟨he, hne⟩, rfl⟩

end FlushTimes

/-! ## LogJoin -/

/-- a `LogJoin` instance: the store seen through the caller's transaction, the deadline map and
the counters it increments -/
structure St where
  store : Store
  flushTimes : FlushTimes
  loglinesTotal : Nat
  loglinesInvalid : Nat
  joinedSessions : Nat

/-- a fresh instance over an empty store -/
def St.init : St := ⟨Store.empty, FlushTimes.empty, 0, 0, 0⟩

/-- the constructor's arguments, and the libstx functions the model leaves open -/
structure Cfg where
  /-- `LogJoinShard::testUID` -/
  shard : String → Bool
  /-- `dry_run_` -/
  dryRun : Bool
  /-- `URI::parseQueryString` -/
  parseQueryString : String → ParamList
  /-- its values are `std::string`s: shorter than 2^64 bytes when the query string is -/
  parseQueryString_fits : ∀ body, body.length < 2 ^ 64 → ∀ p ∈ parseQueryString body, p.2.length < 2 ^ 64
  /-- `msg::encode` of a `SessionEnvelope` -/
  encodeEnvelope : SessionEnvelope → String

/-- the list split at every `sep` -/
def splitOnChar (sep : Char) : List Char → List (List Char)
  | [] => [[]]
  | c :: cs =>
    if c = sep then [] :: splitOnChar sep cs
    else match splitOnChar sep cs with
      | w :: ws => (c :: w) :: ws
      | [] => [[c]]

theorem length_le_of_mem_splitOnChar {sep : Char} :
    ∀ {l w : List Char}, w ∈ splitOnChar sep l → w.length ≤ l.length
  | [], w, h => by simp [splitOnChar] at h; simp [h]
  | c :: cs, w, h => by
    unfold splitOnChar at h
    split_ifs at h
    · rcases List.mem_cons.1 h with rfl | h
      · simp
      · exact Nat.le_succ_of_le (length_le_of_mem_splitOnChar h)
    · split at h
      · rename_i w' ws hw
        rcases List.mem_cons.1 h with rfl | h
        · simpa using length_le_of_mem_splitOnChar (hw ▸ List.mem_cons_self w' ws)
        · exact Nat.le_succ_of_le (length_le_of_mem_splitOnChar (hw ▸ List.mem_cons_of_mem w' h))
      · simp at h; simp [h]

/-- Modelled from the spec: an `application/x-www-form-urlencoded` query string, split at '&'
into parameters and at the first '=' into name and value (percent-decoding left out) -/
def formParams (body : String) : ParamList :=
  ((splitOnChar '&' body.data).filter (· ≠ [])).map fun seg =>
    (⟨seg.takeWhile (· ≠ '=')⟩, ⟨(seg.dropWhile (· ≠ '=')).drop 1⟩)

theorem formParams_fits (body : String) (h : body.length < 2 ^ 64) :
    ∀ p ∈ formParams body, p.2.length < 2 ^ 64 := by
  intro p hp
  simp only [formParams, List.mem_map, List.mem_filter] at hp
  obtain ⟨seg, ⟨hseg, -⟩, rfl⟩ := hp
  have h1 := length_le_of_mem_splitOnChar hseg
  have h2 := (List.dropWhile_sublist (fun c => decide (c ≠ '=')) (l := seg)).length_le
  simp only [String.length, List.length_drop] at h h1 ⊢
  omega

/-- Modelled from the spec: the envelope's four fields as a length-prefixed message in the
spec's field order (protobuf wire format: a tag, then a length and the bytes, or a varint) -/
def encodeSessionEnvelope (e : SessionEnvelope) : String :=
  let field (tag : UInt64) (s : String) := appendVarUInt tag ++ appendVarUInt (UInt64.ofNat s.length) ++ s.data
  ⟨field 10 e.customer ++ field 18 e.sessionId ++ appendVarUInt 24 ++ appendVarUInt e.time ++
    field 34 e.sessionData⟩

/-- the configuration of the spec's scenarios: every uid in the shard, no dry run -/
def specCfg : Cfg := ⟨fun _ => true, false, formParams, formParams_fits, encodeSessionEnvelope⟩

/-- a call of the C++: the state after it, and its result or the exception it raised -/
abbrev M := EStateM Error St

/-- raise the exception of a failed pure computation -/
def liftExcept {α : Type} : Except Error α → M α
  | .ok a => pure a
  | .error e => throw e

section
variable {α β : Type}

@[simp] theorem M.bind_apply (x : M α) (f : α → M β) (s : St) :
    (x >>= f) s = match x s with
      | .ok a s' => f a s'
      | .error e s' => .error e s' := by
  show EStateM.bind x f s = _
  unfold EStateM.bind
  cases x s <;> rfl

@[simp] theorem M.tryCatch_apply (x : M α) (h : Error → M α) (s : St) :
    (tryCatch x h) s = match x s with
      | .ok a s' => .ok a s'
      | .error e s' => h e s' := by
  show EStateM.tryCatch x h s = _
  unfold EStateM.tryCatch
  cases x s <;> rfl

@[simp] theorem M.pure_apply (a : α) (s : St) : (pure a : M α) s = .ok a s := rfl

@[simp] theorem M.get_apply (s : St) : (get : M St) s = .ok s s := rfl

@[simp] theorem M.set_apply (s' s : St) : (set s' : M PUnit) s = .ok ⟨⟩ s' := rfl

@[simp] theorem M.modify_apply (f : St → St) (s : St) : (modify f : M PUnit) s = .ok ⟨⟩ (f s) := rfl

@[simp] theorem M.throw_apply (e : Error) (s : St) : (throw e : M α) s = .error e s := rfl

@[simp] theorem liftExcept_ok (a : α) (s : St) : liftExcept (.ok a) s = .ok a s := rfl

@[simp] theorem liftExcept_error (e : Error) (s : St) : (liftExcept (.error e) : M α) s = .error e s :=
  rfl

theorem liftExcept_eq_ok {r : Except Error α} {a : α} {s s' : St} (h : liftExcept r s = .ok a s') :
    r = .ok a ∧ s' = s := by
  cases r with
  | ok b => rw [liftExcept_ok] at h; cases h; exact ⟨rfl, rfl⟩
  | error e => rw [liftExcept_error] at h; cases h

theorem M.bind_ok {x : M α} {f : α → M β} {st st' : St} {b : β} (h : (x >>= f) st = .ok b st') :
    ∃ a st1, x st = .ok a st1 ∧ f a st1 = .ok b st' := by
  rw [M.bind_apply] at h
  cases hx : x st with
  | ok a st1 => rw [hx] at h; exact ⟨a, st1, rfl, h⟩
  | error e st1 => rw [hx] at h; cases h

/-- the state a call leaves, whether it returned or raised -/
def resultState : EStateM.Result Error St α → St
  | .ok _ s => s
  | .error _ s => s

/-- the value a call returned, if it did not raise -/
def returned : EStateM.Result Error St α → Option α
  | .ok a _ => some a
  | .error _ _ => none

theorem ok_of_returned {r : EStateM.Result Error St α} {a : α} (h : returned r = some a) :
    r = .ok a (resultState r) := by
  cases r <;> simp_all [returned, resultState]

/-- the exception a call raised, if any -/
def raised : EStateM.Result Error St α → Option Error
  | .ok _ _ => none
  | .error e _ => some e

end

/-! ## Relations a call keeps -/

section
variable {α β : Type} {R : St → St → Prop}

/-- every state the call leaves, returning or raising, is related by `R` to the state it started
from -/
def Keeps (R : St → St → Prop) (x : M α) : Prop := ∀ st, R st (resultState (x st))

theorem Keeps.pure (hrefl : ∀ s, R s s) (a : α) : Keeps R (pure a) := fun st => hrefl st

theorem Keeps.get (hrefl : ∀ s, R s s) : Keeps R get := fun st => hrefl st

theorem Keeps.throw (hrefl : ∀ s, R s s) (e : Error) : Keeps R (throw e : M α) := fun st => hrefl st

theorem Keeps.liftExcept (hrefl : ∀ s, R s s) (r : Except Error α) : Keeps R (liftExcept r) := by
  intro st; cases r <;> exact hrefl st

theorem Keeps.modify {f : St → St} (h : ∀ s, R s (f s)) : Keeps R (modify f) := fun st => h st

theorem Keeps.bind (htrans : ∀ ⦃a b c⦄, R a b → R b c → R a c) {x : M α} {f : α → M β}
    (hx : Keeps R x) (hf : ∀ a, Keeps R (f a)) : Keeps R (x >>= f) := by
  intro st
  have h := hx st
  rw [M.bind_apply]
  cases hr : x st with
  | ok a s' => rw [hr] at h; exact htrans h (hf a s')
  | error e s' => rw [hr] at h; exact h

theorem Keeps.tryCatch (htrans : ∀ ⦃a b c⦄, R a b → R b c → R a c) {x : M α} {h : Error → M α}
    (hx : Keeps R x) (hh : ∀ e, Keeps R (h e)) : Keeps R (tryCatch x h) := by
  intro st
  have h1 := hx st
  rw [M.tryCatch_apply]
  cases hr : x st with
  | ok a s' => rw [hr] at h1; exact h1
  | error e s' => rw [hr] at h1; exact htrans h1 (hh e s')

end

/-! ## Random identifiers -/

/-- the last `n` hex digits of `v`, most significant first -/
def hexDigits : Nat → Nat → List Char
  | 0, _ => []
  | n + 1, v => hexDigits n (v / 16) ++ [Nat.digitChar (v % 16)]

/-- Modelled from the spec: `Random::hex64`, the 16 hex digits of the 64-bit number drawn -/
def hex64 (r : UInt64) : String := ⟨hexDigits 16 r.toNat⟩

/-- Modelled from the spec: `Random::hex128`, the 32 hex digits of the 128-bit number drawn -/
def hex128 (r : BitVec 128) : String := ⟨hexDigits 32 r.toNat⟩

theorem digitChar_ne_tilde (d : Nat) (h : d < 16) : Nat.digitChar d ≠ '~' := by
  have := (by decide : ∀ i : Fin 16, Nat.digitChar i ≠ '~')
  exact this ⟨d, h⟩

theorem tilde_not_mem_hexDigits (n v : Nat) : '~' ∉ hexDigits n v := by
  induction n generalizing v with
  | zero => simp [hexDigits]
  | succ n ih =>
    simp only [hexDigits, List.mem_append, List.mem_singleton, not_or]
    exact ⟨ih _, (digitChar_ne_tilde _ (Nat.mod_lt _ (by omega))).symm⟩

theorem length_hexDigits (n v : Nat) : (hexDigits n v).length = n := by
  induction n generalizing v with
  | zero => rfl
  | succ n ih => simp [hexDigits, ih]

end EventQL.LogJoin
