import Mathlib.Data.String.Basic
/-!
Basic vocabulary of the LogJoin sessionizer (`src/logjoin/LogJoin.cc`): byte strings, the
exceptions the source raises, the query-string parameter list and the pixel-parameter dictionary
that the `LogJoin` constructor registers.

A `std::string` is a Lean `String` with one `Char` per byte; `StringUtil::beginsWith` and
`StringUtil::endsWith` are list prefix and suffix tests on the bytes. A `UnixTime` is the
`uint64_t` count of microseconds it wraps, so its arithmetic is `UInt64` arithmetic (modulo 2^64).

Results: `getPixelParamName_getPixelParamID` (the dictionary is injective, so a registered name
survives the id round trip) and the `UInt64` bridges the later modules compute with.
-/

namespace EventQL.LogJoin

/-! ## Byte strings -/

/-- `StringUtil::beginsWith(str, prefix)` -/
def beginsWith (str pfx : String) : Bool := pfx.data.isPrefixOf str.data

/-- `StringUtil::endsWith(str, suffix)` -/
def endsWith (str sfx : String) : Bool := sfx.data.isSuffixOf str.data

theorem beginsWith_iff {str pfx : String} : beginsWith str pfx = true ↔ pfx.data <+: str.data :=
  List.isPrefixOf_iff_prefix

theorem endsWith_iff {str sfx : String} : endsWith str sfx = true ↔ sfx.data <:+ str.data :=
  List.isSuffixOf_iff_suffix

/-! ## Exceptions -/

/-- the exception classes the modelled code raises or lets through -/
inductive ErrorKind where
  | runtimeError
  | parseError
  | indexError
  | bufferOverflowError
  | invalidArgument
  | outOfRange
  deriving DecidableEq, Repr

/-- an exception: its class and its message (`RAISE`/`RAISEF` text in the source; library
exceptions, whose text is not under src/, carry an empty message) -/
structure Error where
  kind : ErrorKind
  message : String
  deriving DecidableEq, Repr

/-! ## Time -/

/-- `stx::kMicrosPerSecond` -/
def kMicrosPerSecond : UInt64 := 1000000

/-- Modelled from the spec: `kSessionIdleTimeoutSeconds` is declared in `LogJoin.h`, which is not
under src/; the spec gives the idle timeout as 30 minutes. -/
def kSessionIdleTimeoutSeconds : UInt64 := 1800

@[simp] theorem UInt64.toNat_ofNat' (n : Nat) : (UInt64.ofNat n).toNat = n % 2 ^ 64 := by
  simp [UInt64.ofNat, UInt64.toNat, BitVec.toNat_ofNat]

theorem UInt64.lt_iff_toNat {a b : UInt64} : a < b ↔ a.toNat < b.toNat := by
  rw [UInt64.lt_def, BitVec.lt_def]; rfl

/-- `URI::ParamList`: the (name, value) pairs of a query string, in order -/
abbrev ParamList := List (String × String)

/-- Modelled from the spec: `URI::getParam` (not under src/) finds the first parameter of the
given name. -/
def getParam (params : ParamList) (key : String) : Option String := params.lookup key

/-! ## Pixel parameter dictionary -/

/-- the `addPixelParamID` calls of the `LogJoin` constructor, in order -/
def pixelParamIDs : List (String × Nat) :=
  [("dw_ab", 1), ("l", 2), ("u_x", 3), ("u_y", 4), ("is", 5), ("pg", 6), ("q_cat1", 7),
   ("q_cat2", 8), ("q_cat3", 9), ("slrid", 10), ("i", 11), ("s", 12), ("ml", 13), ("adm", 14),
   ("lgn", 15), ("slr", 16), ("lng", 17), ("dwnid", 18), ("fnm", 19), ("r_url", 20),
   ("r_nm", 21), ("r_cpn", 22), ("x", 23), ("qx", 24), ("cs", 25), ("qt", 26),
   ("qstr~de", 100), ("qstr~pl", 101), ("qstr~en", 102), ("qstr~fr", 103), ("qstr~it", 104),
   ("qstr~nl", 105), ("qstr~es", 106)]

/-- `LogJoin::getPixelParamID` -/
def getPixelParamID (param : String) : Except Error Nat :=
  match pixelParamIDs.lookup param with
  | some id => .ok id
  | none => .error ⟨.indexError, "invalid pixel param: " ++ param⟩

/-- `LogJoin::getPixelParamName`; the id is a `uint32_t` -/
def getPixelParamName (id : Nat) : Except Error String :=
  match (pixelParamIDs.map Prod.swap).lookup id with
  | some param => .ok param
  | none => .error ⟨.indexError, "invalid pixel param: " ++ toString id⟩

/-- a name the constructor registers -/
def Registered (param : String) : Prop := param ∈ pixelParamIDs.map Prod.fst

instance : DecidablePred Registered := fun _ => inferInstanceAs (Decidable (_ ∈ _))

/-- every registration survives both lookups: the dictionary is injective both ways -/
theorem pixelParamIDs_lookups :
    ∀ p ∈ pixelParamIDs, pixelParamIDs.lookup p.1 = some p.2 ∧ p.2 < 2 ^ 32 ∧
      (pixelParamIDs.map Prod.swap).lookup p.2 = some p.1 := by
  decide

/-- an id `getPixelParamID` returns fits the `uint32_t` and maps back to the name -/
theorem getPixelParamID_ok {param : String} {id : Nat} (h : getPixelParamID param = .ok id) :
    id < 2 ^ 32 ∧ getPixelParamName id = .ok param := by
  unfold getPixelParamID at h
  split at h
  · rename_i hl
    cases h
    obtain ⟨l₁, l₂, hl, -⟩ := List.lookup_eq_some_iff.1 hl
    obtain ⟨-, h2, h3⟩ := pixelParamIDs_lookups (param, id) (by rw [hl]; simp)
    exact ⟨h2, by simp [getPixelParamName, h3]⟩
  · cases h

theorem getPixelParamID_registered {param : String} (h : Registered param) :
    ∃ id, getPixelParamID param = .ok id := by
  obtain ⟨p, hp, rfl⟩ := List.mem_map.1 h
  exact ⟨p.2, by simp [getPixelParamID, (pixelParamIDs_lookups p hp).1]⟩

/-- `getPixelParamID` raises only for a name the constructor does not register, with the
source's message -/
theorem getPixelParamID_error {param : String} {e : Error} (h : getPixelParamID param = .error e) :
    ¬ Registered param ∧ e = ⟨.indexError, "invalid pixel param: " ++ param⟩ := by
  unfold getPixelParamID at h
  split at h
  · cases h
  · rename_i hl
    cases h
    refine ⟨fun hr => ?_, rfl⟩
    obtain ⟨id, hid⟩ := getPixelParamID_registered hr
    simp [getPixelParamID, hl] at hid

end EventQL.LogJoin
