import EventQL.Sql.JoinRefinement
/-!
The raises of `nested_loop_join.cc`: the bound on the joined table's rows in `execute`, and the
`switch`es on an input column's table index in the three cursors.

`execute` copies the joined table into memory before it dispatches, so the bound is checked for
every join type, and exactly: a table of `kMaxInMemoryRows` rows is already refused. The table
index is checked only where a column is read. The cartesian and inner cursors read the input map
for a pair of rows, so over an empty joined table they never read it and return false; the outer
cursor pads a base row that matched nothing with NULLs through the same `switch`, so it raises on
its first call whether or not there are joined rows.

Results:
- `execute_raises_iff`: `execute` raises, with the message that asks for an equi-join, exactly when
  the joined table has `kMaxInMemoryRows` rows or more, and returns a cursor exactly when it has
  fewer;
- `execute_invalid_table_index`: for an input map with a table index other than 0 and 1 and a base
  row, the first call of the cursor raises "invalid table index" for OUTER or a non-empty joined
  table, and otherwise returns false.
-/

namespace EventQL.Sql

open EventQL.LogJoin (Error)

variable {V : Type}

/-! ## The in-memory bound -/

/-- **The in-memory bound.** `execute` raises, with the runtime error that asks for an equi-join,
exactly when the joined table has `kMaxInMemoryRows` rows or more; it returns a cursor exactly when
the table has fewer. -/
theorem execute_raises_iff [Inhabited V] (nlj : NestedLoopJoin V) :
    (execute nlj = .error ⟨.runtimeError,
        "Nested Loop JOIN intermediate result set is too large, try using an equi-join instead."⟩ ↔
      kMaxInMemoryRows ≤ nlj.joinedTbl.length) ∧
    ((∃ c, execute nlj = .ok c) ↔ nlj.joinedTbl.length < kMaxInMemoryRows) := by
  have hbig (h : kMaxInMemoryRows ≤ nlj.joinedTbl.length) : execute nlj = .error ⟨.runtimeError,
      "Nested Loop JOIN intermediate result set is too large, try using an equi-join instead."⟩ := by
    have hmat := materialize_error [] nlj.joinedTbl (by rw [List.length_nil]; decide)
      (by rwa [List.length_nil, Nat.zero_add])
    simp only [execute, hmat]
    rfl
  have hsmall (h : nlj.joinedTbl.length < kMaxInMemoryRows) : ∃ c, execute nlj = .ok c :=
    (execute_cursor nlj h).imp fun _ hc => hc.1
  refine ⟨⟨fun h => Nat.le_of_not_lt fun hlt => ?_, hbig⟩,
    ⟨fun ⟨_, hc⟩ => Nat.lt_of_not_le fun hle => ?_, hsmall⟩⟩
  · obtain ⟨_, hc⟩ := hsmall hlt
    rw [hc] at h
    cases h
  · rw [hbig hle] at hc
    cases hc

/-! ## An input column of a third table -/

section TableIndex

theorem not_twoTables_tail {m : InputColumnRef} {ms : List InputColumnRef}
    (hm : m.tableIdx = 0 ∨ m.tableIdx = 1) (h : ¬ TwoTables (m :: ms)) : ¬ TwoTables ms :=
  fun hms => h fun m' hm' => (List.mem_cons.1 hm').elim (· ▸ hm) (hms m')

theorem not_twoTables_nil : TwoTables [] := fun _ h => absurd h (List.not_mem_nil _)

variable [Inhabited V]

/-- a table index other than 0 and 1 makes `fillInputBuf` raise, whatever the rows -/
theorem fillInputBuf_invalid (b j : List V) :
    ∀ {inputMap : List InputColumnRef}, ¬ TwoTables inputMap →
      fillInputBuf inputMap b j = .error ⟨.runtimeError, "invalid table index"⟩
  | [], hidx => absurd not_twoTables_nil hidx
  | ⟨0, _⟩ :: _, hidx | ⟨1, _⟩ :: _, hidx => by
    have ih := fillInputBuf_invalid b j (not_twoTables_tail (by simp) hidx)
    rw [fillInputBuf] at ih
    rw [fillInputBuf, List.mapM_cons, ih]
    rfl
  | ⟨_ + 2, _⟩ :: _, _ => rfl

/-- and so does the null padding of a buffer with one value per input column -/
theorem nullJoinedColumns_invalid :
    ∀ {inputMap : List InputColumnRef} {buf : List V}, ¬ TwoTables inputMap →
      buf.length = inputMap.length →
        nullJoinedColumns inputMap buf = .error ⟨.runtimeError, "invalid table index"⟩
  | [], _, hidx, _ => absurd not_twoTables_nil hidx
  | _ :: _, [], _, hlen => absurd hlen (by simp)
  | ⟨0, _⟩ :: _, _ :: _, hidx, hlen | ⟨1, _⟩ :: _, _ :: _, hidx, hlen => by
    have ih := nullJoinedColumns_invalid (not_twoTables_tail (by simp) hidx)
      (Nat.succ.inj (by simpa using hlen))
    rw [nullJoinedColumns] at ih
    rw [nullJoinedColumns, List.zip_cons_cons, List.mapM_cons, ih]
    rfl
  | ⟨_ + 2, _⟩ :: _, _ :: _, _, _ => rfl

variable {nlj : NestedLoopJoin V}

theorem cursorCall_start (pass : Pass V) (resetFound : Bool) (data : List (List V)) :
    cursorCall pass resetFound (JoinState.start nlj data) =
      fetchLoop pass resetFound data nlj.baseTbl false (List.replicate nlj.inputMap.length default) :=
  if_pos (Or.inl rfl)

theorem fetchLoop_joinedPass_nil (joinCond : Option (List V → Bool)) (rowLen : Nat) :
    ∀ (rows : List (List V)) (found : Bool) (buf : List V),
      fetchLoop (joinedPass nlj joinCond rowLen) false [] rows found buf = .ok none
  | [], _, _ => rfl
  | _ :: rows, found, buf => fetchLoop_joinedPass_nil joinCond rowLen rows found buf

theorem fetchLoop_joinedPass_invalid (hidx : ¬ TwoTables nlj.inputMap)
    (joinCond : Option (List V → Bool)) (rowLen : Nat) (b j : List V) (rows rest : List (List V))
    (found : Bool) (buf : List V) :
    fetchLoop (joinedPass nlj joinCond rowLen) false (j :: rest) (b :: rows) found buf =
      .error ⟨.runtimeError, "invalid table index"⟩ := by
  simp only [fetchLoop, joinedPass, fillInputBuf_invalid b j hidx]
  rfl

theorem fetchLoop_outerPass_invalid (hidx : ¬ TwoTables nlj.inputMap) (rowLen : Nat) (b : List V)
    (data rows : List (List V)) :
    fetchLoop (outerPass nlj rowLen) true data (b :: rows) false
        (List.replicate nlj.inputMap.length default) = .error ⟨.runtimeError, "invalid table index"⟩ := by
  cases data with
  | nil =>
    simp only [fetchLoop, outerPass, if_true, Bool.false_eq_true, if_false,
      nullJoinedColumns_invalid hidx (List.length_replicate _ _)]
    rfl
  | cons j rest =>
    simp only [fetchLoop, outerPass, fillInputBuf_invalid b j hidx]
    rfl

/-- **An input column of a third table.** For an input map with a table index other than 0 and 1,
below `kMaxInMemoryRows` joined rows and with a base row, the first call of the cursor `execute`
returns raises "invalid table index" for OUTER and for a non-empty joined table; otherwise (a
cartesian or inner cursor over no joined row) it returns false, the input map never read. -/
theorem execute_invalid_table_index (nlj : NestedLoopJoin V) (rowLen : Nat)
    (hJ : nlj.joinedTbl.length < kMaxInMemoryRows) (hidx : ¬ TwoTables nlj.inputMap)
    (hB : nlj.baseTbl ≠ []) :
    ∃ c, execute nlj = .ok c ∧
      (nlj.joinType = .OUTER ∨ nlj.joinedTbl ≠ [] →
        c.next rowLen c.state = .error ⟨.runtimeError, "invalid table index"⟩) ∧
      (nlj.joinType ≠ .OUTER → nlj.joinedTbl = [] → c.next rowLen c.state = .ok none) := by
  obtain ⟨c, hc, hst, houter, hinner, hcart⟩ := execute_cursor nlj hJ
  obtain ⟨b, rows, hrows⟩ := List.exists_cons_of_ne_nil hB
  have hjoined : ∀ joinCond, c.next = (fun rowLen => cursorCall (joinedPass nlj joinCond rowLen) false) →
      (nlj.joinedTbl ≠ [] → c.next rowLen c.state = .error ⟨.runtimeError, "invalid table index"⟩) ∧
        (nlj.joinedTbl = [] → c.next rowLen c.state = .ok none) := by
    intro joinCond hnext
    rw [hnext, hst]
    dsimp only
    rw [cursorCall_start, hrows]
    refine ⟨fun hne => ?_, fun h0 => by rw [h0]; exact fetchLoop_joinedPass_nil joinCond rowLen _ _ _⟩
    obtain ⟨j, rest, hj⟩ := List.exists_cons_of_ne_nil hne
    rw [hj]
    exact fetchLoop_joinedPass_invalid hidx joinCond rowLen b j rows rest _ _
  cases htype : nlj.joinType with
  | OUTER =>
    refine ⟨c, hc, fun _ => ?_, fun h => absurd rfl h⟩
    rw [houter htype, hst, executeOuterJoin, cursorCall_start, hrows]
    exact fetchLoop_outerPass_invalid hidx rowLen b _ rows
  | INNER =>
    cases hcond : nlj.joinCondExpr with
    | none =>
      obtain ⟨h1, h2⟩ := hjoined none (hcart (.inr ⟨htype, hcond⟩))
      exact ⟨c, hc, fun h => h1 (h.resolve_left (by simp)), fun _ => h2⟩
    | some joinCond =>
      obtain ⟨h1, h2⟩ := hjoined (some joinCond) (hinner joinCond htype hcond)
      exact ⟨c, hc, fun h => h1 (h.resolve_left (by simp)), fun _ => h2⟩
  | CARTESIAN =>
    obtain ⟨h1, h2⟩ := hjoined none (hcart (.inl htype))
    exact ⟨c, hc, fun h => h1 (h.resolve_left (by simp)), fun _ => h2⟩

/-- an inner join whose input map reads column 0 of a third table -/
def thirdTable : NestedLoopJoin Nat :=
  ⟨.INNER, [⟨2, 0⟩], [fun buf => buf.getD 0 0], some fun _ => true, none, [[1]], [[1]]⟩

theorem execute_invalid_table_index_thirdTable :
    thirdTable.joinedTbl.length < kMaxInMemoryRows ∧ ¬ TwoTables thirdTable.inputMap ∧
      thirdTable.baseTbl ≠ [] ∧
      ∃ c, execute thirdTable = .ok c ∧
        (thirdTable.joinType = .OUTER ∨ thirdTable.joinedTbl ≠ [] →
          c.next 1 c.state = .error ⟨.runtimeError, "invalid table index"⟩) ∧
        (thirdTable.joinType ≠ .OUTER → thirdTable.joinedTbl = [] → c.next 1 c.state = .ok none) :=
  ⟨by decide, by decide, by decide,
    execute_invalid_table_index thirdTable 1 (by decide) (by decide) (by decide)⟩

end TableIndex

end EventQL.Sql
