import EventQL.Sql.NestedLoopJoin
/-!
The cursors of `nested_loop_join.cc` against the declarative joins: called until it returns false,
the cursor `execute` returns yields exactly the rows of the join, in order.

`Drains next st rows` says that, called from `st` until it returns false, the cursor `next`
returns `rows`. A cursor yields a list when each call returns the head of what it has yet to yield
(`pending`), or false when nothing is left (`drains_of_step`). The three cursors share
`cursorCall`, so that simulation is proved once, for any pass that yields the rows of its base row
(`PassSpec`), and each pass is then checked against its own rows.

Results:
- `Drains.unique`: a cursor yields one sequence of rows;
- `cursorCall_drains`: a cursor whose pass meets `PassSpec` yields its pending rows;
- `execute_drains_innerJoin`: for fewer than `kMaxInMemoryRows` joined rows and an input map over
  tables 0 and 1, the inner cursor yields [select(b, j) | b ← B, j ← J, cond(b, j), where(b, j)],
  and the cartesian cursor (CARTESIAN, or INNER without a condition) the same list with
  cond = true;
- `execute_drains_outerJoin`: for a non-empty joined table the outer cursor yields the left outer
  join;
- `execute_outer_as_inner`: when every base row matches some joined row, the OUTER and the INNER
  cursor of the same join both yield the inner join;
- `execute_outer_empty`: for an empty joined table it yields, for each base row, the select
  expressions over the buffer it started with, every column NULL: no base column is read;
- `outer_empty_drops_base_columns`: so for the base row `[7]` it yields `[NULL]`, not `[7]`.
-/

namespace EventQL.Sql

open EventQL.LogJoin (Error)

/-! ## Draining a cursor -/

/-- `rows` are what the cursor `next` returns from `st` when it is called until it returns
false -/
inductive Drains {σ R : Type} (next : σ → Except Error (Option (R × σ))) : σ → List R → Prop
  | done {st : σ} : next st = .ok none → Drains next st []
  | yield {st st' : σ} {row : R} {rows : List R} :
      next st = .ok (some (row, st')) → Drains next st' rows → Drains next st (row :: rows)

section Drains

variable {σ R : Type} {next : σ → Except Error (Option (R × σ))}

/-- a cursor yields one sequence of rows -/
theorem Drains.unique {st : σ} {rows rows' : List R} (h : Drains next st rows)
    (h' : Drains next st rows') : rows = rows' := by
  induction h generalizing rows' with
  | done hn =>
    cases h' with
    | done _ => rfl
    | yield hy _ => rw [hn] at hy; cases hy
  | yield hy _ ih =>
    cases h' with
    | done hn => rw [hy] at hn; cases hn
    | yield hy' hr' =>
      rw [hy] at hy'
      cases hy'
      exact congrArg _ (ih hr')

/-- **Simulation.** When every call from a state of the invariant returns false with nothing
pending, or returns the head of what is pending and a state of the invariant with the rest
pending, the cursor yields what is pending. -/
theorem drains_of_step (Inv : σ → Prop) (pending : σ → List R)
    (hstep : ∀ st, Inv st → (next st = .ok none ∧ pending st = []) ∨
      ∃ row st', next st = .ok (some (row, st')) ∧ Inv st' ∧ pending st = row :: pending st') :
    ∀ st, Inv st → Drains next st (pending st) := by
  suffices ∀ n st, (pending st).length = n → Inv st → Drains next st (pending st) from
    fun st => this _ st rfl
  intro n
  induction n with
  | zero =>
    intro st hn hi
    rcases hstep st hi with ⟨hnone, hp⟩ | ⟨row, st', -, -, hp⟩
    · rw [hp]; exact .done hnone
    · rw [hp] at hn; cases hn
  | succ n ih =>
    intro st hn hi
    rcases hstep st hi with ⟨-, hp⟩ | ⟨row, st', h, hi', hp⟩
    · rw [hp] at hn; cases hn
    · rw [hp] at hn ⊢
      exact .yield h (ih st' (Nat.succ.inj hn) hi')

end Drains

variable {V : Type}

/-! ## The input buffer -/

section Buffer

variable [Inhabited V]

/-- the input buffer for the base row `b` and the joined row `j`: every input column bound -/
def inputRow (inputMap : List InputColumnRef) (b j : List V) : List V :=
  inputMap.map fun m => if m.tableIdx = 0 then b.getD m.columnIdx default else j.getD m.columnIdx default

/-- the input buffer for the base row `b` and no joined row: the table-1 columns NULL -/
def nullRow (inputMap : List InputColumnRef) (b : List V) : List V :=
  inputMap.map fun m => if m.tableIdx = 0 then b.getD m.columnIdx default else default

/-- an input map over the base table (0) and the joined table (1) -/
def TwoTables (inputMap : List InputColumnRef) : Prop := ∀ m ∈ inputMap, m.tableIdx = 0 ∨ m.tableIdx = 1

instance (inputMap : List InputColumnRef) : Decidable (TwoTables inputMap) :=
  inferInstanceAs (Decidable (∀ m ∈ inputMap, m.tableIdx = 0 ∨ m.tableIdx = 1))

/-- over two tables, `fillInputBuf` raises nothing and binds every input column -/
theorem fillInputBuf_eq (b j : List V) :
    ∀ {inputMap : List InputColumnRef}, TwoTables inputMap →
      fillInputBuf inputMap b j = .ok (inputRow inputMap b j)
  | [], _ => rfl
  | m :: ms, hidx => by
    have ih := fillInputBuf_eq b j fun m' hm' => hidx m' (List.mem_cons_of_mem _ hm')
    rw [fillInputBuf] at ih
    rw [fillInputBuf, List.mapM_cons, ih]
    rcases hidx m (List.mem_cons_self _ _) with h | h <;> simp [readColumn, inputRow, h] <;> rfl

theorem nullJoinedColumns_inputRow (b j : List V) :
    ∀ {inputMap : List InputColumnRef}, TwoTables inputMap →
      nullJoinedColumns inputMap (inputRow inputMap b j) = .ok (nullRow inputMap b)
  | [], _ => rfl
  | m :: ms, hidx => by
    have ih := nullJoinedColumns_inputRow b j fun m' hm' => hidx m' (List.mem_cons_of_mem _ hm')
    rw [nullJoinedColumns] at ih
    rw [nullJoinedColumns, inputRow, List.map_cons, List.zip_cons_cons, List.mapM_cons, ← inputRow, ih]
    rcases hidx m (List.mem_cons_self _ _) with h | h <;> simp [nullColumn, nullRow, h] <;> rfl

theorem nullJoinedColumns_replicate :
    ∀ {inputMap : List InputColumnRef}, TwoTables inputMap →
      nullJoinedColumns inputMap (List.replicate inputMap.length (default : V)) =
        .ok (List.replicate inputMap.length default)
  | [], _ => rfl
  | m :: ms, hidx => by
    have ih := nullJoinedColumns_replicate fun m' hm' => hidx m' (List.mem_cons_of_mem _ hm')
    rw [nullJoinedColumns] at ih
    rw [nullJoinedColumns, List.length_cons, List.replicate_succ, List.zip_cons_cons, List.mapM_cons, ih]
    rcases hidx m (List.mem_cons_self _ _) with h | h <;> simp [nullColumn, h] <;> rfl

end Buffer

/-! ## The loop the cursors share -/

section Cursor

variable (J : List (List V)) (rowsOf : List V → List (List V) → Bool → List (List V))

/-- the rows left for the base row `b` of a cursor at `joined_tbl_pos_ = pos`: none when its next
call fetches the next base row -/
def rowsLeft (b : List V) (pos : Nat) (found : Bool) : List (List V) :=
  if pos = 0 ∨ pos = J.length then [] else rowsOf b (J.drop pos) found

/-- the rows a cursor has yet to yield: those left for its base row, then those of the base rows
its base cursor has yet to return -/
def pending (st : JoinState V) : List (List V) :=
  rowsLeft J rowsOf st.baseTblRow st.joinedTblPos st.joinedTblRowFound ++
    st.baseRows.flatMap fun b => rowsOf b J false

/-- what a pass must do for its cursor to yield `rowsOf`: from a fetched base row, or from a
position inside the joined rows, and from a buffer of `Buf`, either find nothing left to yield and
fetch, or emit the first row `rowsOf` gives and leave the rest, with a buffer of `Buf` -/
def PassSpec (Buf : List V → Prop) (pass : Pass V) : Prop :=
  ∀ b pos found buf, Buf buf → (pos = 0 ∨ pos < J.length) →
    (∃ found' buf', pass b (J.drop pos) pos found buf = .ok (.fetch found' buf') ∧ Buf buf' ∧
        rowsOf b (J.drop pos) found = []) ∨
      ∃ row pos' found' buf', pass b (J.drop pos) pos found buf = .ok (.emit row pos' found' buf') ∧
        Buf buf' ∧ pos' ≤ J.length ∧ rowsOf b (J.drop pos) found = row :: rowsLeft J rowsOf b pos' found'

/-- the states a cursor over the joined rows `J` keeps: its position within them and a buffer of
`Buf` -/
def CursorInv (Buf : List V → Prop) (st : JoinState V) : Prop :=
  st.joinedTblData = J ∧ st.joinedTblPos ≤ J.length ∧ Buf st.inputBuf

variable {J rowsOf} {Buf : List V → Prop} {pass : Pass V} {resetFound : Bool}

/-- the iterations that fetch base rows: false when no base row has a row left, and otherwise
the first such row's first row -/
theorem fetchLoop_step (hpass : PassSpec J rowsOf Buf pass)
    (hreset : ∀ b found, rowsOf b J (if resetFound then false else found) = rowsOf b J false) :
    ∀ (baseRows : List (List V)) (found : Bool) (buf : List V), Buf buf →
      (fetchLoop pass resetFound J baseRows found buf = .ok none ∧
          baseRows.flatMap (fun b => rowsOf b J false) = []) ∨
        ∃ row st', fetchLoop pass resetFound J baseRows found buf = .ok (some (row, st')) ∧
          CursorInv J Buf st' ∧ baseRows.flatMap (fun b => rowsOf b J false) = row :: pending J rowsOf st'
  | [], _, _, _ => .inl ⟨rfl, rfl⟩
  | b :: baseRows, found, buf, hbuf => by
    rw [List.flatMap_cons, ← hreset b found]
    rcases hpass b 0 (if resetFound then false else found) buf hbuf (.inl rfl) with
      ⟨found', buf', h, hbuf', hnil⟩ | ⟨row, pos', found', buf', h, hbuf', hle, hrows⟩
    · rw [List.drop_zero] at h hnil
      rw [hnil, List.nil_append]
      rcases fetchLoop_step hpass hreset baseRows found' buf' hbuf' with
        ⟨hf, hn⟩ | ⟨row, st', hf, hi, hp⟩
      · exact .inl ⟨by simp only [fetchLoop, h, hf], hn⟩
      · exact .inr ⟨row, st', by simp only [fetchLoop, h, hf], hi, hp⟩
    · rw [List.drop_zero] at h hrows
      refine .inr ⟨row, ⟨baseRows, b, J, pos', buf', found'⟩, by simp only [fetchLoop, h],
        ⟨rfl, hle, hbuf'⟩, ?_⟩
      rw [hrows]
      rfl

/-- **One call.** From a state of `CursorInv`, a call of the cursor returns false with nothing
pending, or returns the first pending row and leaves the rest. -/
theorem cursorCall_step (hpass : PassSpec J rowsOf Buf pass)
    (hreset : ∀ b found, rowsOf b J (if resetFound then false else found) = rowsOf b J false)
    (st : JoinState V) (hst : CursorInv J Buf st) :
    (cursorCall pass resetFound st = .ok none ∧ pending J rowsOf st = []) ∨
      ∃ row st', cursorCall pass resetFound st = .ok (some (row, st')) ∧ CursorInv J Buf st' ∧
        pending J rowsOf st = row :: pending J rowsOf st' := by
  obtain ⟨hJ, hle, hbuf⟩ := hst
  rw [cursorCall, hJ, pending, rowsLeft]
  by_cases hfetch : st.joinedTblPos = 0 ∨ st.joinedTblPos = J.length
  · rw [if_pos hfetch, if_pos hfetch, List.nil_append]
    exact fetchLoop_step hpass hreset _ _ _ hbuf
  have hlt : st.joinedTblPos < J.length := lt_of_le_of_ne hle (not_or.1 hfetch).2
  rw [if_neg hfetch, if_neg hfetch]
  rcases hpass st.baseTblRow st.joinedTblPos st.joinedTblRowFound st.inputBuf hbuf (.inr hlt) with
    ⟨found', buf', h, hbuf', hnil⟩ | ⟨row, pos', found', buf', h, hbuf', hle', hrows⟩
  · rw [hnil, List.nil_append]
    simp only [h]
    exact fetchLoop_step hpass hreset _ _ _ hbuf'
  · refine .inr ⟨row, ⟨st.baseRows, st.baseTblRow, J, pos', buf', found'⟩, by simp only [h],
      ⟨rfl, hle', hbuf'⟩, ?_⟩
    rw [hrows]
    rfl

/-- **The shared loop.** A cursor whose pass meets `PassSpec` yields, from a state of `CursorInv`,
exactly its pending rows. -/
theorem cursorCall_drains (hpass : PassSpec J rowsOf Buf pass)
    (hreset : ∀ b found, rowsOf b J (if resetFound then false else found) = rowsOf b J false)
    (st : JoinState V) (hst : CursorInv J Buf st) :
    Drains (cursorCall pass resetFound) st (pending J rowsOf st) :=
  drains_of_step (CursorInv J Buf) (pending J rowsOf) (cursorCall_step hpass hreset) st hst

theorem rowsLeft_of_ne_zero (hnil : ∀ b found, rowsOf b [] found = []) {pos : Nat} (hpos : pos ≠ 0)
    (b : List V) (found : Bool) : rowsLeft J rowsOf b pos found = rowsOf b (J.drop pos) found := by
  unfold rowsLeft
  split_ifs with h
  · rw [h.resolve_left hpos, List.drop_length, hnil]
  · rfl

/-- **From the start.** From the state `execute` builds, whose buffer of NULLs is one of `Buf`, a
cursor whose pass meets `PassSpec` yields the rows of every base row in turn. -/
theorem cursorCall_drains_start [Inhabited V] (nlj : NestedLoopJoin V) (hpass : PassSpec J rowsOf Buf pass)
    (hreset : ∀ b found, rowsOf b J (if resetFound then false else found) = rowsOf b J false)
    (hbuf : Buf (List.replicate nlj.inputMap.length default)) :
    Drains (cursorCall pass resetFound) (JoinState.start nlj J)
      (nlj.baseTbl.flatMap fun b => rowsOf b J false) :=
  -- at position 0 no row of a current base row is left: `pending` is the rows of the base rows
  cursorCall_drains hpass hreset (JoinState.start nlj J) ⟨rfl, Nat.zero_le _, hbuf⟩

end Cursor

/-! ## The passes -/

section Passes

variable [Inhabited V] (nlj : NestedLoopJoin V) (rowLen : Nat)

/-- the rows the cartesian and inner cursors yield for the base row `b` from the joined rows
`rest`: those that pass the join condition and the WHERE predicate, through the select
expressions -/
def joinedRows (joinCond : Option (List V → Bool)) (b : List V) (rest : List (List V)) (_ : Bool) :
    List (List V) :=
  (rest.filter fun j => passes joinCond (inputRow nlj.inputMap b j) &&
      passes nlj.whereExpr (inputRow nlj.inputMap b j)).map
    fun j => evalSelect nlj.selectExprs rowLen (inputRow nlj.inputMap b j)

/-- the rows the outer cursor yields for the base row `b` from the joined rows `rest`, `found`
telling whether an earlier joined row passed the join condition: the matches the WHERE predicate
passes, through the select expressions, and then, when no joined row matched, the row of no joined
row if the WHERE predicate passes it -/
def outerRows (joinCond : List V → Bool) (b : List V) (rest : List (List V)) (found : Bool) :
    List (List V) :=
  (rest.filter fun j => joinCond (inputRow nlj.inputMap b j) &&
      passes nlj.whereExpr (inputRow nlj.inputMap b j)).map
    (fun j => evalSelect nlj.selectExprs rowLen (inputRow nlj.inputMap b j)) ++
  if !found && rest.all (fun j => !joinCond (inputRow nlj.inputMap b j)) &&
      passes nlj.whereExpr (nullRow nlj.inputMap b) then
    [evalSelect nlj.selectExprs rowLen (nullRow nlj.inputMap b)]
  else []

theorem joinedRows_cons (joinCond : Option (List V → Bool)) (b j : List V) (rest : List (List V))
    (found : Bool) :
    joinedRows nlj rowLen joinCond b (j :: rest) found =
      (if passes joinCond (inputRow nlj.inputMap b j) && passes nlj.whereExpr (inputRow nlj.inputMap b j)
        then [evalSelect nlj.selectExprs rowLen (inputRow nlj.inputMap b j)] else []) ++
      joinedRows nlj rowLen joinCond b rest found := by
  by_cases hp : (passes joinCond (inputRow nlj.inputMap b j) &&
    passes nlj.whereExpr (inputRow nlj.inputMap b j)) = true <;> simp [joinedRows, List.filter_cons, hp]

theorem outerRows_cons (joinCond : List V → Bool) (b j : List V) (rest : List (List V)) (found : Bool) :
    outerRows nlj rowLen joinCond b (j :: rest) found =
      (if joinCond (inputRow nlj.inputMap b j) && passes nlj.whereExpr (inputRow nlj.inputMap b j)
        then [evalSelect nlj.selectExprs rowLen (inputRow nlj.inputMap b j)] else []) ++
      outerRows nlj rowLen joinCond b rest (found || joinCond (inputRow nlj.inputMap b j)) := by
  unfold outerRows
  cases hc : joinCond (inputRow nlj.inputMap b j) <;>
    cases hw : passes nlj.whereExpr (inputRow nlj.inputMap b j) <;> simp [List.filter_cons, hc, hw]

theorem outerRows_nil (joinCond : List V → Bool) (b : List V) (found : Bool) :
    outerRows nlj rowLen joinCond b [] found =
      if !found && passes nlj.whereExpr (nullRow nlj.inputMap b)
      then [evalSelect nlj.selectExprs rowLen (nullRow nlj.inputMap b)] else [] := by
  simp [outerRows]

theorem outerPass_nil_false (b : List V) (pos : Nat) {buf buf' : List V}
    (h : nullJoinedColumns nlj.inputMap buf = .ok buf') :
    outerPass nlj rowLen b [] pos false buf =
      if passes nlj.whereExpr buf' then .ok (.emit (evalSelect nlj.selectExprs rowLen buf') pos false buf')
      else .ok (.fetch false buf') := by
  simp only [outerPass, h, bind, Except.bind]
  rfl

/-- the rows the outer cursor yields for a base row over an empty joined table: the select
expressions over the buffer it started with, every column NULL, if the WHERE predicate passes it -/
def staleRows (_ : List V) (_ : List (List V)) (found : Bool) : List (List V) :=
  if found then []
  else ([List.replicate nlj.inputMap.length default].filter (passes nlj.whereExpr)).map
    (evalSelect nlj.selectExprs rowLen)

variable {nlj} (hidx : TwoTables nlj.inputMap)
include hidx

theorem joinedPass_cons (joinCond : Option (List V → Bool)) (b j : List V) (rest : List (List V))
    (pos : Nat) (found : Bool) (buf : List V) :
    joinedPass nlj joinCond rowLen b (j :: rest) pos found buf =
      if passes joinCond (inputRow nlj.inputMap b j) && passes nlj.whereExpr (inputRow nlj.inputMap b j)
      then .ok (.emit (evalSelect nlj.selectExprs rowLen (inputRow nlj.inputMap b j)) (pos + 1) found
        (inputRow nlj.inputMap b j))
      else joinedPass nlj joinCond rowLen b rest (pos + 1) found (inputRow nlj.inputMap b j) := by
  simp only [joinedPass, fillInputBuf_eq b j hidx, bind, Except.bind]

theorem outerPass_cons {joinCond : List V → Bool} (hcond : nlj.joinCondExpr = some joinCond)
    (b j : List V) (rest : List (List V)) (pos : Nat) (found : Bool) (buf : List V) :
    outerPass nlj rowLen b (j :: rest) pos found buf =
      if joinCond (inputRow nlj.inputMap b j) && passes nlj.whereExpr (inputRow nlj.inputMap b j)
      then .ok (.emit (evalSelect nlj.selectExprs rowLen (inputRow nlj.inputMap b j)) (pos + 1) true
        (inputRow nlj.inputMap b j))
      else outerPass nlj rowLen b rest (pos + 1) (found || joinCond (inputRow nlj.inputMap b j))
        (inputRow nlj.inputMap b j) := by
  simp only [outerPass, fillInputBuf_eq b j hidx, hcond, condGet, bind, Except.bind]
  cases joinCond (inputRow nlj.inputMap b j) <;> cases passes nlj.whereExpr (inputRow nlj.inputMap b j) <;>
    simp

/-- the `while` loop of the cartesian and inner cursors emits the first of its rows, after `k + 1`
joined rows, or fetches when there is none -/
theorem joinedPass_rows (joinCond : Option (List V → Bool)) (b : List V) :
    ∀ (rest : List (List V)) (pos : Nat) (found : Bool) (buf : List V),
      (∃ buf', joinedPass nlj joinCond rowLen b rest pos found buf = .ok (.fetch found buf') ∧
          joinedRows nlj rowLen joinCond b rest found = []) ∨
        ∃ row k buf', joinedPass nlj joinCond rowLen b rest pos found buf =
            .ok (.emit row (pos + k + 1) found buf') ∧ k < rest.length ∧
          joinedRows nlj rowLen joinCond b rest found =
            row :: joinedRows nlj rowLen joinCond b (rest.drop (k + 1)) found
  | [], _, _, buf => .inl ⟨buf, rfl, rfl⟩
  | j :: rest, pos, found, buf => by
    rw [joinedPass_cons rowLen hidx, joinedRows_cons]
    split_ifs
    · exact .inr ⟨_, 0, _, rfl, Nat.zero_lt_succ _, rfl⟩
    · rcases joinedPass_rows joinCond b rest (pos + 1) found (inputRow nlj.inputMap b j) with
        h | ⟨row, k, buf', h, hk, hr⟩
      · exact .inl h
      · exact .inr ⟨row, k + 1, buf', by rw [h, Nat.add_right_comm pos 1 k, ← Nat.add_assoc pos k 1], by simp [hk], hr⟩

/-- the cartesian and inner cursors' pass yields their rows -/
theorem joinedPass_spec (joinCond : Option (List V → Bool)) :
    PassSpec nlj.joinedTbl (joinedRows nlj rowLen joinCond) (fun _ => True)
      (joinedPass nlj joinCond rowLen) := by
  intro b pos found buf _ _
  rcases joinedPass_rows rowLen hidx joinCond b (nlj.joinedTbl.drop pos) pos found buf with
    ⟨buf', h, hnil⟩ | ⟨row, k, buf', h, hk, hr⟩
  · exact .inl ⟨found, buf', h, trivial, hnil⟩
  · refine .inr ⟨row, pos + k + 1, found, buf', h, trivial, by rw [List.length_drop] at hk; omega, ?_⟩
    rw [hr, rowsLeft_of_ne_zero (fun _ _ => rfl) (by omega), List.drop_drop, ← Nat.add_assoc]

/-- the outer cursor's iterations on a base row emit the first of its rows, after `k` joined rows,
or fetch when there is none. At the end of the joined rows the buffer must pad to the row of no
joined row. -/
theorem outerPass_rows {joinCond : List V → Bool} (hcond : nlj.joinCondExpr = some joinCond)
    (b : List V) :
    ∀ (rest : List (List V)) (pos : Nat) (found : Bool) (buf : List V),
      (rest = [] → nullJoinedColumns nlj.inputMap buf = .ok (nullRow nlj.inputMap b)) →
      (∃ found' buf', outerPass nlj rowLen b rest pos found buf = .ok (.fetch found' buf') ∧
          outerRows nlj rowLen joinCond b rest found = []) ∨
        ∃ row k found' buf', outerPass nlj rowLen b rest pos found buf =
            .ok (.emit row (pos + k) found' buf') ∧ k ≤ rest.length ∧ (0 < k ∨ rest = []) ∧
          outerRows nlj rowLen joinCond b rest found =
            row :: if k = rest.length then [] else outerRows nlj rowLen joinCond b (rest.drop k) found'
  | [], _, true, buf, _ => .inl ⟨true, buf, rfl, rfl⟩
  | [], pos, false, _, hbuf => by
    rw [outerPass_nil_false nlj rowLen b pos (hbuf rfl), outerRows_nil]
    by_cases hw : passes nlj.whereExpr (nullRow nlj.inputMap b) = true
    · exact .inr ⟨_, 0, false, _, if_pos hw, le_refl _, .inr rfl, by simp [hw]⟩
    · exact .inl ⟨false, _, if_neg hw, by simp [hw]⟩
  | j :: rest, pos, found, buf, _ => by
    rw [outerPass_cons rowLen hidx hcond, outerRows_cons]
    by_cases hm : (joinCond (inputRow nlj.inputMap b j) &&
        passes nlj.whereExpr (inputRow nlj.inputMap b j)) = true
    · have hc : joinCond (inputRow nlj.inputMap b j) = true := (Bool.and_eq_true _ _ ▸ hm).1
      refine .inr ⟨_, 1, true, _, if_pos hm, by simp, .inl Nat.one_pos, ?_⟩
      rw [if_pos hm, hc, Bool.or_true, List.singleton_append, List.length_cons]
      split_ifs with hend
      · rw [List.length_eq_zero.1 (by omega : rest.length = 0)]; rfl
      · rfl
    · rw [if_neg hm, if_neg hm, List.nil_append]
      rcases outerPass_rows hcond b rest (pos + 1) _ _ fun _ => nullJoinedColumns_inputRow b j hidx with
        h | ⟨row, k, found', buf', h, hk, -, hr⟩
      · exact .inl h
      · refine .inr ⟨row, k + 1, found', buf', by rw [h, Nat.add_assoc, Nat.add_comm 1 k],
          by simp [hk], .inl k.succ_pos, ?_⟩
        simp only [hr, List.length_cons, Nat.add_right_cancel_iff, List.drop_succ_cons]

/-- over a non-empty joined table, the outer cursor's pass yields its rows -/
theorem outerPass_spec {joinCond : List V → Bool} (hcond : nlj.joinCondExpr = some joinCond)
    (hJ : nlj.joinedTbl ≠ []) :
    PassSpec nlj.joinedTbl (outerRows nlj rowLen joinCond) (fun _ => True) (outerPass nlj rowLen) := by
  intro b pos found buf _ hpos
  have hrest : nlj.joinedTbl.drop pos ≠ [] := by
    rcases hpos with rfl | h
    · rwa [List.drop_zero]
    · exact List.ne_nil_of_length_pos (by rw [List.length_drop]; omega)
  rcases outerPass_rows rowLen hidx hcond b _ pos found buf (absurd · hrest) with
    ⟨found', buf', h, hnil⟩ | ⟨row, k, found', buf', h, hk, hk0, hr⟩
  · exact .inl ⟨found', buf', h, trivial, hnil⟩
  · have hk0 := hk0.resolve_right hrest
    rw [List.length_drop] at hk hr
    refine .inr ⟨row, pos + k, found', buf', h, trivial, by omega, ?_⟩
    rw [hr, rowsLeft, List.drop_drop]
    by_cases hend : k = nlj.joinedTbl.length - pos
    · rw [if_pos hend, if_pos (.inr (by omega))]
    · rw [if_neg hend, if_neg (by omega)]

/-- over an empty joined table, the outer cursor's pass pads the buffer it started with -/
theorem outerPass_spec_empty :
    PassSpec [] (staleRows nlj rowLen) (· = List.replicate nlj.inputMap.length default)
      (outerPass nlj rowLen) := by
  rintro b pos (_ | _) _ rfl hpos <;> obtain rfl : pos = 0 := by simpa using hpos
  · rw [List.drop_nil, outerPass_nil_false nlj rowLen b 0 (nullJoinedColumns_replicate hidx)]
    by_cases hw : passes nlj.whereExpr (List.replicate nlj.inputMap.length default) = true
    · exact .inr ⟨_, 0, false, _, if_pos hw, rfl, le_refl _, by simp [staleRows, rowsLeft, hw]⟩
    · exact .inl ⟨false, _, if_neg hw, rfl, by simp [staleRows, hw]⟩
  · exact .inl ⟨true, _, rfl, rfl, rfl⟩

end Passes

/-! ## `execute` and the joins -/

section Execute

/-- below `kMaxInMemoryRows` rows, `execute`'s copy of the joined table raises nothing -/
theorem materialize_ok : ∀ (data rest : List (List V)),
    data.length + rest.length < kMaxInMemoryRows → materialize data rest = .ok (data ++ rest)
  | data, [], _ => by rw [materialize, List.append_nil]
  | data, row :: rest, h => by
    have hlen : (data ++ [row]).length + rest.length < kMaxInMemoryRows := by
      rw [List.length_append, List.length_singleton]; rw [List.length_cons] at h; omega
    rw [materialize, if_neg (by omega), materialize_ok _ _ hlen, List.append_assoc,
      List.singleton_append]

/-- from `kMaxInMemoryRows` rows on, it raises -/
theorem materialize_error : ∀ (data rest : List (List V)), data.length < kMaxInMemoryRows →
    kMaxInMemoryRows ≤ data.length + rest.length →
      materialize data rest = .error ⟨.runtimeError,
        "Nested Loop JOIN intermediate result set is too large, try using an equi-join instead."⟩
  | data, [], h, h' => absurd h' (by rw [List.length_nil, Nat.add_zero]; omega)
  | data, row :: rest, _, h' => by
    rw [materialize]
    split_ifs with hmax
    · rfl
    · rw [List.length_append, List.length_singleton] at hmax
      exact materialize_error _ rest (by rw [List.length_append, List.length_singleton]; omega)
        (by rw [List.length_append, List.length_singleton]; rw [List.length_cons] at h'; omega)

variable [Inhabited V]

/-- `execute`'s dispatch: below `kMaxInMemoryRows` joined rows it returns, from the state with every
joined row in memory, the outer cursor for OUTER, the inner one for INNER with a condition, and the
cartesian one for CARTESIAN and INNER without one -/
theorem execute_cursor (nlj : NestedLoopJoin V) (hJ : nlj.joinedTbl.length < kMaxInMemoryRows) :
    ∃ c, execute nlj = .ok c ∧ c.state = JoinState.start nlj nlj.joinedTbl ∧
      (nlj.joinType = .OUTER → c.next = executeOuterJoin nlj) ∧
      (∀ joinCond, nlj.joinType = .INNER → nlj.joinCondExpr = some joinCond →
        c.next = executeInnerJoin nlj joinCond) ∧
      (nlj.joinType = .CARTESIAN ∨ nlj.joinType = .INNER ∧ nlj.joinCondExpr = none →
        c.next = executeCartesianJoin nlj) := by
  have hmat : materialize [] nlj.joinedTbl = .ok nlj.joinedTbl :=
    materialize_ok [] _ (by rwa [List.length_nil, Nat.zero_add])
  simp only [execute, hmat, bind, Except.bind]
  cases htype : nlj.joinType <;> cases hcond : nlj.joinCondExpr <;> simp

/-- the inner join `[select(b, j) | b ← B, j ← J, cond(b, j), where(b, j)]`, the input columns of
`(b, j)` bound by the input map -/
def innerJoin (nlj : NestedLoopJoin V) (rowLen : Nat) (joinCond : List V → Bool) : List (List V) :=
  nlj.baseTbl.flatMap fun b =>
    (nlj.joinedTbl.filter fun j => joinCond (inputRow nlj.inputMap b j) &&
        passes nlj.whereExpr (inputRow nlj.inputMap b j)).map
      fun j => evalSelect nlj.selectExprs rowLen (inputRow nlj.inputMap b j)

/-- the left outer join: for each base row `b`, `[select(b, j) | j ← J, cond(b, j), where(b, j)]`
when some joined row passes the join condition, and otherwise `[select(b, NULL) | where(b, NULL)]` -/
def outerJoin (nlj : NestedLoopJoin V) (rowLen : Nat) (joinCond : List V → Bool) : List (List V) :=
  nlj.baseTbl.flatMap fun b =>
    if nlj.joinedTbl.any fun j => joinCond (inputRow nlj.inputMap b j) then
      (nlj.joinedTbl.filter fun j => joinCond (inputRow nlj.inputMap b j) &&
          passes nlj.whereExpr (inputRow nlj.inputMap b j)).map
        fun j => evalSelect nlj.selectExprs rowLen (inputRow nlj.inputMap b j)
    else ([nullRow nlj.inputMap b].filter (passes nlj.whereExpr)).map (evalSelect nlj.selectExprs rowLen)

/-- the outer join is, base row by base row, the outer cursor's rows -/
theorem outerJoin_eq (nlj : NestedLoopJoin V) (rowLen : Nat) (joinCond : List V → Bool) :
    outerJoin nlj rowLen joinCond =
      nlj.baseTbl.flatMap fun b => outerRows nlj rowLen joinCond b nlj.joinedTbl false := by
  unfold outerJoin
  congr 1
  funext b
  unfold outerRows
  by_cases hany : (nlj.joinedTbl.any fun j => joinCond (inputRow nlj.inputMap b j)) = true
  · have hall : (nlj.joinedTbl.all fun j => !joinCond (inputRow nlj.inputMap b j)) = false := by
      simpa [List.all_eq_false] using hany
    simp [hany, hall]
  · have hno : ∀ j ∈ nlj.joinedTbl, joinCond (inputRow nlj.inputMap b j) = false := by
      simpa using hany
    have hall : (nlj.joinedTbl.all fun j => !joinCond (inputRow nlj.inputMap b j)) = true :=
      List.all_eq_true.2 fun j hj => by rw [hno j hj]; rfl
    have hnil : (nlj.joinedTbl.filter fun j => joinCond (inputRow nlj.inputMap b j) &&
        passes nlj.whereExpr (inputRow nlj.inputMap b j)) = [] :=
      List.filter_eq_nil_iff.2 fun j hj => by rw [hno j hj, Bool.false_and]; exact Bool.false_ne_true
    cases hw : passes nlj.whereExpr (nullRow nlj.inputMap b) <;> simp [hany, hall, hnil, hw]

/-- **Inner and cartesian joins.** For fewer than `kMaxInMemoryRows` joined rows and an input map
over tables 0 and 1, the cursor `execute` returns yields, called until it returns false, the inner
join for INNER with a condition, and the inner join with the condition true for CARTESIAN and for
INNER without one. -/
theorem execute_drains_innerJoin (nlj : NestedLoopJoin V) (rowLen : Nat)
    (hJ : nlj.joinedTbl.length < kMaxInMemoryRows) (hidx : TwoTables nlj.inputMap) :
    ∃ c, execute nlj = .ok c ∧
      (∀ joinCond, nlj.joinType = .INNER → nlj.joinCondExpr = some joinCond →
        Drains (c.next rowLen) c.state (innerJoin nlj rowLen joinCond)) ∧
      (nlj.joinType = .CARTESIAN ∨ nlj.joinType = .INNER ∧ nlj.joinCondExpr = none →
        Drains (c.next rowLen) c.state (innerJoin nlj rowLen fun _ => true)) := by
  obtain ⟨c, hc, hst, -, hinner, hcart⟩ := execute_cursor nlj hJ
  have hdrains (joinCond : Option (List V → Bool)) : Drains (cursorCall (joinedPass nlj joinCond rowLen) false)
      (JoinState.start nlj nlj.joinedTbl)
      (nlj.baseTbl.flatMap fun b => joinedRows nlj rowLen joinCond b nlj.joinedTbl false) :=
    cursorCall_drains_start nlj (joinedPass_spec rowLen hidx joinCond) (fun _ _ => rfl) trivial
  refine ⟨c, hc, fun joinCond htype hcond => ?_, fun h => ?_⟩
  · rw [hinner joinCond htype hcond, hst]
    exact hdrains (some joinCond)
  · rw [hcart h, hst]
    exact hdrains none

/-- a join of the base rows `[1]`, `[2]` with the joined rows `[1]`, `[3]` on equal first columns,
selecting the joined column -/
def innerOnEqual : NestedLoopJoin Nat :=
  ⟨.INNER, [⟨0, 0⟩, ⟨1, 0⟩], [fun buf => buf.getD 1 0], some fun buf => buf.getD 0 0 == buf.getD 1 0,
    none, [[1], [2]], [[1], [3]]⟩

theorem execute_drains_innerJoin_onEqual :
    innerOnEqual.joinedTbl.length < kMaxInMemoryRows ∧ TwoTables innerOnEqual.inputMap ∧
      ∃ c, execute innerOnEqual = .ok c ∧
        (∀ joinCond, innerOnEqual.joinType = .INNER → innerOnEqual.joinCondExpr = some joinCond →
          Drains (c.next 1) c.state (innerJoin innerOnEqual 1 joinCond)) ∧
        (innerOnEqual.joinType = .CARTESIAN ∨
            innerOnEqual.joinType = .INNER ∧ innerOnEqual.joinCondExpr = none →
          Drains (c.next 1) c.state (innerJoin innerOnEqual 1 fun _ => true)) :=
  ⟨by decide, by decide, execute_drains_innerJoin innerOnEqual 1 (by decide) (by decide)⟩

/-- **Outer join.** For fewer than `kMaxInMemoryRows` joined rows, at least one, and an input map
over tables 0 and 1, the OUTER cursor yields the left outer join. -/
theorem execute_drains_outerJoin (nlj : NestedLoopJoin V) (rowLen : Nat)
    (hJ : nlj.joinedTbl.length < kMaxInMemoryRows) (hidx : TwoTables nlj.inputMap)
    (hne : nlj.joinedTbl ≠ []) :
    ∃ c, execute nlj = .ok c ∧ ∀ joinCond, nlj.joinType = .OUTER → nlj.joinCondExpr = some joinCond →
      Drains (c.next rowLen) c.state (outerJoin nlj rowLen joinCond) := by
  obtain ⟨c, hc, hst, houter, -, -⟩ := execute_cursor nlj hJ
  refine ⟨c, hc, fun joinCond htype hcond => ?_⟩
  rw [houter htype, hst, outerJoin_eq]
  exact cursorCall_drains_start nlj (outerPass_spec rowLen hidx hcond hne) (by intros; rfl) trivial

/-- the left outer join of the base rows `[1]`, `[2]` with the joined rows `[1]`, `[3]` on equal
first columns, selecting the joined column -/
def outerOnEqual : NestedLoopJoin Nat :=
  ⟨.OUTER, [⟨0, 0⟩, ⟨1, 0⟩], [fun buf => buf.getD 1 0], some fun buf => buf.getD 0 0 == buf.getD 1 0,
    none, [[1], [2]], [[1], [3]]⟩

theorem execute_drains_outerJoin_onEqual :
    outerOnEqual.joinedTbl.length < kMaxInMemoryRows ∧ TwoTables outerOnEqual.inputMap ∧
      outerOnEqual.joinedTbl ≠ [] ∧
      ∃ c, execute outerOnEqual = .ok c ∧ ∀ joinCond, outerOnEqual.joinType = .OUTER →
        outerOnEqual.joinCondExpr = some joinCond →
          Drains (c.next 1) c.state (outerJoin outerOnEqual 1 joinCond) :=
  ⟨by decide, by decide, by decide, execute_drains_outerJoin outerOnEqual 1 (by decide) (by decide) (by decide)⟩

/-- when the join condition matches every base row with some joined row, the left outer join is the
inner join: no base row is padded with NULLs -/
theorem outerJoin_eq_innerJoin (nlj : NestedLoopJoin V) (rowLen : Nat) (joinCond : List V → Bool)
    (hmatch : ∀ b ∈ nlj.baseTbl, ∃ j ∈ nlj.joinedTbl, joinCond (inputRow nlj.inputMap b j) = true) :
    outerJoin nlj rowLen joinCond = innerJoin nlj rowLen joinCond :=
  List.flatMap_congr fun b hb => if_pos (List.any_eq_true.2 (hmatch b hb))

/-- **A matched outer join runs as an inner join.** For an OUTER join with fewer than
`kMaxInMemoryRows` joined rows, at least one, and an input map over tables 0 and 1, when the join
condition matches every base row with some joined row, its cursor and the cursor of the same join as
INNER both yield exactly the inner join: `executeOuterJoin` and `executeInnerJoin` agree. -/
theorem execute_outer_as_inner (nlj : NestedLoopJoin V) (rowLen : Nat)
    (hJ : nlj.joinedTbl.length < kMaxInMemoryRows) (hidx : TwoTables nlj.inputMap) (hne : nlj.joinedTbl ≠ [])
    (htype : nlj.joinType = .OUTER) {joinCond : List V → Bool} (hcond : nlj.joinCondExpr = some joinCond)
    (hmatch : ∀ b ∈ nlj.baseTbl, ∃ j ∈ nlj.joinedTbl, joinCond (inputRow nlj.inputMap b j) = true) :
    ∃ c c', execute nlj = .ok c ∧ execute { nlj with joinType := .INNER } = .ok c' ∧
      Drains (c.next rowLen) c.state (innerJoin nlj rowLen joinCond) ∧
      Drains (c'.next rowLen) c'.state (innerJoin nlj rowLen joinCond) := by
  obtain ⟨c, hc, hst, houter, -, -⟩ := execute_cursor nlj hJ
  obtain ⟨c', hc', hst', -, hinner, -⟩ := execute_cursor { nlj with joinType := .INNER } hJ
  have hidx' : TwoTables ({ nlj with joinType := .INNER } : NestedLoopJoin V).inputMap := hidx
  refine ⟨c, c', hc, hc', ?_, ?_⟩
  · rw [houter htype, hst, ← outerJoin_eq_innerJoin nlj rowLen joinCond hmatch, outerJoin_eq]
    exact cursorCall_drains_start nlj (outerPass_spec rowLen hidx hcond hne) (by intros; rfl) trivial
  · rw [hinner joinCond rfl hcond, hst']
    exact cursorCall_drains_start _ (joinedPass_spec rowLen hidx' (some joinCond)) (fun _ _ => rfl) trivial

/-- a left outer join of the base rows `[1]`, `[3]` with the joined rows `[3]`, `[1]` on equal first
columns: every base row has a match -/
def outerAllMatched : NestedLoopJoin Nat :=
  ⟨.OUTER, [⟨0, 0⟩, ⟨1, 0⟩], [fun buf => buf.getD 1 0], some fun buf => buf.getD 0 0 == buf.getD 1 0,
    none, [[1], [3]], [[3], [1]]⟩

theorem execute_outer_as_inner_allMatched :
    outerAllMatched.joinedTbl.length < kMaxInMemoryRows ∧ TwoTables outerAllMatched.inputMap ∧
      outerAllMatched.joinedTbl ≠ [] ∧ outerAllMatched.joinType = .OUTER ∧
      outerAllMatched.joinCondExpr = some (fun buf => buf.getD 0 0 == buf.getD 1 0) ∧
      (∀ b ∈ outerAllMatched.baseTbl, ∃ j ∈ outerAllMatched.joinedTbl,
        (fun buf : List Nat => buf.getD 0 0 == buf.getD 1 0) (inputRow outerAllMatched.inputMap b j) = true) ∧
      ∃ c c', execute outerAllMatched = .ok c ∧ execute { outerAllMatched with joinType := .INNER } = .ok c' ∧
        Drains (c.next 1) c.state (innerJoin outerAllMatched 1 fun buf => buf.getD 0 0 == buf.getD 1 0) ∧
        Drains (c'.next 1) c'.state (innerJoin outerAllMatched 1 fun buf => buf.getD 0 0 == buf.getD 1 0) :=
  have hmatch : ∀ b ∈ outerAllMatched.baseTbl, ∃ j ∈ outerAllMatched.joinedTbl,
      (fun buf : List Nat => buf.getD 0 0 == buf.getD 1 0) (inputRow outerAllMatched.inputMap b j) = true := by
    decide
  ⟨by decide, by decide, by decide, rfl, rfl, hmatch,
    execute_outer_as_inner outerAllMatched 1 (by decide) (by decide) (by decide) rfl rfl hmatch⟩

/-- **Outer join, empty joined table.** The OUTER cursor yields, for each base row, the select
expressions over the buffer it started with, every column NULL, if the WHERE predicate passes it:
the loop that binds the base row's columns never runs. -/
theorem execute_outer_empty (nlj : NestedLoopJoin V) (rowLen : Nat) (hidx : TwoTables nlj.inputMap)
    (hJ : nlj.joinedTbl = []) :
    ∃ c, execute nlj = .ok c ∧ (nlj.joinType = .OUTER →
      Drains (c.next rowLen) c.state (nlj.baseTbl.flatMap fun _ =>
        ([List.replicate nlj.inputMap.length default].filter (passes nlj.whereExpr)).map
          (evalSelect nlj.selectExprs rowLen))) := by
  obtain ⟨c, hc, hst, houter, -, -⟩ := execute_cursor nlj (by rw [hJ, List.length_nil]; decide)
  refine ⟨c, hc, fun htype => ?_⟩
  rw [houter htype, hst, hJ]
  exact cursorCall_drains_start nlj (outerPass_spec_empty rowLen hidx) (by intros; rfl) rfl

/-- a left outer join of the base row `[7]` with an empty joined table, selecting the base
column -/
def outerOverEmpty : NestedLoopJoin (Option Nat) :=
  ⟨.OUTER, [⟨0, 0⟩], [fun buf => buf.headD none], some fun _ => true, none, [[some 7]], []⟩

/-- the base row `[7]` joined with no row: its outer join is `[7]`, but the cursor yields `[NULL]`,
the base column it selects never bound -/
theorem outer_empty_drops_base_columns :
    outerJoin outerOverEmpty 1 (fun _ => true) = [[some 7]] ∧
      ∃ c, execute outerOverEmpty = .ok c ∧ Drains (c.next 1) c.state [[none]] ∧
        ¬ Drains (c.next 1) c.state (outerJoin outerOverEmpty 1 fun _ => true) := by
  have hjoin : outerJoin outerOverEmpty 1 (fun _ => true) = [[some 7]] := rfl
  obtain ⟨c, hc, hdrains⟩ := execute_outer_empty outerOverEmpty 1 (by decide) rfl
  have hd : Drains (c.next 1) c.state [[none]] := hdrains rfl
  exact ⟨hjoin, c, hc, hd, fun h => by rw [hjoin] at h; cases hd.unique h⟩

end Execute

end EventQL.Sql
