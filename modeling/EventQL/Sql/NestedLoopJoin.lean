import EventQL.LogJoin.Basic
/-!
`src/eventql/sql/expressions/table/nested_loop_join.cc`: the nested-loop join of the SQL engine,
`NestedLoopJoin::execute` and the three cursors it returns (cartesian, inner, left outer).

`execute` copies the joined table into memory (`joined_tbl_data_`), raising once it holds
`kMaxInMemoryRows` rows, opens the base table's cursor, and dispatches on the join type; an inner
join without a condition falls through to the cartesian one. Each cursor is a lambda over the
operator's members: called with an output row, it runs its `for (;;)` until it emits a row (true)
or the base table's cursor is exhausted (false), and keeps its place in `joined_tbl_pos_`,
`base_tbl_row_`, `input_buf_` and `joined_tbl_row_found_` between calls. The three lambdas share
the skeleton of that loop (`cursorCall`); what they do with one base row is their pass
(`joinedPass` for the cartesian and inner cursors, which differ only in the join condition, and
`outerPass`).

A table is the list of rows its cursor returns; an `SValue` is any type `V` whose default value is
`SValue{}`, SQL NULL. The compiled select expressions, join condition and WHERE predicate are
functions of the input buffer (`VM::evaluate`, then `SValue::getBool` for the predicates).
`JoinType` and `JoinNode::InputColumnRef` are declared in `qtree/JoinNode.h`, not under src/; they
are modelled from their uses here. A raise leaves the cursor's members as they were at the
`RAISE`; the model drops them, since a cursor that raised is not called again.
-/

namespace EventQL.Sql

open EventQL.LogJoin (Error)

/-! ## Operands -/

/-- the join types `execute` dispatches on -/
inductive JoinType where
  | OUTER
  | INNER
  | CARTESIAN
  deriving DecidableEq, Repr

/-- `JoinNode::InputColumnRef`: the input column `columnIdx` of the base table (`tableIdx` 0) or
of the joined table (1) -/
structure InputColumnRef where
  tableIdx : Nat
  columnIdx : Nat
  deriving DecidableEq, Repr

/-- `kMaxInMemoryRows` -/
def kMaxInMemoryRows : Nat := 1000000

/-- a `NestedLoopJoin`: its join type, input map, select expressions, join condition and WHERE
predicate, and the rows its base and joined tables return -/
structure NestedLoopJoin (V : Type) where
  joinType : JoinType
  inputMap : List InputColumnRef
  selectExprs : List (List V → V)
  joinCondExpr : Option (List V → Bool)
  whereExpr : Option (List V → Bool)
  baseTbl : List (List V)
  joinedTbl : List (List V)

/-- the members the cursors read and write -/
structure JoinState (V : Type) where
  /-- the rows `base_tbl_cursor_` has yet to return -/
  baseRows : List (List V)
  /-- `base_tbl_row_` -/
  baseTblRow : List V
  /-- `joined_tbl_data_` -/
  joinedTblData : List (List V)
  /-- `joined_tbl_pos_` -/
  joinedTblPos : Nat
  /-- `input_buf_`, one value per input column -/
  inputBuf : List V
  /-- `joined_tbl_row_found_` -/
  joinedTblRowFound : Bool

/-- what a call of a cursor does: raise, return false (`none`), or return true with the row it
wrote and the members it leaves -/
abbrev CursorResult (V : Type) := Except Error (Option (List V × JoinState V))

/-- the cursor `execute` returns: its lambda, called with `row_len`, and the members it starts
from -/
structure JoinCursor (V : Type) where
  next : Nat → JoinState V → CursorResult V
  state : JoinState V

variable {V : Type} [Inhabited V]

/-! ## The input buffer and the expressions -/

/-- the `switch` on an input column's table index: a column of the base row or of the joined row;
another index raises. A column past a row's end is undefined behaviour in the source; the model
reads NULL. -/
def readColumn (baseRow joinedRow : List V) (m : InputColumnRef) : Except Error V :=
  match m.tableIdx with
  | 0 => .ok (baseRow.getD m.columnIdx default)
  | 1 => .ok (joinedRow.getD m.columnIdx default)
  | _ => .error ⟨.runtimeError, "invalid table index"⟩

/-- the `for` loop that fills `input_buf_` from `base_tbl_row_` and a joined row -/
def fillInputBuf (inputMap : List InputColumnRef) (baseRow joinedRow : List V) : Except Error (List V) :=
  inputMap.mapM (readColumn baseRow joinedRow)

/-- the outer cursor's `switch` that keeps a table-0 column and sets a table-1 column to
`SValue{}` -/
def nullColumn (mv : InputColumnRef × V) : Except Error V :=
  match mv.1.tableIdx with
  | 0 => .ok mv.2
  | 1 => .ok default
  | _ => .error ⟨.runtimeError, "invalid table index"⟩

/-- the outer cursor's `for` loop over `input_buf_` that sets the table-1 columns to NULL -/
def nullJoinedColumns (inputMap : List InputColumnRef) (buf : List V) : Except Error (List V) :=
  (inputMap.zip buf).mapM nullColumn

/-- a predicate evaluated on the input buffer; an absent WHERE clause passes every row -/
def passes (pred : Option (List V → Bool)) (buf : List V) : Bool :=
  match pred with
  | none => true
  | some p => p buf

/-- the `for` loop that evaluates the select expressions into the output row, up to `row_len`
columns -/
def evalSelect (selectExprs : List (List V → V)) (rowLen : Nat) (buf : List V) : List V :=
  (selectExprs.take rowLen).map fun e => e buf

/-- `Option::get` (stx, not under src/) on the join condition: it raises on an empty option -/
def condGet (o : Option (List V → Bool)) : Except Error (List V → Bool) :=
  match o with
  | some c => .ok c
  | none => .error ⟨.runtimeError, ""⟩

/-! ## The cursors -/

/-- how a cursor's pass over its current base row ends: it emits a row (the cursor returns true),
or an iteration finds `joined_tbl_pos_` at the end of the joined rows and fetches the next base
row -/
inductive PassEnd (V : Type) where
  | emit (row : List V) (pos : Nat) (found : Bool) (buf : List V)
  | fetch (found : Bool) (buf : List V)

/-- a cursor's pass over the base row, from the joined rows `rest` at position `pos` on, with
`joined_tbl_row_found_` and `input_buf_` -/
abbrev Pass (V : Type) := List V → List (List V) → Nat → Bool → List V → Except Error (PassEnd V)

/-- the iterations of `for (;;)` that fetch the next base row: `joined_tbl_pos_` is reset to 0 (and
`joined_tbl_row_found_` to false when `resetFound`); the cursor returns false once the base
table's cursor is exhausted -/
def fetchLoop (pass : Pass V) (resetFound : Bool) (data : List (List V)) :
    List (List V) → Bool → List V → CursorResult V
  | [], _, _ => .ok none
  | baseRow :: baseRows, found, buf =>
    match pass baseRow data 0 (if resetFound then false else found) buf with
    | .error e => .error e
    | .ok (.emit row pos found buf) => .ok (some (row, ⟨baseRows, baseRow, data, pos, buf, found⟩))
    | .ok (.fetch found buf) => fetchLoop pass resetFound data baseRows found buf

/-- one call of a cursor: `for (;;)` fetches the next base row when `joined_tbl_pos_` is 0 or at
the end of the joined rows, and otherwise goes on with the current one -/
def cursorCall (pass : Pass V) (resetFound : Bool) (st : JoinState V) : CursorResult V :=
  if st.joinedTblPos = 0 ∨ st.joinedTblPos = st.joinedTblData.length then
    fetchLoop pass resetFound st.joinedTblData st.baseRows st.joinedTblRowFound st.inputBuf
  else
    match pass st.baseTblRow (st.joinedTblData.drop st.joinedTblPos) st.joinedTblPos
        st.joinedTblRowFound st.inputBuf with
    | .error e => .error e
    | .ok (.emit row pos found buf) =>
      .ok (some (row, ⟨st.baseRows, st.baseTblRow, st.joinedTblData, pos, buf, found⟩))
    | .ok (.fetch found buf) => fetchLoop pass resetFound st.joinedTblData st.baseRows found buf

/-- the `while` loop of the cartesian and inner cursors: the first joined row that passes the join
condition (inner only) and the WHERE predicate is emitted; a rejected row `continue`s -/
def joinedPass (nlj : NestedLoopJoin V) (joinCond : Option (List V → Bool)) (rowLen : Nat) :
    Pass V
  | _, [], _, found, buf => .ok (.fetch found buf)
  | baseRow, joinedRow :: rest, pos, found, _ => do
    let buf ← fillInputBuf nlj.inputMap baseRow joinedRow
    if passes joinCond buf && passes nlj.whereExpr buf then
      .ok (.emit (evalSelect nlj.selectExprs rowLen buf) (pos + 1) found buf)
    else joinedPass nlj joinCond rowLen baseRow rest (pos + 1) found buf

/-- the outer cursor's iterations on the base row: its `while` loop stops at the first joined row
that passes the join condition (setting `joined_tbl_row_found_`); a match, or the end of the rows
when none matched, goes on to the null padding (no match), the WHERE predicate and the output row.
A row that fails the join condition, or a match the WHERE predicate rejects, goes on with the next
joined row. -/
def outerPass (nlj : NestedLoopJoin V) (rowLen : Nat) : Pass V
  | _, [], pos, found, buf =>
    if found then .ok (.fetch found buf)
    else do
      let buf ← nullJoinedColumns nlj.inputMap buf
      if passes nlj.whereExpr buf then .ok (.emit (evalSelect nlj.selectExprs rowLen buf) pos found buf)
      else .ok (.fetch found buf)
  | baseRow, joinedRow :: rest, pos, found, _ => do
    let buf ← fillInputBuf nlj.inputMap baseRow joinedRow
    let joinCond ← condGet nlj.joinCondExpr
    if joinCond buf then
      if passes nlj.whereExpr buf then
        .ok (.emit (evalSelect nlj.selectExprs rowLen buf) (pos + 1) true buf)
      else outerPass nlj rowLen baseRow rest (pos + 1) true buf
    else outerPass nlj rowLen baseRow rest (pos + 1) found buf

/-- `NestedLoopJoin::executeCartesianJoin`: the cursor with no join condition -/
def executeCartesianJoin (nlj : NestedLoopJoin V) (rowLen : Nat) : JoinState V → CursorResult V :=
  cursorCall (joinedPass nlj none rowLen) false

/-- `NestedLoopJoin::executeInnerJoin`: the cursor with the join condition, which `execute` found
present -/
def executeInnerJoin (nlj : NestedLoopJoin V) (joinCond : List V → Bool) (rowLen : Nat) :
    JoinState V → CursorResult V :=
  cursorCall (joinedPass nlj (some joinCond) rowLen) false

/-- `NestedLoopJoin::executeOuterJoin` -/
def executeOuterJoin (nlj : NestedLoopJoin V) (rowLen : Nat) : JoinState V → CursorResult V :=
  cursorCall (outerPass nlj rowLen) true

/-! ## `execute` -/

/-- `execute`'s loop that copies the joined table into `joined_tbl_data_`, raising once it holds
`kMaxInMemoryRows` rows -/
def materialize (data : List (List V)) : List (List V) → Except Error (List (List V))
  | [] => .ok data
  | row :: rest =>
    if kMaxInMemoryRows ≤ (data ++ [row]).length then
      .error ⟨.runtimeError,
        "Nested Loop JOIN intermediate result set is too large, try using an equi-join instead."⟩
    else materialize (data ++ [row]) rest

/-- the members a cursor starts from: the base table's rows to come, `joined_tbl_data_`,
`joined_tbl_pos_` 0 and `input_buf_` of `SValue{}`s. `base_tbl_row_` and `joined_tbl_row_found_`
are written before they are read. -/
def JoinState.start (nlj : NestedLoopJoin V) (data : List (List V)) : JoinState V :=
  ⟨nlj.baseTbl, [], data, 0, List.replicate nlj.inputMap.length default, false⟩

/-- `NestedLoopJoin::execute`: the cursor for the join type and the members it starts from -/
def execute (nlj : NestedLoopJoin V) : Except Error (JoinCursor V) := do
  let data ← materialize [] nlj.joinedTbl
  let st := JoinState.start nlj data
  match nlj.joinType, nlj.joinCondExpr with
  | .OUTER, _ => .ok ⟨executeOuterJoin nlj, st⟩
  | .INNER, none => .ok ⟨executeCartesianJoin nlj, st⟩
  | .INNER, some joinCond => .ok ⟨executeInnerJoin nlj joinCond, st⟩
  | .CARTESIAN, _ => .ok ⟨executeCartesianJoin nlj, st⟩

end EventQL.Sql
