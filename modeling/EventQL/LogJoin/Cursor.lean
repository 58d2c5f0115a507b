import EventQL.LogJoin.Store
/-!
The live cursor of `flushSession`'s scan-and-delete loop (`src/logjoin/LogJoin.cc`,
`LogJoin::flushSession`), over an ordered store whose keys are strings over any linearly ordered
alphabet: bytes in LMDB's `memcmp` order, or the `Char`s of the model's `String`s.

The cursor is not under src/; it is modelled from the spec's EventStore. `getFirstOrGreater(key)`
places it on the first entry whose key is not below `key`, `getNext` on the first entry above its
key, and `del` deletes the entry under it. After `del` the cursor's key is the deleted one, so the
next `getNext` reaches the deleted entry's successor (`getNext_del`).

The core model (`flushSessionLoop`) runs over the entries the cursor visits, taken when it is
opened (`Store.seek`); `scanAndDelete_view` shows that the live cursor visits the same entries and
leaves the same store.

Results:
- `block_split`: the keys that begin with `p` form one block of the store, right after the keys
  below `p`;
- `scanAndDelete_prefix`: from `getFirstOrGreater(p)`, the loop visits exactly the entries whose
  key begins with `p`, once each and in ascending order, deletes exactly those, leaves the others,
  and stops within one iteration more than the store has entries;
- `scanAndDelete_view`: over a `Store`, the loop visits the entries `flushSessionLoop` reads and
  leaves `erasePrefix p`.
-/

namespace EventQL.LogJoin

/-! ## Ordered stores and their cursors -/

/-- an ordered key-value store as its cursors see it: the entries in ascending key order -/
structure OrderedStore (α γ : Type) [LinearOrder α] where
  entries : List (List α × γ)
  sorted : entries.Pairwise fun x y => x.1 < y.1

namespace OrderedStore

variable {α γ : Type} [LinearOrder α]

@[ext] theorem ext {s t : OrderedStore α γ} (h : s.entries = t.entries) : s = t := by
  cases s; cases t; cases h; rfl

/-- Modelled from the spec: `getFirstOrGreater(key)` places the cursor on the first entry whose
key is not below `key` -/
def getFirstOrGreater (s : OrderedStore α γ) (key : List α) : Option (List α × γ) :=
  s.entries.find? fun e => decide (key ≤ e.1)

/-- Modelled from the spec: `getNext` moves a cursor at the key `cur` to the first entry above it -/
def getNext (s : OrderedStore α γ) (cur : List α) : Option (List α × γ) :=
  s.entries.find? fun e => decide (cur < e.1)

/-- Modelled from the spec: `del` deletes the entry under a cursor at the key `cur` -/
def del (s : OrderedStore α γ) (cur : List α) : OrderedStore α γ :=
  ⟨s.entries.filter fun e => e.1 ≠ cur, s.sorted.sublist (List.filter_sublist _)⟩

/-- the `for` loop of `flushSession` on the prefix `p`: iteration `i` places the cursor with
`getFirstOrGreater(p)` (`i = 0`) or `getNext`, stops at the end of the store or at a key that does
not begin with `p`, and otherwise visits the entry and `del`s it. `fuel` bounds the iterations
(`none` once it runs out); the result is the entries visited, in order, and the store left. -/
def scanAndDelete (p : List α) : Nat → Nat → List α → OrderedStore α γ →
    Option (List (List α × γ) × OrderedStore α γ)
  | 0, _, _, _ => none
  | fuel + 1, i, cur, s =>
    match if i = 0 then s.getFirstOrGreater p else s.getNext cur with
    | none => some ([], s)
    | some (key, value) =>
      if p.isPrefixOf key then
        (scanAndDelete p fuel (i + 1) key (s.del key)).map fun r => ((key, value) :: r.1, r.2)
      else some ([], s)

/-! ## One step of the cursor -/

theorem find?_append_head {β : Type} {q : β → Bool} {A B : List β}
    (hA : ∀ a ∈ A, q a = false) (hB : ∀ b ∈ B.head?, q b = true) : (A ++ B).find? q = B.head? := by
  rw [List.find?_append, List.find?_eq_none.2 fun a ha => by simp [hA a ha], Option.none_or]
  cases B with
  | nil => rfl
  | cons b B => exact List.find?_cons_of_pos _ (hB b rfl)

theorem getFirstOrGreater_eq {s : OrderedStore α γ} {p : List α} {A R : List (List α × γ)}
    (h : s.entries = A ++ R) (hA : ∀ a ∈ A, a.1 < p) (hR : ∀ e ∈ R.head?, p ≤ e.1) :
    s.getFirstOrGreater p = R.head? := by
  rw [getFirstOrGreater, h]
  exact find?_append_head (fun a ha => by simpa using hA a ha) (fun e he => by simpa using hR e he)

theorem del_entries {s : OrderedStore α γ} {A B : List (List α × γ)} {x : List α × γ}
    (h : s.entries = A ++ x :: B) : (s.del x.1).entries = A ++ B := by
  have hs := s.sorted
  rw [h, List.pairwise_append, List.pairwise_cons] at hs
  show s.entries.filter _ = _
  rw [h, List.filter_append, List.filter_cons_of_neg (by simp),
    List.filter_eq_self.2 fun a ha => by simpa using (hs.2.2 a ha x (List.mem_cons_self _ _)).ne,
    List.filter_eq_self.2 fun b hb => by simpa using (hs.2.1.1 b hb).ne']

/-- **Delete, then next.** After `del` at the key of an entry, `getNext` reaches the entry after
it. -/
theorem getNext_del {s : OrderedStore α γ} {A B : List (List α × γ)} {x : List α × γ}
    (h : s.entries = A ++ x :: B) : (s.del x.1).getNext x.1 = B.head? := by
  have hs := s.sorted
  rw [h, List.pairwise_append, List.pairwise_cons] at hs
  rw [getNext, del_entries h]
  refine find?_append_head (fun a ha => ?_) (fun b hb => ?_)
  · simpa using le_of_lt (hs.2.2 a ha x (List.mem_cons_self _ _))
  · simpa using hs.2.1.1 b (List.mem_of_mem_head? hb)

/-! ## The block of a prefix -/

theorem le_of_mem_dropWhile {p : List α} :
    ∀ {l : List (List α × γ)}, l.Pairwise (fun x y => x.1 < y.1) →
      ∀ e ∈ l.dropWhile (fun e => decide (e.1 < p)), p ≤ e.1
  | [], _, _, he => by cases he
  | x :: l, hl, e, he => by
    rw [List.pairwise_cons] at hl
    rw [List.dropWhile_cons] at he
    split_ifs at he with hx
    · exact le_of_mem_dropWhile hl.2 e he
    · have hpx : p ≤ x.1 := not_lt.1 (by simpa using hx)
      rcases List.mem_cons.1 he with rfl | he
      exacts [hpx, hpx.trans (hl.1 e he).le]

theorem isPrefixOf_dropWhile {p : List α} {R : List (List α × γ)}
    (hRs : R.Pairwise fun x y => x.1 < y.1) (hRp : ∀ e ∈ R, p ≤ e.1) :
    ∀ c ∈ R.dropWhile (fun e => p.isPrefixOf e.1), p.isPrefixOf c.1 = false := by
  intro c hc
  obtain ⟨c0, C, hC0⟩ := List.exists_cons_of_ne_nil (List.ne_nil_of_mem hc)
  have hc0 : c0 ∈ R := (List.dropWhile_suffix _).subset (hC0 ▸ List.mem_cons_self _ _)
  have hCs := hRs.sublist (List.dropWhile_suffix fun e => p.isPrefixOf e.1).sublist
  have hC := List.head?_dropWhile_not (fun e => p.isPrefixOf e.1) R
  rw [hC0] at hC hCs hc
  simp only [List.head?_cons] at hC
  rcases List.mem_cons.1 hc with rfl | hc
  · exact hC
  · -- a later key with the prefix would put `c0`, between `p` and it, in the block
    refine Bool.eq_false_iff.2 fun hpc => ?_
    have := prefix_of_between (not_lt.2 (hRp c0 hc0)) (List.rel_of_pairwise_cons hCs hc)
      (List.isPrefixOf_iff_prefix.1 hpc)
    rw [List.isPrefixOf_iff_prefix.2 this] at hC
    cases hC

theorem filter_block {β : Type} {q : β → Bool} {A L C : List β} (hA : ∀ a ∈ A, q a = false)
    (hL : ∀ e ∈ L, q e = true) (hC : ∀ c ∈ C, q c = false) :
    (A ++ (L ++ C)).filter q = L ∧ (A ++ (L ++ C)).filter (fun e => !q e) = A ++ C := by
  simp only [List.filter_append]
  constructor
  · rw [List.filter_eq_nil_iff.2 fun a ha => by simp [hA a ha], List.filter_eq_self.2 hL,
      List.filter_eq_nil_iff.2 fun c hc => by simp [hC c hc], List.nil_append, List.append_nil]
  · rw [List.filter_eq_self.2 fun a ha => by simp [hA a ha],
      List.filter_eq_nil_iff.2 fun e he => by simp [hL e he],
      List.filter_eq_self.2 fun c hc => by simp [hC c hc], List.nil_append]

/-- **The block of a prefix.** The entries whose key begins with `p` form one block `L`, after
the entries below `p` (`A`) and before entries none of which begins with `p` (`C`). -/
theorem block_split (s : OrderedStore α γ) (p : List α) :
    ∃ A L C, s.entries = A ++ (L ++ C) ∧ (∀ a ∈ A, a.1 < p) ∧ (∀ e ∈ (L ++ C).head?, p ≤ e.1) ∧
      (∀ e ∈ L, p.isPrefixOf e.1) ∧ (∀ c ∈ C.head?, p.isPrefixOf c.1 = false) ∧
      L = s.entries.filter (fun e => p.isPrefixOf e.1) ∧
      A ++ C = s.entries.filter (fun e => !p.isPrefixOf e.1) := by
  set R := s.entries.dropWhile fun e => decide (e.1 < p)
  have hRp : ∀ e ∈ R, p ≤ e.1 := le_of_mem_dropWhile s.sorted
  have hA : ∀ a ∈ s.entries.takeWhile (fun e => decide (e.1 < p)), a.1 < p := fun a ha => by
    simpa using List.mem_takeWhile_imp ha
  have hL : ∀ e ∈ R.takeWhile (fun e => p.isPrefixOf e.1), p.isPrefixOf e.1 = true :=
    fun e he => List.mem_takeWhile_imp (p := fun e : List α × γ => p.isPrefixOf e.1) he
  have hC := isPrefixOf_dropWhile (s.sorted.sublist (List.dropWhile_suffix _).sublist) hRp
  have hs : s.entries = s.entries.takeWhile (fun e => decide (e.1 < p)) ++
      (R.takeWhile (fun e => p.isPrefixOf e.1) ++ R.dropWhile (fun e => p.isPrefixOf e.1)) := by
    rw [List.takeWhile_append_dropWhile]
    exact (List.takeWhile_append_dropWhile _ _).symm
  obtain ⟨hLf, hACf⟩ := filter_block (fun a ha => Bool.eq_false_iff.2 fun h =>
    not_lt_of_prefix (List.isPrefixOf_iff_prefix.1 h) (hA a ha)) hL hC
  rw [← hs] at hLf hACf
  refine ⟨_, _, _, hs, hA, fun e he => hRp e ?_, hL, fun c hc => hC c (List.mem_of_mem_head? hc),
    hLf.symm, hACf.symm⟩
  rw [List.takeWhile_append_dropWhile] at he
  exact List.mem_of_mem_head? he

/-! ## The loop -/

/-- the loop from a cursor placed on the head of `L ++ C`, where `L` is the rest of the block of
`p`: it visits `L`, deleting it, and leaves `A ++ C` -/
theorem scanAndDelete_block {p : List α} {A C : List (List α × γ)} :
    ∀ {L : List (List α × γ)} {fuel i : Nat} {cur : List α} {s : OrderedStore α γ},
      s.entries = A ++ (L ++ C) →
      (if i = 0 then s.getFirstOrGreater p else s.getNext cur) = (L ++ C).head? →
      (∀ e ∈ L, p.isPrefixOf e.1) → (∀ c ∈ C.head?, p.isPrefixOf c.1 = false) → L.length < fuel →
      ∃ s', scanAndDelete p fuel i cur s = some (L, s') ∧ s'.entries = A ++ C
  | [], fuel + 1, i, cur, s, hs, hpos, _, hC, _ => by
    refine ⟨s, ?_, hs⟩
    rw [List.nil_append] at hpos
    rcases hc : C.head? with _ | ⟨key, value⟩
    · simp only [scanAndDelete, hpos, hc]
    · simp only [scanAndDelete, hpos, hc, hC _ hc, Bool.false_eq_true, if_false]
  | l :: L, fuel + 1, i, cur, s, hs, hpos, hL, hC, hfuel => by
    obtain ⟨s', h', hs'⟩ := scanAndDelete_block (del_entries hs)
      (by rw [if_neg (Nat.succ_ne_zero i)]; exact getNext_del hs)
      (fun e he => hL e (List.mem_cons_of_mem _ he)) hC (Nat.lt_of_succ_lt_succ hfuel)
    refine ⟨s', ?_, hs'⟩
    rw [List.cons_append, List.head?_cons] at hpos
    simp only [scanAndDelete, hpos, hL l (List.mem_cons_self _ _), if_true, h', Option.map_some']

/-- the loop from `getFirstOrGreater(p)` returns the entries whose key begins with `p` and leaves
the others -/
theorem scanAndDelete_filter (s : OrderedStore α γ) (p : List α) {fuel : Nat}
    (hfuel : s.entries.length < fuel) :
    ∃ s', scanAndDelete p fuel 0 p s = some (s.entries.filter fun e => p.isPrefixOf e.1, s') ∧
      s'.entries = s.entries.filter fun e => !p.isPrefixOf e.1 := by
  obtain ⟨A, L, C, hs, hA, hR, hL, hC, hLf, hACf⟩ := block_split s p
  have hlen : L.length < fuel := by
    have := congrArg List.length hs
    simp only [List.length_append] at this
    omega
  obtain ⟨s', h, hs'⟩ : ∃ s', scanAndDelete p fuel 0 p s = some (L, s') ∧ s'.entries = A ++ C :=
    scanAndDelete_block hs (by rw [if_pos rfl]; exact getFirstOrGreater_eq hs hA hR) hL hC hlen
  exact ⟨s', hLf ▸ h, hs'.trans hACf⟩

/-- **Scan and delete.** For every ordered store and every prefix `p`, the loop of `flushSession`
from `getFirstOrGreater(p)` visits exactly the entries whose key begins with `p`, once each and in
ascending key order, deletes exactly those and leaves every other entry; it stops within one
iteration more than the store has entries. -/
theorem scanAndDelete_prefix (s : OrderedStore α γ) (p : List α) {fuel : Nat}
    (hfuel : s.entries.length < fuel) :
    ∃ s', scanAndDelete p fuel 0 p s = some (s.entries.filter fun e => p.isPrefixOf e.1, s') ∧
      (s.entries.filter fun e => p.isPrefixOf e.1).Pairwise (fun x y => x.1 < y.1) ∧
      s'.entries = s.entries.filter fun e => !p.isPrefixOf e.1 :=
  let ⟨s', h, hs'⟩ := scanAndDelete_filter s p hfuel
  ⟨s', h, s.sorted.sublist (List.filter_sublist _), hs'⟩

/-- the customer key and one record of `u1`, and the customer key of `u2` -/
def twoUsersKeys : OrderedStore Char String :=
  ⟨[("u1~cust".data, "CUST1"), ("u1~q~0".data, "r1"), ("u2~cust".data, "CUST2")], by decide⟩

/-- the witness: scanning `u1` in `twoUsersKeys` with four iterations of fuel -/
theorem scanAndDelete_prefix_twoUsers :
    twoUsersKeys.entries.length < 4 ∧
      ∃ s', scanAndDelete "u1".data 4 0 "u1".data twoUsersKeys =
          some (twoUsersKeys.entries.filter fun e => "u1".data.isPrefixOf e.1, s') ∧
        (twoUsersKeys.entries.filter fun e => "u1".data.isPrefixOf e.1).Pairwise (fun x y => x.1 < y.1) ∧
        s'.entries = twoUsersKeys.entries.filter fun e => !"u1".data.isPrefixOf e.1 :=
  ⟨by decide, scanAndDelete_prefix twoUsersKeys "u1".data (by decide)⟩

end OrderedStore

/-! ## The store of the model -/

/-- `isPrefixOf` does not depend on which decision of `=` its `==` comes from -/
theorem isPrefixOf_instBEq {α : Type} (d₁ d₂ : DecidableEq α) (l₁ l₂ : List α) :
    @List.isPrefixOf α (@instBEqOfDecidableEq α d₁) l₁ l₂ =
      @List.isPrefixOf α (@instBEqOfDecidableEq α d₂) l₁ l₂ := by
  rw [Subsingleton.elim d₁ d₂]

/-- a `Store` as its cursors see it: each key as its characters -/
def Store.view (s : Store) : OrderedStore Char String :=
  ⟨s.entries.map fun e => (e.1.data, e.2), by rw [List.pairwise_map]; exact s.sorted⟩

/-- **The snapshot loop is the live loop.** Over a `Store`, the live cursor loop on `p` visits the
entries `flushSessionLoop` reads from `seek p` up to the first key that does not begin with `p`,
and leaves `erasePrefix p`. -/
theorem scanAndDelete_view (s : Store) (p : String) {fuel : Nat} (hfuel : s.entries.length < fuel) :
    OrderedStore.scanAndDelete p.data fuel 0 p.data s.view =
      some (((s.seek p).takeWhile fun e => beginsWith e.1 p).map (fun e => (e.1.data, e.2)),
        (s.erasePrefix p).view) := by
  obtain ⟨s', h, hs'⟩ :=
    OrderedStore.scanAndDelete_filter s.view p.data (by simpa [Store.view] using hfuel)
  rw [h, Store.takeWhile_seek]
  congr 1
  refine Prod.ext ?_ (OrderedStore.ext ?_)
  · show ((s.entries.map fun e => (e.1.data, e.2)).filter _) = _
    rw [List.filter_map]
    exact congrArg _ (List.filter_congr fun e _ => isPrefixOf_instBEq _ _ _ _)
  · rw [hs']
    show ((s.entries.map fun e => (e.1.data, e.2)).filter _) = _
    rw [List.filter_map]
    exact congrArg _ (List.filter_congr fun e _ => congrArg (!·) (isPrefixOf_instBEq _ _ _ _))

end EventQL.LogJoin
