import EventQL.LogJoin.Basic
/-!
The ordered key-value store behind `mdb::MDBTransaction` (LMDB), as LogJoin uses it: `insert` and
`update` (both insert-or-overwrite, as the spec's EventStore says), and cursors that start at
`getFirst` or `getFirstOrGreater(key)`, advance with `getNext` and delete the current entry with
`del`. The transaction is not under src/; it is modelled from the spec.

A `Store` is its list of entries in ascending key order; the order is LMDB's default `memcmp`
order on the key bytes, a proper prefix first. Sortedness is a field, so every store a model
function builds is sorted.

Results:
- `mem_insert`, `mem_erase`: what insert-or-overwrite and delete do to the entries;
- `prefix_of_between`, `not_lt_of_prefix`: the keys that begin with a prefix form one interval of
  the order, starting at the prefix itself;
- `takeWhile_seek`: a cursor placed by `getFirstOrGreater(p)` and advanced while the key begins
  with `p` visits exactly the entries whose key begins with `p`, in ascending order.
-/

namespace EventQL.LogJoin

/-! ## Key order -/

/-- LMDB's default key order: bytewise, a proper prefix before its extensions -/
def KeyLt (a b : String) : Prop := a.data < b.data

instance : DecidableRel KeyLt := fun a b => inferInstanceAs (Decidable (a.data < b.data))

theorem KeyLt.trans {a b c : String} (h1 : KeyLt a b) (h2 : KeyLt b c) : KeyLt a c :=
  lt_trans (α := List Char) h1 h2

theorem KeyLt.irrefl (a : String) : ¬ KeyLt a a := lt_irrefl (α := List Char) _

theorem KeyLt.ne {a b : String} (h : KeyLt a b) : a ≠ b := fun e => KeyLt.irrefl b (e ▸ h)

theorem KeyLt.trichotomy (a b : String) : KeyLt a b ∨ a = b ∨ KeyLt b a := by
  rcases lt_trichotomy (α := List Char) a.data b.data with h | h | h
  · exact .inl h
  · exact .inr (.inl (String.ext h))
  · exact .inr (.inr h)

theorem not_lt_of_prefix {α : Type} [LinearOrder α] {p k : List α} (h : p <+: k) : ¬ k < p := by
  obtain ⟨t, rfl⟩ := h
  induction p with
  | nil => exact List.Lex.not_nil_right _ _
  | cons c p ih =>
    intro hlt
    cases hlt with
    | cons h => exact ih h
    | rel h => exact lt_irrefl c h

theorem prefix_of_between {α : Type} [LinearOrder α] {p a b : List α} (hpa : ¬ a < p) (hab : a < b)
    (hpb : p <+: b) :
    p <+: a := by
  induction p generalizing a b with
  | nil => exact List.nil_prefix
  | cons c p ih =>
    obtain ⟨t, rfl⟩ := hpb
    cases a with
    | nil => exact absurd (List.Lex.nil) hpa
    | cons d a =>
      cases hab with
      | cons h =>
        have hpa' : ¬ a < p := fun h' => hpa (List.Lex.cons h')
        exact List.prefix_cons_inj c |>.2 (ih hpa' h ⟨t, rfl⟩)
      | rel h => exact absurd (List.Lex.rel h) hpa

/-! ## Stores -/

/-- the store seen through a transaction: entries in ascending key order -/
structure Store where
  entries : List (String × String)
  sorted : entries.Pairwise (fun x y => KeyLt x.1 y.1)

namespace Store

@[ext] theorem ext {s t : Store} (h : s.entries = t.entries) : s = t := by
  cases s; cases t; cases h; rfl

/-- the empty store -/
def empty : Store := ⟨[], List.Pairwise.nil⟩

/-- insert-or-overwrite into a sorted entry list -/
def insertList (k v : String) : List (String × String) → List (String × String)
  | [] => [(k, v)]
  | (k', v') :: rest =>
    if KeyLt k k' then (k, v) :: (k', v') :: rest
    else if k = k' then (k, v) :: rest
    else (k', v') :: insertList k v rest

theorem mem_insertList {k v : String} {e : String × String} :
    ∀ {l : List (String × String)}, l.Pairwise (fun x y => KeyLt x.1 y.1) →
      (e ∈ insertList k v l ↔ e = (k, v) ∨ (e ∈ l ∧ e.1 ≠ k))
  | [], _ => by simp [insertList]
  | (k', v') :: rest, h => by
    have hrest : ∀ x ∈ rest, KeyLt k' x.1 := (List.pairwise_cons.1 h).1
    unfold insertList
    split_ifs with h1 h2
    · -- before the head: every key of the list is above `k`
      have hk : e ∈ (k', v') :: rest → e.1 ≠ k := fun hx he => by
        rcases List.mem_cons.1 hx with rfl | hx
        exacts [h1.ne he.symm, KeyLt.irrefl k (he ▸ h1.trans (hrest e hx))]
      rw [and_iff_left_of_imp hk, List.mem_cons]
    · -- over the head: the rest of the keys are above `k`
      subst h2
      have hr : e ∈ rest → e.1 ≠ k := fun hx he => KeyLt.irrefl k (he ▸ hrest e hx)
      have hhead : ¬ (e = (k, v') ∧ e.1 ≠ k) := by rintro ⟨rfl, h⟩; exact h rfl
      rw [List.mem_cons, List.mem_cons, or_and_right, and_iff_left_of_imp hr, or_iff_right hhead]
    · -- after the head
      have hk' : e = (k', v') → e.1 ≠ k := by rintro rfl; exact Ne.symm h2
      rw [List.mem_cons, mem_insertList (List.pairwise_cons.1 h).2, List.mem_cons, or_and_right,
        and_iff_left_of_imp hk', or_left_comm]

theorem insertList_sorted (k v : String) :
    ∀ {l : List (String × String)}, l.Pairwise (fun x y => KeyLt x.1 y.1) →
      (insertList k v l).Pairwise (fun x y => KeyLt x.1 y.1)
  | [], _ => by simp [insertList]
  | (k', v') :: rest, h => by
    obtain ⟨hrest, hs⟩ := List.pairwise_cons.1 h
    unfold insertList
    split_ifs with h1 h2
    · refine List.Pairwise.cons (fun x hx => ?_) h
      rcases List.mem_cons.1 hx with rfl | hx
      exacts [h1, h1.trans (hrest x hx)]
    · subst h2
      exact List.Pairwise.cons hrest hs
    · have h3 : KeyLt k' k := ((KeyLt.trichotomy k k').resolve_left h1).resolve_left h2
      refine List.Pairwise.cons (fun x hx => ?_) (insertList_sorted k v hs)
      rcases (mem_insertList hs).1 hx with rfl | ⟨hx, -⟩
      exacts [h3, hrest x hx]

/-- Modelled from the spec: `MDBTransaction::insert` and `update` (not under src/) both
insert-or-overwrite. -/
def insert (s : Store) (k v : String) : Store := ⟨insertList k v s.entries, insertList_sorted k v s.sorted⟩

/-- the cursor's `del` on the entry with key `k` -/
def erase (s : Store) (k : String) : Store :=
  ⟨s.entries.filter (fun e => e.1 ≠ k), s.sorted.sublist (List.filter_sublist _)⟩

/-- every entry whose key is in `ks` deleted -/
def eraseAll (s : Store) (ks : List String) : Store :=
  ⟨s.entries.filter (fun e => e.1 ∉ ks), s.sorted.sublist (List.filter_sublist _)⟩

/-- every entry whose key begins with `p` deleted: the scan-and-drain of the spec -/
def erasePrefix (s : Store) (p : String) : Store :=
  ⟨s.entries.filter (fun e => !beginsWith e.1 p), s.sorted.sublist (List.filter_sublist _)⟩

/-- the value stored under `k` -/
def find? (s : Store) (k : String) : Option String := s.entries.lookup k

theorem mem_insert {s : Store} {k v : String} {e : String × String} :
    e ∈ (s.insert k v).entries ↔ e = (k, v) ∨ (e ∈ s.entries ∧ e.1 ≠ k) :=
  mem_insertList s.sorted

theorem mem_erase {s : Store} {k : String} {e : String × String} :
    e ∈ (s.erase k).entries ↔ e ∈ s.entries ∧ e.1 ≠ k := by
  simp [erase]

@[simp] theorem eraseAll_nil (s : Store) : s.eraseAll [] = s := by
  ext1; simp [eraseAll]

theorem eraseAll_erase (s : Store) (k : String) (ks : List String) :
    (s.erase k).eraseAll ks = s.eraseAll (k :: ks) := by
  ext1
  simp only [eraseAll, erase, List.filter_filter, List.mem_cons, not_or]
  congr 1
  funext e
  simp
  exact Bool.and_comm _ _

theorem mem_erasePrefix {s : Store} {p : String} {e : String × String} :
    e ∈ (s.erasePrefix p).entries ↔ e ∈ s.entries ∧ beginsWith e.1 p = false := by
  simp [erasePrefix]

theorem eq_of_mem {s : Store} {k v v' : String} (h : (k, v) ∈ s.entries) (h' : (k, v') ∈ s.entries) :
    v = v' := by
  have key : ∀ {l : List (String × String)}, l.Pairwise (fun x y => KeyLt x.1 y.1) →
      (k, v) ∈ l → (k, v') ∈ l → v = v' := by
    intro l hl
    induction hl with
    | nil => simp
    | @cons a l ha _ ih =>
      simp only [List.mem_cons]
      rintro (rfl | h1) (h2 | h2)
      · exact (Prod.mk.inj h2).2.symm
      · exact absurd (ha _ h2) (KeyLt.irrefl _)
      · exact absurd (ha _ h1) (by rw [← h2]; exact KeyLt.irrefl _)
      · exact ih h1 h2
  exact key s.sorted h h'

theorem nodup (s : Store) : s.entries.Nodup :=
  s.sorted.imp fun {_ _} h => by rintro rfl; exact KeyLt.irrefl _ h

theorem find?_eq_some_iff {s : Store} {k v : String} : s.find? k = some v ↔ (k, v) ∈ s.entries := by
  suffices ∀ {l : List (String × String)}, l.Pairwise (fun x y => KeyLt x.1 y.1) →
      (l.lookup k = some v ↔ (k, v) ∈ l) from this s.sorted
  intro l hl
  induction hl with
  | nil => simp
  | @cons e l he _ ih =>
    obtain ⟨k', v'⟩ := e
    by_cases hk : k = k'
    · subst hk
      simp only [List.lookup_cons_self, Option.some.injEq, List.mem_cons, Prod.mk.injEq, true_and]
      constructor
      · rintro rfl; exact .inl rfl
      · rintro (rfl | h)
        · rfl
        · exact absurd (he _ h) (KeyLt.irrefl _)
    · have : (k == k') = false := by simpa using hk
      simp [List.lookup_cons, this, hk, ih]

theorem find?_insert (s : Store) (k v k' : String) :
    (s.insert k v).find? k' = if k' = k then some v else s.find? k' := by
  apply Option.ext
  intro w
  rw [Option.mem_def, find?_eq_some_iff, mem_insert]
  split_ifs with h
  · subst h; simp [eq_comm]
  · rw [Option.mem_def, find?_eq_some_iff]; simp [h]

theorem find?_erase (s : Store) (k k' : String) :
    (s.erase k).find? k' = if k' = k then none else s.find? k' := by
  apply Option.ext
  intro w
  rw [Option.mem_def, find?_eq_some_iff, mem_erase]
  split_ifs with h
  · simp [h]
  · rw [Option.mem_def, find?_eq_some_iff]; simp [h]

/-! ## Cursors -/

/-- the entries a cursor visits from `getFirstOrGreater(k)` on, in order -/
def seek (s : Store) (k : String) : List (String × String) := s.entries.dropWhile (fun e => KeyLt e.1 k)

theorem takeWhile_dropWhile {p : String} :
    ∀ {l : List (String × String)}, l.Pairwise (fun x y => KeyLt x.1 y.1) →
      (l.dropWhile (fun e => KeyLt e.1 p)).takeWhile (fun e => beginsWith e.1 p) =
        l.filter (fun e => beginsWith e.1 p)
  | [], _ => rfl
  | e :: l, h => by
    obtain ⟨he, hl⟩ := List.pairwise_cons.1 h
    have ih := takeWhile_dropWhile (p := p) hl
    by_cases hlt : KeyLt e.1 p
    · have hb : beginsWith e.1 p = false := by
        rw [Bool.eq_false_iff, ne_eq, beginsWith_iff]; exact fun hp => not_lt_of_prefix hp hlt
      simp only [List.dropWhile_cons, decide_eq_true hlt, ite_true, ih, List.filter_cons, hb]
      rfl
    · have hdrop : l.dropWhile (fun e => KeyLt e.1 p) = l := by
        cases l with
        | nil => rfl
        | cons x l =>
          exact List.dropWhile_cons_of_neg (by simpa using fun hx => hlt ((he x (by simp)).trans hx))
      rw [hdrop] at ih
      simp only [List.dropWhile_cons, decide_eq_false hlt, List.takeWhile_cons, List.filter_cons]
      by_cases hb : beginsWith e.1 p = true
      · simp [hb, ih]
      · have hnone : l.filter (fun e => beginsWith e.1 p) = [] := by
          rw [List.filter_eq_nil_iff]
          intro x hx hxb
          exact hb (beginsWith_iff.2 (prefix_of_between hlt (he x hx) (beginsWith_iff.1 hxb)))
        simp [hb, hnone]

/-- **Prefix scan.** From `getFirstOrGreater(p)`, the entries up to the first key that does not
begin with `p` are exactly the entries whose key begins with `p`, in store order. -/
theorem takeWhile_seek (s : Store) (p : String) :
    (s.seek p).takeWhile (fun e => beginsWith e.1 p) = s.entries.filter (fun e => beginsWith e.1 p) :=
  takeWhile_dropWhile s.sorted

/-- deleting the keys the scan visits is deleting every key that begins with `p` -/
theorem eraseAll_scan (s : Store) (p : String) :
    s.eraseAll (((s.seek p).takeWhile (fun e => beginsWith e.1 p)).map Prod.fst) = s.erasePrefix p := by
  ext1
  rw [takeWhile_seek]
  simp only [eraseAll, erasePrefix]
  refine List.filter_congr fun e he => ?_
  by_cases hb : beginsWith e.1 p = true
  · simp only [hb, Bool.not_true, decide_eq_false_iff_not, not_not]
    exact List.mem_map.2 ⟨e, List.mem_filter.2 ⟨he, hb⟩, rfl⟩
  · simp only [hb, Bool.not_false, decide_eq_true_eq, List.mem_map, List.mem_filter, not_exists,
      not_and]
    rintro x ⟨-, hx⟩ hxe
    exact hb (hxe ▸ hx)

end Store

end EventQL.LogJoin
