/-
  The connection table of `tcp_connection_manager` (`m_tcp_connections`,
  `tcp_connection_manager.cpp`): a `std::map` from the remote endpoint of a
  peer to a non-owning handle on its `tcp_connection`.

  * `Endpoint` is `boost::asio::ip::tcp::endpoint`, an address and a port;
  * `Table` is the map: its entries, each key once (`nodup`), so every value
    built here is a map.  Handles are indices into the manager's registry of
    the connections it created (`Manager.conns`);
  * `find` is `m.find(ep)`, `assign` is `m[ep] = h`, `eraseIdx` is
    `m.erase(it)` at the iterator's position and `clear` is `m.clear()`.

  The order of the entries is the order of insertion, not the key order of
  `std::map`: no result here depends on the order in which the table is
  walked.
-/
import Mathlib.Data.List.Nodup

namespace Vanillacoin

/-- A TCP endpoint (`boost::asio::ip::tcp::endpoint`). -/
structure Endpoint where
  address : Nat
  port : Nat
deriving DecidableEq, Repr

/-- `m_tcp_connections`: endpoint keys, each once, with connection handles. -/
structure Table where
  entries : List (Endpoint × Nat)
  nodup : (entries.map Prod.fst).Nodup

namespace Table

/-- The empty table. -/
def empty : Table := ⟨[], List.nodup_nil⟩

/-- `m_tcp_connections.size()`. -/
def size (t : Table) : Nat := t.entries.length

/-- `m_tcp_connections.find(ep)`: the handle stored under `ep`, if any. -/
def find (t : Table) (ep : Endpoint) : Option Nat := t.entries.lookup ep

/-- `m[k] = h` on a list of entries: the entry under `k` takes `h`, or
    `(k, h)` is added. -/
def assignEntries (k : Endpoint) (h : Nat) : List (Endpoint × Nat) → List (Endpoint × Nat)
  | [] => [(k, h)]
  | e :: es => if e.1 = k then (k, h) :: es else e :: assignEntries k h es

theorem keys_assignEntries (k : Endpoint) (h : Nat) :
    ∀ es : List (Endpoint × Nat), k ∉ es.map Prod.fst →
      assignEntries k h es = es ++ [(k, h)]
  | [], _ => rfl
  | e :: es, hk => by
    simp only [List.map_cons, List.mem_cons, not_or] at hk
    simp only [assignEntries, if_neg (Ne.symm hk.1), keys_assignEntries k h es hk.2,
      List.cons_append]

theorem keys_assignEntries_of_mem (k : Endpoint) (h : Nat) :
    ∀ es : List (Endpoint × Nat), k ∈ es.map Prod.fst →
      (assignEntries k h es).map Prod.fst = es.map Prod.fst
  | [], hk => by simp at hk
  | e :: es, hk => by
    by_cases he : e.1 = k
    · simp [assignEntries, he]
    · have hk' : k ∈ es.map Prod.fst := by simpa [Ne.symm he] using hk
      simp [assignEntries, he, keys_assignEntries_of_mem k h es hk']

theorem nodup_assignEntries (k : Endpoint) (h : Nat) (es : List (Endpoint × Nat))
    (hn : (es.map Prod.fst).Nodup) : ((assignEntries k h es).map Prod.fst).Nodup := by
  by_cases hk : k ∈ es.map Prod.fst
  · rwa [keys_assignEntries_of_mem k h es hk]
  · rw [keys_assignEntries k h es hk, List.map_append]
    exact List.nodup_append.2 ⟨hn, List.nodup_singleton k, by simpa using hk⟩

/-- `m_tcp_connections[k] = h`. -/
def assign (t : Table) (k : Endpoint) (h : Nat) : Table :=
  ⟨assignEntries k h t.entries, nodup_assignEntries k h t.entries t.nodup⟩

/-- `m_tcp_connections.erase(it)` with `it` at position `i`. -/
def eraseIdx (t : Table) (i : Nat) : Table :=
  ⟨t.entries.eraseIdx i, t.nodup.sublist ((List.eraseIdx_sublist _ i).map _)⟩

/-- `m_tcp_connections.clear()`. -/
def clear (_ : Table) : Table := empty

@[simp] theorem empty_entries : empty.entries = [] := rfl
@[simp] theorem clear_entries (t : Table) : t.clear.entries = [] := rfl
@[simp] theorem eraseIdx_entries (t : Table) (i : Nat) :
    (t.eraseIdx i).entries = t.entries.eraseIdx i := rfl

theorem lookup_eq_some_iff {es : List (Endpoint × Nat)} (hn : (es.map Prod.fst).Nodup)
    {k : Endpoint} {h : Nat} : es.lookup k = some h ↔ (k, h) ∈ es := by
  induction es with
  | nil => simp
  | cons e es ih =>
    obtain ⟨k', h'⟩ := e
    simp only [List.map_cons, List.nodup_cons] at hn
    by_cases hk : k = k'
    · subst hk
      have : (k, h) ∉ es := fun hm => hn.1 (List.mem_map.2 ⟨_, hm, rfl⟩)
      simp [List.lookup_cons, this, eq_comm]
    · have hb : (k == k') = false := by simpa using hk
      simp [List.lookup_cons, hb, hk, ih hn.2]

/-- **`find` reads the map**: `ep` is stored with `h` iff `(ep, h)` is an entry. -/
theorem find_eq_some {t : Table} {ep : Endpoint} {h : Nat} :
    t.find ep = some h ↔ (ep, h) ∈ t.entries :=
  lookup_eq_some_iff t.nodup

theorem find_eq_none {t : Table} {ep : Endpoint} :
    t.find ep = none ↔ ∀ h, (ep, h) ∉ t.entries := by
  cases hf : t.find ep with
  | none => simp only [true_iff]; exact fun h hm => by simp [← find_eq_some, hf] at hm
  | some h => simp only [reduceCtorEq, false_iff, not_forall, not_not]; exact ⟨h, find_eq_some.1 hf⟩

theorem find_eq_none_iff_not_mem_keys {t : Table} {ep : Endpoint} :
    t.find ep = none ↔ ep ∉ t.entries.map Prod.fst := by
  simp [find_eq_none]

/-- An endpoint whose address no entry has is not a key. -/
theorem find_none_of_address {t : Table} {r : Endpoint}
    (h : ∀ e ∈ t.entries, e.1.address ≠ r.address) : t.find r = none :=
  find_eq_none.2 fun _ hm => h _ hm rfl

/-- Assigning under an absent key appends the entry. -/
theorem assign_entries_of_find_none {t : Table} {k : Endpoint} (hk : t.find k = none) (h : Nat) :
    (t.assign k h).entries = t.entries ++ [(k, h)] :=
  keys_assignEntries k h _ (find_eq_none_iff_not_mem_keys.1 hk)

theorem size_assign_of_find_none {t : Table} {k : Endpoint} (hk : t.find k = none) (h : Nat) :
    (t.assign k h).size = t.size + 1 := by
  simp [size, assign_entries_of_find_none hk]

/-- Two entries of a table under one key are one entry. -/
theorem eq_of_mem_of_mem {t : Table} {k : Endpoint} {h h' : Nat} (h₁ : (k, h) ∈ t.entries)
    (h₂ : (k, h') ∈ t.entries) : h = h' := by
  rw [← find_eq_some] at h₁ h₂
  exact Option.some.inj (h₁.symm.trans h₂)

end Table

end Vanillacoin
