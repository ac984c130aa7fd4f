/-
  `tcp_connection_manager::tick(ec)`: the prune loop over the table, the
  top-up loop that asks the address manager for candidates, the re-armed timer
  and the status record.

  * `prune` is the `while (it != m_tcp_connections.end())` loop with
    `it = m_tcp_connections.erase(it)`: the iterator is a position in the table;
  * `topUp` is the loop `for (i = 0; i < minimum_tcp_connections -
    m_tcp_connections.size(); i++)`, whose bound is computed again on every
    iteration on `std::size_t` (`sizeSub`, which wraps); `topUpBody` is one
    iteration;
  * `TickInput` is what one pass reads from the rest of the node: the answers
    of `select`, the ban list and the adjusted time.

  `prune_entries` and `prune_log` say what the prune loop leaves; `TopUpHead`
  is the set of points at which the top-up loop tests its bound, and
  `topUp_of_head` says they are the loop's iterations.
-/
import Vanillacoin.Network.Manager

namespace Vanillacoin

/-- `a - b` on `std::size_t`, modulo `2 ^ 64`. -/
def sizeSub (a b : Nat) : Nat := (((a : Int) - b) % 18446744073709551616).toNat

theorem sizeSub_lt (a b : Nat) : sizeSub a b < 18446744073709551616 := by
  unfold sizeSub; omega

theorem sizeSub_le (a b : Nat) (h : b ≤ a) : sizeSub a b ≤ a - b := by
  unfold sizeSub; omega

/-- What one pass of `tick` reads from the rest of the node. -/
structure TickInput where
  /-- The address `select(bias)` returns at the `n`-th call of the pass. -/
  select : Nat → Nat → NetworkAddress
  /-- `network::is_address_banned`. -/
  banned : Nat → Bool
  /-- `time::instance().get_adjusted()`. -/
  now : Int

namespace Manager

/-- `m_tcp_connections.erase(it)` with the iterator at position `it`. -/
def eraseAt (s : Manager) (it : Nat) : Manager := { s with table := s.table.eraseIdx it }

@[simp] theorem eraseAt_table (s : Manager) (it : Nat) :
    (s.eraseAt it).table = s.table.eraseIdx it := rfl
@[simp] theorem eraseAt_conns (s : Manager) (it : Nat) : (s.eraseAt it).conns = s.conns := rfl
@[simp] theorem eraseAt_next (s : Manager) (it : Nat) : (s.eraseAt it).next = s.next := rfl
@[simp] theorem eraseAt_log (s : Manager) (it : Nat) : (s.eraseAt it).log = s.log := rfl
@[simp] theorem eraseAt_waits (s : Manager) (it : Nat) : (s.eraseAt it).waits = s.waits := rfl
@[simp] theorem eraseAt_resolutions (s : Manager) (it : Nat) :
    (s.eraseAt it).resolutions = s.resolutions := rfl

/-- The prune loop from the iterator position `it`: an entry whose handle no
    longer locks is erased, one whose transport is not valid is stopped and
    erased, the others are kept. -/
def prune (s : Manager) (it : Nat) : Manager :=
  if h : it < s.table.entries.length then
    let c := s.table.entries[it].2
    if (s.conns c).alive then
      if (s.conns c).transportValid then prune s (it + 1)
      else prune ((s.emit (.stop c)).eraseAt it) it
    else prune (s.eraseAt it) it
  else s
termination_by s.table.entries.length - it
decreasing_by
  all_goals (try simp only [emit_table, eraseAt_table, Table.eraseIdx_entries,
    List.length_eraseIdx, if_pos h]); omega

/-- An entry the prune loop keeps: its handle locks and its transport is valid. -/
def keeps (conns : Nat → Connection) (e : Endpoint × Nat) : Bool :=
  (conns e.2).alive && (conns e.2).transportValid

theorem prune_frame (s : Manager) (it : Nat) :
    (s.prune it).conns = s.conns ∧ (s.prune it).next = s.next ∧
      (s.prune it).waits = s.waits ∧ (s.prune it).resolutions = s.resolutions ∧
      (s.prune it).stopping = s.stopping := by
  induction s, it using prune.induct with
  | case1 s it h c hl hv ih => rw [prune, dif_pos h, if_pos hl, if_pos hv]; exact ih
  | case2 s it h c hl hv ih => rw [prune, dif_pos h, if_pos hl, if_neg hv]; exact ih
  | case3 s it h c hl ih => rw [prune, dif_pos h, if_neg hl]; exact ih
  | case4 s it h => rw [prune, dif_neg h]; exact ⟨rfl, rfl, rfl, rfl, rfl⟩

theorem take_eraseIdx {α : Type} {l : List α} {i : Nat} (h : i < l.length) :
    (l.eraseIdx i).take i = l.take i := by
  rw [List.eraseIdx_eq_take_drop_succ, List.take_left' (by simp; omega)]

theorem drop_eraseIdx {α : Type} {l : List α} {i : Nat} (h : i < l.length) :
    (l.eraseIdx i).drop i = l.drop (i + 1) := by
  rw [List.eraseIdx_eq_take_drop_succ, List.drop_left' (by simp; omega)]

theorem length_eraseIdx_of_lt {α : Type} {l : List α} {i : Nat} (h : i < l.length) :
    i ≤ (l.eraseIdx i).length := by
  rw [List.length_eraseIdx, if_pos h]; omega

/-- **The prune loop keeps exactly the live, transport-valid entries**, in order. -/
theorem prune_entries (s : Manager) (it : Nat) (hit : it ≤ s.table.entries.length) :
    (s.prune it).table.entries =
      s.table.entries.take it ++ (s.table.entries.drop it).filter (keeps s.conns) := by
  induction s, it using prune.induct with
  | case1 s it h c hl hv ih =>
    rw [prune, dif_pos h, if_pos hl, if_pos hv, ih h, List.drop_eq_getElem_cons h,
      List.filter_cons_of_pos (by simp [keeps, hl, hv, c]), List.take_succ,
      List.getElem?_eq_getElem h, Option.toList_some, List.append_assoc, List.singleton_append]
  | case2 s it h c hl hv ih =>
    rw [prune, dif_pos h, if_pos hl, if_neg hv, ih (by simpa using length_eraseIdx_of_lt h)]
    simp only [eraseAt_table, emit_table, Table.eraseIdx_entries, eraseAt_conns, emit_conns,
      take_eraseIdx h, drop_eraseIdx h, List.drop_eq_getElem_cons h]
    rw [List.filter_cons_of_neg (by simp [keeps, hv, c])]
  | case3 s it h c hl ih =>
    rw [prune, dif_pos h, if_neg hl, ih (by simpa using length_eraseIdx_of_lt h)]
    simp only [eraseAt_table, Table.eraseIdx_entries, eraseAt_conns, take_eraseIdx h,
      drop_eraseIdx h, List.drop_eq_getElem_cons h]
    rw [List.filter_cons_of_neg (by simp [keeps, hl, c])]
  | case4 s it h =>
    rw [prune, dif_neg h, List.drop_of_length_le (by omega), List.filter_nil, List.append_nil,
      List.take_of_length_le (by omega)]

/-- An entry the prune loop stops: its handle locks and its transport is not valid. -/
def stops (conns : Nat → Connection) (e : Endpoint × Nat) : Bool :=
  (conns e.2).alive && !(conns e.2).transportValid

/-- **The prune loop stops exactly the live entries with an invalid transport**, in order. -/
theorem prune_log (s : Manager) (it : Nat) :
    (s.prune it).log =
      s.log ++ ((s.table.entries.drop it).filter (stops s.conns)).map fun e => .stop e.2 := by
  induction s, it using prune.induct with
  | case1 s it h c hl hv ih =>
    rw [prune, dif_pos h, if_pos hl, if_pos hv, ih, List.drop_eq_getElem_cons h,
      List.filter_cons_of_neg (by simp [stops, hv, c])]
  | case2 s it h c hl hv ih =>
    rw [prune, dif_pos h, if_pos hl, if_neg hv, ih]
    simp only [eraseAt_log, emit_log, eraseAt_table, emit_table, eraseAt_conns, emit_conns,
      Table.eraseIdx_entries, drop_eraseIdx h]
    rw [List.drop_eq_getElem_cons h, List.filter_cons_of_pos (by simp [stops, hl, hv, c]),
      List.map_cons, List.append_assoc, List.singleton_append]
  | case3 s it h c hl ih =>
    rw [prune, dif_pos h, if_neg hl, ih]
    simp only [eraseAt_log, eraseAt_table, eraseAt_conns, Table.eraseIdx_entries,
      drop_eraseIdx h]
    rw [List.drop_eq_getElem_cons h, List.filter_cons_of_neg (by simp [stops, hl, c])]
  | case4 s it h => rw [prune, dif_neg h, List.drop_of_length_le (by omega)]; simp

theorem prune_zero_entries (s : Manager) :
    (s.prune 0).table.entries = s.table.entries.filter (keeps s.conns) := by
  simpa using prune_entries s 0 (Nat.zero_le _)

theorem prune_zero_log (s : Manager) :
    (s.prune 0).log = s.log ++ (s.table.entries.filter (stops s.conns)).map fun e => .stop e.2 := by
  simpa using prune_log s 0

variable (P : Params)

/-- The group scan of the top-up loop: some entry whose handle locks and whose
    transport's remote endpoint can be read is in the group of `a`. -/
def inSameGroup (s : Manager) (a : Endpoint) : Bool :=
  s.table.entries.any fun e =>
    (s.conns e.2).alive && match (s.conns e.2).remote with
      | some r => P.group a == P.group r
      | none => false

/-- Iteration `i` of the top-up loop: `select`, the group scan, the validity,
    locality and retry-interval filters, and `connect`. -/
def topUpBody (inp : TickInput) (i : Nat) (s : Manager) : Manager :=
  let bias := 10 + min s.table.size 8 * 10
  let addr := inp.select i bias
  let s' := s.emit (.select bias)
  if !P.isValid addr.endpoint || P.isLocal addr.endpoint || s'.inSameGroup P addr.endpoint then s'
  else if inp.now - addr.lastTry < 600 then s'
  else (s'.connect inp.banned addr.endpoint).1

/-- **What one iteration of the top-up loop can do**: call `select` and nothing
    more, or, for a valid, non-local address outside the groups the scan sees,
    last tried at least 600 seconds ago, not banned and not a key, also inform the
    address manager and retain and start an outgoing connection to it. -/
theorem topUpBody_cases (inp : TickInput) (i : Nat) (s : Manager) :
    s.topUpBody P inp i = s.emit (.select (10 + min s.table.size 8 * 10)) ∨
      ∃ a, a = inp.select i (10 + min s.table.size 8 * 10) ∧ P.isValid a.endpoint = true ∧
        P.isLocal a.endpoint = false ∧ s.inSameGroup P a.endpoint = false ∧
        600 ≤ inp.now - a.lastTry ∧ inp.banned a.endpoint.address = false ∧
        s.table.find a.endpoint = none ∧
        s.topUpBody P inp i = ((((s.emit (.select (10 + min s.table.size 8 * 10))).emit
          (.connectionAttempt a.endpoint)).retain (outbound a.endpoint)).emit (.start s.next)) := by
  unfold topUpBody
  dsimp only
  split
  · exact .inl rfl
  · rename_i hf
    simp only [Bool.or_eq_true, Bool.not_eq_eq_eq_not, Bool.not_true, not_or] at hf
    split
    · exact .inl rfl
    · rcases connect_cases inp.banned (inp.select i _).endpoint
        (s.emit (.select (10 + min s.table.size 8 * 10))) with h | ⟨hb, hk, h⟩ <;> rw [h]
      · exact .inl rfl
      · refine .inr ⟨_, rfl, by simpa using hf.1.1, by simpa using hf.1.2, by simpa [inSameGroup] using hf.2,
          by omega, hb, hk, rfl⟩

/-- The top-up loop from iteration `i`; the bound is evaluated before every iteration. -/
def topUp (inp : TickInput) (i : Nat) (s : Manager) : Manager :=
  if h : i < sizeSub P.minimumTcpConnections s.table.size then
    (s.topUpBody P inp i).topUp inp (i + 1)
  else s
termination_by 18446744073709551616 - i
decreasing_by have := sizeSub_lt P.minimumTcpConnections s.table.size; omega

/-- The status record of `tick`. -/
def statusPairs (n : Nat) : List (String × String) :=
  [("type", "network"), ("value", if n > 0 then "Connected" else "Connecting"),
    ("network.tcp.connections", toString n)]

/-- `tick(ec)`: nothing on an error code; otherwise prune, top up when the table
    holds fewer than `minimum_tcp_connections + 1` entries, re-arm the timer for
    8 seconds and publish the status. -/
def tick (ec : ErrorCode) (inp : TickInput) (s : Manager) : Manager :=
  if ec = .success then
    let s₁ := s.prune 0
    let s₂ := if s₁.table.size < P.minimumTcpConnections + 1 then s₁.topUp P inp 0 else s₁
    let s₃ := s₂.wait 8
    s₃.emit (.status (statusPairs s₃.table.size))
  else s

/-- The states at which the top-up loop started from `s₀` tests its bound:
    the start, and the state after each iteration whose test passed. -/
inductive TopUpHead (inp : TickInput) (s₀ : Manager) : Nat → Manager → Prop
  | start : TopUpHead inp s₀ 0 s₀
  | next {i s} : TopUpHead inp s₀ i s → i < sizeSub P.minimumTcpConnections s.table.size →
      TopUpHead inp s₀ (i + 1) (s.topUpBody P inp i)

/-- The heads are the loop's iterations: from each of them the loop runs to the same end. -/
theorem topUp_of_head {inp : TickInput} {s₀ s : Manager} {i : Nat}
    (h : TopUpHead P inp s₀ i s) : s₀.topUp P inp 0 = s.topUp P inp i := by
  induction h with
  | start => rfl
  | next _ hi ih => rw [ih, topUp, dif_pos hi]

end Manager

end Vanillacoin
