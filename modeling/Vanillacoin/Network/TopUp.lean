/-
  What one pass of `tick` does to the table, and how many candidates its
  top-up loop asks for.

  * `topUp_spec`: the top-up loop only appends entries, each retained by a
    `connect` that logged the attempt and the start of a fresh handle, and
    stops no connection;
  * `tick_table_exact`: after `tick(success)` the table holds exactly the
    entries whose handle locked and whose transport was valid, under the same
    keys and handles, followed by the entries of the pass's own `connect`
    calls; the pass stops exactly the live entries with an invalid transport
    (`tick_table_exact_example` is a pass that erases, stops and connects);
  * `topUp_counts`: the bound `minimum_tcp_connections -
    m_tcp_connections.size()` is evaluated again after every iteration, so an
    iteration that connects uses up two units of the deficit `d` at the start
    of the pass, one that does not uses up one: with `k` selections and `c`
    connections, `d ≤ k + c ≤ d + 1`;
  * `tick_topUp_counts`: so the pass makes `d` selections when no `connect`
    succeeds, but `⌈d / 2⌉` when every one does, and then ends with
    `⌈d / 2⌉` new entries, not `d`.
-/
import Vanillacoin.Network.Async

namespace Vanillacoin

/-- A call `connect` makes when it retains a connection: the attempt and the start. -/
def Event.byConnect : Event → Bool
  | .connectionAttempt _ | .start _ => true
  | _ => false

/-- A call of `address_manager::select`. -/
def Event.isSelect : Event → Bool
  | .select _ => true
  | _ => false

/-- A call of `tcp_connection::start`. -/
def Event.isStart : Event → Bool
  | .start _ => true
  | _ => false

/-- A call of `tcp_connection::stop`. -/
def Event.isStop : Event → Bool
  | .stop _ => true
  | _ => false

/-- While the table is no larger than the minimum and the bound is positive,
    one more entry lowers `minimum_tcp_connections - m_tcp_connections.size()`
    by one. -/
theorem sizeSub_succ {a b : Nat} (hb : b ≤ a) (h : 0 < sizeSub a b) :
    b < a ∧ sizeSub a (b + 1) = sizeSub a b - 1 := by
  unfold sizeSub at *; omega

namespace Manager

variable (P : Params)

/-- The calls of the `connect`s that retained the entries `added`. -/
def connectCalls (added : List (Endpoint × Nat)) : List Event :=
  added.flatMap fun e => [.connectionAttempt e.1, .start e.2]

@[simp] theorem connectCalls_nil : connectCalls [] = [] := rfl

@[simp] theorem connectCalls_append (a b : List (Endpoint × Nat)) :
    connectCalls (a ++ b) = connectCalls a ++ connectCalls b :=
  List.flatMap_append _ _ _

/-- **One iteration of the top-up loop**: one `select`, and at most one new
    entry, appended by a `connect` under a fresh handle. -/
theorem topUpBody_spec (inp : TickInput) (i : Nat) (s : Manager) :
    ∃ added L, (s.topUpBody P inp i).table.entries = s.table.entries ++ added ∧
      (s.topUpBody P inp i).log = s.log ++ L ∧ added.length ≤ 1 ∧
      L.filter Event.byConnect = connectCalls added ∧ L.countP Event.isSelect = 1 ∧
      L.countP Event.isStart = added.length ∧ L.filter Event.isStop = [] := by
  rcases topUpBody_cases P inp i s with h | ⟨a, -, -, -, -, -, -, hk, h⟩ <;> rw [h]
  · exact ⟨[], [.select (10 + min s.table.size 8 * 10)], by simp, rfl, by simp, rfl, rfl, rfl,
      rfl⟩
  · refine ⟨[(a.endpoint, s.next)], [.select (10 + min s.table.size 8 * 10),
      .connectionAttempt a.endpoint, .start s.next], ?_, by simp, by simp, rfl, rfl, rfl, rfl⟩
    simp [Table.assign_entries_of_find_none hk]

/-- **The top-up loop only appends**, by `connect`, and stops nothing. -/
theorem topUp_spec (inp : TickInput) (i : Nat) (s : Manager) :
    ∃ added L, (s.topUp P inp i).table.entries = s.table.entries ++ added ∧
      (s.topUp P inp i).log = s.log ++ L ∧ L.filter Event.byConnect = connectCalls added ∧
      L.countP Event.isStart = added.length ∧ L.filter Event.isStop = [] := by
  induction i, s using topUp.induct P inp with
  | case1 i s h ih =>
    obtain ⟨a₁, L₁, he₁, hl₁, -, hc₁, -, hs₁, ht₁⟩ := topUpBody_spec P inp i s
    obtain ⟨a₂, L₂, he₂, hl₂, hc₂, hs₂, ht₂⟩ := ih
    rw [topUp, dif_pos h]
    refine ⟨a₁ ++ a₂, L₁ ++ L₂, by rw [he₂, he₁, List.append_assoc], by rw [hl₂, hl₁,
      List.append_assoc], by simp [List.filter_append, hc₁, hc₂], ?_, by
      simp [List.filter_append, ht₁, ht₂]⟩
    simp [List.countP_append, hs₁, hs₂]
  | case2 i s h => rw [topUp, dif_neg h]; exact ⟨[], [], by simp, by simp, rfl, rfl, rfl⟩

/-- **The top-up loop's count law.**  From iteration `i` on a table no larger
    than the minimum, with `k` selections and `c` connections and `r` the
    loop's bound `minimum_tcp_connections - m_tcp_connections.size()` on entry:
    `c ≤ k ≤ r - i` and `r - i ≤ k + c ≤ r - i + 1`, and the table grows by
    `c`. -/
theorem topUp_counts (inp : TickInput) (i : Nat) (s : Manager)
    (hs : s.table.size ≤ P.minimumTcpConnections) :
    ∃ L, (s.topUp P inp i).log = s.log ++ L ∧
      (s.topUp P inp i).table.size = s.table.size + L.countP Event.isStart ∧
      L.countP Event.isStart ≤ L.countP Event.isSelect ∧
      L.countP Event.isSelect ≤ sizeSub P.minimumTcpConnections s.table.size - i ∧
      sizeSub P.minimumTcpConnections s.table.size - i ≤
        L.countP Event.isSelect + L.countP Event.isStart ∧
      L.countP Event.isSelect + L.countP Event.isStart ≤
        sizeSub P.minimumTcpConnections s.table.size - i + 1 := by
  induction i, s using topUp.induct P inp with
  | case1 i s h ih =>
    obtain ⟨a₁, L₁, he₁, hl₁, ha₁, -, hsel₁, hs₁, -⟩ := topUpBody_spec P inp i s
    have hsize : (s.topUpBody P inp i).table.size = s.table.size + a₁.length := by
      simp [Table.size, he₁]
    obtain ⟨hlt, hsucc⟩ := sizeSub_succ hs (Nat.lt_of_le_of_lt (Nat.zero_le i) h)
    -- the bound after the iteration: one less when it connected
    have hr : sizeSub P.minimumTcpConnections (s.topUpBody P inp i).table.size =
        sizeSub P.minimumTcpConnections s.table.size - a₁.length := by
      rw [hsize]
      rcases Nat.le_one_iff_eq_zero_or_eq_one.1 ha₁ with h₀ | h₁
      · rw [h₀]; rfl
      · rw [h₁]; exact hsucc
    obtain ⟨L₂, hl₂, hz₂, hc₂, hk₂, hd₂, hu₂⟩ := ih (by omega)
    rw [topUp, dif_pos h]
    refine ⟨L₁ ++ L₂, by rw [hl₂, hl₁, List.append_assoc], ?_⟩
    rw [hz₂, hsize, hr] at *
    simp only [List.countP_append, hsel₁, hs₁]
    omega
  | case2 i s h =>
    rw [topUp, dif_neg h]
    exact ⟨[], by simp, by simp, by simp, by simp, by simp; omega, by simp⟩

/-- **The exact effect of `tick(success)` on the table.**  The table after the
    pass holds exactly the entries of the table before it whose handle locked
    and whose transport was valid, with the same keys and handles and in the
    same order, followed by the entries the pass's own `connect` calls
    retained: the calls of the pass that `connect` makes when it retains a
    connection are, in order, the attempt and the start of each of them.  The
    pass calls `stop()` exactly once on each entry whose handle locked and
    whose transport was not valid, in table order, and on no other
    connection. -/
theorem tick_table_exact (inp : TickInput) (s : Manager) :
    ∃ added : List (Endpoint × Nat),
      (s.tick P .success inp).table.entries = s.table.entries.filter (keeps s.conns) ++ added ∧
      ((s.tick P .success inp).log.drop s.log.length).filter Event.byConnect =
        connectCalls added ∧
      ((s.tick P .success inp).log.drop s.log.length).filter Event.isStop =
        (s.table.entries.filter (stops s.conns)).map fun e => .stop e.2 := by
  have hstop : ((s.table.entries.filter (stops s.conns)).map fun e => Event.stop e.2).filter
      Event.byConnect = [] := by simp [List.filter_map, Function.comp_def, Event.byConnect]
  have hstop' : ((s.table.entries.filter (stops s.conns)).map fun e => Event.stop e.2).filter
      Event.isStop = (s.table.entries.filter (stops s.conns)).map fun e => .stop e.2 := by
    simp [List.filter_map, Function.comp_def, Event.isStop]
  rw [tick, if_pos rfl]
  dsimp only
  split
  · obtain ⟨added, L, he, hl, hc, -, ht⟩ := topUp_spec P inp 0 (s.prune 0)
    refine ⟨added, by simp [he, prune_zero_entries], ?_, ?_⟩ <;>
      simp [hl, prune_zero_log, List.filter_append, hc, ht, hstop, hstop', Event.byConnect,
        Event.isStop]
  · refine ⟨[], by simp [prune_zero_entries], ?_, ?_⟩ <;>
      simp [prune_zero_log, List.filter_append, hstop, hstop', Event.byConnect, Event.isStop]

/-- Connections to `1.0.0.1:9195` and `2.0.0.1:9195`, the first then released
    by its owners, the second's transport no longer valid. -/
def releasedAndBroken : Manager :=
  let s := ((init.connect (fun _ => false) ⟨16777217, 9195⟩).1.connect (fun _ => false)
    ⟨33554433, 9195⟩).1
  (s.setConn 0 { s.conns 0 with alive := false }).setConn 1
    { s.conns 1 with transportValid := false }

/-- The pass erases the released entry, stops and erases the invalid one, and
    connects to `1.0.0.1:9195` again, under handle `2`. -/
theorem tick_table_exact_example :
    let s' := releasedAndBroken.tick oneWanted .success offersOne
    s'.table.entries = [(⟨16777217, 9195⟩, 2)] ∧
      (s'.log.drop releasedAndBroken.log.length).filter Event.byConnect =
        [.connectionAttempt ⟨16777217, 9195⟩, .start 2] ∧
      (s'.log.drop releasedAndBroken.log.length).filter Event.isStop = [.stop 1] ∧
      ∃ added : List (Endpoint × Nat),
        s'.table.entries =
            releasedAndBroken.table.entries.filter (keeps releasedAndBroken.conns) ++ added ∧
          (s'.log.drop releasedAndBroken.log.length).filter Event.byConnect = connectCalls added ∧
          (s'.log.drop releasedAndBroken.log.length).filter Event.isStop =
            (releasedAndBroken.table.entries.filter (stops releasedAndBroken.conns)).map
              fun e => .stop e.2 := by
  have hp : releasedAndBroken.prune 0 = ((releasedAndBroken.eraseAt 0).emit (.stop 1)).eraseAt 0 := by
    rw [prune, dif_pos (by decide), if_neg (by decide), prune, dif_pos (by decide),
      if_pos (by decide), if_neg (by decide), prune, dif_neg (by decide)]
    rfl
  refine ⟨?_, ?_, ?_, tick_table_exact oneWanted offersOne releasedAndBroken⟩ <;>
  · simp only [tick, if_true, hp]
    rw [if_pos (by decide), topUp, dif_pos (by decide), topUp, dif_neg (by decide)]
    decide

/-- **The top-up pass fills half the deficit when every `connect` succeeds.**
    For a pass of `tick(success)` whose pruned table holds `size` entries, no
    more than `minimum_tcp_connections`, let `d = minimum_tcp_connections -
    size` (on `std::size_t`, which does not wrap here), `k` be the number of
    `select` calls and `c` the number of
    connections the pass starts.  Then the table ends with `size + c` entries,
    `c ≤ k ≤ d` and `d ≤ k + c ≤ d + 1`.  So the pass makes `d` selections
    when no `connect` succeeds, but `⌈d / 2⌉` when every selection leads to a
    connection, which leaves the table at `size + ⌈d / 2⌉` entries. -/
theorem tick_topUp_counts (inp : TickInput) (s : Manager)
    (hs : (s.prune 0).table.size ≤ P.minimumTcpConnections) :
    let L := (s.tick P .success inp).log.drop s.log.length
    let d := sizeSub P.minimumTcpConnections (s.prune 0).table.size
    (s.tick P .success inp).table.size = (s.prune 0).table.size + L.countP Event.isStart ∧
      L.countP Event.isStart ≤ L.countP Event.isSelect ∧ L.countP Event.isSelect ≤ d ∧
      d ≤ L.countP Event.isSelect + L.countP Event.isStart ∧
      L.countP Event.isSelect + L.countP Event.isStart ≤ d + 1 ∧
      (L.countP Event.isStart = 0 → L.countP Event.isSelect = d) ∧
      (L.countP Event.isStart = L.countP Event.isSelect →
        L.countP Event.isSelect = (d + 1) / 2) := by
  obtain ⟨L, hl, hz, hc, hk, hd, hu⟩ := topUp_counts P inp 0 (s.prune 0) hs
  have hL : (s.tick P .success inp).log.drop s.log.length =
      (s.table.entries.filter (stops s.conns)).map (fun e : Endpoint × Nat => Event.stop e.2) ++
        L ++ [.wait 8, .status (statusPairs ((s.prune 0).topUp P inp 0).table.size)] := by
    simp [tick, if_pos (Nat.lt_succ_of_le hs), hl, prune_zero_log]
  have htick : (s.tick P .success inp).table.size = ((s.prune 0).topUp P inp 0).table.size := by
    simp [tick, if_pos (Nat.lt_succ_of_le hs)]
  intro L' d
  have hsel : L'.countP Event.isSelect = L.countP Event.isSelect := by
    simp [L', hL, List.countP_append, Function.comp_def, Event.isSelect]
  have hst : L'.countP Event.isStart = L.countP Event.isStart := by
    simp [L', hL, List.countP_append, Function.comp_def, Event.isStart]
  rw [hsel, hst, htick, hz]
  simp only [Nat.sub_zero] at hk hd hu
  exact ⟨rfl, hc, hk, hd, hu, fun h => by omega, fun h => by omega⟩

/-- The constants of the failing input: a minimum of 8 connections, the `/16`
    group, every address valid and none local. -/
def freshGroupsParams : Params := ⟨8, 8, fun e => e.address / 65536, fun _ => true, fun _ => false⟩

/-- `select` answering at call `n` a valid, non-local, unbanned address of the
    fresh `/16` group `n + 1`, last tried 600 seconds ago. -/
def freshGroupsInput : TickInput := ⟨fun n _ => ⟨65536 * (n + 1), 9195, 0, 0⟩, fun _ => false, 600⟩

/-- The failing input: on an empty table every `connect` succeeds, and the pass
    ends after 4 selections with 4 entries, not 8. -/
theorem tick_topUp_counts_half :
    let L := (init.tick freshGroupsParams .success freshGroupsInput).log.drop init.log.length
    (init.prune 0).table.size ≤ freshGroupsParams.minimumTcpConnections ∧
      L.countP Event.isSelect = 4 ∧
      (init.tick freshGroupsParams .success freshGroupsInput).table.size = 4 := by
  intro L
  have hp : init.prune 0 = init := by rw [prune, dif_neg (by decide)]
  have hs : (init.prune 0).table.size ≤ freshGroupsParams.minimumTcpConnections := by
    rw [hp]; decide
  have hc : L.countP Event.isStart = L.countP Event.isSelect := by
    simp only [L, tick, if_true, hp]
    rw [if_pos (by decide), topUp, dif_pos (by decide), topUp, dif_pos (by decide), topUp,
      dif_pos (by decide), topUp, dif_pos (by decide), topUp, dif_neg (by decide)]
    decide
  obtain ⟨hz, -, -, -, -, -, hhalf⟩ :=
    tick_topUp_counts freshGroupsParams freshGroupsInput init hs
  have h4 : L.countP Event.isSelect = 4 := by rw [hhalf hc, hp]; decide
  exact ⟨hs, h4, by rw [hz, hc, h4, hp]; rfl⟩

end Manager

end Vanillacoin
