/-
  The size of the connection table: the capacity check of `handle_accept` and
  the bound of the top-up loop of `tick`.

  * `topUpHead_size_le`: the top-up loop, entered with at most
    `minimum_tcp_connections` entries, tests its bound only while the table
    holds at most that many, so `minimum_tcp_connections -
    m_tcp_connections.size()` never wraps; `topUp_size_le` bounds its end;
  * `step_size_le`: no action but an outside `connect` raises the table above
    `max network_tcp_inbound_maximum minimum_tcp_connections`;
  * `table_size_bounded`: the bound over every run of such actions, reached
    by a run of accepts.
-/
import Vanillacoin.Network.Invariants

namespace Vanillacoin

namespace Manager

variable (P : Params)

theorem connect_size_le (banned : Nat → Bool) (ep : Endpoint) (s : Manager) :
    (s.connect banned ep).1.table.size ≤ s.table.size + 1 := by
  rcases connect_cases banned ep s with h | ⟨-, hk, h⟩ <;> rw [h]
  · exact Nat.le_succ _
  · exact (Table.size_assign_of_find_none hk _).le

theorem topUpBody_size_le (inp : TickInput) (i : Nat) (s : Manager) :
    (s.topUpBody P inp i).table.size ≤ s.table.size + 1 := by
  simp only [topUpBody]
  split
  · exact Nat.le_succ _
  · split
    · exact Nat.le_succ _
    · exact connect_size_le _ _ _

/-- An iteration runs only while the table holds fewer than `minimum_tcp_connections`
    entries, when it held at most that many. -/
theorem size_lt_of_lt_sizeSub {n m i : Nat} (h : n ≤ m) (hi : i < sizeSub m n) : n < m := by
  have := sizeSub_le m n h; omega

/-- **The top-up loop tests its bound only at sizes up to `minimum_tcp_connections`.** -/
theorem topUpHead_size_le {inp : TickInput} {s₀ s : Manager} {i : Nat}
    (h₀ : s₀.table.size ≤ P.minimumTcpConnections) (h : TopUpHead P inp s₀ i s) :
    s.table.size ≤ P.minimumTcpConnections := by
  induction h with
  | start => exact h₀
  | @next i s _ hi ih =>
    have := topUpBody_size_le P inp i s
    have := size_lt_of_lt_sizeSub ih hi
    omega

theorem topUp_size_le (inp : TickInput) (i : Nat) (s : Manager)
    (h : s.table.size ≤ P.minimumTcpConnections) :
    (s.topUp P inp i).table.size ≤ P.minimumTcpConnections := by
  induction i, s using topUp.induct P inp with
  | case1 i s hi ih =>
    rw [topUp, dif_pos hi]
    have := topUpBody_size_le P inp i s
    have := size_lt_of_lt_sizeSub h hi
    exact ih (by omega)
  | case2 i s hi => rw [topUp, dif_neg hi]; exact h

theorem prune_size_le (s : Manager) : (s.prune 0).table.size ≤ s.table.size := by
  simpa [Table.size, prune_entries s 0 (Nat.zero_le _)] using List.length_filter_le _ _

theorem tick_size_le (ec : ErrorCode) (inp : TickInput) (s : Manager) :
    (s.tick P ec inp).table.size ≤ max s.table.size P.minimumTcpConnections := by
  unfold tick
  split
  · simp only [emit_table, wait_table]
    have := prune_size_le s
    split
    · have := topUp_size_le P inp 0 _ (by omega : (s.prune 0).table.size ≤ _); omega
    · omega
  · exact le_max_left _ _

theorem handleAccept_size_le {banned : Nat → Bool} {t : Transport} {s s' : Manager}
    (h : s.handleAccept P banned t = .ok s') :
    s'.table.size ≤ max s.table.size P.inboundMaximum := by
  rcases handleAccept_cases P h with rfl | ⟨r, -, hdup, -, hcap, rfl⟩
  · exact le_max_left _ _
  · rw [emit_table, retain_table, inbound_endpoint,
      Table.size_assign_of_find_none (Table.find_none_of_address hdup)]
    omega

/-- Every action other than an outside `connect` keeps the table within
    `max network_tcp_inbound_maximum minimum_tcp_connections` of its size. -/
theorem step_size_le {a : Action} (ha : a.isConnect = false) {s s' : Manager}
    (h : s.step P a = .ok s') :
    s'.table.size ≤ max s.table.size (max P.inboundMaximum P.minimumTcpConnections) := by
  cases a with
  | accept banned t => have := handleAccept_size_le P h; omega
  | connect => cases ha
  | tick ec inp => cases h; have := tick_size_le P ec inp s; omega
  | broadcast => cases h; exact le_max_left _ _
  | stop => rw [step_stop h]; exact le_max_left _ _
  | stopLocked => rw [(step_stopLocked h).2]; simp [Table.size]
  | resolveDone i ec => obtain ⟨_, -, rfl⟩ := step_resolveDone h; exact le_max_left _ _
  | resolveHandler i ep =>
    obtain ⟨_, _, -, h⟩ := step_resolveHandler h
    rcases onResolve_cases h with rfl | ⟨q, rfl⟩ <;> split <;> exact le_max_left _ _
  | timerDone i => obtain ⟨-, rfl⟩ := step_timerDone h; exact le_max_left _ _
  | timerHandler i inp =>
    obtain ⟨ec, -, rfl⟩ := step_timerHandler h
    have h' := tick_size_le P ec inp { s with waits := s.waits.eraseIdx i }
    dsimp only at h'; omega
  | connectionGone => cases h; exact le_max_left _ _
  | transportChanged => cases h; exact le_max_left _ _

/-- **The table never holds more than `max network_tcp_inbound_maximum
    minimum_tcp_connections` entries, and the top-up loop never computes
    `minimum_tcp_connections - m_tcp_connections.size()` on a larger table.**  The
    first holds in every state reached from the empty manager by `handle_accept`,
    `tick` (with any answers of the address manager, any liveness and validity of
    the connections), `broadcast`, `stop`, the completions of the resolver and the
    timer and the changes the node makes to connections, in any order; the second
    in every pass of `tick`: the loop it enters after pruning tests its bound only
    while the table holds at most `minimum_tcp_connections` entries. -/
theorem table_size_bounded :
    (∀ s, Run P (fun a => a.isConnect = false) init s →
      s.table.size ≤ max P.inboundMaximum P.minimumTcpConnections) ∧
    ∀ (inp : TickInput) (s s' : Manager) (i : Nat),
      (s.prune 0).table.size < P.minimumTcpConnections + 1 →
        TopUpHead P inp (s.prune 0) i s' → s'.table.size ≤ P.minimumTcpConnections := by
  refine ⟨fun s hs => ?_, fun inp s s' i h₀ h => topUpHead_size_le P (by omega) h⟩
  induction hs with
  | refl => simp [init, Table.size]
  | step a _ ha hst ih => have := step_size_le P ha hst; omega

/-- The constants of `oneWanted` with two incoming connections allowed. -/
def twoInbound : Params := { oneWanted with inboundMaximum := 2 }

/-- Three accepts from distinct addresses with two incoming connections
    allowed: the third, from `3.0.0.1:50000`, is stopped at the bound; and the
    first iteration of the top-up loop on the empty table connects, reaching
    `minimum_tcp_connections`. -/
theorem table_size_bounded_example :
    let s := acceptedTwo.emit (.stopTransport (some ⟨50331649, 50000⟩))
    acceptedTwo.handleAccept twoInbound (fun _ => false) ⟨some ⟨50331649, 50000⟩⟩ = .ok s ∧
      s.table.size = 2 ∧
      s.table.size ≤ max twoInbound.inboundMaximum twoInbound.minimumTcpConnections ∧
      TopUpHead twoInbound offersOne (init.prune 0) 1
        ((init.prune 0).topUpBody twoInbound offersOne 0) ∧
      ((init.prune 0).topUpBody twoInbound offersOne 0).table.size = 1 ∧
      ((init.prune 0).topUpBody twoInbound offersOne 0).table.size ≤
        twoInbound.minimumTcpConnections := by
  intro s
  have h₃ : acceptedTwo.handleAccept twoInbound (fun _ => false) ⟨some ⟨50331649, 50000⟩⟩ =
      .ok s := rfl
  have hp : init.prune 0 = init := by rw [prune, dif_neg (by decide)]
  have hh : TopUpHead twoInbound offersOne (init.prune 0) 1
      ((init.prune 0).topUpBody twoInbound offersOne 0) := .next .start (by rw [hp]; decide)
  have hb := table_size_bounded twoInbound
  exact ⟨h₃, by decide, hb.1 s (.step (.accept (fun _ => false) ⟨some ⟨50331649, 50000⟩⟩)
    (.step (.accept (fun _ => false) ⟨some ⟨33554433, 50000⟩⟩)
      (.step (.accept (fun _ => false) ⟨some ⟨16777217, 50000⟩⟩) .refl rfl rfl) rfl rfl) rfl h₃),
    hh, by rw [hp]; decide, hb.2 offersOne init _ 1 (by rw [hp]; decide) hh⟩

end Manager

end Vanillacoin
