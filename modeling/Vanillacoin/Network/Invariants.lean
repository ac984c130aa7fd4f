/-
  What every run of the connection manager keeps.

  * `WellFormed` is the invariant: the handles in the table and the started
    handles are allocated, every live connection the manager started and did
    not stop is in the table under its own endpoint, and no two incoming
    entries share an address;
  * one lemma per operation says it keeps `WellFormed`; `WellFormed.step`
    assembles them for every action, and `WellFormed.run` extends it to every
    state reached from the empty manager;
  * `inserts_fresh_and_retains_started`: `handle_accept` and `connect` insert
    only under absent keys, and no live connection the manager started and did
    not stop is missing from the table;
  * `inbound_one_per_address`: one incoming entry per address, and
    `handle_accept` inserts only an address no entry has.

  Each is followed by a run of accepts and connects it applies to.
-/
import Vanillacoin.Network.Async

namespace Vanillacoin

namespace Manager

variable {P : Params}

/-- The invariant of the connection manager. -/
structure WellFormed (s : Manager) : Prop where
  handle_lt : ∀ e ∈ s.table.entries, e.2 < s.next
  start_lt : ∀ h, Event.start h ∈ s.log → h < s.next
  retained : ∀ h, Event.start h ∈ s.log → (s.conns h).alive = true → Event.stop h ∉ s.log →
    ((s.conns h).endpoint, h) ∈ s.table.entries
  inboundUnique : ∀ e ∈ s.table.entries, ∀ e' ∈ s.table.entries,
    (s.conns e.2).direction = .incoming → (s.conns e'.2).direction = .incoming →
    e.1.address = e'.1.address → e = e'

theorem init_wellFormed : init.WellFormed :=
  ⟨by simp [init], by simp [init], by simp [init], by simp [init]⟩

/-- Extending the log by calls other than `start`, and nothing else, keeps the invariant. -/
theorem WellFormed.frame {s s' : Manager} (hs : s.WellFormed) (ht : s'.table = s.table)
    (hc : s'.conns = s.conns) (hn : s'.next = s.next) (evs : List Event)
    (hl : s'.log = s.log ++ evs) (hev : ∀ h, Event.start h ∉ evs) : s'.WellFormed where
  handle_lt := by rw [ht, hn]; exact hs.handle_lt
  start_lt h hh := by
    rw [hl, List.mem_append] at hh
    rw [hn]; exact hs.start_lt h (hh.resolve_right (hev h))
  retained h hh ha hst := by
    rw [hl, List.mem_append] at hh hst
    rw [hc] at ha ⊢; rw [ht]
    exact hs.retained h (hh.resolve_right (hev h)) ha fun h' => hst (.inl h')
  inboundUnique := by rw [ht, hc]; exact hs.inboundUnique

theorem WellFormed.emit {s : Manager} (hs : s.WellFormed) {e : Event} (he : ∀ h, e ≠ .start h) :
    (s.emit e).WellFormed :=
  hs.frame rfl rfl rfl [e] rfl fun h hm => he h (List.mem_singleton.1 hm).symm

theorem WellFormed.wait {s : Manager} (hs : s.WellFormed) (n : Nat) : (s.wait n).WellFormed :=
  hs.frame rfl rfl rfl [.wait n] rfl (by simp)

/-- **Retaining and starting a connection under an absent key keeps the invariant**,
    if, when it is incoming, no entry has its address. -/
theorem WellFormed.retain_start {s : Manager} (hs : s.WellFormed) {c : Connection}
    (hk : s.table.find c.endpoint = none)
    (hin : c.direction = .incoming → ∀ e ∈ s.table.entries, e.1.address ≠ c.endpoint.address) :
    ((s.retain c).emit (.start s.next)).WellFormed := by
  have hent := Table.assign_entries_of_find_none hk s.next
  have hold : ∀ e ∈ s.table.entries, Function.update s.conns s.next c e.2 = s.conns e.2 :=
    fun e he => Function.update_noteq (Nat.ne_of_lt (hs.handle_lt e he)) _ _
  constructor
  · intro e he
    simp only [emit_table, retain_table, hent, List.mem_append, List.mem_singleton] at he
    rcases he with he | rfl
    · exact Nat.lt_succ_of_lt (hs.handle_lt e he)
    · exact Nat.lt_succ_self _
  · intro h hh
    simp only [emit_log, retain_log, List.mem_append, List.mem_singleton, Event.start.injEq] at hh
    rcases hh with hh | rfl
    · exact Nat.lt_succ_of_lt (hs.start_lt h hh)
    · exact Nat.lt_succ_self _
  · intro h hh ha hst
    simp only [emit_log, retain_log, List.mem_append, List.mem_singleton, Event.start.injEq,
      not_or] at hh hst
    simp only [emit_conns, retain_conns, emit_table, retain_table, hent] at ha ⊢
    by_cases hn : h = s.next
    · subst hn; simp
    · rw [Function.update_noteq hn] at ha ⊢
      exact List.mem_append_left _ (hs.retained h (hh.resolve_right hn) ha hst.1)
  · intro e he e' he' hd hd' ha
    simp only [emit_table, retain_table, hent, List.mem_append, List.mem_singleton] at he he'
    simp only [emit_conns, retain_conns] at hd hd'
    rcases he with he | rfl <;> rcases he' with he' | rfl
    · rw [hold e he] at hd; rw [hold e' he'] at hd'
      exact hs.inboundUnique e he e' he' hd hd' ha
    · simp only [Function.update_same] at hd'; exact absurd ha (hin hd' e he)
    · simp only [Function.update_same] at hd; exact absurd ha.symm (hin hd e' he')
    · rfl

theorem WellFormed.handleAccept {s s' : Manager} (hs : s.WellFormed) {banned : Nat → Bool}
    {t : Transport} (h : s.handleAccept P banned t = .ok s') : s'.WellFormed := by
  rcases handleAccept_cases P h with rfl | ⟨r, -, hdup, -, -, rfl⟩
  · exact hs.emit (by simp)
  · exact hs.retain_start (Table.find_none_of_address hdup) fun _ => hdup

theorem WellFormed.connect {s : Manager} (hs : s.WellFormed) (banned : Nat → Bool)
    (ep : Endpoint) : (s.connect banned ep).1.WellFormed := by
  rcases connect_cases banned ep s with h | ⟨-, hk, h⟩ <;> rw [h]
  · exact hs
  · exact (hs.emit (by simp)).retain_start hk (by simp [outbound])

theorem WellFormed.prune {s : Manager} (hs : s.WellFormed) : (s.prune 0).WellFormed := by
  obtain ⟨hc, hn, -⟩ := prune_frame s 0
  have hnostart : ∀ h, Event.start h ∉
      (s.table.entries.filter (stops s.conns)).map fun e => Event.stop e.2 := by simp
  constructor
  · intro e he
    rw [prune_zero_entries, List.mem_filter] at he
    rw [hn]; exact hs.handle_lt e he.1
  · intro h hh
    rw [prune_zero_log, List.mem_append] at hh
    rw [hn]; exact hs.start_lt h (hh.resolve_right (hnostart h))
  · intro h hh ha hst
    rw [prune_zero_log, List.mem_append] at hh
    rw [prune_zero_log, List.mem_append, not_or] at hst
    rw [hc] at ha ⊢
    have hm := hs.retained h (hh.resolve_right (hnostart h)) ha hst.1
    rw [prune_zero_entries, List.mem_filter]
    refine ⟨hm, ?_⟩
    cases hv : (s.conns h).transportValid
    · exact absurd (List.mem_map.2 ⟨_, List.mem_filter.2 ⟨hm, by simp [stops, ha, hv]⟩, rfl⟩)
        hst.2
    · simp [keeps, ha, hv]
  · intro e he e' he'
    rw [prune_zero_entries, List.mem_filter] at he he'
    rw [hc]; exact hs.inboundUnique e he.1 e' he'.1

theorem WellFormed.topUpBody {s : Manager} (hs : s.WellFormed) (inp : TickInput) (i : Nat) :
    (s.topUpBody P inp i).WellFormed := by
  have h₁ : (s.emit (.select (10 + min s.table.size 8 * 10))).WellFormed := hs.emit (by simp)
  simp only [Manager.topUpBody]
  split
  · exact h₁
  · split
    · exact h₁
    · exact h₁.connect _ _

theorem WellFormed.topUp {s : Manager} (hs : s.WellFormed) (inp : TickInput) (i : Nat) :
    (s.topUp P inp i).WellFormed := by
  induction i, s using topUp.induct P inp with
  | case1 i s h ih => rw [Manager.topUp, dif_pos h]; exact ih (hs.topUpBody inp i)
  | case2 i s h => rw [Manager.topUp, dif_neg h]; exact hs

theorem WellFormed.tick {s : Manager} (hs : s.WellFormed) (ec : ErrorCode) (inp : TickInput) :
    (s.tick P ec inp).WellFormed := by
  unfold Manager.tick
  split
  · have h₂ : (if (s.prune 0).table.size < P.minimumTcpConnections + 1 then
        (s.prune 0).topUp P inp 0 else s.prune 0).WellFormed := by
      split
      · exact hs.prune.topUp inp 0
      · exact hs.prune
    exact (h₂.wait 8).emit (by simp)
  · exact hs

theorem WellFormed.broadcast {s : Manager} (hs : s.WellFormed) (buf : List UInt8) :
    (s.broadcast buf).WellFormed :=
  hs.frame rfl rfl rfl _ rfl fun h hm => by
    obtain ⟨_, _, _, he⟩ := mem_onLive.1 hm; cases he

theorem WellFormed.cancel {s : Manager} (hs : s.WellFormed) : s.cancel.WellFormed :=
  hs.frame rfl rfl rfl [] (by simp) (by simp)

theorem WellFormed.stopConnections {s : Manager} (hs : s.WellFormed) :
    s.stopConnections.WellFormed where
  handle_lt := by simp
  start_lt h hh := by
    simp only [stopConnections_log, List.mem_append] at hh
    exact hs.start_lt h (hh.resolve_right fun hm => by
      obtain ⟨_, _, _, he⟩ := mem_onLive.1 hm; cases he)
  retained h hh ha hst := by
    simp only [stopConnections_log, stopConnections_conns, List.mem_append, not_or] at hh hst ha
    have hh : Event.start h ∈ s.log := hh.resolve_right fun hm => by
      obtain ⟨_, _, _, he⟩ := mem_onLive.1 hm; cases he
    exact absurd (mem_onLive.2 ⟨_, hs.retained h hh ha hst.1, ha, rfl⟩) hst.2
  inboundUnique := by simp

theorem WellFormed.stop {s : Manager} (hs : s.WellFormed) : s.stop.WellFormed :=
  hs.cancel.stopConnections

theorem WellFormed.withStopping {s : Manager} (hs : s.WellFormed) (n : Nat) :
    ({ s with stopping := n } : Manager).WellFormed :=
  hs.frame rfl rfl rfl [] (by simp) (by simp)

/-- A change the node makes to a connection keeps the invariant when it keeps the
    connection's direction and endpoint and does not revive it. -/
theorem WellFormed.setConn {s : Manager} (hs : s.WellFormed) {h : Nat} {c : Connection}
    (hd : c.direction = (s.conns h).direction) (he : c.endpoint = (s.conns h).endpoint)
    (ha : c.alive = true → (s.conns h).alive = true) : (s.setConn h c).WellFormed := by
  have hdir : ∀ x, (Function.update s.conns h c x).direction = (s.conns x).direction := by
    intro x; by_cases hx : x = h
    · subst hx; simpa using hd
    · simp [hx]
  refine ⟨hs.handle_lt, hs.start_lt, fun x hx hxa hxs => ?_, fun e e' => ?_⟩
  · simp only [setConn_conns] at hxa ⊢
    by_cases hxh : x = h
    · subst hxh; simp only [Function.update_same] at hxa ⊢
      rw [he]; exact hs.retained x hx (ha hxa) hxs
    · simp only [Function.update_noteq hxh] at hxa ⊢
      exact hs.retained x hx hxa hxs
  · simp only [setConn_conns, setConn_table, hdir]; exact hs.inboundUnique e e'

theorem WellFormed.issue {s : Manager} (hs : s.WellFormed) (qs : List Query) (q : Query) :
    (s.issue qs q).WellFormed :=
  hs.frame rfl rfl rfl _ rfl (by simp)

theorem WellFormed.onResolve {s s' : Manager} (hs : s.WellFormed) {qs : List Query}
    {ec : ErrorCode} {ep : Endpoint} (h : onResolve qs ec ep s = .ok s') : s'.WellFormed := by
  have h₁ : (if ec = .success then s.emit (.add ep localSource) else s).WellFormed := by
    split
    · exact hs.emit (by simp)
    · exact hs
  rcases onResolve_cases h with rfl | ⟨q, rfl⟩
  · exact h₁
  · exact h₁.issue _ q

theorem WellFormed.withResolutions {s : Manager} (hs : s.WellFormed) (rs : List Resolution) :
    ({ s with resolutions := rs } : Manager).WellFormed :=
  hs.frame rfl rfl rfl [] (by simp) (by simp)

theorem WellFormed.withWaits {s : Manager} (hs : s.WellFormed) (ws : List Stage) :
    ({ s with waits := ws } : Manager).WellFormed :=
  hs.frame rfl rfl rfl [] (by simp) (by simp)

/-- **Every action keeps the invariant.** -/
theorem WellFormed.step {s s' : Manager} (hs : s.WellFormed) {a : Action}
    (h : s.step P a = .ok s') : s'.WellFormed := by
  cases a with
  | accept banned t => exact hs.handleAccept h
  | connect banned ep => cases h; exact hs.connect banned ep
  | tick ec inp => cases h; exact hs.tick ec inp
  | broadcast buf => cases h; exact hs.broadcast buf
  | stop => rw [step_stop h]; exact hs.cancel.withStopping _
  | stopLocked => rw [(step_stopLocked h).2]; exact hs.stopConnections.withStopping _
  | resolveDone i ec => obtain ⟨_, -, rfl⟩ := step_resolveDone h; exact hs.withResolutions _
  | resolveHandler i ep =>
    obtain ⟨_, _, -, h⟩ := step_resolveHandler h; exact (hs.withResolutions _).onResolve h
  | timerDone i => obtain ⟨-, rfl⟩ := step_timerDone h; exact hs.withWaits _
  | timerHandler i inp => obtain ⟨_, -, rfl⟩ := step_timerHandler h; exact (hs.withWaits _).tick _ inp
  | connectionGone h' => cases h; exact hs.setConn rfl rfl fun h => by simp at h
  | transportChanged h' v r => cases h; exact hs.setConn rfl rfl id

/-- Every state reached from a well-formed one is well formed. -/
theorem WellFormed.run {ok : Action → Prop} {s₀ s : Manager} (h₀ : s₀.WellFormed)
    (h : Run P ok s₀ s) : s.WellFormed := by
  induction h with
  | refl => exact h₀
  | step a _ _ hst ih => exact ih.step hst

/-! ## The table under every interleaving -/

variable (P)

/-- **No table entry is replaced, and no started connection is orphaned.**
    `handle_accept` and `connect` either leave the table as it is or insert under a
    key absent from it (the transport's remote endpoint, the endpoint connected
    to); and in every state reached from the empty manager, every connection the
    manager started that is still live and that it did not stop is in the table
    under its own endpoint with its own handle. -/
theorem inserts_fresh_and_retains_started :
    (∀ (banned : Nat → Bool) (t : Transport) (s s' : Manager),
      s.handleAccept P banned t = .ok s' →
        s'.table = s.table ∨
          ∃ r, t.remote = some r ∧ s.table.find r = none ∧ s'.table = s.table.assign r s.next) ∧
    (∀ (banned : Nat → Bool) (ep : Endpoint) (s : Manager),
      (s.connect banned ep).1.table = s.table ∨
        s.table.find ep = none ∧ (s.connect banned ep).1.table = s.table.assign ep s.next) ∧
    ∀ s, Run P (fun _ => True) init s → ∀ h, Event.start h ∈ s.log →
      (s.conns h).alive = true → Event.stop h ∉ s.log → ((s.conns h).endpoint, h) ∈ s.table.entries := by
  refine ⟨fun banned t s s' h => ?_, fun banned ep s => ?_, fun s hs =>
    (init_wellFormed.run hs).retained⟩
  · rcases handleAccept_cases P h with rfl | ⟨r, hr, hdup, -, -, rfl⟩
    · exact .inl rfl
    · exact .inr ⟨r, hr, Table.find_none_of_address hdup, rfl⟩
  · rcases connect_cases banned ep s with h | ⟨-, hk, h⟩ <;> rw [h]
    · exact .inl rfl
    · exact .inr ⟨hk, rfl⟩

/-- An incoming connection from `1.0.0.1:50000`, accepted and started under handle `0`. -/
def acceptedOne : Manager := (init.retain (inbound ⟨16777217, 50000⟩)).emit (.start 0)

/-- The accept inserts its remote endpoint, absent before, under handle `0`; a
    `connect` to `2.0.0.1:9195` then inserts it under handle `1`; both
    connections are started, live and in the table. -/
theorem inserts_fresh_and_retains_started_example :
    let s := (acceptedOne.connect (fun _ => false) ⟨33554433, 9195⟩).1
    init.handleAccept oneWanted (fun _ => false) ⟨some ⟨16777217, 50000⟩⟩ = .ok acceptedOne ∧
      (∃ r, (⟨some ⟨16777217, 50000⟩⟩ : Transport).remote = some r ∧ init.table.find r = none ∧
        acceptedOne.table = init.table.assign r init.next) ∧
      (acceptedOne.table.find ⟨33554433, 9195⟩ = none ∧
        s.table = acceptedOne.table.assign ⟨33554433, 9195⟩ acceptedOne.next) ∧
      Event.start 0 ∈ s.log ∧ Event.start 1 ∈ s.log ∧
      ∀ h, Event.start h ∈ s.log → (s.conns h).alive = true → Event.stop h ∉ s.log →
        ((s.conns h).endpoint, h) ∈ s.table.entries := by
  have hacc : init.handleAccept oneWanted (fun _ => false) ⟨some ⟨16777217, 50000⟩⟩ =
      .ok acceptedOne := rfl
  have hc := inserts_fresh_and_retains_started oneWanted
  exact ⟨hacc, (hc.1 _ _ _ _ hacc).resolve_left fun h => absurd (congrArg Table.size h) (by decide),
    (hc.2.1 _ _ _).resolve_left fun h => absurd (congrArg Table.size h) (by decide), by decide,
    by decide, hc.2.2 _ (.step (.connect _ _)
      (.step (.accept (fun _ => false) ⟨some ⟨16777217, 50000⟩⟩) .refl trivial hacc) trivial rfl)⟩

/-- **At most one incoming entry per address.**  In every state reached from the
    empty manager, two entries whose connections `handle_accept` created
    (`direction_incoming`) with the same address are the same entry; and the entry
    `handle_accept` inserts has an address that no entry had, live or not, of
    either direction. -/
theorem inbound_one_per_address :
    (∀ s, Run P (fun _ => True) init s → ∀ e ∈ s.table.entries, ∀ e' ∈ s.table.entries,
      (s.conns e.2).direction = .incoming → (s.conns e'.2).direction = .incoming →
      e.1.address = e'.1.address → e = e') ∧
    ∀ (banned : Nat → Bool) (t : Transport) (s s' : Manager),
      s.handleAccept P banned t = .ok s' → ∀ e ∈ s'.table.entries, e ∉ s.table.entries →
        ∀ e' ∈ s.table.entries, e'.1.address ≠ e.1.address := by
  refine ⟨fun s hs => (init_wellFormed.run hs).inboundUnique, fun banned t s s' h e he hne => ?_⟩
  rcases handleAccept_cases P h with rfl | ⟨r, -, hdup, -, -, rfl⟩
  · exact absurd he hne
  · simp only [emit_table, retain_table, inbound_endpoint, Table.assign_entries_of_find_none
      (Table.find_none_of_address hdup), List.mem_append, List.mem_singleton] at he
    rcases he with he | rfl
    · exact absurd he hne
    · exact hdup

/-- A second incoming connection, from `2.0.0.1:50000`, accepted under handle `1`. -/
def acceptedTwo : Manager := (acceptedOne.retain (inbound ⟨33554433, 50000⟩)).emit (.start 1)

/-- The second accept inserts an address the first entry does not have; a third,
    from `1.0.0.1:50001`, the first entry's address on another port, is stopped,
    and the two incoming entries keep their distinct addresses. -/
theorem inbound_one_per_address_example :
    let s := acceptedTwo.emit (.stopTransport (some ⟨16777217, 50001⟩))
    acceptedOne.handleAccept oneWanted (fun _ => false) ⟨some ⟨33554433, 50000⟩⟩ = .ok acceptedTwo ∧
      (⟨33554433, 50000⟩, 1) ∈ acceptedTwo.table.entries ∧
      (⟨33554433, 50000⟩, 1) ∉ acceptedOne.table.entries ∧
      (∀ e' ∈ acceptedOne.table.entries, e'.1.address ≠ 33554433) ∧
      acceptedTwo.handleAccept oneWanted (fun _ => false) ⟨some ⟨16777217, 50001⟩⟩ = .ok s ∧
      s.table.size = 2 ∧
      ∀ e ∈ s.table.entries, ∀ e' ∈ s.table.entries, (s.conns e.2).direction = .incoming →
        (s.conns e'.2).direction = .incoming → e.1.address = e'.1.address → e = e' := by
  have h₁ : acceptedOne.handleAccept oneWanted (fun _ => false) ⟨some ⟨33554433, 50000⟩⟩ =
      .ok acceptedTwo := rfl
  have h₂ : acceptedTwo.handleAccept oneWanted (fun _ => false) ⟨some ⟨16777217, 50001⟩⟩ =
      .ok (acceptedTwo.emit (.stopTransport (some ⟨16777217, 50001⟩))) := rfl
  have hc := inbound_one_per_address oneWanted
  exact ⟨h₁, by decide, by decide, hc.2 _ _ _ _ h₁ (⟨33554433, 50000⟩, 1) (by decide) (by decide),
    h₂, by decide,
    hc.1 _ (.step (.accept (fun _ => false) ⟨some ⟨16777217, 50001⟩⟩)
      (.step (.accept (fun _ => false) ⟨some ⟨33554433, 50000⟩⟩)
        (.step (.accept (fun _ => false) ⟨some ⟨16777217, 50000⟩⟩) .refl trivial rfl) trivial h₁)
      trivial h₂)⟩

end Manager

end Vanillacoin
