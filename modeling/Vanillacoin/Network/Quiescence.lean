/-
  `tcp_connection_manager` after `stop()`: the work its cancelled operations
  still start.

  `stop()` cancels the resolver and the timer before it takes
  `mutex_tcp_connections_` (the actions `stop` and `stopLocked`), and neither
  handler asks whether the manager was stopped.

  * `resolver_outlives_stop`: the handler of a resolution that `stop()`
    cancelled resolves the rest of its list, whatever its error code, after
    `stop()` returned; nothing cancels that resolution, and its handler gives
    the address manager the endpoint it resolves;
  * `timer_outlives_stop`: a `tick` whose expiry was queued when `stop()`
    began runs after the cancel and re-arms the timer; after `stop()` returned
    the new wait expires and runs `tick` in full, which re-arms the timer
    again and, on the emptied table, connects to the first address the address
    manager offers when it passes the filters (`tick_connects_from_empty`);
  * `handlers_outlive_stop` puts the two together.
-/
import Vanillacoin.Network.Diversity
import Vanillacoin.Network.Outstanding

namespace Vanillacoin

/-- A call of the resolver's handlers: `async_resolve` or the address manager's `add`. -/
def Event.fromResolver : Event → Bool
  | .resolve _ | .add _ _ => true
  | _ => false

namespace Manager

variable (P : Params)

/-! ### The resolver -/

/-- The handler of a resolution of at most 101 queries ends normally: the
    rest of its list passes the assertion of `do_resolve`. -/
theorem onResolve_ok {qs : List Query} (hn : qs.length ≤ 101) (ec : ErrorCode) (ep : Endpoint)
    (s : Manager) : ∃ s', onResolve qs ec ep s = .ok s' := by
  match qs, hn with
  | [], _ => exact ⟨_, rfl⟩
  | [_], _ => exact ⟨_, rfl⟩
  | _ :: q :: qs, hn =>
    have h : qs.length + 1 ≤ 100 := by simp only [List.length_cons] at hn; omega
    exact ⟨_, by simp [onResolve, resolveRest, doResolve, h]; rfl⟩

/-- The handler of a resolution that completed with success gives its
    endpoint to the address manager first. -/
theorem add_mem_onResolve {qs : List Query} {ep : Endpoint} {s s' : Manager}
    (h : onResolve qs .success ep s = .ok s') :
    ∃ evs, s'.log = s.log ++ .add ep localSource :: evs := by
  rcases onResolve_cases h with rfl | ⟨q, rfl⟩ <;> simp

/-- **A cancelled resolution resolves the rest of its list after `stop()`.**
    For a pending resolution whose handler holds at least two queries, run
    `stop()` to its end: the handler, run with `operation_aborted`, calls
    `async_resolve` on the next query.  That resolution is outstanding and not
    cancelled; when it completes, its handler gives the endpoint to the
    address manager. -/
theorem resolver_outlives_stop {s : Manager} {i : Nat} {q q' : Query} {qs : List Query}
    (hr : s.resolutions[i]? = some ⟨q :: q' :: qs, .pending⟩) (hn : qs.length < 100)
    (ep ep' : Endpoint) :
    ∃ s₁ s₃ s₄ s₅, s.step P .stop = .ok s₁ ∧ s₁.step P .stopLocked = .ok s.stop ∧
      s.stop.step P (.resolveHandler i ep) = .ok s₃ ∧ s₃.log = s.stop.log ++ [.resolve q'] ∧
      s₃.step P (.resolveDone (s₃.resolutions.length - 1) .success) = .ok s₄ ∧
      s₄.step P (.resolveHandler (s₃.resolutions.length - 1) ep') = .ok s₅ ∧
      Event.add ep' localSource ∈ s₅.log.drop s.stop.log.length := by
  obtain ⟨s₁, h₁, h₂⟩ := step_stop_stopLocked P s
  have hr₂ : s.stop.resolutions[i]? = some ⟨q :: q' :: qs, .queued .operationAborted⟩ := by
    simp [Manager.stop, hr, Stage.cancel]
  -- the handler of the cancelled resolution issues the next one
  let t := { s.stop with resolutions := s.stop.resolutions.eraseIdx i }
  have h₃ : s.stop.step P (.resolveHandler i ep) = .ok (t.issue (q' :: qs) q') := by
    simp only [step, hr₂]
    simp [onResolve, resolveRest, doResolve, Nat.succ_le_of_lt hn]
  have hj : (t.issue (q' :: qs) q').resolutions[t.resolutions.length]? =
      some ⟨q' :: qs, .pending⟩ := by simp
  -- its completion with success, and its handler
  let u := { t.issue (q' :: qs) q' with resolutions :=
    (t.issue (q' :: qs) q').resolutions.set t.resolutions.length ⟨q' :: qs, .queued .success⟩ }
  have hu : u.resolutions[t.resolutions.length]? = some ⟨q' :: qs, .queued .success⟩ := by
    simp [u]
  obtain ⟨s₅, h₅⟩ := @onResolve_ok (q' :: qs) (by simp only [List.length_cons]; omega) .success ep'
    { u with resolutions := u.resolutions.eraseIdx t.resolutions.length }
  obtain ⟨evs, hl⟩ := add_mem_onResolve h₅
  have hlen : (t.issue (q' :: qs) q').resolutions.length - 1 = t.resolutions.length := by simp
  refine ⟨s₁, _, u, s₅, h₁, h₂, h₃, rfl, ?_, ?_, ?_⟩
  · rw [hlen]; simp only [step, hj]
  · rw [hlen]; simp only [step, hu]; exact h₅
  · rw [hl]; simp [u, t]

/-! ### The timer -/

/-- The last wait of `ws ++ [w]`, completed and its handler run, leaves `ws`. -/
theorem set_eraseIdx_length {ws : List Stage} {w w' : Stage} :
    ((ws ++ [w]).set ws.length w').eraseIdx ws.length = ws := by
  induction ws with
  | nil => rfl
  | cons _ ws ih => simp only [List.cons_append, List.length_cons, List.set_cons_succ,
      List.eraseIdx_cons_succ, ih]

/-- **`tick` connects on an empty table.**  A pass of `tick(success)` on an
    empty table whose loop bound is positive connects to the address the
    first `select` returns when it is valid, not local, not banned and last
    tried at least 600 seconds before. -/
theorem tick_connects_from_empty {inp : TickInput} {s : Manager} (he : s.table.entries = [])
    (hm : 0 < sizeSub P.minimumTcpConnections 0)
    (hv : P.isValid (inp.select 0 10).endpoint = true)
    (hl : P.isLocal (inp.select 0 10).endpoint = false)
    (ht : 600 ≤ inp.now - (inp.select 0 10).lastTry)
    (hb : inp.banned (inp.select 0 10).endpoint.address = false) :
    Event.start s.next ∈ (s.tick P .success inp).log := by
  have hs : s.table.size = 0 := by simp [Table.size, he]
  have hp : s.prune 0 = s := by rw [prune, dif_neg (by simp [he])]
  have hb' : inp.banned (inp.select 0 10).address = false := hb
  have hbody : Event.start s.next ∈ (s.topUpBody P inp 0).log := by
    simp [topUpBody, inSameGroup, connect, Table.find, hs, he, hv, hl, hb', Int.not_lt.2 ht]
  obtain ⟨evs, hevs⟩ := topUp_log P inp 1 (s.topUpBody P inp 0)
  have htop : Event.start s.next ∈ (s.topUp P inp 0).log := by
    rw [topUp, dif_pos (by rw [hs]; exact hm), hevs]; exact List.mem_append_left _ hbody
  simp only [tick, if_true, hp, hs, Nat.zero_lt_succ, emit_log, wait]
  exact List.mem_append_left _ (List.mem_append_left _ htop)

/-- **A `tick` running across `stop()` outlives it.**  When an expiry of the
    timer is queued with success as `stop()` begins, its `tick` runs after
    the cancel and re-arms the timer; `stop()` then takes the lock and
    empties the table.  The new wait expires after `stop()` returned, and its
    handler runs `tick` with success on the emptied table, in full: it
    re-arms the timer again, and it connects to the first address the address
    manager offers when that address passes the filters. -/
theorem timer_outlives_stop {s : Manager} {i : Nat} (hw : s.waits[i]? = some (.queued .success))
    (inp inp' : TickInput) :
    ∃ s₁ s₂ s₃ s₄, s.step P .stop = .ok s₁ ∧ s₁.step P (.timerHandler i inp) = .ok s₂ ∧
      s₂.step P .stopLocked = .ok s₃ ∧ s₃.table.entries = [] ∧
      s₃.waits.getLast? = some .pending ∧
      s₃.step P (.timerDone (s₃.waits.length - 1)) = .ok s₄ ∧
      s₄.step P (.timerHandler (s₃.waits.length - 1) inp') =
        .ok ({ s₃ with waits := s₃.waits.dropLast }.tick P .success inp') ∧
      ({ s₃ with waits := s₃.waits.dropLast }.tick P .success inp').waits.getLast? =
        some .pending ∧
      (0 < sizeSub P.minimumTcpConnections 0 → P.isValid (inp'.select 0 10).endpoint = true →
        P.isLocal (inp'.select 0 10).endpoint = false →
        600 ≤ inp'.now - (inp'.select 0 10).lastTry →
        inp'.banned (inp'.select 0 10).endpoint.address = false →
        Event.start s₃.next ∈ ({ s₃ with waits := s₃.waits.dropLast }.tick P .success inp').log) := by
  -- the cancel leaves the queued expiry, whose `tick` re-arms the timer
  obtain ⟨s₁, h₁, hw₁, hs₁⟩ : ∃ s₁, s.step P .stop = .ok s₁ ∧
      s₁.waits[i]? = some (.queued .success) ∧ s₁.stopping = s.stopping + 1 :=
    ⟨_, rfl, by simp [hw, Stage.cancel], rfl⟩
  obtain ⟨s₂, h₂, hw₂, hs₂⟩ : ∃ s₂, s₁.step P (.timerHandler i inp) = .ok s₂ ∧
      s₂.waits = (s₁.waits.eraseIdx i).map Stage.cancel ++ [.pending] ∧
      s₂.stopping = s₁.stopping := by
    obtain ⟨hw, -, hs⟩ := tick_outstanding P .success inp { s₁ with waits := s₁.waits.eraseIdx i }
    exact ⟨_, by simp only [step, hw₁], by rw [hw, if_pos rfl], hs⟩
  -- the lock: the table is emptied, the new wait stays
  obtain ⟨s₃, h₃, he₃, hw₃, hn₃⟩ : ∃ s₃, s₂.step P .stopLocked = .ok s₃ ∧ s₃.table.entries = [] ∧
      s₃.waits = s₂.waits ∧ s₃.next = s₂.next :=
    ⟨_, step_stopLocked_of_pos (by omega), rfl, rfl, rfl⟩
  rw [hw₂] at hw₃
  generalize (s₁.waits.eraseIdx i).map Stage.cancel = ws at hw₃
  -- after `stop()` returned: the expiry and its handler
  have hlen : s₃.waits.length - 1 = ws.length := by simp [hw₃]
  have hp : s₃.waits[ws.length]? = some .pending := by simp [hw₃]
  obtain ⟨s₄, h₄, hq, hs₄⟩ : ∃ s₄, s₃.step P (.timerDone ws.length) = .ok s₄ ∧
      s₄.waits[ws.length]? = some (.queued .success) ∧
      ({ s₄ with waits := s₄.waits.eraseIdx ws.length } : Manager) =
        { s₃ with waits := s₃.waits.dropLast } :=
    ⟨{ s₃ with waits := s₃.waits.set ws.length (.queued .success) }, by simp only [step, hp],
      by simp [hw₃], by simp only [hw₃, set_eraseIdx_length, List.dropLast_concat]⟩
  refine ⟨s₁, s₂, s₃, s₄, h₁, h₂, h₃, he₃, by simp [hw₃], by rw [hlen]; exact h₄, ?_, ?_,
    fun hm hv hl ht hb => tick_connects_from_empty P he₃ hm hv hl ht hb⟩
  · rw [hlen, ← hs₄]; simp only [step, hq]
  · rw [(tick_outstanding P .success inp' _).1, if_pos rfl]; simp

/-- **Work outlives `stop()`.**  Over every state of the manager: a resolution
    pending on at least two queries when `stop()` runs goes on resolving, and
    gives addresses to the address manager, after `stop()` returned; an expiry
    of the timer queued with success as `stop()` begins re-arms the timer
    after the cancel, and the wait left armed runs `tick` in full after
    `stop()` returned, re-arming the timer again and connecting to a peer the
    address manager offers. -/
theorem handlers_outlive_stop :
    (∀ (s : Manager) (i : Nat) (q q' : Query) (qs : List Query),
      s.resolutions[i]? = some ⟨q :: q' :: qs, .pending⟩ → qs.length < 100 →
      ∀ ep ep' : Endpoint, ∃ s₁ s₃ s₄ s₅, s.step P .stop = .ok s₁ ∧
        s₁.step P .stopLocked = .ok s.stop ∧
        s.stop.step P (.resolveHandler i ep) = .ok s₃ ∧ s₃.log = s.stop.log ++ [.resolve q'] ∧
        s₃.step P (.resolveDone (s₃.resolutions.length - 1) .success) = .ok s₄ ∧
        s₄.step P (.resolveHandler (s₃.resolutions.length - 1) ep') = .ok s₅ ∧
        Event.add ep' localSource ∈ s₅.log.drop s.stop.log.length) ∧
    ∀ (s : Manager) (i : Nat), s.waits[i]? = some (.queued .success) →
      ∀ inp inp' : TickInput, ∃ s₁ s₂ s₃ s₄, s.step P .stop = .ok s₁ ∧
        s₁.step P (.timerHandler i inp) = .ok s₂ ∧
        s₂.step P .stopLocked = .ok s₃ ∧ s₃.table.entries = [] ∧
        s₃.waits.getLast? = some .pending ∧
        s₃.step P (.timerDone (s₃.waits.length - 1)) = .ok s₄ ∧
        s₄.step P (.timerHandler (s₃.waits.length - 1) inp') =
          .ok ({ s₃ with waits := s₃.waits.dropLast }.tick P .success inp') ∧
        ({ s₃ with waits := s₃.waits.dropLast }.tick P .success inp').waits.getLast? =
          some .pending ∧
        (0 < sizeSub P.minimumTcpConnections 0 → P.isValid (inp'.select 0 10).endpoint = true →
          P.isLocal (inp'.select 0 10).endpoint = false →
          600 ≤ inp'.now - (inp'.select 0 10).lastTry →
          inp'.banned (inp'.select 0 10).endpoint.address = false →
          Event.start s₃.next ∈
            ({ s₃ with waits := s₃.waits.dropLast }.tick P .success inp').log) :=
  ⟨fun _ _ _ _ _ hr hn => resolver_outlives_stop P hr hn,
    fun _ _ hw => timer_outlives_stop P hw⟩

/-- `startedTwo` once its first wait expired: the resolution of the first node
    pending, the expiry of the timer queued. -/
def expiredTwo : Manager := { startedTwo with waits := [.queued .success] }

theorem handlers_outlive_stop_example :
    init.start id [("node-a", 9195), ("node-b", 9195)] = .ok startedTwo ∧
      startedTwo.step oneWanted (.timerDone 0) = .ok expiredTwo ∧
      expiredTwo.resolutions[0]? = some ⟨[⟨"node-a", "9195"⟩, ⟨"node-b", "9195"⟩], .pending⟩ ∧
      ([] : List Query).length < 100 ∧ expiredTwo.waits[0]? = some (.queued .success) ∧
      0 < sizeSub oneWanted.minimumTcpConnections 0 ∧
      oneWanted.isValid (offersOne.select 0 10).endpoint = true ∧
      oneWanted.isLocal (offersOne.select 0 10).endpoint = false ∧
      600 ≤ offersOne.now - (offersOne.select 0 10).lastTry ∧
      offersOne.banned (offersOne.select 0 10).endpoint.address = false ∧
      (∃ s₁ s₃ s₄ s₅, expiredTwo.step oneWanted .stop = .ok s₁ ∧
        s₁.step oneWanted .stopLocked = .ok expiredTwo.stop ∧
        expiredTwo.stop.step oneWanted (.resolveHandler 0 localSource) = .ok s₃ ∧
        s₃.log = expiredTwo.stop.log ++ [.resolve ⟨"node-b", "9195"⟩] ∧
        s₃.step oneWanted (.resolveDone (s₃.resolutions.length - 1) .success) = .ok s₄ ∧
        s₄.step oneWanted (.resolveHandler (s₃.resolutions.length - 1) ⟨33554433, 9195⟩) =
          .ok s₅ ∧
        Event.add ⟨33554433, 9195⟩ localSource ∈ s₅.log.drop expiredTwo.stop.log.length) ∧
      ∃ s₁ s₂ s₃ s₄, expiredTwo.step oneWanted .stop = .ok s₁ ∧
        s₁.step oneWanted (.timerHandler 0 offersOne) = .ok s₂ ∧
        s₂.step oneWanted .stopLocked = .ok s₃ ∧ s₃.table.entries = [] ∧
        s₃.waits.getLast? = some .pending ∧
        s₃.step oneWanted (.timerDone (s₃.waits.length - 1)) = .ok s₄ ∧
        s₄.step oneWanted (.timerHandler (s₃.waits.length - 1) offersOne) =
          .ok ({ s₃ with waits := s₃.waits.dropLast }.tick oneWanted .success offersOne) ∧
        ({ s₃ with waits := s₃.waits.dropLast }.tick oneWanted .success offersOne).waits.getLast? =
          some .pending ∧
        (0 < sizeSub oneWanted.minimumTcpConnections 0 →
          oneWanted.isValid (offersOne.select 0 10).endpoint = true →
          oneWanted.isLocal (offersOne.select 0 10).endpoint = false →
          600 ≤ offersOne.now - (offersOne.select 0 10).lastTry →
          offersOne.banned (offersOne.select 0 10).endpoint.address = false →
          Event.start s₃.next ∈
            ({ s₃ with waits := s₃.waits.dropLast }.tick oneWanted .success offersOne).log) :=
  ⟨rfl, rfl, rfl, by decide, rfl, by decide, rfl, rfl, by decide, rfl,
    (handlers_outlive_stop oneWanted).1 expiredTwo 0 _ _ [] rfl (by decide) localSource
      ⟨33554433, 9195⟩,
    (handlers_outlive_stop oneWanted).2 expiredTwo 0 rfl offersOne offersOne⟩

end Manager

end Vanillacoin
