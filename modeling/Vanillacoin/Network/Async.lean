/-
  The asynchronous side of `tcp_connection_manager`: `start`, `do_resolve`
  and its completion handler, the timer, and the manager as a state machine
  over every interleaving of its handlers, its callers and the rest of the
  node.

  * `doResolve` is `do_resolve(queries)`: the `assert`, `queries.front()` and
    `async_resolve`; `onResolve` is the handler it passes to `async_resolve`;
  * `start` resolves the bootstrap nodes, in the order `std::random_shuffle`
    leaves them, and arms the timer for one second;
  * an `Action` is what can happen next: a call of `handle_accept`, `connect`,
    `tick`, `broadcast` or `stop`, a call of `stop` taking the lock, an
    outstanding operation completing or its queued handler running, or the
    node changing a connection (its last owner releasing it, its transport's
    validity and remote endpoint);
  * `step` is the manager after an action, and `Run ok s₀ s` says that `s` is
    reached from `s₀` by actions satisfying `ok`.

  Outstanding operations follow `boost::asio`: `cancel()` (and
  `expires_from_now`) completes the outstanding ones with `operation_aborted`,
  while a handler already queued runs with the code it was queued with.
  `stop()` cancels the resolver and the timer before it takes
  `mutex_tcp_connections_`, so it is two actions, and a handler (`tick` on the
  strand, which holds the lock) can run between them.
-/
import Vanillacoin.Network.Tick

namespace Vanillacoin

/-- `127.0.0.1:0`, the source `do_resolve` gives the resolved addresses. -/
def localSource : Endpoint := ⟨2130706433, 0⟩

/-- A bootstrap node `(host, port)` as a resolver query. -/
def Query.ofNode (n : String × Nat) : Query := ⟨n.1, toString n.2⟩

namespace Manager

/-- `resolver_.async_resolve(q, handler)` for the handler holding `qs`. -/
def issue (s : Manager) (qs : List Query) (q : Query) : Manager :=
  { s with resolutions := s.resolutions ++ [⟨qs, .pending⟩], log := s.log ++ [.resolve q] }

@[simp] theorem issue_table (s : Manager) (qs : List Query) (q : Query) :
    (s.issue qs q).table = s.table := rfl
@[simp] theorem issue_conns (s : Manager) (qs : List Query) (q : Query) :
    (s.issue qs q).conns = s.conns := rfl
@[simp] theorem issue_next (s : Manager) (qs : List Query) (q : Query) :
    (s.issue qs q).next = s.next := rfl
@[simp] theorem issue_waits (s : Manager) (qs : List Query) (q : Query) :
    (s.issue qs q).waits = s.waits := rfl
@[simp] theorem issue_log (s : Manager) (qs : List Query) (q : Query) :
    (s.issue qs q).log = s.log ++ [.resolve q] := rfl
@[simp] theorem issue_resolutions (s : Manager) (qs : List Query) (q : Query) :
    (s.issue qs q).resolutions = s.resolutions ++ [⟨qs, .pending⟩] := rfl

/-- `do_resolve(queries)`. -/
def doResolve (qs : List Query) (s : Manager) : Except Fault Manager :=
  if qs.length ≤ 100 then
    match qs with
    | [] => .error .frontOfEmpty
    | q :: _ => .ok (s.issue qs q)
  else .error .assertion

/-- The end of the handler of the resolution of `queries`: `do_resolve` on the
    rest of the list, when there is one. -/
def resolveRest (queries : List Query) (s : Manager) : Except Fault Manager :=
  if queries.length > 0 then
    let tmp := queries.tail
    if tmp.length > 0 then doResolve tmp s else .ok s
  else .ok s

/-- The handler of the resolution of `queries`, run with `ec` and the first
    resolved endpoint `ep`: on success `ep` goes to the address manager; then,
    whatever `ec`, the rest of the list is resolved. -/
def onResolve (queries : List Query) (ec : ErrorCode) (ep : Endpoint) (s : Manager) :
    Except Fault Manager :=
  resolveRest queries (if ec = .success then s.emit (.add ep localSource) else s)

/-- **What the resolution handler can do**: after the address manager call on
    success, nothing more, or one `async_resolve` for the rest of the list. -/
theorem onResolve_cases {qs : List Query} {ec : ErrorCode} {ep : Endpoint} {s s' : Manager}
    (h : onResolve qs ec ep s = .ok s') :
    s' = (if ec = .success then s.emit (.add ep localSource) else s) ∨
      ∃ q, s' = (if ec = .success then s.emit (.add ep localSource) else s).issue qs.tail q := by
  unfold onResolve resolveRest at h
  split at h
  · dsimp only at h
    split at h
    · unfold doResolve at h
      split at h
      · split at h
        · cases h
        · cases h; exact .inr ⟨_, rfl⟩
      · cases h
    · cases h; exact .inl rfl
  · cases h; exact .inl rfl

/-- `start()`: the bootstrap nodes `nodes` as queries in the order `shuffle`
    puts them in, their resolution, and the first wait of the timer. -/
def start (shuffle : List Query → List Query) (nodes : List (String × Nat)) (s : Manager) :
    Except Fault Manager := do
  let s ← doResolve (shuffle (nodes.map Query.ofNode)) s
  pure (s.wait 1)

/-- **What `start()` can do**: one resolution and the first wait of the timer. -/
theorem start_cases {shuffle : List Query → List Query} {nodes : List (String × Nat)}
    {s s' : Manager} (h : start shuffle nodes s = .ok s') : ∃ qs q, s' = (s.issue qs q).wait 1 := by
  simp only [start, doResolve] at h
  split at h
  · split at h
    · cases h
    · cases h; exact ⟨_, _, rfl⟩
  · cases h

/-- A change the node makes to connection `h`. -/
def setConn (s : Manager) (h : Nat) (c : Connection) : Manager :=
  { s with conns := Function.update s.conns h c }

@[simp] theorem setConn_table (s : Manager) (h : Nat) (c : Connection) :
    (s.setConn h c).table = s.table := rfl
@[simp] theorem setConn_conns (s : Manager) (h : Nat) (c : Connection) :
    (s.setConn h c).conns = Function.update s.conns h c := rfl
@[simp] theorem setConn_next (s : Manager) (h : Nat) (c : Connection) :
    (s.setConn h c).next = s.next := rfl
@[simp] theorem setConn_log (s : Manager) (h : Nat) (c : Connection) :
    (s.setConn h c).log = s.log := rfl

end Manager

/-- What can happen next to the manager. -/
inductive Action
  | accept (banned : Nat → Bool) (t : Transport)
  | connect (banned : Nat → Bool) (ep : Endpoint)
  | tick (ec : ErrorCode) (inp : TickInput)
  | broadcast (buf : List UInt8)
  /-- A call of `stop()` begins: it cancels the resolver and the timer. -/
  | stop
  /-- A call of `stop()` that has cancelled takes the lock and stops the
      connections. -/
  | stopLocked
  /-- The `i`-th outstanding resolution completes with `ec`. -/
  | resolveDone (i : Nat) (ec : ErrorCode)
  /-- The queued handler of the `i`-th resolution runs, with first endpoint `ep`. -/
  | resolveHandler (i : Nat) (ep : Endpoint)
  /-- The `i`-th outstanding wait of the timer expires. -/
  | timerDone (i : Nat)
  /-- The queued handler of the `i`-th wait runs: `tick` with its code. -/
  | timerHandler (i : Nat) (inp : TickInput)
  /-- The last owner of connection `h` releases it: its handle no longer locks. -/
  | connectionGone (h : Nat)
  /-- Connection `h`'s transport becomes valid or not, and its remote endpoint
      readable or not. -/
  | transportChanged (h : Nat) (valid : Bool) (remote : Option Endpoint)

/-- An outside call of `connect`. -/
def Action.isConnect : Action → Bool
  | .connect _ _ => true
  | _ => false

namespace Manager

variable (P : Params)

/-- The manager after action `a`. -/
def step (a : Action) (s : Manager) : Except Fault Manager :=
  match a with
  | .accept banned t => s.handleAccept P banned t
  | .connect banned ep => .ok (s.connect banned ep).1
  | .tick ec inp => .ok (s.tick P ec inp)
  | .broadcast buf => .ok (s.broadcast buf)
  | .stop => .ok { s.cancel with stopping := s.stopping + 1 }
  | .stopLocked =>
    if 0 < s.stopping then .ok { s.stopConnections with stopping := s.stopping - 1 }
    else .error .noOperation
  | .resolveDone i ec =>
    match s.resolutions[i]? with
    | some ⟨qs, .pending⟩ => .ok { s with resolutions := s.resolutions.set i ⟨qs, .queued ec⟩ }
    | _ => .error .noOperation
  | .resolveHandler i ep =>
    match s.resolutions[i]? with
    | some ⟨qs, .queued ec⟩ => onResolve qs ec ep { s with resolutions := s.resolutions.eraseIdx i }
    | _ => .error .noOperation
  | .timerDone i =>
    match s.waits[i]? with
    | some .pending => .ok { s with waits := s.waits.set i (.queued .success) }
    | _ => .error .noOperation
  | .timerHandler i inp =>
    match s.waits[i]? with
    | some (.queued ec) => .ok ({ s with waits := s.waits.eraseIdx i }.tick P ec inp)
    | _ => .error .noOperation
  | .connectionGone h => .ok (s.setConn h { s.conns h with alive := false })
  | .transportChanged h valid remote =>
    .ok (s.setConn h { s.conns h with transportValid := valid, remote := remote })

/-! ### What the completions of the asynchronous operations do -/

section
variable {P} {s s' : Manager}

theorem step_stop (h : s.step P .stop = .ok s') :
    s' = { s.cancel with stopping := s.stopping + 1 } := by
  cases h; rfl

theorem step_stopLocked (h : s.step P .stopLocked = .ok s') :
    0 < s.stopping ∧ s' = { s.stopConnections with stopping := s.stopping - 1 } := by
  simp only [step] at h; split at h
  · cases h; exact ⟨‹_›, rfl⟩
  · cases h

theorem step_stopLocked_of_pos (h : 0 < s.stopping) :
    s.step P .stopLocked = .ok { s.stopConnections with stopping := s.stopping - 1 } := by
  simp only [step, if_pos h]

end

/-- **`stop` is the two halves of `stop()` run with nothing between them.** -/
theorem step_stop_stopLocked (s : Manager) :
    ∃ s₁, s.step P .stop = .ok s₁ ∧ s₁.step P .stopLocked = .ok s.stop :=
  ⟨_, rfl, step_stopLocked_of_pos (Nat.succ_pos _)⟩

section
variable {P} {s s' : Manager}

theorem step_resolveDone {i : Nat} {ec : ErrorCode} (h : s.step P (.resolveDone i ec) = .ok s') :
    ∃ qs, s.resolutions[i]? = some ⟨qs, .pending⟩ ∧
      s' = { s with resolutions := s.resolutions.set i ⟨qs, .queued ec⟩ } := by
  simp only [step] at h; split at h
  · cases h; exact ⟨_, ‹_›, rfl⟩
  · cases h

theorem step_resolveHandler {i : Nat} {ep : Endpoint}
    (h : s.step P (.resolveHandler i ep) = .ok s') :
    ∃ qs ec, s.resolutions[i]? = some ⟨qs, .queued ec⟩ ∧
      onResolve qs ec ep { s with resolutions := s.resolutions.eraseIdx i } = .ok s' := by
  simp only [step] at h; split at h
  · exact ⟨_, _, ‹_›, h⟩
  · cases h

theorem step_timerDone {i : Nat} (h : s.step P (.timerDone i) = .ok s') :
    s.waits[i]? = some .pending ∧ s' = { s with waits := s.waits.set i (.queued .success) } := by
  simp only [step] at h; split at h
  · cases h; exact ⟨‹_›, rfl⟩
  · cases h

theorem step_timerHandler {i : Nat} {inp : TickInput} (h : s.step P (.timerHandler i inp) = .ok s') :
    ∃ ec, s.waits[i]? = some (.queued ec) ∧ s' = { s with waits := s.waits.eraseIdx i }.tick P ec inp := by
  simp only [step] at h; split at h
  · cases h; exact ⟨_, ‹_›, rfl⟩
  · cases h

end

/-- `s` is reached from `s₀` by actions satisfying `ok`. -/
inductive Run (ok : Action → Prop) (s₀ : Manager) : Manager → Prop
  | refl : Run ok s₀ s₀
  | step {s s' : Manager} (a : Action) : Run ok s₀ s → ok a → s.step P a = .ok s' →
      Run ok s₀ s'

/-- The constants of the examples: one outgoing connection wanted, eight
    incoming allowed, the `/16` group, every address valid and none local. -/
def oneWanted : Params := ⟨1, 8, fun e => e.address / 65536, fun _ => true, fun _ => false⟩

/-- An address manager offering `1.0.0.1:9195`, last tried at time 0, at time 600. -/
def offersOne : TickInput := ⟨fun _ _ => ⟨16777217, 9195, 0, 0⟩, fun _ => false, 600⟩

end Manager

end Vanillacoin
