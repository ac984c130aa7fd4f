/-
  The state of `tcp_connection_manager` and the operations that run under its
  lock in one piece: `handle_accept`, `connect`, `broadcast`, and the part of
  `stop` after it takes `mutex_tcp_connections_` (`tcp_connection_manager.cpp`).

  * `Connection` is what the manager sees of a `tcp_connection` it created:
    its direction and the endpoint it was created for, and the state the rest
    of the node gives it (whether its `weak_ptr` still locks,
    `is_transport_valid()`, whether the remote endpoint of its transport can be
    read);
  * `Manager` holds the table, the registry of created connections (a handle is
    an index into it), the outstanding `async_resolve` and `async_wait`
    operations, `log`: the calls the manager made on its collaborators, in
    order (`Event`), and the calls of `stop()` between their two halves;
  * `Params` are what the code reads from elsewhere: `minimum_tcp_connections`,
    the configured `network_tcp_inbound_maximum`, and `group`, `is_valid` and
    `is_local` of `protocol::network_address_t`;
  * an exception out of a handler, undefined behaviour and a failed `assert`
    are `Fault`s.
-/
import Vanillacoin.Network.Table
import Mathlib.Logic.Function.Basic

namespace Vanillacoin

/-- `tcp_connection::direction_incoming` and `direction_outgoing`. -/
inductive Direction
  | incoming
  | outgoing
deriving DecidableEq, Repr

/-- A `tcp_connection` the manager created, as the manager observes it. -/
structure Connection where
  direction : Direction
  /-- The endpoint it was created for, its key in the table. -/
  endpoint : Endpoint
  /-- `weak_ptr<tcp_connection>::lock()` succeeds. -/
  alive : Bool
  /-- `is_transport_valid()`. -/
  transportValid : Bool
  /-- `get_tcp_transport().lock()->socket().remote_endpoint()`, `none` when the
      transport is gone or the endpoint cannot be read. -/
  remote : Option Endpoint
deriving DecidableEq, Repr

/-- The registry entry of a handle not yet allocated. -/
def Connection.vacant : Connection := ⟨.incoming, ⟨0, 0⟩, false, false, none⟩

/-- An accepted `tcp_transport`: the remote endpoint of its socket, if readable. -/
structure Transport where
  remote : Option Endpoint
deriving DecidableEq, Repr

/-- A `boost::asio::ip::tcp::resolver::query`: host and service. -/
structure Query where
  host : String
  service : String
deriving DecidableEq, Repr

/-- The `protocol::network_address_t` returned by `address_manager::select`. -/
structure NetworkAddress where
  address : Nat
  port : Nat
  timestamp : Int
  lastTry : Int
deriving DecidableEq, Repr

/-- `boost::asio::ip::tcp::endpoint(addr.ipv4_mapped_address(), addr.port)`. -/
def NetworkAddress.endpoint (a : NetworkAddress) : Endpoint := ⟨a.address, a.port⟩

@[simp] theorem NetworkAddress.endpoint_address (a : NetworkAddress) :
    a.endpoint.address = a.address := rfl

/-- A `boost::system::error_code` as the handlers test it. -/
inductive ErrorCode
  | success
  | operationAborted
  | other
deriving DecidableEq, Repr

/-- An asynchronous operation: outstanding, or completed with its handler queued. -/
inductive Stage
  | pending
  | queued (ec : ErrorCode)
deriving DecidableEq, Repr

/-- `cancel()` on the operation's object: an outstanding operation completes with
    `operation_aborted`; a handler already queued keeps its code. -/
def Stage.cancel : Stage → Stage
  | .pending => .queued .operationAborted
  | s => s

/-- An outstanding `async_resolve` and the query list its handler holds. -/
structure Resolution where
  queries : List Query
  stage : Stage
deriving DecidableEq, Repr

/-- The calls the manager makes on its collaborators. -/
inductive Event
  | start (h : Nat)
  | stop (h : Nat)
  | send (h : Nat) (buf : List UInt8)
  | stopTransport (remote : Option Endpoint)
  | connectionAttempt (ep : Endpoint)
  | select (bias : Nat)
  | add (addr source : Endpoint)
  | resolve (q : Query)
  | wait (seconds : Nat)
  | status (pairs : List (String × String))
deriving DecidableEq, Repr

/-- What ends a handler abnormally. -/
inductive Fault
  /-- `socket().remote_endpoint()` threw out of `handle_accept`. -/
  | remoteEndpoint
  /-- `queries.front()` on an empty vector. -/
  | frontOfEmpty
  /-- `assert(queries.size() <= 100)` failed. -/
  | assertion
  /-- No outstanding operation to complete or run, or no call of `stop()`
      waiting for the lock. -/
  | noOperation
deriving DecidableEq, Repr

/-- The constants and classifiers the manager reads from elsewhere. -/
structure Params where
  minimumTcpConnections : Nat
  /-- `configuration::network_tcp_inbound_maximum()`. -/
  inboundMaximum : Nat
  /-- `network_address_t::group()`, `is_valid()` and `is_local()`. -/
  group : Endpoint → Nat
  isValid : Endpoint → Bool
  isLocal : Endpoint → Bool

/-- The state of `tcp_connection_manager`. -/
structure Manager where
  table : Table
  conns : Nat → Connection
  /-- The next handle to allocate. -/
  next : Nat
  resolutions : List Resolution
  /-- The outstanding `async_wait`s on `timer_`. -/
  waits : List Stage
  log : List Event
  /-- The calls of `stop()` that have cancelled the resolver and the timer and
      not yet taken `mutex_tcp_connections_`. -/
  stopping : Nat

namespace Manager

/-- A manager with no connections and no outstanding operation. -/
def init : Manager := ⟨Table.empty, fun _ => .vacant, 0, [], [], [], 0⟩

/-- Record a call on a collaborator. -/
def emit (s : Manager) (e : Event) : Manager := { s with log := s.log ++ [e] }

/-- Allocate the connection `c` and retain it: `m_tcp_connections[c.endpoint] = connection`. -/
def retain (s : Manager) (c : Connection) : Manager :=
  { s with table := s.table.assign c.endpoint s.next,
           conns := Function.update s.conns s.next c, next := s.next + 1 }

/-- `timer_.expires_from_now(seconds)` (which cancels the outstanding waits) and
    `timer_.async_wait(...)`. -/
def wait (s : Manager) (seconds : Nat) : Manager :=
  { s with waits := s.waits.map Stage.cancel ++ [.pending], log := s.log ++ [.wait seconds] }

@[simp] theorem emit_table (s : Manager) (e : Event) : (s.emit e).table = s.table := rfl
@[simp] theorem emit_conns (s : Manager) (e : Event) : (s.emit e).conns = s.conns := rfl
@[simp] theorem emit_next (s : Manager) (e : Event) : (s.emit e).next = s.next := rfl
@[simp] theorem emit_log (s : Manager) (e : Event) : (s.emit e).log = s.log ++ [e] := rfl
@[simp] theorem emit_waits (s : Manager) (e : Event) : (s.emit e).waits = s.waits := rfl
@[simp] theorem emit_resolutions (s : Manager) (e : Event) :
    (s.emit e).resolutions = s.resolutions := rfl
@[simp] theorem emit_stopping (s : Manager) (e : Event) : (s.emit e).stopping = s.stopping := rfl
@[simp] theorem retain_table (s : Manager) (c : Connection) :
    (s.retain c).table = s.table.assign c.endpoint s.next := rfl
@[simp] theorem retain_conns (s : Manager) (c : Connection) :
    (s.retain c).conns = Function.update s.conns s.next c := rfl
@[simp] theorem retain_next (s : Manager) (c : Connection) : (s.retain c).next = s.next + 1 := rfl
@[simp] theorem retain_stopping (s : Manager) (c : Connection) :
    (s.retain c).stopping = s.stopping := rfl
@[simp] theorem retain_log (s : Manager) (c : Connection) : (s.retain c).log = s.log := rfl
@[simp] theorem retain_waits (s : Manager) (c : Connection) : (s.retain c).waits = s.waits := rfl
@[simp] theorem retain_resolutions (s : Manager) (c : Connection) :
    (s.retain c).resolutions = s.resolutions := rfl
@[simp] theorem wait_table (s : Manager) (n : Nat) : (s.wait n).table = s.table := rfl
@[simp] theorem wait_conns (s : Manager) (n : Nat) : (s.wait n).conns = s.conns := rfl
@[simp] theorem wait_next (s : Manager) (n : Nat) : (s.wait n).next = s.next := rfl
@[simp] theorem wait_log (s : Manager) (n : Nat) : (s.wait n).log = s.log ++ [.wait n] := rfl
@[simp] theorem wait_resolutions (s : Manager) (n : Nat) :
    (s.wait n).resolutions = s.resolutions := rfl

variable (P : Params)

/-- The incoming connection `handle_accept` creates for the remote endpoint `r`. -/
def inbound (r : Endpoint) : Connection := ⟨.incoming, r, true, true, some r⟩

/-- The outgoing connection `connect` creates for `ep`, its transport not yet connected. -/
def outbound (ep : Endpoint) : Connection := ⟨.outgoing, ep, true, true, none⟩

@[simp] theorem inbound_endpoint (r : Endpoint) : (inbound r).endpoint = r := rfl
@[simp] theorem inbound_direction (r : Endpoint) : (inbound r).direction = .incoming := rfl
@[simp] theorem outbound_endpoint (ep : Endpoint) : (outbound ep).endpoint = ep := rfl
@[simp] theorem outbound_direction (ep : Endpoint) : (outbound ep).direction = .outgoing := rfl

/-- `handle_accept(transport)`: the duplicate-IP scan (a comparison whose
    `remote_endpoint()` throws is skipped), then the ban and capacity checks,
    which read `remote_endpoint()` unguarded, then the new incoming connection,
    retained under the remote endpoint and started. -/
def handleAccept (banned : Nat → Bool) (t : Transport) (s : Manager) : Except Fault Manager :=
  let isDuplicate := match t.remote with
    | some r => s.table.entries.any fun e => e.1.address == r.address
    | none => false
  if isDuplicate then .ok (s.emit (.stopTransport t.remote))
  else match t.remote with
    | none => .error .remoteEndpoint
    | some r =>
      if banned r.address then .ok (s.emit (.stopTransport t.remote))
      else if s.table.size ≥ P.inboundMaximum then .ok (s.emit (.stopTransport t.remote))
      else .ok ((s.retain (inbound r)).emit (.start s.next))

/-- `connect(ep)`: the manager after the call and the returned `bool`.  A banned
    address or a present key returns `false` and changes nothing. -/
def connect (banned : Nat → Bool) (ep : Endpoint) (s : Manager) : Manager × Bool :=
  if banned ep.address then (s, false)
  else if s.table.find ep = none then
    (((s.emit (.connectionAttempt ep)).retain (outbound ep)).emit (.start s.next), true)
  else (s, false)

/-- **What `handle_accept` can do**: stop the transport and change nothing else, or
    retain and start a new incoming connection under a readable remote endpoint
    whose address no entry has, that is not banned, while the table is below the
    inbound maximum. -/
theorem handleAccept_cases {banned : Nat → Bool} {t : Transport} {s s' : Manager}
    (h : s.handleAccept P banned t = .ok s') :
    s' = s.emit (.stopTransport t.remote) ∨
      ∃ r, t.remote = some r ∧ (∀ e ∈ s.table.entries, e.1.address ≠ r.address) ∧
        banned r.address = false ∧ s.table.size < P.inboundMaximum ∧
        s' = (s.retain (inbound r)).emit (.start s.next) := by
  unfold handleAccept at h
  rcases ht : t.remote with _ | r <;> simp only [ht] at h
  · cases h
  · split at h
    · exact .inl (by cases h; rfl)
    · rename_i hdup
      simp only [List.any_eq_true, beq_iff_eq, not_exists, not_and] at hdup
      split at h
      · exact .inl (by cases h; rfl)
      · split at h
        · exact .inl (by cases h; rfl)
        · cases h
          exact .inr ⟨r, rfl, fun e he => hdup e he, by simpa using ‹¬banned r.address = true›,
            by omega, rfl⟩

/-- `handle_accept` throws exactly when the remote endpoint cannot be read and no
    entry made the scan see a duplicate, which it cannot without reading it. -/
theorem handleAccept_error {banned : Nat → Bool} {t : Transport} {s : Manager} {f : Fault}
    (h : s.handleAccept P banned t = .error f) : t.remote = none ∧ f = .remoteEndpoint := by
  unfold handleAccept at h
  rcases ht : t.remote with _ | r <;> simp only [ht] at h
  · simp at h; exact ⟨rfl, h.symm⟩
  · split at h <;> (try split at h) <;> (try split at h) <;> cases h

/-- **`handle_accept` throws on a transport whose remote endpoint cannot be read**,
    whatever the table and the ban list: the duplicate scan swallows the failing
    `remote_endpoint()` calls, the ban check makes the call unguarded, and the
    exception leaves the handler before the transport is stopped. -/
theorem handleAccept_unreadable (banned : Nat → Bool) (s : Manager) :
    s.handleAccept P banned ⟨none⟩ = .error .remoteEndpoint := rfl

/-- **What `connect` can do**: return `false` and change nothing, or, for an
    endpoint that is not banned and not a key of the table, inform the address
    manager, retain and start a new outgoing connection and return `true`. -/
theorem connect_cases (banned : Nat → Bool) (ep : Endpoint) (s : Manager) :
    s.connect banned ep = (s, false) ∨
      (banned ep.address = false ∧ s.table.find ep = none ∧
        s.connect banned ep = (((s.emit (.connectionAttempt ep)).retain (outbound ep)).emit
          (.start s.next), true)) := by
  unfold connect
  split
  · exact .inl rfl
  · split
    · exact .inr ⟨by simpa using ‹¬banned ep.address = true›, ‹_›, rfl⟩
    · exact .inl rfl

/-- The calls `f h` on the connections of the table whose handle still locks. -/
def onLive (s : Manager) (f : Nat → Event) : List Event :=
  s.table.entries.filterMap fun e => if (s.conns e.2).alive then some (f e.2) else none

theorem mem_onLive {s : Manager} {f : Nat → Event} {e : Event} :
    e ∈ s.onLive f ↔ ∃ x ∈ s.table.entries, (s.conns x.2).alive = true ∧ f x.2 = e := by
  simp [onLive, List.mem_filterMap]

/-- `broadcast(buf, len)`: `send` on every connection whose handle still locks. -/
def broadcast (buf : List UInt8) (s : Manager) : Manager :=
  { s with log := s.log ++ s.onLive (.send · buf) }

/-- The first half of `stop()`, before it takes `mutex_tcp_connections_`:
    `resolver_.cancel()` and `timer_.cancel()`. -/
def cancel (s : Manager) : Manager :=
  { s with resolutions := s.resolutions.map fun r => { r with stage := r.stage.cancel },
           waits := s.waits.map Stage.cancel }

/-- The second half of `stop()`, under the lock: stop every connection whose
    handle still locks, clear the table. -/
def stopConnections (s : Manager) : Manager :=
  { s with log := s.log ++ s.onLive .stop, table := s.table.clear }

/-- `stop()` with nothing run between its two halves. -/
def stop (s : Manager) : Manager := s.cancel.stopConnections

@[simp] theorem cancel_table (s : Manager) : s.cancel.table = s.table := rfl
@[simp] theorem cancel_conns (s : Manager) : s.cancel.conns = s.conns := rfl
@[simp] theorem cancel_next (s : Manager) : s.cancel.next = s.next := rfl
@[simp] theorem cancel_log (s : Manager) : s.cancel.log = s.log := rfl
@[simp] theorem cancel_waits (s : Manager) : s.cancel.waits = s.waits.map Stage.cancel := rfl
@[simp] theorem cancel_resolutions (s : Manager) :
    s.cancel.resolutions = s.resolutions.map fun r => { r with stage := r.stage.cancel } := rfl
@[simp] theorem stopConnections_table (s : Manager) :
    s.stopConnections.table = s.table.clear := rfl
@[simp] theorem stopConnections_conns (s : Manager) : s.stopConnections.conns = s.conns := rfl
@[simp] theorem stopConnections_next (s : Manager) : s.stopConnections.next = s.next := rfl
@[simp] theorem stopConnections_log (s : Manager) :
    s.stopConnections.log = s.log ++ s.onLive .stop := rfl
@[simp] theorem stopConnections_waits (s : Manager) : s.stopConnections.waits = s.waits := rfl
@[simp] theorem stopConnections_resolutions (s : Manager) :
    s.stopConnections.resolutions = s.resolutions := rfl

end Manager

end Vanillacoin
