/-
  The state of `mining_manager` (`mining_manager.cpp`) and its calls.

  * `State` is `m_state_pow` and `m_state_pos`;
  * a `Worker` is a thread running `loop(is_proof_of_stake)`: the point `pc`
    it stands at and its locals (`extra_nonce`, `blk`,
    `transactions_updated_last`, `index_previous`, `start`, `block_nonce`);
  * `Env` is what the node around the manager answers: its state, the block
    chain download, the peers, the wallet lock, the best block, the
    transactions counter and the clock;
  * `Sample` is the hash-rate sample the proof-of-work threads keep and
    `hashes_per_second()` reads: `m_hashes_per_second`, `m_hps_timer_start`,
    the statics `g_hash_counter` and `time_log` of `loop()`, and the status
    callbacks posted to the strand;
  * `startProofOfWork`, `stopProofOfWork`, `startProofOfStake` and
    `stopProofOfStake` are the calls, each under `mutex_`.  A stop sets its
    state to stopping and then joins the mode's threads, still holding
    `mutex_` (`joining`); `joined` is the rest of the call, once every such
    thread has left `loop()`.
-/
import Mathlib.Logic.Function.Basic
import Mathlib.Data.Rat.Defs

namespace Vanillacoin

namespace Mining

/-- `m_state_pow` / `m_state_pos`: `state_pow_none` to `state_pow_stopped`. -/
inductive State
  | none
  | starting
  | started
  | stopping
  | stopped
deriving DecidableEq, Repr

/-- The enumerator's value, for the `<` of `start_proof_of_work`. -/
def State.toNat : State → Nat
  | .none => 0
  | .starting => 1
  | .started => 2
  | .stopping => 3
  | .stopped => 4

/-- `block::header_t`: the fields the manager reads or writes. -/
structure Header where
  /-- `hash_previous_block` -/
  previous : Nat
  /-- `hash_merkle_root` -/
  merkleRoot : Nat
  timestamp : UInt32
  bits : UInt32
  nonce : UInt32
deriving DecidableEq, Repr, Inhabited

/-- A candidate block from `block::create_new`. -/
structure Block where
  header : Header
  /-- `is_proof_of_stake()`; `is_proof_of_work()` is its negation. -/
  isProofOfStake : Bool
  /-- The height and the extra-nonce in the coinbase's script signature. -/
  height : Nat
  extraNonce : Nat
  /-- `transactions()[0].time()` -/
  coinbaseTime : UInt32
  /-- `get_max_transaction_time()` -/
  maxTransactionTime : Int
deriving DecidableEq, Repr, Inhabited

/-- What the node around the manager answers. -/
structure Env where
  /-- `globals::instance().state() == globals::state_started` -/
  running : Bool
  /-- `utility::is_initial_block_download()` -/
  initialDownload : Bool
  /-- `tcp_connections().size()` -/
  connections : Nat
  /-- `wallet_main()->is_locked()` -/
  walletLocked : Bool
  /-- `stack_impl::get_block_index_best()` -/
  bestIndex : Nat
  /-- `globals::instance().hash_best_chain()` -/
  hashBestChain : Nat
  /-- `globals::instance().transactions_updated()` -/
  transactionsUpdated : Nat
  /-- `std::time(0)` -/
  now : Int
deriving DecidableEq, Repr

/-- Where a thread in `loop()` stands. -/
inductive Pc
  /-- The condition of the outer `while`. -/
  | guard
  /-- The condition of the wait for the block chain download and for peers. -/
  | syncWait
  /-- The condition of the wait for the wallet to unlock. -/
  | walletWait
  /-- `block::create_new`, then `increment_extra_nonce`. -/
  | build
  /-- Proof-of-stake: `sign` and `check_work` if the candidate is a
      proof-of-stake block. -/
  | stake
  /-- The condition of the stake throttle, `loops` sleeps done. -/
  | throttle (loops : Nat)
  /-- The condition of the hashing loop, a `scan_hash_whirlpool` and the
      tests after it. -/
  | hashing
  /-- A solution found: `sign` and `check_work`. -/
  | solved
  /-- `loop()` returned. -/
  | exited
deriving DecidableEq, Repr

/-- A thread running `loop(is_proof_of_stake)`. -/
structure Worker where
  isProofOfStake : Bool
  pc : Pc
  /-- `extra_nonce`, a `std::uint32_t` local to this run of `loop()`. -/
  extraNonce : Nat
  /-- `blk`, and the identity of the object `create_new` returned. -/
  blk : Block
  candidate : Nat
  transactionsUpdatedLast : Nat
  /-- `index_previous` -/
  indexPrevious : Nat
  /-- `start`, the time the search began. -/
  start : Int
  /-- `block_nonce`: the nonce word `format_hash_buffers` wrote into `data`. -/
  blockNonce : UInt32

/-- A thread that does not run. -/
def Worker.idle : Worker := ⟨false, .exited, 0, default, 0, 0, 0, 0, 0⟩

/-- A thread just started on `loop(is_proof_of_stake)`. -/
def Worker.spawn (isProofOfStake : Bool) : Worker :=
  { Worker.idle with isProofOfStake := isProofOfStake, pc := .guard }

/-- A candidate built by `increment_extra_nonce`: the thread, its mode, the
    candidate, its parent and its extra-nonce. -/
structure Build where
  worker : Nat
  isProofOfStake : Bool
  candidate : Nat
  previous : Nat
  extraNonce : Nat
deriving DecidableEq, Repr

/-- The calls the threads make on the node. -/
inductive Event
  /-- `std::this_thread::sleep_for` in thread `w` at `pc`: one second in the
      two waits, half a second in the stake throttle. -/
  | sleep (w : Nat) (pc : Pc)
  /-- `create_new` and `increment_extra_nonce`. -/
  | build (b : Build)
  /-- `scan_hash_whirlpool` on candidate `c` in thread `w`. -/
  | scan (w c : Nat)
  /-- `check_work`: "Proof-of-Work does not meet target". -/
  | rejected (c : Nat)
  /-- `check_work`: "block is stale, dropping". -/
  | stale (c : Nat)
  /-- `reserve_key.keep_key()` on the key of thread `w`. -/
  | keepKey (w : Nat)
  /-- `wallet->request_counts()[hash] = 0`. -/
  | requestCountZero (hash : Nat)
  /-- `process_block(0, blk)` posted for candidate `c` of thread `w`. -/
  | processBlock (w c : Nat) (blk : Block)
deriving DecidableEq, Repr

/-- The build an event records, if it is one. -/
def Event.build? : Event → Option Build
  | .build b => some b
  | _ => none

/-- The thread an event names, if any. -/
def Event.worker? : Event → Option Nat
  | .sleep w _ | .scan w _ | .keepKey w | .processBlock w _ _ => some w
  | .build b => some b.worker
  | .rejected _ | .stale _ | .requestCountZero _ => none

/-- The hash-rate sample of the proof-of-work threads. -/
structure Sample where
  /-- `m_hashes_per_second`, a `double`, as the exact quotient it is
      computed from. -/
  hashesPerSecond : ℚ
  /-- `m_hps_timer_start`, in milliseconds since the epoch; `0` while no
      window is open. -/
  timerStart : Int
  /-- `g_hash_counter`, the hashes counted in the open window. -/
  counter : Int
  /-- `time_log`, in seconds: when a status callback was last posted. -/
  timeLog : Int
  /-- The status callbacks posted to the strand that have not yet run. -/
  posted : Nat
  /-- The values of `mining.hashes_per_second` the callbacks that ran gave
      `status_manager::insert`, in order. -/
  inserted : List ℚ
deriving DecidableEq, Repr

/-- The sample as constructed, `g_hash_counter` and `time_log` zero-initialised. -/
def Sample.init : Sample := ⟨0, 0, 0, 0, 0, []⟩

/-- What `stop_proof_of_work` does to the sample after its join: the rate set
    to `0`, a status callback posted, the window closed. -/
def Sample.afterStop (smp : Sample) : Sample :=
  { smp with hashesPerSecond := 0, posted := smp.posted + 1, timerStart := 0 }

/-- What ends an action abnormally. -/
inductive Fault
  /-- A call waits for `mutex_`, which a stop holds in its join. -/
  | mutexHeld
  /-- No stop is in its join. -/
  | noJoin
  /-- The join waits for a thread still in `loop()`. -/
  | threadRunning
  /-- No such thread, or it has left `loop()`. -/
  | noThread
  /-- No status callback is posted. -/
  | noCallback
deriving DecidableEq, Repr

/-- The state of `mining_manager` and of its threads. -/
structure Miner where
  statePow : State
  statePos : State
  /-- `threads_`, the proof-of-work threads. -/
  threads : List Nat
  /-- `thread_pos_` -/
  threadPos : Option Nat
  /-- The `is_proof_of_stake` of the mode whose stop is in its join. -/
  joining : Option Bool
  workers : Nat → Worker
  nextWorker : Nat
  nextCandidate : Nat
  /-- `hash_previous`, the static of `increment_extra_nonce`. -/
  hashPrevious : Nat
  env : Env
  log : List Event
  sample : Sample

namespace Miner

/-- The manager as constructed, in the node state `e`. -/
def init (e : Env) : Miner :=
  ⟨.none, .none, [], none, none, fun _ => .idle, 0, 0, 0, e, [], .init⟩

/-- `hashes_per_second()` -/
def hashesPerSecond (s : Miner) : ℚ := s.sample.hashesPerSecond

/-- A new thread on `loop(is_proof_of_stake)`. -/
def spawn (s : Miner) (isProofOfStake : Bool) : Miner :=
  { s with workers := Function.update s.workers s.nextWorker (.spawn isProofOfStake),
           nextWorker := s.nextWorker + 1 }

/-- `start_proof_of_work()`. -/
def startProofOfWork (s : Miner) : Miner :=
  if s.statePow.toNat < State.starting.toNat || s.statePow == .stopped then
    { s.spawn false with threads := s.threads ++ [s.nextWorker], statePow := .started }
  else s

/-- `stop_proof_of_work()` up to its join. -/
def stopProofOfWork (s : Miner) : Miner :=
  if s.statePow == .started then { s with statePow := .stopping, joining := some false } else s

/-- `start_proof_of_stake()`. -/
def startProofOfStake (s : Miner) : Miner :=
  if s.statePos.toNat < State.starting.toNat || s.statePos == .stopped then
    { s.spawn true with threadPos := some s.nextWorker, statePos := .started }
  else s

/-- `stop_proof_of_stake()` up to its join. -/
def stopProofOfStake (s : Miner) : Miner :=
  if s.statePos == .started then { s with statePos := .stopping, joining := some true } else s

/-- The threads the stop of the mode `isProofOfStake` joins. -/
def joinees (s : Miner) (isProofOfStake : Bool) : List Nat :=
  if isProofOfStake then s.threadPos.toList else s.threads

/-- The join of the stop in progress returns, once its threads have left
    `loop()`; then the stop finishes: proof-of-work also clears `threads_`. -/
def joined (s : Miner) : Except Fault Miner :=
  match s.joining with
  | none => .error .noJoin
  | some isProofOfStake =>
    if (s.joinees isProofOfStake).all fun w => (s.workers w).pc == .exited then
      .ok (if isProofOfStake then { s with statePos := .stopped, joining := none }
        else { s with threads := [], statePow := .stopped, joining := none,
                      sample := s.sample.afterStop })
    else .error .threadRunning

/-! ### What the calls leave -/

section
variable (s : Miner) {w : Nat}

@[simp] theorem startProofOfWork_log : s.startProofOfWork.log = s.log := by
  unfold startProofOfWork; split <;> rfl
@[simp] theorem startProofOfStake_log : s.startProofOfStake.log = s.log := by
  unfold startProofOfStake; split <;> rfl
@[simp] theorem stopProofOfWork_log : s.stopProofOfWork.log = s.log := by
  unfold stopProofOfWork; split <;> rfl
@[simp] theorem stopProofOfStake_log : s.stopProofOfStake.log = s.log := by
  unfold stopProofOfStake; split <;> rfl
@[simp] theorem stopProofOfWork_workers : s.stopProofOfWork.workers = s.workers := by
  unfold stopProofOfWork; split <;> rfl
@[simp] theorem stopProofOfStake_workers : s.stopProofOfStake.workers = s.workers := by
  unfold stopProofOfStake; split <;> rfl
@[simp] theorem stopProofOfWork_nextWorker : s.stopProofOfWork.nextWorker = s.nextWorker := by
  unfold stopProofOfWork; split <;> rfl
@[simp] theorem stopProofOfStake_nextWorker : s.stopProofOfStake.nextWorker = s.nextWorker := by
  unfold stopProofOfStake; split <;> rfl

/-- A start spawns a thread only from `none` or `stopped`. -/
theorem startProofOfWork_eq : s.startProofOfWork = s ∨
    ((s.statePow = .none ∨ s.statePow = .stopped) ∧ s.startProofOfWork =
      { s.spawn false with threads := s.threads ++ [s.nextWorker], statePow := .started }) := by
  unfold startProofOfWork; split
  · exact .inr ⟨by cases h : s.statePow <;> simp_all [State.toNat], rfl⟩
  · exact .inl rfl

theorem startProofOfStake_eq : s.startProofOfStake = s ∨
    ((s.statePos = .none ∨ s.statePos = .stopped) ∧ s.startProofOfStake =
      { s.spawn true with threadPos := some s.nextWorker, statePos := .started }) := by
  unfold startProofOfStake; split
  · exact .inr ⟨by cases h : s.statePos <;> simp_all [State.toNat], rfl⟩
  · exact .inl rfl

theorem stopProofOfWork_eq : s.stopProofOfWork = s ∨
    s.stopProofOfWork = { s with statePow := .stopping, joining := some false } := by
  unfold stopProofOfWork; split <;> simp

theorem stopProofOfStake_eq : s.stopProofOfStake = s ∨
    s.stopProofOfStake = { s with statePos := .stopping, joining := some true } := by
  unfold stopProofOfStake; split <;> simp

theorem spawn_workers_of_lt {b : Bool} (h : w < s.nextWorker) : (s.spawn b).workers w = s.workers w :=
  Function.update_noteq (Nat.ne_of_lt h) _ _

/-- A start leaves every thread already created as it was. -/
theorem startProofOfWork_workers_of_lt (h : w < s.nextWorker) :
    s.startProofOfWork.workers w = s.workers w := by
  unfold startProofOfWork; split
  · exact s.spawn_workers_of_lt h
  · rfl

theorem startProofOfStake_workers_of_lt (h : w < s.nextWorker) :
    s.startProofOfStake.workers w = s.workers w := by
  unfold startProofOfStake; split
  · exact s.spawn_workers_of_lt h
  · rfl

theorem le_startProofOfWork_nextWorker : s.nextWorker ≤ s.startProofOfWork.nextWorker := by
  unfold startProofOfWork; split <;> simp [spawn]

theorem le_startProofOfStake_nextWorker : s.nextWorker ≤ s.startProofOfStake.nextWorker := by
  unfold startProofOfStake; split <;> simp [spawn]

end

/-! ### Threads' steps -/

/-- Thread `w` takes the locals `k` and records the calls `evs`. -/
def advance (s : Miner) (w : Nat) (k : Worker) (evs : List Event) : Miner :=
  { s with workers := Function.update s.workers w k, log := s.log ++ evs }

@[simp] theorem advance_workers (s : Miner) (w : Nat) (k : Worker) (evs : List Event) :
    (s.advance w k evs).workers = Function.update s.workers w k := rfl
@[simp] theorem advance_log (s : Miner) (w : Nat) (k : Worker) (evs : List Event) :
    (s.advance w k evs).log = s.log ++ evs := rfl
@[simp] theorem advance_env (s : Miner) (w : Nat) (k : Worker) (evs : List Event) :
    (s.advance w k evs).env = s.env := rfl
@[simp] theorem advance_statePow (s : Miner) (w : Nat) (k : Worker) (evs : List Event) :
    (s.advance w k evs).statePow = s.statePow := rfl
@[simp] theorem advance_statePos (s : Miner) (w : Nat) (k : Worker) (evs : List Event) :
    (s.advance w k evs).statePos = s.statePos := rfl
@[simp] theorem advance_threads (s : Miner) (w : Nat) (k : Worker) (evs : List Event) :
    (s.advance w k evs).threads = s.threads := rfl
@[simp] theorem advance_threadPos (s : Miner) (w : Nat) (k : Worker) (evs : List Event) :
    (s.advance w k evs).threadPos = s.threadPos := rfl
@[simp] theorem advance_joining (s : Miner) (w : Nat) (k : Worker) (evs : List Event) :
    (s.advance w k evs).joining = s.joining := rfl
@[simp] theorem advance_nextWorker (s : Miner) (w : Nat) (k : Worker) (evs : List Event) :
    (s.advance w k evs).nextWorker = s.nextWorker := rfl
@[simp] theorem advance_nextCandidate (s : Miner) (w : Nat) (k : Worker) (evs : List Event) :
    (s.advance w k evs).nextCandidate = s.nextCandidate := rfl
@[simp] theorem advance_hashPrevious (s : Miner) (w : Nat) (k : Worker) (evs : List Event) :
    (s.advance w k evs).hashPrevious = s.hashPrevious := rfl

end Miner

end Mining

end Vanillacoin
