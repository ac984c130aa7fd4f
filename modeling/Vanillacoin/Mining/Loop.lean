/-
  `mining_manager::loop(is_proof_of_stake)`, `increment_extra_nonce` and
  `check_work`, and the manager with its threads as a state machine.

  * `keepMining` is the condition of the outer `while` and of the hashing
    loop; the two waits test the node state only;
  * `build` is `create_new` to `format_hash_buffers`: the candidate, the
    transactions counter and best block it was built at, its extra-nonce, and
    for proof-of-work the start of the search and the nonce word of `data`;
  * `hashPass` is one pass of the hashing loop: a `scan_hash_whirlpool` on
    the header, then either the solution's nonce or the tests of `afterPass`
    (node state, transactions counter, `block_nonce`, best block, timestamp);
    `Sample.record` is the hash-rate sample between the two, and
    `samplePass` the sample after a pass;
  * `checkWork` is the calls `check_work` makes;
  * `loopStep` is a thread's step from one of its points to the next, with the
    collaborators' answers in an `Oracle`; `step` adds the calls, the joins,
    the status callbacks and the node's changes, and `Run ok s₀ s` says `s`
    is reached from `s₀` by actions satisfying `ok`;
  * `startCalls` is `start()`: the calls it makes, given `mine-cpu`.

  A step of a thread reads the shared state at one instant: the tests of one
  condition see one node state.
-/
import Vanillacoin.Mining.Miner
import Vanillacoin.Config.Stoul

namespace Vanillacoin

namespace Mining

/-- The functions of blocks, block indexes and the clock the manager calls. -/
structure Params where
  /-- `block::get_hash()` of a header. -/
  hash : Header → Nat
  /-- `big_number().set_compact(bits).get_sha256()` -/
  target : UInt32 → Nat
  /-- `build_merkle_tree()` -/
  merkleRoot : Block → Nat
  /-- `block_index::height()` -/
  height : Nat → Nat
  /-- `block_index::get_median_time_past()` -/
  medianTimePast : Nat → Int
  /-- `block_index::time()` -/
  indexTime : Nat → Int
  /-- The nonce word `format_hash_buffers` writes at `data + 64 + 12`. -/
  bufferNonce : UInt32 → UInt32
  /-- The timestamp `block::update_time(index_previous)` leaves, at time `now`. -/
  updateTime : Header → Nat → Int → UInt32
  /-- `constants::max_clock_drift` -/
  maxClockDrift : Int

/-- The answers of the collaborators to a thread's step. -/
structure Oracle where
  /-- `block::create_new(wallet, is_proof_of_stake)`; `none` for a null pointer. -/
  created : Option Block
  /-- `blk->sign(wallet)` -/
  signed : Bool
  /-- The result of `scan_hash_whirlpool`; `none` for `(std::uint32_t)-1`. -/
  found : Option UInt32
  /-- The header nonce as `scan_hash_whirlpool` leaves it. -/
  headerNonce : UInt32
  /-- `hashes_done` as `scan_hash_whirlpool` leaves it. -/
  hashesDone : Nat
  /-- `system_clock::now()` after the scan, in milliseconds since the epoch. -/
  milliseconds : Int

/-- `static_cast<std::uint32_t>`. -/
def u32 (x : Int) : UInt32 := UInt32.ofNat (x % 4294967296).toNat

/-- The points at which a thread holds a candidate it may still check. -/
def Pc.holdsCandidate : Pc → Bool
  | .stake | .hashing | .solved => true
  | _ => false

/-- A sleep or a hash batch: the calls of a thread that check nothing. -/
def Event.isPause : Event → Bool
  | .sleep _ _ | .scan _ _ => true
  | _ => false

/-- The hash-rate sample after a hashing pass without a solution, at
    `ms` milliseconds and `now` seconds: `hashes_done + 1` goes to
    `g_hash_counter`, or, when no window is open, the window opens and the
    pass is not counted; a window longer than 4000 ms sets
    `m_hashes_per_second` and opens the next one, and posts a status
    callback when more than 4 seconds passed since the last. -/
def Sample.record (hashesDone : Nat) (ms now : Int) (smp : Sample) : Sample :=
  let hashesDone := (hashesDone + 1) % 4294967296
  let smp := if smp.timerStart = 0 then { smp with timerStart := ms, counter := 0 }
    else { smp with counter := smp.counter + hashesDone }
  if ms - smp.timerStart > 4000 then
    let smp := { smp with hashesPerSecond := 1000 * smp.counter / (ms - smp.timerStart),
                          timerStart := ms, counter := 0 }
    if now - smp.timeLog > 4 then { smp with timeLog := now, posted := smp.posted + 1 } else smp
  else smp

namespace Miner

variable (P : Params)

/-- The states the condition of `loop(is_proof_of_stake)` accepts. -/
def modeRunning (s : Miner) (isProofOfStake : Bool) : Bool :=
  (s.statePow == .starting || s.statePow == .started) ||
    ((s.statePos == .starting || s.statePos == .started) && isProofOfStake)

/-- The condition of the outer `while` of `loop(is_proof_of_stake)` and of its
    hashing loop. -/
def keepMining (s : Miner) (isProofOfStake : Bool) : Bool :=
  s.modeRunning isProofOfStake && s.env.running

/-- `increment_extra_nonce(blk, index_previous, extra_nonce)` with the static
    `hash_previous`: the new `hash_previous`, the new `extra_nonce`, and the
    candidate with its coinbase script and Merkle root updated. -/
def incrementExtraNonce (hashPrevious : Nat) (blk : Block) (indexPrevious extraNonce : Nat) :
    Nat × Nat × Block :=
  let reset := hashPrevious != blk.header.previous
  let extraNonce := ((if reset then 0 else extraNonce) + 1) % 4294967296
  let blk := { blk with height := (P.height indexPrevious + 1) % 4294967296,
                        extraNonce := extraNonce }
  (if reset then blk.header.previous else hashPrevious, extraNonce,
    { blk with header := { blk.header with merkleRoot := P.merkleRoot blk } })

/-- `hash_previous` after `increment_extra_nonce` is the candidate's parent. -/
theorem incrementExtraNonce_fst (hp : Nat) (blk : Block) (i n : Nat) :
    (incrementExtraNonce P hp blk i n).1 = blk.header.previous := by
  by_cases h : hp = blk.header.previous <;> simp [incrementExtraNonce, h]

/-- The extra-nonce `increment_extra_nonce` gives: `1` after a change of parent,
    else one more, as a `std::uint32_t`. -/
theorem incrementExtraNonce_snd_fst (hp : Nat) (blk : Block) (i n : Nat) :
    (incrementExtraNonce P hp blk i n).2.1 =
      if hp ≠ blk.header.previous then 1 else (n + 1) % 4294967296 := by
  by_cases h : hp = blk.header.previous <;> simp [incrementExtraNonce, h]

/-- The calls of `check_work` in thread `w` on candidate `c`, in the node state `e`. -/
def checkWork (e : Env) (w c : Nat) (blk : Block) : List Event :=
  let hashBlock := P.hash blk.header
  let hashTarget := P.target blk.header.bits
  if hashBlock > hashTarget ∧ blk.isProofOfStake = false then [.rejected c]
  else if blk.header.previous ≠ e.hashBestChain then [.stale c]
  else [.keepKey w, .requestCountZero hashBlock, .processBlock w c blk]

/-- The timestamp the end of a hashing pass gives the header. -/
def updatedTimestamp (blk : Block) (indexPrevious : Nat) (now : Int) : UInt32 :=
  let t := max (u32 (P.medianTimePast indexPrevious + 1)) (u32 blk.maxTransactionTime)
  let t := max t (u32 (P.indexTime indexPrevious - P.maxClockDrift))
  P.updateTime { blk.header with timestamp := t } indexPrevious now

/-- The tests after a hashing pass without a solution, before the timestamp
    update: `true` when the hashing loop breaks. -/
def aborts (e : Env) (k : Worker) : Bool :=
  !e.running ||
    (e.transactionsUpdated != k.transactionsUpdatedLast && decide (e.now - k.start > 60)) ||
    decide (k.blockNonce ≥ 0xffff0000) || k.indexPrevious != e.bestIndex

/-- `create_new` to the end of `format_hash_buffers` in thread `w`: a null
    candidate returns from `loop()`. -/
def build (w : Nat) (created : Option Block) (s : Miner) : Miner :=
  let k := s.workers w
  match created with
  | none => s.advance w { k with pc := .exited } []
  | some blk =>
    let r := incrementExtraNonce P s.hashPrevious blk s.env.bestIndex k.extraNonce
    let k' := { k with extraNonce := r.2.1, blk := r.2.2, candidate := s.nextCandidate,
                       transactionsUpdatedLast := s.env.transactionsUpdated,
                       indexPrevious := s.env.bestIndex }
    let k' := if k.isProofOfStake then { k' with pc := .stake }
      else { k' with pc := .hashing, start := s.env.now,
                     blockNonce := P.bufferNonce r.2.2.header.nonce }
    let s' := s.advance w k'
      [.build ⟨w, k.isProofOfStake, s.nextCandidate, blk.header.previous, r.2.1⟩]
    { s' with nextCandidate := s.nextCandidate + 1, hashPrevious := r.1 }

/-- The locals after a hashing pass without a solution, the header as the scan
    left it: the tests, the timestamp updates and the clock-drift test. -/
def afterPass (e : Env) (k : Worker) (header : Header) : Worker :=
  let blk := { k.blk with header := header }
  if aborts e k then { k with blk := blk, pc := .guard }
  else
    let blk := { blk with header :=
      { header with timestamp := updatedTimestamp P blk k.indexPrevious e.now } }
    let pc := if blk.header.timestamp ≥ u32 (blk.coinbaseTime.toNat + P.maxClockDrift) then .guard
      else .hashing
    { k with blk := blk, pc := pc }

/-- The locals after a pass of the hashing loop whose condition held: a
    `scan_hash_whirlpool` on the header, then the solution's nonce, or
    `afterPass`. -/
def hashPass (e : Env) (k : Worker) (o : Oracle) : Worker :=
  let header := { k.blk.header with nonce := o.headerNonce }
  match o.found with
  | some n =>
    if P.hash { header with nonce := n } ≤ P.target header.bits then
      { k with blk := { k.blk with header := { header with nonce := n } }, pc := .solved }
    else afterPass P e k header
  | none => afterPass P e k header

/-- The sample after a pass of the hashing loop: a pass that found a solution
    breaks before it. -/
def samplePass (k : Worker) (o : Oracle) (now : Int) (smp : Sample) : Sample :=
  let header := { k.blk.header with nonce := o.headerNonce }
  match o.found with
  | some n =>
    if P.hash { header with nonce := n } ≤ P.target header.bits then smp
    else smp.record o.hashesDone o.milliseconds now
  | none => smp.record o.hashesDone o.milliseconds now

/-- The step of thread `w` from its point to the next, the collaborators
    answering `o`. -/
def loopStep (w : Nat) (o : Oracle) (s : Miner) : Miner :=
  let k := s.workers w
  match k.pc with
  | .guard =>
    s.advance w { k with pc := if s.keepMining k.isProofOfStake then .syncWait else .exited } []
  | .syncWait =>
    if (s.env.initialDownload || s.env.connections == 0) && s.env.running then
      s.advance w k [.sleep w .syncWait]
    else s.advance w { k with pc := .walletWait } []
  | .walletWait =>
    if s.env.walletLocked && s.env.running then s.advance w k [.sleep w .walletWait]
    else s.advance w { k with pc := .build } []
  | .build => s.build P w o.created
  | .stake =>
    if k.blk.isProofOfStake then
      if o.signed then
        s.advance w { k with pc := .throttle 0 } (checkWork P s.env w k.candidate k.blk)
      else s.advance w { k with pc := .guard } []
    else s.advance w { k with pc := .throttle 0 } []
  | .throttle n =>
    if s.statePos == .started && k.isProofOfStake && s.env.running && decide (n < 120) then
      s.advance w { k with pc := .throttle (n + 1) } [.sleep w (.throttle n)]
    else s.advance w { k with pc := .guard } []
  | .hashing =>
    if s.keepMining k.isProofOfStake then
      { s.advance w (hashPass P s.env k o) [.scan w k.candidate] with
        sample := samplePass P k o s.env.now s.sample }
    else s.advance w { k with pc := .guard } []
  | .solved =>
    s.advance w { k with pc := .guard }
      (if o.signed then checkWork P s.env w k.candidate k.blk else [])
  | .exited => s

end Miner

/-- What can happen next. -/
inductive Action
  | startProofOfWork
  | stopProofOfWork
  | startProofOfStake
  | stopProofOfStake
  /-- The join of the stop in progress returns, and the stop finishes. -/
  | joined
  /-- Thread `w` takes its next step, the collaborators answering `o`. -/
  | work (w : Nat) (o : Oracle)
  /-- The node around the manager changes. -/
  | env (e : Env)
  /-- A status callback posted to the strand runs: `status_manager::insert`
      with `mining.hashes_per_second` as it reads then. -/
  | statusCallback

namespace Miner

variable (P : Params)

/-- A call, which waits while a stop holds `mutex_` in its join. -/
def call (f : Miner → Miner) (s : Miner) : Except Fault Miner :=
  if s.joining.isSome then .error .mutexHeld else .ok (f s)

/-- The manager and its threads after action `a`. -/
def step (a : Action) (s : Miner) : Except Fault Miner :=
  match a with
  | .startProofOfWork => s.call startProofOfWork
  | .stopProofOfWork => s.call stopProofOfWork
  | .startProofOfStake => s.call startProofOfStake
  | .stopProofOfStake => s.call stopProofOfStake
  | .joined => s.joined
  | .work w o =>
    if w < s.nextWorker ∧ (s.workers w).pc ≠ .exited then .ok (s.loopStep P w o)
    else .error .noThread
  | .env e => .ok { s with env := e }
  | .statusCallback =>
    if 0 < s.sample.posted then
      .ok { s with sample := { s.sample with posted := s.sample.posted - 1,
                                             inserted := s.sample.inserted ++
                                               [s.sample.hashesPerSecond] } }
    else .error .noCallback

/-! ## What a step writes -/

theorem checkWork_worker? (e : Env) (w c : Nat) (blk : Block) :
    ∀ x ∈ checkWork P e w c blk, x.worker? = none ∨ x.worker? = some w := by
  unfold checkWork; dsimp only; split_ifs <;> simp [Event.worker?]

/-- **What a step of a thread writes**: its own locals, calls that name no
    other thread, at a build the candidate counter and `hash_previous`, and
    the hash-rate sample. -/
theorem loopStep_shape (w : Nat) (o : Oracle) (s : Miner) :
    ∃ k evs nc hp smp, s.loopStep P w o =
      { s.advance w k evs with nextCandidate := nc, hashPrevious := hp, sample := smp } ∧
      ∀ x ∈ evs, x.worker? = none ∨ x.worker? = some w := by
  unfold loopStep
  dsimp only
  cases hpc : (s.workers w).pc
  case exited =>
    exact ⟨s.workers w, [], s.nextCandidate, s.hashPrevious, s.sample, by cases s; simp [advance],
      by simp⟩
  all_goals dsimp only; (try simp only [build]); repeat' split
  all_goals first
    | exact ⟨_, _, _, _, _, rfl, checkWork_worker? P _ _ _ _⟩
    | exact ⟨_, _, _, _, _, rfl, by simp [Event.worker?]⟩

section
variable {P} {w : Nat} {o : Oracle} {s : Miner}

/-- **A build**: the thread takes the new candidate, with the next candidate
    number and its extra-nonce, and holds it; the build is recorded, and
    `hash_previous` becomes the candidate's parent. -/
theorem build_some (w : Nat) (blk : Block) (s : Miner) :
    ∃ k, s.build P w (some blk) =
      { s.advance w k [.build ⟨w, (s.workers w).isProofOfStake, s.nextCandidate,
          blk.header.previous,
          (incrementExtraNonce P s.hashPrevious blk s.env.bestIndex (s.workers w).extraNonce).2.1⟩]
        with nextCandidate := s.nextCandidate + 1, hashPrevious := blk.header.previous } ∧
      k.isProofOfStake = (s.workers w).isProofOfStake ∧
      k.extraNonce =
        (incrementExtraNonce P s.hashPrevious blk s.env.bestIndex (s.workers w).extraNonce).2.1 ∧
      k.candidate = s.nextCandidate ∧ k.pc.holdsCandidate := by
  unfold build; dsimp only; rw [incrementExtraNonce_fst]
  split <;> exact ⟨_, rfl, rfl, rfl, rfl, rfl⟩

theorem loopStep_of_build (h : (s.workers w).pc = .build) :
    s.loopStep P w o = s.build P w o.created := by
  simp [loopStep, h]

theorem hashPass_locals (e : Env) (k : Worker) :
    (hashPass P e k o).isProofOfStake = k.isProofOfStake ∧
      (hashPass P e k o).extraNonce = k.extraNonce ∧ (hashPass P e k o).candidate = k.candidate := by
  unfold hashPass afterPass; dsimp only; repeat' split
  all_goals exact ⟨rfl, rfl, rfl⟩

/-- **A step other than a build**: the thread keeps its mode, extra-nonce and
    candidate; either it only sleeps or scans, taking up no candidate, or it
    runs `check_work` on the candidate it held and lets it go. -/
theorem loopStep_of_ne_build (h : (s.workers w).pc ≠ .build) :
    ∃ k evs smp, s.loopStep P w o = { s.advance w k evs with sample := smp } ∧
      k.isProofOfStake = (s.workers w).isProofOfStake ∧
      k.extraNonce = (s.workers w).extraNonce ∧ k.candidate = (s.workers w).candidate ∧
      (((∀ x ∈ evs, x.isPause) ∧ (k.pc.holdsCandidate → (s.workers w).pc.holdsCandidate)) ∨
        ((s.workers w).pc.holdsCandidate ∧ k.pc.holdsCandidate = false ∧
          evs = checkWork P s.env w k.candidate (s.workers w).blk)) := by
  unfold loopStep
  dsimp only
  cases hpc : (s.workers w).pc
  case build => exact absurd hpc h
  case exited =>
    exact ⟨s.workers w, [], s.sample, by cases s; simp [advance], rfl, rfl, rfl,
      .inl ⟨by simp, by simp [hpc]⟩⟩
  case hashing =>
    dsimp only; split
    · obtain ⟨h₁, h₂, h₃⟩ := hashPass_locals (P := P) (o := o) s.env (s.workers w)
      exact ⟨_, _, _, rfl, h₁, h₂, h₃,
        .inl ⟨by simp [Event.isPause], fun _ => by simp [hpc, Pc.holdsCandidate]⟩⟩
    · exact ⟨_, _, _, rfl, rfl, rfl, rfl, .inl ⟨by simp, by simp [Pc.holdsCandidate]⟩⟩
  all_goals dsimp only; repeat' split
  all_goals first
    | exact ⟨_, _, _, rfl, rfl, rfl, rfl,
        .inr ⟨by simp [hpc, Pc.holdsCandidate], by simp [Pc.holdsCandidate], rfl⟩⟩
    | exact ⟨_, _, _, rfl, rfl, rfl, rfl,
        .inl ⟨by simp [Event.isPause], by simp [hpc, Pc.holdsCandidate]⟩⟩

theorem hashPass_ne_exited (e : Env) (k : Worker) : (hashPass P e k o).pc ≠ .exited := by
  unfold hashPass afterPass; dsimp only; repeat' split
  all_goals simp

/-- **A thread leaves `loop()` only at its outer condition, or when
    `create_new` returns no candidate.** -/
theorem exited_of_loopStep (h : ((s.loopStep P w o).workers w).pc = .exited) :
    (s.workers w).pc = .exited ∨
      ((s.workers w).pc = .guard ∧ s.keepMining (s.workers w).isProofOfStake = false) ∨
      ((s.workers w).pc = .build ∧ o.created = none) := by
  unfold loopStep at h
  cases hpc : (s.workers w).pc <;> simp only [hpc] at h
  case exited => exact .inl rfl
  case guard =>
    refine .inr (.inl ⟨rfl, ?_⟩)
    cases hk : s.keepMining (s.workers w).isProofOfStake <;> simp_all
  case build =>
    cases hc : o.created with
    | none => exact .inr (.inr ⟨rfl, rfl⟩)
    | some blk =>
      obtain ⟨k, he, -, -, -, hk⟩ := build_some (P := P) w blk s
      rw [hc, he] at h; dsimp only at h
      simp only [advance_workers, Function.update_same] at h
      rw [h] at hk; cases hk
  case hashing => split at h <;> simp [hashPass_ne_exited] at h
  all_goals split_ifs at h <;> simp [hpc] at h

theorem loopStep_workers_of_ne {w' : Nat} (h : w' ≠ w) :
    (s.loopStep P w o).workers w' = s.workers w' := by
  obtain ⟨_, _, _, _, _, hs, -⟩ := loopStep_shape P w o s
  rw [hs]; exact Function.update_noteq h _ _

theorem loopStep_log :
    ∃ evs, (s.loopStep P w o).log = s.log ++ evs ∧
      ∀ x ∈ evs, x.worker? = none ∨ x.worker? = some w := by
  obtain ⟨_, evs, _, _, _, hs, he⟩ := loopStep_shape P w o s
  exact ⟨evs, by rw [hs]; rfl, he⟩

@[simp] theorem loopStep_statePow : (s.loopStep P w o).statePow = s.statePow := by
  obtain ⟨_, _, _, _, _, hs, -⟩ := loopStep_shape P w o s; rw [hs]; rfl
@[simp] theorem loopStep_statePos : (s.loopStep P w o).statePos = s.statePos := by
  obtain ⟨_, _, _, _, _, hs, -⟩ := loopStep_shape P w o s; rw [hs]; rfl
@[simp] theorem loopStep_threads : (s.loopStep P w o).threads = s.threads := by
  obtain ⟨_, _, _, _, _, hs, -⟩ := loopStep_shape P w o s; rw [hs]; rfl
@[simp] theorem loopStep_threadPos : (s.loopStep P w o).threadPos = s.threadPos := by
  obtain ⟨_, _, _, _, _, hs, -⟩ := loopStep_shape P w o s; rw [hs]; rfl
@[simp] theorem loopStep_joining : (s.loopStep P w o).joining = s.joining := by
  obtain ⟨_, _, _, _, _, hs, -⟩ := loopStep_shape P w o s; rw [hs]; rfl
@[simp] theorem loopStep_nextWorker : (s.loopStep P w o).nextWorker = s.nextWorker := by
  obtain ⟨_, _, _, _, _, hs, -⟩ := loopStep_shape P w o s; rw [hs]; rfl
@[simp] theorem loopStep_env : (s.loopStep P w o).env = s.env := by
  obtain ⟨_, _, _, _, _, hs, -⟩ := loopStep_shape P w o s; rw [hs]; rfl

end

/-! ## What an action can do -/

section
variable {P} {s s' : Miner}

theorem call_ok {f : Miner → Miner} (h : s.call f = .ok s') : s.joining = none ∧ s' = f s := by
  unfold call at h
  split at h
  · cases h
  · cases h; exact ⟨Option.not_isSome_iff_eq_none.1 ‹_›, rfl⟩

theorem step_work {w : Nat} {o : Oracle} :
    s.step P (.work w o) = .ok s' ↔
      w < s.nextWorker ∧ (s.workers w).pc ≠ .exited ∧ s.loopStep P w o = s' := by
  simp only [step]
  split <;> simp_all

/-- The join returns only once the mode's threads have left `loop()`. -/
theorem joined_ok (h : s.joined = .ok s') :
    ∃ m, s.joining = some m ∧ (∀ w ∈ s.joinees m, (s.workers w).pc = .exited) ∧
      s' = if m then { s with statePos := .stopped, joining := none }
        else { s with threads := [], statePow := .stopped, joining := none,
                      sample := s.sample.afterStop } := by
  unfold joined at h
  split at h
  · cases h
  · split at h
    · rename_i hm hall
      cases h; exact ⟨_, hm, by simpa using hall, rfl⟩
    · cases h

/-- A status callback runs only when one is posted, and inserts the rate
    `m_hashes_per_second` holds then. -/
theorem step_statusCallback (h : s.step P .statusCallback = .ok s') :
    0 < s.sample.posted ∧ s' = { s with sample := { s.sample with
      posted := s.sample.posted - 1, inserted := s.sample.inserted ++ [s.sample.hashesPerSecond] } } := by
  simp only [step] at h; split at h
  · cases h; exact ⟨‹_›, rfl⟩
  · cases h

/-- What a call of the manager, a join, a status callback or a change of the
    node leaves to the threads: their locals, the log, and the counters they
    read. -/
structure Keeps (s s' : Miner) : Prop where
  workers : s'.workers = s.workers
  log : s'.log = s.log
  nextWorker : s'.nextWorker = s.nextWorker
  nextCandidate : s'.nextCandidate = s.nextCandidate
  hashPrevious : s'.hashPrevious = s.hashPrevious

/-- The sample is nothing the threads read. -/
theorem Keeps.withSample (s : Miner) (smp : Sample) : Keeps s { s with sample := smp } :=
  ⟨rfl, rfl, rfl, rfl, rfl⟩

/-- **What an action can do**: a running thread takes its next step, a start
    creates a thread, or nothing a thread reads changes. -/
theorem step_cases {a : Action} (hs : s.step P a = .ok s') :
    (∃ w o, a = .work w o ∧ w < s.nextWorker ∧ (s.workers w).pc ≠ .exited ∧
        s' = s.loopStep P w o) ∨
      (∃ m, Keeps (s.spawn m) s') ∨ Keeps s s' := by
  cases a with
  | startProofOfWork =>
    obtain ⟨-, rfl⟩ := call_ok hs
    rcases startProofOfWork_eq s with he | ⟨-, he⟩ <;> rw [he]
    exacts [.inr (.inr ⟨rfl, rfl, rfl, rfl, rfl⟩), .inr (.inl ⟨false, rfl, rfl, rfl, rfl, rfl⟩)]
  | startProofOfStake =>
    obtain ⟨-, rfl⟩ := call_ok hs
    rcases startProofOfStake_eq s with he | ⟨-, he⟩ <;> rw [he]
    exacts [.inr (.inr ⟨rfl, rfl, rfl, rfl, rfl⟩), .inr (.inl ⟨true, rfl, rfl, rfl, rfl, rfl⟩)]
  | stopProofOfWork =>
    obtain ⟨-, rfl⟩ := call_ok hs
    rcases stopProofOfWork_eq s with he | he <;> rw [he] <;>
      exact .inr (.inr ⟨rfl, rfl, rfl, rfl, rfl⟩)
  | stopProofOfStake =>
    obtain ⟨-, rfl⟩ := call_ok hs
    rcases stopProofOfStake_eq s with he | he <;> rw [he] <;>
      exact .inr (.inr ⟨rfl, rfl, rfl, rfl, rfl⟩)
  | joined =>
    obtain ⟨m, -, -, rfl⟩ := joined_ok hs
    exact .inr (.inr (by split <;> exact ⟨rfl, rfl, rfl, rfl, rfl⟩))
  | env e => cases hs; exact .inr (.inr ⟨rfl, rfl, rfl, rfl, rfl⟩)
  | statusCallback =>
    obtain ⟨-, rfl⟩ := step_statusCallback hs; exact .inr (.inr ⟨rfl, rfl, rfl, rfl, rfl⟩)
  | work w o =>
    obtain ⟨hw, hx, he⟩ := step_work.1 hs
    exact .inl ⟨w, o, rfl, hw, hx, he.symm⟩

end

/-- `s` is reached from `s₀` by actions satisfying `ok`. -/
inductive Run (ok : Action → Prop) (s₀ : Miner) : Miner → Prop
  | refl : Run ok s₀ s₀
  | step {s s' : Miner} (a : Action) : Run ok s₀ s → ok a → s.step P a = .ok s' →
      Run ok s₀ s'

/-- The actions `as` one after the other, from `s`. -/
def exec : List Action → Miner → Except Fault Miner
  | [], s => .ok s
  | a :: as, s => match s.step P a with
    | .ok s' => exec as s'
    | .error f => .error f

theorem Run.head {ok : Action → Prop} {s s₁ s' : Miner} {a : Action} (ha : ok a)
    (hs : s.step P a = .ok s₁) (h : Run P ok s₁ s') : Run P ok s s' := by
  induction h with
  | refl => exact .step a .refl ha hs
  | step b _ hb hst ih => exact .step b ih hb hst

/-- A list of actions satisfying `ok` that runs to its end is a run. -/
theorem Run.of_exec_of {ok : Action → Prop} {as : List Action} {s s' : Miner}
    (hok : ∀ a ∈ as, ok a) (h : exec P as s = .ok s') : Run P ok s s' := by
  induction as generalizing s with
  | nil => cases h; exact .refl
  | cons a as ih =>
    simp only [exec] at h
    split at h
    · exact Run.head P (hok a (List.mem_cons_self a as)) ‹_›
        (ih (fun b hb => hok b (List.mem_cons_of_mem a hb)) h)
    · cases h

/-- A list of actions that runs to its end is a run. -/
theorem Run.of_exec {as : List Action} {s s' : Miner} (h : exec P as s = .ok s') :
    Run P (fun _ => True) s s' :=
  Run.of_exec_of P (fun _ _ => trivial) h

/-- The functions of the examples: hashes above every target, block times
    `10000`, `update_time` keeping the timestamp, a clock drift of two hours. -/
def exampleParams : Params :=
  ⟨fun h => h.nonce.toNat + 1, fun _ => 0, fun _ => 0, id, fun _ => 0, fun _ => 10000, id,
    fun h _ _ => h.timestamp, 7200⟩

/-- The node of the examples: running, the chain downloaded, eight peers, the
    wallet unlocked. -/
def exampleEnv : Env := ⟨true, false, 8, false, 0, 0, 0, 0⟩

/-- Collaborators that create the default candidate, sign it, and whose scans
    find nothing. -/
def createsDefault : Oracle := ⟨some default, true, none, 0, 0, 0⟩

end Miner

end Mining

end Vanillacoin
