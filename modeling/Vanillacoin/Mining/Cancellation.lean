/-
  Cooperative cancellation of the mining threads.

  * A stop holds `mutex_` in its join, so no call changes the states until
    the mode's threads have left `loop()`.  `WindsDown` is what a thread of
    the stopped mode keeps meanwhile: since the stop it has run no hash
    batch, begun no stake throttle sleep and built at most one candidate,
    none while it can still reach a build;
  * `stop_winds_down_thread`: after `stop_proof_of_work`, and after
    `stop_proof_of_stake` while proof-of-work is not running, the mode's
    thread runs no further hash batch, begins no throttle sleep and builds at
    most one more candidate, over every interleaving;
  * `stake_thread_builds_after_stop`: while proof-of-work runs, the outer
    condition of `loop(true)` still holds after `stop_proof_of_stake`, and
    the proof-of-stake thread goes on to build a new candidate;
  * `stop_hangs_while_pow_runs`: so the join of `stop_proof_of_stake`, the
    first call of `stop()`, does not return while the node runs and
    `create_new` builds, and `stop_proof_of_work` waits on `mutex_` behind it.
-/
import Vanillacoin.Mining.Loop

namespace Vanillacoin

namespace Mining

/-- The points from which a thread reaches a build without passing its outer
    condition again. -/
def Pc.beforeBuild : Pc → Bool
  | .syncWait | .walletWait | .build => true
  | _ => false

/-- A build by thread `w`. -/
def Event.isBuildOf (w : Nat) : Event → Bool
  | .build b => b.worker == w
  | _ => false

theorem Event.isBuildOf_eq_false {e : Event} {w : Nat} (h : e.worker? ≠ some w) :
    e.isBuildOf w = false := by
  cases e <;> first | rfl | simpa [Event.worker?, Event.isBuildOf] using h

/-- The node stays in `state_started`, and `create_new` returns a candidate. -/
def Action.keepsBuilding : Action → Bool
  | .env e => e.running
  | .work _ o => o.created.isSome
  | _ => true

namespace Miner

variable {P : Params} {m : Bool} {w : Nat}

/-- `check_work` neither scans, sleeps nor builds. -/
theorem checkWork_quiet (e : Env) (w' c : Nat) (blk : Block) :
    ∀ x ∈ checkWork P e w' c blk, (∀ c', x ≠ .scan w c') ∧ (∀ pc, x ≠ .sleep w pc) ∧
      x.isBuildOf w = false := by
  unfold checkWork; dsimp only; split_ifs <;> simp [Event.isBuildOf]

/-- Thread `w`, of the mode `m` whose stop is in its join, with the calls `E`
    recorded since the stop. -/
structure WindsDown (m : Bool) (w : Nat) (s : Miner) (E : List Event) : Prop where
  lt : w < s.nextWorker
  mode : (s.workers w).isProofOfStake = m
  held : (s.workers w).pc ≠ .exited → s.joining = some m ∧ w ∈ s.joinees m ∧
    s.modeRunning m = false ∧ (s.statePos == .started && m) = false
  noScan : ∀ c, Event.scan w c ∉ E
  noThrottle : ∀ n, Event.sleep w (.throttle n) ∉ E
  builds : E.countP (Event.isBuildOf w) + (if (s.workers w).pc.beforeBuild then 1 else 0) ≤ 1

/-- A step that leaves thread `w` alone, keeps the states while it runs, and
    records calls naming other threads keeps `WindsDown`. -/
theorem WindsDown.frame {s s' : Miner} {E evs : List Event} (h : WindsDown m w s E)
    (hn : s.nextWorker ≤ s'.nextWorker) (hk : s'.workers w = s.workers w)
    (hf : (s.workers w).pc ≠ .exited → s'.joining = s.joining ∧ s'.joinees m = s.joinees m ∧
      s'.statePow = s.statePow ∧ s'.statePos = s.statePos)
    (hev : ∀ x ∈ evs, x.worker? ≠ some w) : WindsDown m w s' (E ++ evs) where
  lt := Nat.lt_of_lt_of_le h.lt hn
  mode := hk ▸ h.mode
  held hx := by
    rw [hk] at hx
    obtain ⟨hj, hjo, hpow, hpos⟩ := hf hx
    simpa only [modeRunning, hj, hjo, hpow, hpos] using h.held hx
  noScan c hc := (List.mem_append.1 hc).elim (h.noScan c) fun he => hev _ he rfl
  noThrottle n hc := (List.mem_append.1 hc).elim (h.noThrottle n) fun he => hev _ he rfl
  builds := by
    have : evs.countP (Event.isBuildOf w) = 0 :=
      List.countP_eq_zero.2 fun x hx => by simp [Event.isBuildOf_eq_false (hev x hx)]
    simpa [List.countP_append, this, hk] using h.builds

/-- `WindsDown` does not read the candidate counter or `hash_previous`. -/
theorem WindsDown.statics {s : Miner} {E : List Event} (h : WindsDown m w s E) (a b : Nat) :
    WindsDown m w { s with nextCandidate := a, hashPrevious := b } E :=
  ⟨h.lt, h.mode, h.held, h.noScan, h.noThrottle, h.builds⟩

/-- A step of thread `w` itself keeps `WindsDown` when it keeps the thread's mode,
    records no batch and no throttle sleep of it, and builds only where it
    could. -/
theorem WindsDown.advance {s : Miner} {E : List Event} (h : WindsDown m w s E)
    (hx : (s.workers w).pc ≠ .exited) {k : Worker} {evs : List Event}
    (hk : k.isProofOfStake = m) (hscan : ∀ c, Event.scan w c ∉ evs)
    (hthr : ∀ n, Event.sleep w (.throttle n) ∉ evs)
    (hb : evs.countP (Event.isBuildOf w) + (if k.pc.beforeBuild then 1 else 0) ≤
      (if (s.workers w).pc.beforeBuild then 1 else 0)) :
    WindsDown m w (s.advance w k evs) (E ++ evs) where
  lt := h.lt
  mode := by simpa using hk
  held _ := by simpa using h.held hx
  noScan c hc := (List.mem_append.1 hc).elim (h.noScan c) (hscan c)
  noThrottle n hc := (List.mem_append.1 hc).elim (h.noThrottle n) (hthr n)
  builds := by have := h.builds; simp only [advance_workers, Function.update_same,
    List.countP_append] at *; omega

/-- **One step of the winding-down thread**: its conditions all fail, so it
    leaves the loop, or waits, or makes the one build it may still make. -/
theorem WindsDown.loopStep {s : Miner} {E : List Event} (h : WindsDown m w s E)
    (hx : (s.workers w).pc ≠ .exited) (o : Oracle) :
    ∃ evs, (s.loopStep P w o).log = s.log ++ evs ∧ WindsDown m w (s.loopStep P w o) (E ++ evs) := by
  obtain ⟨-, -, hrun, hthr⟩ := h.held hx
  have hkm : s.keepMining (s.workers w).isProofOfStake = false := by
    simp [keepMining, h.mode, hrun]
  have hb := h.builds
  -- A step to a point past the builds, recording only quiet calls.
  have leave {k : Worker} {evs : List Event} (hk : k.isProofOfStake = m)
      (hkb : k.pc.beforeBuild = false) (hq : ∀ x ∈ evs, (∀ c', x ≠ .scan w c') ∧
        (∀ pc, x ≠ .sleep w pc) ∧ x.isBuildOf w = false) :
      ∃ evs', (s.advance w k evs).log = s.log ++ evs' ∧
        WindsDown m w (s.advance w k evs) (E ++ evs') := by
    have h₀ : evs.countP (Event.isBuildOf w) = 0 :=
      List.countP_eq_zero.2 fun x hx => by simp [(hq x hx).2.2]
    exact ⟨evs, rfl, h.advance hx hk (fun c hc => (hq _ hc).1 c rfl)
      (fun n hc => (hq _ hc).2.1 _ rfl) (by simp [hkb, h₀])⟩
  unfold Miner.loopStep
  cases hpc : (s.workers w).pc <;> simp only [hpc] at hb ⊢
  case exited => exact absurd hpc hx
  case guard => exact leave h.mode (by simp [hkm, Pc.beforeBuild]) (by simp)
  case syncWait | walletWait =>
    split
    · refine ⟨_, rfl, h.advance hx h.mode (by simp) (by simp) ?_⟩
      simp [hpc, Event.isBuildOf]
    · exact ⟨[], rfl, h.advance hx h.mode (by simp) (by simp) (by simp [hpc, Pc.beforeBuild])⟩
  case build =>
    simp only [build]
    split
    · exact leave h.mode rfl (by simp)
    · refine ⟨_, rfl, (h.advance hx ?_ (by simp) (by simp) ?_).statics _ _⟩ <;> split <;>
        simp [h.mode, Event.isBuildOf, hpc, Pc.beforeBuild]
  case stake =>
    split
    · split
      · exact leave h.mode rfl (checkWork_quiet s.env w _ _)
      · exact leave h.mode rfl (by simp)
    · exact leave h.mode rfl (by simp)
  case throttle n =>
    have hc : (s.statePos == .started && (s.workers w).isProofOfStake && s.env.running &&
        decide (n < 120)) = false := by
      rw [h.mode, hthr]; simp
    rw [if_neg (by simp [hc])]
    exact leave h.mode rfl (by simp)
  case hashing =>
    rw [if_neg (by simp [hkm])]
    exact leave h.mode rfl (by simp)
  case solved =>
    split
    · exact leave h.mode rfl (checkWork_quiet s.env w _ _)
    · exact leave h.mode rfl (by simp)

/-- The thread has left `loop()` when no stop holds `mutex_`. -/
theorem WindsDown.exited_of_joining {s : Miner} {E : List Event} (h : WindsDown m w s E)
    (hj : s.joining = none) : (s.workers w).pc = .exited := by
  by_contra hx
  have := (h.held hx).1
  simp [hj] at this

/-- **Every action keeps `WindsDown`.** -/
theorem WindsDown.step {s s' : Miner} {E : List Event} (h : WindsDown m w s E) {a : Action}
    (hs : s.step P a = .ok s') : ∃ evs, s'.log = s.log ++ evs ∧ WindsDown m w s' (E ++ evs) := by
  have call {f : Miner → Miner} (hc : s.call f = .ok s') (hn : s.nextWorker ≤ (f s).nextWorker)
      (hk : (f s).workers w = s.workers w) (hl : (f s).log = s.log) :
      ∃ evs, s'.log = s.log ++ evs ∧ WindsDown m w s' (E ++ evs) := by
    obtain ⟨hj, rfl⟩ := call_ok hc
    have hx := h.exited_of_joining hj
    exact ⟨[], by simp [hl], h.frame hn hk (fun h' => absurd hx h') (by simp)⟩
  cases a with
  | startProofOfWork =>
    exact call hs (le_startProofOfWork_nextWorker s) (startProofOfWork_workers_of_lt s h.lt) (by simp)
  | stopProofOfWork => exact call hs (by simp) (by simp) (by simp)
  | startProofOfStake =>
    exact call hs (le_startProofOfStake_nextWorker s) (startProofOfStake_workers_of_lt s h.lt)
      (by simp)
  | stopProofOfStake => exact call hs (by simp) (by simp) (by simp)
  | joined =>
    obtain ⟨m', hj, hall, rfl⟩ := joined_ok hs
    have hx : (s.workers w).pc = .exited := by
      by_contra hx
      obtain ⟨hj', hin, -⟩ := h.held hx
      rw [hj] at hj'; cases hj'
      exact hx (hall w hin)
    refine ⟨[], by split <;> simp, h.frame ?_ ?_ (fun h' => absurd hx h') (by simp)⟩ <;>
      split <;> simp
  | env e =>
    cases hs
    exact ⟨[], by simp, h.frame (Nat.le_refl _) rfl (fun _ => ⟨rfl, rfl, rfl, rfl⟩) (by simp)⟩
  | statusCallback =>
    obtain ⟨-, rfl⟩ := step_statusCallback hs
    exact ⟨[], by simp, h.frame (Nat.le_refl _) rfl (fun _ => ⟨rfl, rfl, rfl, rfl⟩) (by simp)⟩
  | work w' o =>
    obtain ⟨-, hx, rfl⟩ := step_work.1 hs
    by_cases hw : w' = w
    · subst hw; exact h.loopStep hx o
    · obtain ⟨evs, hl, hev⟩ := loopStep_log (P := P) (w := w') (o := o) (s := s)
      refine ⟨evs, hl, h.frame (by simp) (loopStep_workers_of_ne (Ne.symm hw))
        (fun _ => ⟨by simp, by simp [joinees], by simp, by simp⟩) fun x hx' hxw => ?_⟩
      rcases hev x hx' with h' | h' <;> rw [h'] at hxw <;> simp_all

theorem WindsDown.run {s₀ s : Miner} {E : List Event} (h₀ : WindsDown m w s₀ E)
    (h : Run P (fun _ => True) s₀ s) : ∃ evs, s.log = s₀.log ++ evs ∧ WindsDown m w s (E ++ evs) := by
  induction h with
  | refl => exact ⟨[], by simp, by simpa using h₀⟩
  | step _ _ _ hs ih =>
    obtain ⟨evs, hl, hw⟩ := ih
    obtain ⟨evs', hl', hw'⟩ := hw.step hs
    exact ⟨evs ++ evs', by simp [hl', hl], by simpa using hw'⟩

/-- `stop_proof_of_stake` waits in its join for thread `w`, still inside
    `loop()`, while proof-of-work runs on a running node. -/
structure StakeJoinPending (w : Nat) (s : Miner) : Prop where
  joining : s.joining = some true
  threadPos : s.threadPos = some w
  pos : s.statePos = .stopping
  pow : s.statePow = .started
  inLoop : (s.workers w).pc ≠ .exited
  running : s.env.running = true

/-- **The pending join survives every action that keeps the node running and
    building**: the calls wait on `mutex_`, the join cannot return, and the
    thread's outer condition holds, so it never leaves `loop()`. -/
theorem StakeJoinPending.step {s s' : Miner} (h : StakeJoinPending w s) {a : Action}
    (ha : a.keepsBuilding = true) (hs : s.step P a = .ok s') : StakeJoinPending w s' := by
  have held {f : Miner → Miner} (hc : s.call f = .ok s') : False := by
    have := (call_ok hc).1; rw [h.joining] at this; cases this
  cases a with
  | startProofOfWork => exact (held hs).elim
  | stopProofOfWork => exact (held hs).elim
  | startProofOfStake => exact (held hs).elim
  | stopProofOfStake => exact (held hs).elim
  | joined =>
    obtain ⟨m, hj, hall, -⟩ := joined_ok hs
    rw [h.joining] at hj; cases hj
    exact absurd (hall w (by simp [joinees, h.threadPos])) h.inLoop
  | env e => cases hs; exact ⟨h.joining, h.threadPos, h.pos, h.pow, h.inLoop, ha⟩
  | statusCallback =>
    obtain ⟨-, rfl⟩ := step_statusCallback hs
    exact ⟨h.joining, h.threadPos, h.pos, h.pow, h.inLoop, h.running⟩
  | work w' o =>
    obtain ⟨-, -, rfl⟩ := step_work.1 hs
    refine ⟨by simp [h.joining], by simp [h.threadPos], by simp [h.pos], by simp [h.pow], ?_,
      by simp [h.running]⟩
    by_cases hw : w' = w
    · subst hw
      intro hx
      rcases exited_of_loopStep hx with hx | ⟨-, hk⟩ | ⟨-, hc⟩
      · exact h.inLoop hx
      · simp [keepMining, modeRunning, h.pow, h.running] at hk
      · simp [Action.keepsBuilding, hc] at ha
    · rw [loopStep_workers_of_ne (Ne.symm hw)]; exact h.inLoop

theorem StakeJoinPending.run {s₀ s : Miner} (h₀ : StakeJoinPending w s₀)
    (h : Run P (fun a => a.keepsBuilding = true) s₀ s) : StakeJoinPending w s := by
  induction h with
  | refl => exact h₀
  | step _ _ ha hs ih => exact ih.step ha hs

variable (P)

/-- **A stop winds its mode's thread down.**  After `stop_proof_of_work`, and
    after `stop_proof_of_stake` while proof-of-work is not running, over every
    interleaving of calls, threads' steps and changes of the node, the mode's
    thread `w` runs no further hash batch, begins no stake throttle sleep and
    builds at most one more candidate. -/
theorem stop_winds_down_thread {s s' : Miner} (hw : w < s.nextWorker)
    (hk : (s.workers w).isProofOfStake = m) (hin : w ∈ s.joinees m)
    (hst : (if m then s.statePos else s.statePow) = .started)
    (hpow : m = true → s.statePow ≠ .starting ∧ s.statePow ≠ .started)
    (h : Run P (fun _ => True) (if m then s.stopProofOfStake else s.stopProofOfWork) s') :
    (∀ c, Event.scan w c ∉ s'.log.drop s.log.length) ∧
      (∀ n, Event.sleep w (.throttle n) ∉ s'.log.drop s.log.length) ∧
      (s'.log.drop s.log.length).countP (Event.isBuildOf w) ≤ 1 := by
  have h₀ : WindsDown m w (if m then s.stopProofOfStake else s.stopProofOfWork) [] := by
    cases m
    · rw [if_neg (by decide)] at hst ⊢
      simp only [stopProofOfWork, hst, beq_self_eq_true, if_true]
      exact ⟨hw, hk, fun _ => ⟨rfl, by simpa [joinees] using hin, by simp [modeRunning],
        Bool.and_false _⟩,
        by simp, by simp, by split <;> simp⟩
    · rw [if_pos rfl] at hst ⊢
      obtain ⟨h₁, h₂⟩ := hpow rfl
      simp only [stopProofOfStake, hst, beq_self_eq_true, if_true]
      exact ⟨hw, hk, fun _ => ⟨rfl, by simpa [joinees] using hin, by simp [modeRunning, h₁, h₂],
        by simp⟩, by simp, by simp, by split <;> simp⟩
  obtain ⟨evs, hl, hwd⟩ := h₀.run h
  have hl' : s'.log.drop s.log.length = evs := by
    rw [hl]; split <;> simp
  rw [hl']
  simp only [List.nil_append] at hwd
  exact ⟨hwd.noScan, hwd.noThrottle, by have := hwd.builds; omega⟩

/-- Both modes started, and the proof-of-work thread `1` past its outer
    condition. -/
def powAtSyncWait : List Action := [.startProofOfStake, .startProofOfWork, .work 1 createsDefault]

/-- After `stop_proof_of_work` the thread, at its sync wait, passes its waits,
    builds once, and leaves `loop()` at the hashing loop's and the outer
    condition without scanning. -/
theorem stop_winds_down_thread_example :
    ∃ s s', exec exampleParams powAtSyncWait (init exampleEnv) = .ok s ∧
      exec exampleParams (List.replicate 5 (.work 1 createsDefault)) s.stopProofOfWork = .ok s' ∧
      (s'.workers 1).pc = .exited ∧ (s'.log.drop s.log.length).countP (Event.isBuildOf 1) = 1 ∧
      (∀ c, Event.scan 1 c ∉ s'.log.drop s.log.length) ∧
      (∀ n, Event.sleep 1 (.throttle n) ∉ s'.log.drop s.log.length) ∧
      (s'.log.drop s.log.length).countP (Event.isBuildOf 1) ≤ 1 :=
  ⟨_, _, rfl, rfl, rfl, by decide, stop_winds_down_thread exampleParams (m := false) (w := 1)
    (by decide) rfl (by decide) rfl (fun h => absurd h (by decide))
    (@Run.of_exec exampleParams (List.replicate 5 (.work 1 createsDefault)) _ _ rfl)⟩

/-- **While proof-of-work runs, stopping proof-of-stake does not stop its
    thread.**  With the proof-of-stake thread `w` at its outer condition,
    proof-of-work started and the node running, downloaded, with peers and an
    unlocked wallet: `stop_proof_of_stake` sets the state to stopping, and four
    steps of `w` later the thread has built a new candidate. -/
theorem stake_thread_builds_after_stop {s : Miner} {o : Oracle} (hw : w < s.nextWorker)
    (hk : (s.workers w).isProofOfStake = true) (hpc : (s.workers w).pc = .guard)
    (hpos : s.statePos = .started) (hpow : s.statePow = .started) (hj : s.joining = none)
    (hr : s.env.running = true) (hd : s.env.initialDownload = false)
    (hc : s.env.connections ≠ 0) (hl : s.env.walletLocked = false) (ho : o.created ≠ none) :
    ∃ s₁ s₂, s.step P .stopProofOfStake = .ok s₁ ∧ s₁.statePos = .stopping ∧
      Run P (fun a => a = .work w o) s₁ s₂ ∧
      ∃ b, Event.build b ∈ s₂.log.drop s₁.log.length ∧ b.worker = w ∧ b.isProofOfStake = true := by
  obtain ⟨blk, hblk⟩ := Option.ne_none_iff_exists'.1 ho
  let k := s.workers w
  let s₁ : Miner := { s with statePos := .stopping, joining := some true }
  let t₁ := s₁.advance w { k with pc := .syncWait } []
  let t₂ := t₁.advance w { k with pc := .walletWait } []
  let t₃ := t₂.advance w { k with pc := .build } []
  have e₁ : s₁.loopStep P w o = t₁ := by
    simp [loopStep, s₁, t₁, k, hpc, keepMining, modeRunning, hpow, hr]
  have e₂ : t₁.loopStep P w o = t₂ := by simp [loopStep, t₁, t₂, s₁, hd, hc]
  have e₃ : t₂.loopStep P w o = t₃ := by simp [loopStep, t₂, t₃, t₁, s₁, hl]
  have run : Run P (fun a => a = .work w o) s₁ t₃ :=
    .step _ (.step _ (.step _ .refl rfl (step_work.2 ⟨hw, by simp [s₁, hpc], e₁⟩)) rfl
      (step_work.2 ⟨hw, by simp [t₁], e₂⟩)) rfl (step_work.2 ⟨hw, by simp [t₂], e₃⟩)
  refine ⟨s₁, t₃.loopStep P w o, by simp [step, call, hj, stopProofOfStake, hpos, s₁], rfl,
    .step _ run rfl (step_work.2 ⟨hw, by simp [t₃], rfl⟩),
    ⟨w, k.isProofOfStake, s.nextCandidate, blk.header.previous,
      (incrementExtraNonce P s.hashPrevious blk s.env.bestIndex k.extraNonce).2.1⟩, ?_, rfl, hk⟩
  simp [loopStep, t₃, t₂, t₁, s₁, k, build, hblk]

theorem stake_thread_builds_after_stop_example :
    let s := (init exampleEnv).startProofOfStake.startProofOfWork
    let o : Oracle := ⟨some default, true, none, 0, 0, 0⟩
    ∃ s₁ s₂, s.step exampleParams .stopProofOfStake = .ok s₁ ∧ s₁.statePos = .stopping ∧
      Run exampleParams (fun a => a = .work 0 o) s₁ s₂ ∧
      ∃ b, Event.build b ∈ s₂.log.drop s₁.log.length ∧ b.worker = 0 ∧ b.isProofOfStake = true :=
  stake_thread_builds_after_stop exampleParams (by decide) rfl rfl rfl rfl rfl rfl rfl (by decide)
    rfl (by decide)

/-- **While proof-of-work runs, `stop()` hangs.**  `mining_manager::stop()`
    calls `stop_proof_of_stake` first.  With both modes started, the
    proof-of-stake thread `w` inside `loop()` and the node running: after
    `stop_proof_of_stake` has set its state to stopping, in every continuation
    in which the node stays in `state_started` and `create_new` returns a
    candidate, the state stays stopping, the join has not returned, and
    `stop_proof_of_work`, the second call of `stop()`, still waits on
    `mutex_`. -/
theorem stop_hangs_while_pow_runs {s s₁ s' : Miner} (hpos : s.statePos = .started)
    (hpow : s.statePow = .started) (ht : s.threadPos = some w) (hx : (s.workers w).pc ≠ .exited)
    (hr : s.env.running = true) (hs : s.step P .stopProofOfStake = .ok s₁)
    (h : Run P (fun a => a.keepsBuilding = true) s₁ s') :
    s'.statePos = .stopping ∧ s'.joined = .error .threadRunning ∧
      s'.step P .stopProofOfWork = .error .mutexHeld := by
  obtain ⟨-, rfl⟩ := call_ok hs
  have h₀ : StakeJoinPending w s.stopProofOfStake := by
    simp only [stopProofOfStake, hpos, beq_self_eq_true, if_true]
    exact ⟨rfl, ht, rfl, hpow, hx, hr⟩
  have hI := h₀.run h
  refine ⟨hI.pos, ?_, by simp [step, call, hI.joining]⟩
  simp [joined, hI.joining, joinees, hI.threadPos, hI.inLoop]

/-- After `stop_proof_of_stake` the proof-of-stake thread `0` goes round its
    loop, building a candidate, while `stop()` cannot go on. -/
theorem stop_hangs_while_pow_runs_example :
    let s := (init exampleEnv).startProofOfStake.startProofOfWork
    ∃ s₁ s', s.step exampleParams .stopProofOfStake = .ok s₁ ∧
      exec exampleParams (List.replicate 6 (.work 0 createsDefault)) s₁ = .ok s' ∧
      (s'.log.drop s₁.log.length).countP (Event.isBuildOf 0) = 1 ∧ (s'.workers 0).pc = .guard ∧
      s'.statePos = .stopping ∧ s'.joined = .error .threadRunning ∧
      s'.step exampleParams .stopProofOfWork = .error .mutexHeld :=
  ⟨_, _, rfl, rfl, by decide, rfl, stop_hangs_while_pow_runs exampleParams
    (s := (init exampleEnv).startProofOfStake.startProofOfWork) rfl rfl rfl (by decide) rfl rfl
    (@Run.of_exec_of exampleParams _ (List.replicate 6 (.work 0 createsDefault)) _ _
      (fun _ ha => List.eq_of_mem_replicate ha ▸ rfl) rfl)⟩

end Miner

end Mining

end Vanillacoin
