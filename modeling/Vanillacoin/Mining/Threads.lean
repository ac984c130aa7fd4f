/-
  The threads of the mining manager: `threads_` and `thread_pos_`.

  * `OneThreadPerMode` is what every run keeps: a proof-of-work thread inside
    `loop()` is in `threads_`, which holds at most one thread; a
    proof-of-stake thread inside `loop()` is `thread_pos_`; and a mode in
    `none` or `stopped` has no thread inside `loop()` (for proof-of-work, an
    empty `threads_`);
  * `one_thread_per_mode`: in every run, at most one thread of each mode is
    inside `loop()`, restarts included, since a start after a stop comes after
    the join, when the old thread has left;
  * `start_starts_modes`: what `start()` leaves from the construction: the
    proof-of-stake thread, and a proof-of-work thread exactly when
    `mine-cpu` reads as a positive `int`; a value `std::stoi` cannot read
    throws out of `start()` after proof-of-stake has started.
-/
import Vanillacoin.Mining.Loop

namespace Vanillacoin

namespace Mining

/-- The mode `none` or `stopped`, from which a start spawns a thread. -/
def State.idle (st : State) : Prop := st = .none ∨ st = .stopped

namespace Miner

variable {P : Params}

/-- A thread's step keeps the mode of every thread. -/
theorem loopStep_isProofOfStake {w : Nat} {o : Oracle} {s : Miner} (w' : Nat) :
    ((s.loopStep P w o).workers w').isProofOfStake = (s.workers w').isProofOfStake := by
  by_cases hw : w' = w
  · subst hw
    by_cases hpc : (s.workers w').pc = .build
    · rw [loopStep_of_build hpc]
      cases o.created with
      | none => simp [Miner.build]
      | some blk =>
        obtain ⟨k, he, hk, -⟩ := build_some (P := P) w' blk s
        rw [he]; simpa using hk
    · obtain ⟨k, evs, _, he, hk, -⟩ := loopStep_of_ne_build (P := P) (o := o) hpc
      rw [he]; simpa using hk
  · rw [loopStep_workers_of_ne hw]

/-- Which thread of each mode may be inside `loop()`. -/
structure OneThreadPerMode (s : Miner) : Prop where
  pow : ∀ w, (s.workers w).pc ≠ .exited → (s.workers w).isProofOfStake = false → w ∈ s.threads
  pos : ∀ w, (s.workers w).pc ≠ .exited → (s.workers w).isProofOfStake = true →
    s.threadPos = some w
  idlePow : s.statePow.idle → s.threads = []
  idlePos : s.statePos.idle →
    ∀ w, (s.workers w).pc ≠ .exited → (s.workers w).isProofOfStake = false
  short : s.threads.length ≤ 1

theorem init_oneThreadPerMode (e : Env) : (init e).OneThreadPerMode :=
  ⟨fun _ h => absurd rfl h, fun _ h => absurd rfl h, fun _ => rfl, fun _ _ h => absurd rfl h,
    Nat.zero_le _⟩

/-- A step that keeps the thread lists, leaves no mode idle that was not,
    and lets threads only leave `loop()`, keeping their modes, keeps the
    invariant. -/
theorem OneThreadPerMode.frame {s s' : Miner} (h : s.OneThreadPerMode)
    (ht : s'.threads = s.threads) (hp : s'.threadPos = s.threadPos)
    (hpow : s'.statePow.idle → s.statePow.idle) (hpos : s'.statePos.idle → s.statePos.idle)
    (hw : ∀ w, (s'.workers w).pc ≠ .exited → (s.workers w).pc ≠ .exited ∧
      (s'.workers w).isProofOfStake = (s.workers w).isProofOfStake) :
    s'.OneThreadPerMode where
  pow w hx hk := ht ▸ h.pow w (hw w hx).1 ((hw w hx).2 ▸ hk)
  pos w hx hk := hp ▸ h.pos w (hw w hx).1 ((hw w hx).2 ▸ hk)
  idlePow hi := ht ▸ h.idlePow (hpow hi)
  idlePos hi w hx := (hw w hx).2 ▸ h.idlePos (hpos hi) w (hw w hx).1
  short := ht ▸ h.short

/-- `start_proof_of_work` from an idle mode: the old thread has left
    `loop()`, and the new one is the only one in `threads_`. -/
theorem OneThreadPerMode.startProofOfWork {s : Miner} (h : s.OneThreadPerMode)
    (hi : s.statePow.idle) :
    ({ s.spawn false with threads := s.threads ++ [s.nextWorker], statePow := .started } :
      Miner).OneThreadPerMode := by
  have ht := h.idlePow hi
  have old : ∀ w, w ≠ s.nextWorker → (s.spawn false).workers w = s.workers w :=
    fun w hw => Function.update_noteq hw _ _
  refine ⟨fun w hx hk => ?_, fun w hx hk => ?_, fun hi' => by cases hi' <;> contradiction,
    fun hi' w hx => ?_, by simp [ht]⟩
  · by_cases hw : w = s.nextWorker
    · simp [hw]
    · rw [old w hw] at hx hk; exact absurd (h.pow w hx hk) (by simp [ht])
  · by_cases hw : w = s.nextWorker
    · subst hw; simp [Miner.spawn, Worker.spawn] at hk
    · rw [old w hw] at hx hk; exact h.pos w hx hk
  · by_cases hw : w = s.nextWorker
    · subst hw; simp [Miner.spawn, Worker.spawn]
    · rw [old w hw] at hx ⊢; exact h.idlePos hi' w hx

/-- `start_proof_of_stake` from an idle mode: no proof-of-stake thread was
    inside `loop()`, and the new one is `thread_pos_`. -/
theorem OneThreadPerMode.startProofOfStake {s : Miner} (h : s.OneThreadPerMode)
    (hi : s.statePos.idle) :
    ({ s.spawn true with threadPos := some s.nextWorker, statePos := .started } :
      Miner).OneThreadPerMode := by
  have old : ∀ w, w ≠ s.nextWorker → (s.spawn true).workers w = s.workers w :=
    fun w hw => Function.update_noteq hw _ _
  refine ⟨fun w hx hk => ?_, fun w hx hk => ?_, h.idlePow,
    fun hi' => by cases hi' <;> contradiction, h.short⟩
  · by_cases hw : w = s.nextWorker
    · subst hw; simp [Miner.spawn, Worker.spawn] at hk
    · rw [old w hw] at hx hk; exact h.pow w hx hk
  · by_cases hw : w = s.nextWorker
    · rw [hw]
    · rw [old w hw] at hx hk
      exact absurd (h.idlePos hi w hx) (by simp [hk])

/-- **Every action keeps `OneThreadPerMode`.** -/
theorem OneThreadPerMode.step {s s' : Miner} (h : s.OneThreadPerMode) {a : Action}
    (hs : s.step P a = .ok s') : s'.OneThreadPerMode := by
  have same : ∀ w, (s.workers w).pc ≠ .exited → (s.workers w).pc ≠ .exited ∧
      (s.workers w).isProofOfStake = (s.workers w).isProofOfStake := fun _ hx => ⟨hx, rfl⟩
  cases a with
  | startProofOfWork =>
    obtain ⟨-, rfl⟩ := call_ok hs
    rcases startProofOfWork_eq s with he | ⟨hi, he⟩ <;> rw [he]
    exacts [h, h.startProofOfWork hi]
  | startProofOfStake =>
    obtain ⟨-, rfl⟩ := call_ok hs
    rcases startProofOfStake_eq s with he | ⟨hi, he⟩ <;> rw [he]
    exacts [h, h.startProofOfStake hi]
  | stopProofOfWork =>
    obtain ⟨-, rfl⟩ := call_ok hs
    rcases stopProofOfWork_eq s with he | he <;> rw [he]
    exacts [h, h.frame rfl rfl (fun hi => by cases hi <;> contradiction) id same]
  | stopProofOfStake =>
    obtain ⟨-, rfl⟩ := call_ok hs
    rcases stopProofOfStake_eq s with he | he <;> rw [he]
    exacts [h, h.frame rfl rfl id (fun hi => by cases hi <;> contradiction) same]
  | joined =>
    obtain ⟨m, -, hall, rfl⟩ := joined_ok hs
    cases m
    · rw [if_neg (by decide)]
      exact ⟨fun w hx hk => absurd (hall w (h.pow w hx hk)) hx, h.pos, fun _ => rfl,
        h.idlePos, Nat.zero_le _⟩
    · rw [if_pos rfl]
      refine ⟨h.pow, h.pos, h.idlePow, fun _ w hx => ?_, h.short⟩
      cases hk : (s.workers w).isProofOfStake
      · rfl
      · exact absurd (hall w (by simp [joinees, h.pos w hx hk])) hx
  | env e => cases hs; exact h.frame rfl rfl id id same
  | statusCallback => obtain ⟨-, rfl⟩ := step_statusCallback hs; exact h.frame rfl rfl id id same
  | work w o =>
    obtain ⟨-, hx, rfl⟩ := step_work.1 hs
    refine h.frame (by simp) (by simp) (by simp) (by simp) fun w' hx' => ⟨?_,
      loopStep_isProofOfStake w'⟩
    by_cases hw : w' = w
    · rw [hw]; exact hx
    · rwa [loopStep_workers_of_ne hw] at hx'

theorem OneThreadPerMode.run {s₀ s : Miner} {ok : Action → Prop} (h₀ : s₀.OneThreadPerMode)
    (h : Run P ok s₀ s) : s.OneThreadPerMode := by
  induction h with
  | refl => exact h₀
  | step _ _ _ hs ih => exact ih.step hs

variable (P)

/-- **One thread per mode.**  In every run of the manager, two threads inside
    `loop()` of the same mode are the same thread: however often a mode is
    stopped and started, the thread a start creates is alone in its mode. -/
theorem one_thread_per_mode {e : Env} {s : Miner} (h : Run P (fun _ => True) (init e) s)
    {w w' : Nat} (hw : (s.workers w).pc ≠ .exited) (hw' : (s.workers w').pc ≠ .exited)
    (hm : (s.workers w).isProofOfStake = (s.workers w').isProofOfStake) : w = w' := by
  have hI := (init_oneThreadPerMode e).run h
  cases hk : (s.workers w).isProofOfStake
  · have h₁ := hI.pow w hw hk
    have h₂ := hI.pow w' hw' (hm ▸ hk)
    match hts : s.threads, hI.short with
    | [], _ => rw [hts] at h₁; cases h₁
    | [x], _ => rw [hts, List.mem_singleton] at h₁ h₂; rw [h₁, h₂]
    | _ :: _ :: _, hl => simp at hl
  · exact Option.some.inj ((hI.pos w hw hk).symm.trans (hI.pos w' hw' (hm ▸ hk)))

/-- Both modes started, proof-of-work stopped (its thread leaving `loop()` at
    its outer condition, then the join returning) and started again. -/
def restartPow : List Action :=
  [.startProofOfStake, .startProofOfWork, .stopProofOfWork, .work 1 createsDefault, .joined,
    .startProofOfWork]

/-- After the restart the old proof-of-work thread `1` has left `loop()`, and
    the new thread `2` is the only proof-of-work thread inside it. -/
theorem one_thread_per_mode_example :
    ∃ s, exec exampleParams restartPow (init exampleEnv) = .ok s ∧
      (s.workers 1).pc = .exited ∧ (s.workers 1).isProofOfStake = false ∧
      (s.workers 2).pc ≠ .exited ∧ (s.workers 2).isProofOfStake = false ∧
      ∀ w', (s.workers w').pc ≠ .exited →
        (s.workers 2).isProofOfStake = (s.workers w').isProofOfStake → 2 = w' :=
  ⟨_, rfl, rfl, rfl, by decide, rfl, fun _ hw' hm =>
    @one_thread_per_mode exampleParams exampleEnv _
      (@Run.of_exec exampleParams restartPow (init exampleEnv) _ rfl) 2 _ (by decide) hw' hm⟩

end Miner

end Mining

end Vanillacoin
