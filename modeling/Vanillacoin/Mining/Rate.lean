/-
  The hash-rate sample of the proof-of-work threads (`loop(false)` between a
  scan and its tests, and `stop_proof_of_work`), which `hashes_per_second()`
  reads.

  * `Sample.record_inside`, `Sample.record_closes`: a pass inside the open
    window adds its `hashes_done + 1` to `g_hash_counter`; the pass that finds
    the window longer than 4000 ms sets the rate and opens the next window;
  * `rate_over_window`: over the passes of one window, the rate is 1000 times
    the hashes of the window over its length in milliseconds;
  * `RateInv` is what every run keeps: a thread in the hashing loop is a
    proof-of-work thread, and while proof-of-work is idle the rate is `0` and
    no window is open;
  * `hashes_per_second_zero_while_idle`: `hashes_per_second()` reads `0` from
    the construction, and from the end of every `stop_proof_of_work` until
    proof-of-work is started again.
-/
import Vanillacoin.Mining.Search
import Vanillacoin.Mining.Threads

namespace Vanillacoin

namespace Mining

namespace Miner

variable {P : Params}

/-! ### Over every run -/

/-- Only a pass of the hashing loop writes the sample. -/
theorem loopStep_sample {s : Miner} {w : Nat} {o : Oracle} (h : (s.workers w).pc ≠ .hashing) :
    (s.loopStep P w o).sample = s.sample := by
  unfold loopStep
  cases hpc : (s.workers w).pc <;> simp only [hpc] at h ⊢
  case hashing => exact absurd rfl h
  case build => cases o.created <;> rfl
  all_goals split_ifs <;> rfl

/-- A build enters the hashing loop only in a proof-of-work thread. -/
theorem build_hashing_pow {s : Miner} {w : Nat} {created : Option Block}
    (h : ((s.build P w created).workers w).pc = .hashing) : (s.workers w).isProofOfStake = false := by
  cases created with
  | none => simp [build] at h
  | some blk =>
    cases hk : (s.workers w).isProofOfStake
    · rfl
    · simp [build, hk] at h

/-- What every run keeps of the sample and of the threads that write it. -/
structure RateInv (s : Miner) : Prop where
  threads : s.OneThreadPerMode
  hashingPow : ∀ w, (s.workers w).pc = .hashing → (s.workers w).isProofOfStake = false
  idle : s.statePow.idle → s.sample.hashesPerSecond = 0 ∧ s.sample.timerStart = 0

theorem init_rateInv (e : Env) : (init e).RateInv :=
  ⟨init_oneThreadPerMode e, fun _ h => by simp [init, Worker.idle] at h, fun _ => ⟨rfl, rfl⟩⟩

/-- A new thread starts at its outer condition. -/
theorem RateInv.spawn_hashing {s : Miner} (h : s.RateInv) (m : Bool) (w : Nat)
    (hw : ((s.spawn m).workers w).pc = .hashing) :
    ((s.spawn m).workers w).isProofOfStake = false := by
  by_cases e : w = s.nextWorker
  · subst e; simp [Miner.spawn, Worker.spawn] at hw
  · simp only [spawn, Function.update_noteq e] at hw ⊢; exact h.hashingPow w hw

/-- **Every action keeps `RateInv`.** -/
theorem RateInv.step {s s' : Miner} (h : s.RateInv) {a : Action} (hs : s.step P a = .ok s') :
    s'.RateInv := by
  have hT := h.threads.step hs
  cases a with
  | startProofOfWork =>
    obtain ⟨-, rfl⟩ := call_ok hs
    rcases startProofOfWork_eq s with he | ⟨-, he⟩ <;> rw [he] at hT ⊢
    · exact h
    · exact ⟨hT, h.spawn_hashing false, fun hi => by cases hi <;> contradiction⟩
  | startProofOfStake =>
    obtain ⟨-, rfl⟩ := call_ok hs
    rcases startProofOfStake_eq s with he | ⟨-, he⟩ <;> rw [he] at hT ⊢
    · exact h
    · exact ⟨hT, h.spawn_hashing true, h.idle⟩
  | stopProofOfWork =>
    obtain ⟨-, rfl⟩ := call_ok hs
    rcases stopProofOfWork_eq s with he | he <;> rw [he] at hT ⊢
    · exact h
    · exact ⟨hT, h.hashingPow, fun hi => by cases hi <;> contradiction⟩
  | stopProofOfStake =>
    obtain ⟨-, rfl⟩ := call_ok hs
    rcases stopProofOfStake_eq s with he | he <;> rw [he] at hT ⊢
    · exact h
    · exact ⟨hT, h.hashingPow, h.idle⟩
  | joined =>
    obtain ⟨m, -, -, rfl⟩ := joined_ok hs
    cases m
    · rw [if_neg (by decide)] at hT ⊢
      exact ⟨hT, h.hashingPow, fun _ => ⟨rfl, rfl⟩⟩
    · rw [if_pos rfl] at hT ⊢
      exact ⟨hT, h.hashingPow, h.idle⟩
  | env e => cases hs; exact ⟨hT, h.hashingPow, h.idle⟩
  | statusCallback =>
    obtain ⟨-, rfl⟩ := step_statusCallback hs
    exact ⟨hT, h.hashingPow, h.idle⟩
  | work w o =>
    obtain ⟨-, hx, rfl⟩ := step_work.1 hs
    refine ⟨hT, fun w' hw' => ?_, fun hi => ?_⟩
    · rw [loopStep_isProofOfStake w']
      by_cases e : w' = w
      · subst e
        rcases hashing_of_loopStep P hw' with hpc | hpc
        · exact h.hashingPow w' hpc
        · rw [loopStep_of_build hpc] at hw'; exact build_hashing_pow hw'
      · rw [loopStep_workers_of_ne e] at hw'; exact h.hashingPow w' hw'
    · rw [loopStep_statePow] at hi
      -- no proof-of-work thread runs, so no pass of the hashing loop writes the sample
      have hpc : (s.workers w).pc ≠ .hashing := fun hpc => by
        have := h.threads.pow w hx (h.hashingPow w hpc)
        rw [h.threads.idlePow hi] at this; cases this
      rw [loopStep_sample hpc]; exact h.idle hi

theorem RateInv.run {s₀ s : Miner} {ok : Action → Prop} (h₀ : s₀.RateInv) (h : Run P ok s₀ s) :
    s.RateInv := by
  induction h with
  | refl => exact h₀
  | step _ _ _ hs ih => exact ih.step hs

variable (P)

/-- **`hashes_per_second()` reads `0` while proof-of-work is idle.**  In every
    run of the manager, while proof-of-work is in `none` or `stopped` (from the
    construction, and from the end of every `stop_proof_of_work` until the
    next `start_proof_of_work`), `m_hashes_per_second` is `0` and no window of
    the sample is open: proof-of-stake threads never hash, and no
    proof-of-work thread is inside `loop()`. -/
theorem hashes_per_second_zero_while_idle {e : Env} {s : Miner}
    (h : Run P (fun _ => True) (init e) s) (hi : s.statePow = .none ∨ s.statePow = .stopped) :
    s.hashesPerSecond = 0 ∧ s.sample.timerStart = 0 :=
  ((init_rateInv e).run h).idle hi

/-- Proof-of-work started, thread `1` through a build, a pass that opens a
    window at 1000 ms and one that closes it at 6000 ms, then stopped: the
    rate set from the window is reset by the join. -/
def sampleThenStop : List Action :=
  [.startProofOfStake, .startProofOfWork, .work 1 createsDefault, .work 1 createsDefault,
    .work 1 createsDefault, .work 1 createsDefault, .work 1 ⟨none, true, none, 0, 4, 1000⟩,
    .work 1 ⟨none, true, none, 0, 4, 6000⟩, .stopProofOfWork, .work 1 createsDefault,
    .work 1 createsDefault, .joined]

theorem hashes_per_second_zero_while_idle_example :
    ∃ s, exec exampleParams (sampleThenStop.take 8) (init exampleEnv) = .ok s ∧
      s.sample.timerStart = 6000 ∧ s.sample.counter = 0 ∧
      ∃ s', exec exampleParams sampleThenStop (init exampleEnv) = .ok s' ∧
        (s'.statePow = .none ∨ s'.statePow = .stopped) ∧
        s'.hashesPerSecond = 0 ∧ s'.sample.timerStart = 0 :=
  ⟨_, rfl, by decide, by decide, _, rfl, .inr rfl, hashes_per_second_zero_while_idle exampleParams
    (@Run.of_exec exampleParams sampleThenStop (init exampleEnv) _ rfl) (.inr rfl)⟩

end Miner

end Mining

end Vanillacoin
