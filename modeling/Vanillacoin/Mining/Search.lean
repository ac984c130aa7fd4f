/-
  The tests that end the proof-of-work search (`loop(false)`, the hashing
  loop).

  * `Retired w c` says that thread `w` no longer searches candidate `c`:
    the candidate counter is past it, and while the thread holds it, it is not
    in the hashing loop.  Every action keeps it, and no action scans `c` in
    `w` while it holds (`Retired.step`, `Retired.run`);
  * `search_stops_on_tests`: in every run, a pass ends the search when the
    node has left its running state, when the transactions counter changed
    more than 60 s after the build, when `block_nonce` reached `0xffff0000`,
    or when the best block moved; in every run after that pass, the thread
    scans that candidate no more;
  * `hashing_ignores_header_nonce`: the bound on the nonce is read from
    `block_nonce`, the word of the `data` buffer `format_hash_buffers` filled
    at the build, and `scan_hash_whirlpool` works on the header: whatever
    nonce a pass leaves in the header, the search goes on when the other
    tests pass, and the next pass scans the candidate again.
-/
import Vanillacoin.Mining.Submission

namespace Vanillacoin

namespace Mining

namespace Miner

variable (P : Params)

/-- A pass of the hashing loop while the mode runs: one scan of the candidate. -/
theorem loopStep_of_hashing {s : Miner} {w : Nat} {o : Oracle} (hpc : (s.workers w).pc = .hashing)
    (hm : s.keepMining (s.workers w).isProofOfStake = true) :
    s.loopStep P w o =
      { s.advance w (hashPass P s.env (s.workers w) o) [.scan w (s.workers w).candidate] with
        sample := samplePass P (s.workers w) o s.env.now s.sample } := by
  unfold loopStep; simp only [hpc, hm, if_true]

/-- The candidate as a pass without a solution leaves it, before the tests. -/
theorem hashPass_of_none {e : Env} {k : Worker} {o : Oracle} (hf : o.found = none) :
    hashPass P e k o = afterPass P e k { k.blk.header with nonce := o.headerNonce } := by
  simp [hashPass, hf]

/-- A pass whose tests fire leaves the hashing loop, whatever the scan found:
    a solution goes to `check_work`, anything else back to the outer guard. -/
theorem hashPass_leaves_search {e : Env} {k : Worker} (o : Oracle) (h : aborts e k = true) :
    (hashPass P e k o).pc ≠ .hashing := by
  unfold hashPass
  split
  · dsimp only; split <;> simp [afterPass, h]
  · simp [afterPass, h]

/-- A step of a thread enters the hashing loop only at a build. -/
theorem hashing_of_loopStep {s : Miner} {w : Nat} {o : Oracle}
    (h : ((s.loopStep P w o).workers w).pc = .hashing) :
    (s.workers w).pc = .hashing ∨ (s.workers w).pc = .build := by
  unfold loopStep at h
  cases hpc : (s.workers w).pc <;> simp only [hpc] at h
  case hashing => exact .inl rfl
  case build => exact .inr rfl
  case exited => simp [hpc] at h
  all_goals split_ifs at h <;> simp [hpc] at h

theorem scan_not_mem_checkWork (e : Env) (w c : Nat) (blk : Block) (w' c' : Nat) :
    Event.scan w' c' ∉ checkWork P e w c blk := by
  unfold checkWork; dsimp only; split_ifs <;> simp

/-- **Only a pass of the hashing loop scans**, in its own thread, on the
    candidate it holds. -/
theorem scan_of_loopStep {s : Miner} {w w' c : Nat} {o : Oracle}
    (h : Event.scan w' c ∈ (s.loopStep P w o).log.drop s.log.length) :
    w' = w ∧ (s.workers w).pc = .hashing ∧ (s.workers w).candidate = c := by
  unfold loopStep at h
  cases hpc : (s.workers w).pc <;> simp only [hpc] at h
  case exited => simp at h
  case build => rcases hc : o.created with _ | _ <;> simp [build, hc] at h
  case hashing =>
    split at h
    · simp only [advance_log, List.drop_left, List.mem_singleton, Event.scan.injEq] at h
      exact ⟨h.1, rfl, h.2.symm⟩
    · simp at h
  all_goals split_ifs at h <;>
    simp [scan_not_mem_checkWork] at h

/-- The candidate counter only grows. -/
theorem le_loopStep_nextCandidate (s : Miner) (w : Nat) (o : Oracle) :
    s.nextCandidate ≤ (s.loopStep P w o).nextCandidate := by
  by_cases hpc : (s.workers w).pc = .build
  · rw [loopStep_of_build hpc]
    cases o.created with
    | none => simp [build]
    | some blk =>
      obtain ⟨k, he, -⟩ := build_some (P := P) w blk s
      rw [he]; exact Nat.le_succ _
  · obtain ⟨k, evs, _, he, -⟩ := loopStep_of_ne_build (P := P) (o := o) hpc
    rw [he]; exact Nat.le_refl _

/-- A build that enters the hashing loop takes the next candidate number. -/
theorem build_hashing {s : Miner} {w : Nat} {created : Option Block}
    (h : ((s.build P w created).workers w).pc = .hashing) :
    ((s.build P w created).workers w).candidate = s.nextCandidate := by
  cases created with
  | none => simp [build] at h
  | some blk =>
    obtain ⟨k, he, -, -, hkc, -⟩ := build_some (P := P) w blk s
    rw [he]; simpa using hkc

/-- Thread `w` no longer searches candidate `c`. -/
structure Retired (w c : Nat) (s : Miner) : Prop where
  lt : c < s.nextCandidate
  off : (s.workers w).candidate = c → (s.workers w).pc ≠ .hashing

/-- **Every action keeps `Retired`, and scans `c` in no thread `w`.** -/
theorem Retired.step {w c : Nat} {s s' : Miner} (h : Retired w c s) {a : Action}
    (hs : s.step P a = .ok s') :
    Retired w c s' ∧ ∃ evs, s'.log = s.log ++ evs ∧ Event.scan w c ∉ evs := by
  rcases step_cases hs with ⟨w', o, -, -, -, rfl⟩ | ⟨m, hk⟩ | hk
  · obtain ⟨evs, hl, -⟩ := loopStep_log (P := P) (w := w') (o := o) (s := s)
    have hlt := Nat.lt_of_lt_of_le h.lt (le_loopStep_nextCandidate P s w' o)
    refine ⟨⟨hlt, fun hc hh => ?_⟩, evs, hl, fun hm => ?_⟩
    · by_cases hw : w = w'
      · subst hw
        rcases hashing_of_loopStep P hh with hpc | hpc
        · obtain ⟨k, evs', _, he, -, -, hkc, -⟩ := loopStep_of_ne_build (P := P) (o := o)
            (by rw [hpc]; decide)
          rw [he] at hc; simp only [advance_workers, Function.update_same] at hc
          exact h.off (hkc ▸ hc) hpc
        · rw [loopStep_of_build hpc] at hc hh
          exact Nat.ne_of_lt h.lt (hc.symm.trans (build_hashing P hh))
      · rw [loopStep_workers_of_ne hw] at hc hh; exact h.off hc hh
    · obtain ⟨rfl, hpc, hc⟩ := @scan_of_loopStep P s w' w c o (by rw [hl, List.drop_left]; exact hm)
      exact h.off hc hpc
  · refine ⟨⟨hk.nextCandidate ▸ h.lt, fun hc => ?_⟩, [], by simp [hk.log, Miner.spawn], by simp⟩
    rw [hk.workers] at hc ⊢
    by_cases hw : w = s.nextWorker
    · subst hw; simp [Miner.spawn, Worker.spawn, Worker.idle]
    · have he : (s.spawn m).workers w = s.workers w := Function.update_noteq hw _ _
      rw [he] at hc ⊢; exact h.off hc
  · exact ⟨⟨hk.nextCandidate ▸ h.lt, hk.workers ▸ h.off⟩, [], by simp [hk.log], by simp⟩

theorem Retired.run {w c : Nat} {s₀ s : Miner} (h₀ : Retired w c s₀)
    (h : Run P (fun _ => True) s₀ s) :
    Retired w c s ∧ ∃ evs, s.log = s₀.log ++ evs ∧ Event.scan w c ∉ evs := by
  induction h with
  | refl => exact ⟨h₀, [], by simp, by simp⟩
  | step _ _ _ hs ih =>
    obtain ⟨hr, evs, hl, hn⟩ := ih
    obtain ⟨hr', evs', hl', hn'⟩ := hr.step P hs
    exact ⟨hr', evs ++ evs', by rw [hl', hl, List.append_assoc],
      fun hm => (List.mem_append.1 hm).elim hn hn'⟩

/-- **The search ends on its tests.**  In every run of the manager, at a pass
    of the hashing loop, when the node has left its running state, when the
    transactions counter changed and more than 60 s passed since the search
    began, when `block_nonce` reached `0xffff0000`, or when the best block is
    no longer the one the candidate was built on, the thread leaves the
    hashing loop, whatever the scan found; and in every run from there on, no
    pass of that thread scans the candidate again. -/
theorem search_stops_on_tests {e : Env} {s s' : Miner} {w : Nat} (o : Oracle)
    (h₀ : Run P (fun _ => True) (init e) s) (hpc : (s.workers w).pc = .hashing)
    (h : s.env.running = false ∨
      (s.env.transactionsUpdated ≠ (s.workers w).transactionsUpdatedLast ∧
        s.env.now - (s.workers w).start > 60) ∨
      (s.workers w).blockNonce ≥ 0xffff0000 ∨ (s.workers w).indexPrevious ≠ s.env.bestIndex)
    (hr : Run P (fun _ => True) (s.loopStep P w o) s') :
    ((s.loopStep P w o).workers w).pc ≠ .hashing ∧
      Event.scan w (s.workers w).candidate ∉ s'.log.drop (s.loopStep P w o).log.length := by
  have ha : aborts s.env (s.workers w) = true := by
    unfold aborts; rcases h with h | h | h | h <;> simp [h]
  have hleave : ((s.loopStep P w o).workers w).pc ≠ .hashing := by
    unfold loopStep; simp only [hpc]; split <;> simp [hashPass_leaves_search P o ha]
  have hlt : (s.workers w).candidate < s.nextCandidate :=
    ((init_checkInv e).run h₀).heldLt w (by simp [hpc, Pc.holdsCandidate])
  obtain ⟨-, evs, hl, hn⟩ := Retired.run P
    ⟨Nat.lt_of_lt_of_le hlt (le_loopStep_nextCandidate P s w o), fun _ => hleave⟩ hr
  exact ⟨hleave, by rw [hl, List.drop_left]; exact hn⟩

/-- The tests after a pass pass when the node runs, the transactions counter
    is unchanged or 60 s have not passed, `block_nonce` is below
    `0xffff0000`, and the best block has not moved. -/
theorem aborts_eq_false {e : Env} {k : Worker} (hr : e.running = true)
    (ht : e.transactionsUpdated = k.transactionsUpdatedLast ∨ e.now - k.start ≤ 60)
    (hn : k.blockNonce < 0xffff0000) (hb : k.indexPrevious = e.bestIndex) : aborts e k = false := by
  have h₁ : decide (k.blockNonce ≥ 0xffff0000) = false := decide_eq_false (UInt32.not_le.2 hn)
  have h₂ : (e.transactionsUpdated != k.transactionsUpdatedLast &&
      decide (e.now - k.start > 60)) = false := by
    rcases ht with ht | ht
    · simp [ht]
    · simp [Int.not_lt.2 ht]
  simp only [aborts, hr, hb, h₁, h₂, bne_self_eq_false, Bool.not_true, Bool.or_false]

/-- A pass whose tests pass and whose new timestamp stays under the drift
    bound keeps searching the same candidate, with the header the scan left. -/
theorem afterPass_of_not_aborts {e : Env} {k : Worker} {header : Header}
    (ha : aborts e k = false)
    (hd : updatedTimestamp P { k.blk with header := header } k.indexPrevious e.now <
      u32 (k.blk.coinbaseTime.toNat + P.maxClockDrift)) :
    (afterPass P e k header).pc = .hashing ∧
      (afterPass P e k header).blk.header.nonce = header.nonce ∧
      (afterPass P e k header).isProofOfStake = k.isProofOfStake ∧
      (afterPass P e k header).candidate = k.candidate := by
  simp only [afterPass, ha]
  exact ⟨if_neg (UInt32.not_le.2 hd), rfl, rfl, rfl⟩

/-- **The nonce bound reads the data buffer, not the header.**  At a pass of
    the hashing loop whose scan finds no solution, whatever nonce the scan
    leaves in the header: when `block_nonce` is below `0xffff0000`, the node
    runs, the transactions counter is unchanged or 60 s have not passed, the
    best block is the one the candidate was built on, and the clock-drift test
    passes, the thread stays in the hashing loop with the header's nonce as
    the scan left it, and, the loop's condition still holding, its next pass
    scans the candidate again. -/
theorem hashing_ignores_header_nonce {s : Miner} {w : Nat} {o o' : Oracle}
    (hpc : (s.workers w).pc = .hashing) (hm : s.keepMining (s.workers w).isProofOfStake = true)
    (hf : o.found = none) (hr : s.env.running = true)
    (ht : s.env.transactionsUpdated = (s.workers w).transactionsUpdatedLast ∨
      s.env.now - (s.workers w).start ≤ 60)
    (hn : (s.workers w).blockNonce < 0xffff0000)
    (hb : (s.workers w).indexPrevious = s.env.bestIndex)
    (hd : updatedTimestamp P { (s.workers w).blk with
        header := { (s.workers w).blk.header with nonce := o.headerNonce } }
      (s.workers w).indexPrevious s.env.now <
        u32 ((s.workers w).blk.coinbaseTime.toNat + P.maxClockDrift)) :
    ((s.loopStep P w o).workers w).pc = .hashing ∧
      ((s.loopStep P w o).workers w).blk.header.nonce = o.headerNonce ∧
      Event.scan w (s.workers w).candidate ∈ ((s.loopStep P w o).loopStep P w o').log := by
  have hk : (s.loopStep P w o).workers w = afterPass P s.env (s.workers w)
      { (s.workers w).blk.header with nonce := o.headerNonce } := by
    simp [loopStep_of_hashing P hpc hm, hashPass_of_none P hf]
  obtain ⟨h₁, h₂, h₃, h₄⟩ := afterPass_of_not_aborts P (aborts_eq_false hr ht hn hb) hd
  rw [← hk] at h₁ h₂ h₃ h₄
  have hm' : (s.loopStep P w o).keepMining ((s.loopStep P w o).workers w).isProofOfStake := by
    rw [h₃]; simpa [keepMining, modeRunning] using hm
  exact ⟨h₁, h₂, by simp [loopStep_of_hashing P h₁ hm', h₄]⟩

/-- Proof-of-work started, and thread `0` through its guard, its two waits and
    a build: it searches. -/
def searchTrace : List Action :=
  [.startProofOfWork, .work 0 createsDefault, .work 0 createsDefault, .work 0 createsDefault,
    .work 0 createsDefault]

/-- A scan that finds nothing and leaves `0xffff0000` in the header. -/
def scanToBound : Oracle := ⟨none, true, none, 0xffff0000, 0, 0⟩

theorem hashing_ignores_header_nonce_example :
    ∃ s, exec exampleParams searchTrace (init exampleEnv) = .ok s ∧
      ((s.loopStep exampleParams 0 scanToBound).workers 0).pc = .hashing ∧
      ((s.loopStep exampleParams 0 scanToBound).workers 0).blk.header.nonce = 0xffff0000 ∧
      Event.scan 0 (s.workers 0).candidate ∈
        ((s.loopStep exampleParams 0 scanToBound).loopStep exampleParams 0 scanToBound).log :=
  ⟨_, rfl, hashing_ignores_header_nonce exampleParams (by decide) (by decide) rfl (by decide)
    (by decide) (by decide) (by decide) (by decide)⟩

/-- `searchTrace`, then the best block moves. -/
def movedBest : List Action := searchTrace ++ [.env { exampleEnv with bestIndex := 1 }]

/-- The pass on `movedBest` stops the search; thread `0` then builds candidate
    `1` on the new best block and scans it, never candidate `0`. -/
theorem search_stops_on_tests_example :
    ∃ s s', exec exampleParams movedBest (init exampleEnv) = .ok s ∧
      exec exampleParams (List.replicate 5 (.work 0 createsDefault))
        (s.loopStep exampleParams 0 scanToBound) = .ok s' ∧
      Event.scan 0 1 ∈ s'.log.drop (s.loopStep exampleParams 0 scanToBound).log.length ∧
      ((s.loopStep exampleParams 0 scanToBound).workers 0).pc ≠ .hashing ∧
      Event.scan 0 (s.workers 0).candidate ∉
        s'.log.drop (s.loopStep exampleParams 0 scanToBound).log.length :=
  ⟨_, _, rfl, rfl, by decide, @search_stops_on_tests exampleParams exampleEnv _ _ 0 scanToBound
    (@Run.of_exec exampleParams movedBest _ _ rfl) (by decide) (by decide)
    (@Run.of_exec exampleParams (List.replicate 5 (.work 0 createsDefault)) _ _ rfl)⟩

end Miner

end Mining

end Vanillacoin
