/-
  What the mining threads hand to the node (`check_work`).

  * `checked` is the candidates `check_work` ran on, in order: rejected,
    stale or posted; a `submission` is the three calls of a posted block:
    `keep_key()`, the zero request count of its hash, `process_block`;
  * `CheckInv`: candidates are numbered as they are built; a thread holds at
    most its own, unchecked candidate, until `check_work` lets it go; so no
    candidate is checked twice, and the calls of the posted blocks come in
    whole submissions;
  * `posts_only_checked_blocks`: every block posted passed `check_work` in the
    node state of that step (a proof-of-work hash within its target, the parent
    the best chain's tip); over every run, each candidate is checked at most
    once, so posted at most once and never after a rejection, and `keep_key()`
    and the zero request count go with exactly the posted blocks.
-/
import Mathlib.Data.List.Nodup
import Vanillacoin.Mining.Loop

namespace Vanillacoin

namespace Mining

/-- The candidate `check_work` ran on, if the event is one of its outcomes. -/
def Event.checked? : Event → Option Nat
  | .rejected c | .stale c | .processBlock _ c _ => some c
  | _ => none

/-- The calls made for a posted block. -/
def Event.isSubmission : Event → Bool
  | .keepKey _ | .requestCountZero _ | .processBlock _ _ _ => true
  | _ => false

/-- The candidates checked in a log, in order. -/
def checked (log : List Event) : List Nat := log.filterMap Event.checked?

/-- The calls `check_work` makes for candidate `c` of thread `w`, the block `blk`, when it posts it. -/
def submission (P : Params) (p : Nat × Nat × Block) : List Event :=
  [.keepKey p.1, .requestCountZero (P.hash p.2.2.header), .processBlock p.1 p.2.1 p.2.2]

@[simp] theorem checked_append (l l' : List Event) : checked (l ++ l') = checked l ++ checked l' :=
  List.filterMap_append _ _ _

namespace Miner

variable {P : Params}

/-- `check_work` checks the candidate it is given, once. -/
theorem checked_checkWork (e : Env) (w c : Nat) (blk : Block) :
    checked (checkWork P e w c blk) = [c] := by
  unfold checkWork; dsimp only; split_ifs <;> rfl

/-- `check_work` makes the calls of a submission, or none. -/
theorem checkWork_submissions (e : Env) (w c : Nat) (blk : Block) :
    (checkWork P e w c blk).filter Event.isSubmission = [] ∨
      (checkWork P e w c blk).filter Event.isSubmission = submission P (w, c, blk) := by
  unfold checkWork; dsimp only; split_ifs <;> simp [Event.isSubmission, submission]

/-- **`check_work` posts only a block that passes its tests**: within the
    target if it is a proof-of-work block, on the best chain's tip. -/
theorem checkWork_processBlock {e : Env} {w c w' c' : Nat} {blk blk' : Block}
    (h : Event.processBlock w' c' blk' ∈ checkWork P e w c blk) :
    blk' = blk ∧ (blk.isProofOfStake = false → P.hash blk.header ≤ P.target blk.header.bits) ∧
      blk.header.previous = e.hashBestChain := by
  unfold checkWork at h; dsimp only at h
  split_ifs at h with h₁ h₂
  · simp at h
  · simp at h
  · simp only [List.mem_cons, reduceCtorEq, Event.processBlock.injEq, false_or,
      List.mem_singleton, List.not_mem_nil, or_false] at h
    refine ⟨h.2.2, fun hp => ?_, by simpa using h₂⟩
    by_contra hlt
    exact h₁ ⟨Nat.lt_of_not_le hlt, hp⟩

/-- Candidates are numbered as they are built; each thread holds at most its
    own candidate, unchecked; none is checked twice; and the calls of posted
    blocks come in whole submissions. -/
structure CheckInv (P : Params) (s : Miner) : Prop where
  checkedLt : ∀ c ∈ checked s.log, c < s.nextCandidate
  heldLt : ∀ w, (s.workers w).pc.holdsCandidate → (s.workers w).candidate < s.nextCandidate
  heldFresh : ∀ w, (s.workers w).pc.holdsCandidate → (s.workers w).candidate ∉ checked s.log
  heldUnique : ∀ w w', (s.workers w).pc.holdsCandidate → (s.workers w').pc.holdsCandidate →
    (s.workers w).candidate = (s.workers w').candidate → w = w'
  nodup : (checked s.log).Nodup
  submissions : ∃ ps : List (Nat × Nat × Block),
    s.log.filter Event.isSubmission = ps.flatMap (submission P)

theorem init_checkInv (e : Env) : (init e).CheckInv P :=
  ⟨by simp [init, checked], by simp [init, Worker.idle, Pc.holdsCandidate],
    by simp [init, Worker.idle, Pc.holdsCandidate], by simp [init, Worker.idle, Pc.holdsCandidate],
    by simp [init, checked], ⟨[], by simp [init]⟩⟩

/-- A call, a join or a change of the node keeps `CheckInv`. -/
theorem CheckInv.keeps {s s' : Miner} (h : s.CheckInv P) (hk : Keeps s s') : s'.CheckInv P := by
  obtain ⟨h₁, h₂, h₃, h₄, h₅, h₆⟩ := h
  rw [← hk.workers, ← hk.log, ← hk.nextCandidate] at *
  exact ⟨h₁, h₂, h₃, h₄, h₅, h₆⟩

/-- A new thread holds no candidate. -/
theorem CheckInv.spawn {s : Miner} (h : s.CheckInv P) (m : Bool) :
    (s.spawn m).CheckInv P := by
  have held : ∀ w, ((s.spawn m).workers w).pc.holdsCandidate → (s.spawn m).workers w = s.workers w :=
    fun w hw => by
      by_cases e : w = s.nextWorker
      · subst e; simp [Miner.spawn, Worker.spawn, Worker.idle, Pc.holdsCandidate] at hw
      · simp [Miner.spawn, Function.update_noteq e]
  exact ⟨h.checkedLt, fun w hw => held w hw ▸ h.heldLt w (held w hw ▸ hw),
    fun w hw => held w hw ▸ h.heldFresh w (held w hw ▸ hw),
    fun w w' hw hw' he => h.heldUnique w w' (held w hw ▸ hw) (held w' hw' ▸ hw')
      (by rwa [held w hw, held w' hw'] at he), h.nodup, h.submissions⟩

/-- A step of thread `w` that only sleeps or scans, taking up no candidate. -/
theorem CheckInv.pause {s : Miner} (h : s.CheckInv P) {w : Nat} {k : Worker}
    {evs : List Event} (hk : k.candidate = (s.workers w).candidate)
    (hp : ∀ x ∈ evs, x.isPause) (hh : k.pc.holdsCandidate → (s.workers w).pc.holdsCandidate) :
    (s.advance w k evs).CheckInv P := by
  have hc : checked evs = [] := List.filterMap_eq_nil_iff.2 fun x hx => by
    have := hp x hx; cases x <;> first | rfl | cases this
  have hs : evs.filter Event.isSubmission = [] := List.filter_eq_nil_iff.2 fun x hx => by
    have := hp x hx; cases x <;> first | exact Bool.false_ne_true | cases this
  have held : ∀ w', ((s.advance w k evs).workers w').pc.holdsCandidate →
      (s.workers w').pc.holdsCandidate ∧
        ((s.advance w k evs).workers w').candidate = (s.workers w').candidate := fun w' hw' => by
    by_cases e : w' = w
    · subst e; simp only [advance_workers, Function.update_same] at hw' ⊢; exact ⟨hh hw', hk⟩
    · rw [advance_workers, Function.update_noteq e] at hw' ⊢; exact ⟨hw', rfl⟩
  obtain ⟨ps, hps⟩ := h.submissions
  refine ⟨by simpa [hc] using h.checkedLt, fun w' hw' => ?_, fun w' hw' => ?_,
    fun w₁ w₂ h₁ h₂ he => ?_, by simpa [hc] using h.nodup, ⟨ps, by simp [List.filter_append, hps, hs]⟩⟩
  · rw [(held w' hw').2]; exact h.heldLt w' (held w' hw').1
  · rw [(held w' hw').2]; simpa [hc] using h.heldFresh w' (held w' hw').1
  · rw [(held w₁ h₁).2, (held w₂ h₂).2] at he
    exact h.heldUnique w₁ w₂ (held w₁ h₁).1 (held w₂ h₂).1 he

/-- **`check_work` lets the candidate go**: the thread that held it holds none
    after, and it joins the checked candidates once. -/
theorem CheckInv.check {s : Miner} (h : s.CheckInv P) {w : Nat} {k : Worker}
    (hk : k.candidate = (s.workers w).candidate) (hw : (s.workers w).pc.holdsCandidate)
    (hk' : k.pc.holdsCandidate = false) :
    (s.advance w k (checkWork P s.env w k.candidate (s.workers w).blk)).CheckInv P := by
  have held : ∀ w', ((s.advance w k (checkWork P s.env w k.candidate (s.workers w).blk)).workers
      w').pc.holdsCandidate → w' ≠ w ∧ (s.workers w').pc.holdsCandidate ∧
        ((s.advance w k (checkWork P s.env w k.candidate (s.workers w).blk)).workers w') =
          s.workers w' := fun w' hw' => by
    by_cases e : w' = w
    · subst e; simp [hk'] at hw'
    · rw [advance_workers, Function.update_noteq e] at hw' ⊢; exact ⟨e, hw', rfl⟩
  obtain ⟨ps, hps⟩ := h.submissions
  refine ⟨fun c hc => ?_, fun w' hw' => ?_, fun w' hw' hc => ?_, fun w₁ w₂ h₁ h₂ he => ?_, ?_, ?_⟩
  · simp only [advance_log, checked_append, checked_checkWork, List.mem_append,
      List.mem_singleton] at hc
    rcases hc with hc | rfl
    · exact h.checkedLt c hc
    · rw [hk]; exact h.heldLt w hw
  · obtain ⟨-, hw'', he⟩ := held w' hw'; rw [he]; exact h.heldLt w' hw''
  · obtain ⟨hne, hw'', he⟩ := held w' hw'
    simp only [advance_log, checked_append, checked_checkWork, List.mem_append,
      List.mem_singleton, he] at hc
    rcases hc with hc | hc
    · exact h.heldFresh w' hw'' hc
    · exact hne (h.heldUnique w' w hw'' hw (hc.trans hk))
  · obtain ⟨-, h₁', e₁⟩ := held w₁ h₁; obtain ⟨-, h₂', e₂⟩ := held w₂ h₂
    rw [e₁, e₂] at he; exact h.heldUnique w₁ w₂ h₁' h₂' he
  · simp only [advance_log, checked_append, checked_checkWork]
    exact List.nodup_append.2 ⟨h.nodup, List.nodup_singleton _,
      fun c hc hc' => by rw [List.mem_singleton.1 hc', hk] at hc; exact h.heldFresh w hw hc⟩
  · rcases checkWork_submissions (P := P) s.env w k.candidate (s.workers w).blk with hs | hs
    · exact ⟨ps, by simp [List.filter_append, hps, hs]⟩
    · exact ⟨ps ++ [(w, k.candidate, (s.workers w).blk)], by simp [List.filter_append, hps, hs]⟩

/-- **A build takes up a fresh candidate.** -/
theorem CheckInv.build {s : Miner} (h : s.CheckInv P) (w : Nat) (created : Option Block) :
    (s.build P w created).CheckInv P := by
  cases created with
  | none =>
    refine h.pause rfl (by simp) fun hw => ?_
    simp [Pc.holdsCandidate] at hw
  | some blk =>
    obtain ⟨k, he, -, -, hk, hh⟩ := build_some (P := P) w blk s
    rw [he]
    have held : ∀ w', w' ≠ w → ((s.advance w k [Event.build ⟨w, (s.workers w).isProofOfStake,
        s.nextCandidate, blk.header.previous, (incrementExtraNonce P s.hashPrevious blk
          s.env.bestIndex (s.workers w).extraNonce).2.1⟩]).workers w') = s.workers w' :=
      fun w' e => Function.update_noteq e _ _
    have hb : checked [Event.build ⟨w, (s.workers w).isProofOfStake, s.nextCandidate,
        blk.header.previous, (incrementExtraNonce P s.hashPrevious blk s.env.bestIndex
          (s.workers w).extraNonce).2.1⟩] = [] := rfl
    obtain ⟨ps, hps⟩ := h.submissions
    refine ⟨fun c hc => ?_, fun w' hw' => ?_, fun w' hw' hc => ?_, fun w₁ w₂ h₁ h₂ he => ?_,
      by simpa [hb] using h.nodup, ⟨ps, by simp [List.filter_append, hps, Event.isSubmission]⟩⟩
    · simp only [advance_log, checked_append, hb, List.append_nil] at hc
      exact Nat.lt_succ_of_lt (h.checkedLt c hc)
    · by_cases e : w' = w
      · subst e; simp [hk]
      · rw [held w' e] at hw' ⊢; exact Nat.lt_succ_of_lt (h.heldLt w' hw')
    · simp only [advance_log, checked_append, hb, List.append_nil] at hc
      by_cases e : w' = w
      · subst e; simp only [advance_workers, Function.update_same, hk] at hc
        exact Nat.lt_irrefl _ (h.checkedLt _ hc)
      · rw [held w' e] at hw' hc; exact h.heldFresh w' hw' hc
    · by_cases e₁ : w₁ = w <;> by_cases e₂ : w₂ = w
      · rw [e₁, e₂]
      · subst e₁; rw [held w₂ e₂] at h₂ he; simp only [advance_workers, Function.update_same, hk] at he
        exact absurd he (Nat.ne_of_gt (h.heldLt w₂ h₂))
      · subst e₂; rw [held w₁ e₁] at h₁ he; simp only [advance_workers, Function.update_same, hk] at he
        exact absurd he (Nat.ne_of_lt (h.heldLt w₁ h₁))
      · rw [held w₁ e₁, held w₂ e₂] at he; rw [held w₁ e₁] at h₁; rw [held w₂ e₂] at h₂
        exact h.heldUnique w₁ w₂ h₁ h₂ he

/-- **Every action keeps `CheckInv`.** -/
theorem CheckInv.step {s s' : Miner} (h : s.CheckInv P) {a : Action}
    (hs : s.step P a = .ok s') : s'.CheckInv P := by
  rcases step_cases hs with ⟨w, o, -, -, -, rfl⟩ | ⟨m, hk⟩ | hk
  · by_cases hpc : (s.workers w).pc = .build
    · rw [loopStep_of_build hpc]; exact h.build w o.created
    · obtain ⟨k, evs, _, he, -, -, hc, hev⟩ := loopStep_of_ne_build (P := P) (o := o) hpc
      rw [he]
      rcases hev with ⟨hp, hh⟩ | ⟨hw, hk, rfl⟩
      · exact (h.pause hc hp hh).keeps (.withSample _ _)
      · exact (h.check hc hw hk).keeps (.withSample _ _)
  · exact (h.spawn m).keeps hk
  · exact h.keeps hk

theorem CheckInv.run {s₀ s : Miner} {ok : Action → Prop} (h₀ : s₀.CheckInv P)
    (h : Run P ok s₀ s) : s.CheckInv P := by
  induction h with
  | refl => exact h₀
  | step _ _ _ hs ih => exact ih.step hs

/-- The calls a step records, after the log it starts from. -/
theorem step_log {s s' : Miner} {a : Action} (hs : s.step P a = .ok s') :
    ∃ evs, s'.log = s.log ++ evs ∧
      ∀ w c blk, Event.processBlock w c blk ∈ evs → ∃ w' c', (s.workers w').pc.holdsCandidate ∧
        Event.processBlock w c blk ∈ checkWork P s.env w' c' (s.workers w').blk := by
  rcases step_cases hs with ⟨w, o, -, -, -, rfl⟩ | ⟨m, hk⟩ | hk
  · by_cases hpc : (s.workers w).pc = .build
    · rw [loopStep_of_build hpc]
      cases o.created with
      | none => exact ⟨[], by simp [Miner.build], by simp⟩
      | some blk =>
        obtain ⟨k, he, -⟩ := build_some (P := P) w blk s
        rw [he]; exact ⟨_, rfl, by simp⟩
    · obtain ⟨k, evs, _, he, -, -, hc, hev⟩ := loopStep_of_ne_build (P := P) (o := o) hpc
      rw [he]
      rcases hev with ⟨hp, -⟩ | ⟨hw, -, rfl⟩
      · exact ⟨evs, rfl, fun w c blk hm => by simpa [Event.isPause] using hp _ hm⟩
      · exact ⟨_, rfl, fun w' c blk hm => ⟨w, _, hw, hm⟩⟩
  · exact ⟨[], by rw [hk.log]; simp [Miner.spawn], by simp⟩
  · exact ⟨[], by simp [hk.log], by simp⟩

variable (P)

/-- **Only checked blocks are posted, each once, with their key and request
    count.**  Every block a step posts to `process_block` passed `check_work` in
    the node state of that step: a proof-of-work block's hash is within the
    target its bits encode, and its parent is the best chain's tip.  Over every
    run, `check_work` runs at most once on each candidate, so a candidate is
    posted at most once and never after being rejected or found stale; and the
    calls `keep_key()` and the zero request count come, in order, with exactly
    the posted blocks. -/
theorem posts_only_checked_blocks :
    (∀ (s s' : Miner) (a : Action), s.step P a = .ok s' → ∀ w c blk,
      Event.processBlock w c blk ∈ s'.log.drop s.log.length →
      (blk.isProofOfStake = false → P.hash blk.header ≤ P.target blk.header.bits) ∧
        blk.header.previous = s.env.hashBestChain) ∧
    ∀ (e : Env) (s : Miner), Run P (fun _ => True) (init e) s →
      (checked s.log).Nodup ∧
        ∃ ps : List (Nat × Nat × Block), s.log.filter Event.isSubmission = ps.flatMap (submission P) := by
  refine ⟨fun s s' a hs w c blk hm => ?_, fun e s h => ?_⟩
  · obtain ⟨evs, hl, hev⟩ := step_log hs
    rw [hl, List.drop_left] at hm
    obtain ⟨w', c', -, hm'⟩ := hev w c blk hm
    obtain ⟨rfl, h₁, h₂⟩ := checkWork_processBlock hm'
    exact ⟨h₁, h₂⟩
  · have hi := (init_checkInv (P := P) e).run h
    exact ⟨hi.nodup, hi.submissions⟩

/-- Collaborators that create a proof-of-stake candidate and sign it. -/
def stakesDefault : Oracle := ⟨some { (default : Block) with isProofOfStake := true }, true, none, 0, 0, 0⟩

/-- Proof-of-stake started and its thread through its waits to a build. -/
def stakeBuilt : List Action :=
  [.startProofOfStake, .work 0 createsDefault, .work 0 createsDefault, .work 0 createsDefault,
    .work 0 stakesDefault]

/-- The stake that follows the build signs the candidate and `check_work`
    posts it; the block passed the checks in the node state of that step, and
    the run's one submission is whole. -/
theorem posts_only_checked_blocks_example :
    let blk : Block := { (default : Block) with isProofOfStake := true, height := 1, extraNonce := 1 }
    ∃ s s', exec exampleParams stakeBuilt (init exampleEnv) = .ok s ∧
      s.step exampleParams (.work 0 stakesDefault) = .ok s' ∧
      Event.processBlock 0 0 blk ∈ s'.log.drop s.log.length ∧
      (blk.isProofOfStake = false → exampleParams.hash blk.header ≤ exampleParams.target blk.header.bits) ∧
      blk.header.previous = s.env.hashBestChain ∧
      (checked s'.log).Nodup ∧
      ∃ ps : List (Nat × Nat × Block), s'.log.filter Event.isSubmission = ps.flatMap (submission exampleParams) := by
  intro blk
  obtain ⟨s, s', hs, hs', hm⟩ : ∃ s s', exec exampleParams stakeBuilt (init exampleEnv) = .ok s ∧
      s.step exampleParams (.work 0 stakesDefault) = .ok s' ∧
      Event.processBlock 0 0 blk ∈ s'.log.drop s.log.length := ⟨_, _, rfl, rfl, by decide⟩
  have hc := posts_only_checked_blocks exampleParams
  exact ⟨s, s', hs, hs', hm, (hc.1 s s' _ hs' 0 0 blk hm).1, (hc.1 s s' _ hs' 0 0 blk hm).2,
    hc.2 exampleEnv s' (.step _ (Run.of_exec exampleParams hs) trivial hs')⟩

end Miner

end Mining

end Vanillacoin
