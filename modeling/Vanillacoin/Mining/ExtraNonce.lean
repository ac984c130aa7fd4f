/-
  The extra-nonce of the candidates (`increment_extra_nonce`).

  * `builds` is the candidates built so far, in order.  `expectedNonce bs w p`
    is the extra-nonce `increment_extra_nonce` gives thread `w`'s candidate on
    the parent `p` after the builds `bs`: `1` when `p` is not the parent of
    the last candidate of any thread (the static `hash_previous`), else one
    more than `w`'s own last extra-nonce (its local `extra_nonce`), as a
    `std::uint32_t`;
  * `NonceInv` reads `hash_previous` and every thread's `extra_nonce` off the
    builds, and says every build followed the rule; every action keeps it;
  * `extra_nonce_per_thread`: over every run, each build follows the rule, so
    two candidates of one run of `loop()` on one parent, with no candidate
    on another parent built between them, have different extra-nonces;
  * `restart_reuses_extra_nonce`: the counter is not the mode's.  A
    proof-of-work thread started again after a stop gives its first
    candidate on the same parent the extra-nonce `1` again.
-/
import Mathlib.Data.List.Basic
import Vanillacoin.Mining.Loop

namespace Vanillacoin

namespace Mining

/-- The candidates built in a log, in order. -/
def builds (log : List Event) : List Build := log.filterMap Event.build?

/-- The parent of the last candidate built, or the zero hash before any. -/
def lastPrevious (bs : List Build) : Nat := (bs.getLast?.map Build.previous).getD 0

/-- The extra-nonce of the last candidate of thread `w`, or `0` before any. -/
def lastExtraNonce (w : Nat) (bs : List Build) : Nat :=
  ((bs.filter (·.worker == w)).getLast?.map Build.extraNonce).getD 0

/-- The extra-nonce of thread `w`'s next candidate, on `previous`, after the builds `bs`. -/
def expectedNonce (bs : List Build) (w previous : Nat) : Nat :=
  if lastPrevious bs ≠ previous then 1 else (lastExtraNonce w bs + 1) % 4294967296

/-- Every build followed the rule. -/
def NonceLaw (bs : List Build) : Prop :=
  ∀ pre b post, bs = pre ++ b :: post → b.extraNonce = expectedNonce pre b.worker b.previous

@[simp] theorem builds_append (l l' : List Event) : builds (l ++ l') = builds l ++ builds l' :=
  List.filterMap_append _ _ _

@[simp] theorem lastPrevious_snoc (bs : List Build) (b : Build) :
    lastPrevious (bs ++ [b]) = b.previous := by
  simp [lastPrevious]

theorem lastExtraNonce_snoc (w : Nat) (bs : List Build) (b : Build) :
    lastExtraNonce w (bs ++ [b]) = if b.worker = w then b.extraNonce else lastExtraNonce w bs := by
  by_cases h : b.worker = w <;> simp [lastExtraNonce, h, List.filter_append]

theorem lastExtraNonce_of_forall {w : Nat} {bs : List Build} (h : ∀ b ∈ bs, b.worker ≠ w) :
    lastExtraNonce w bs = 0 := by
  have : bs.filter (·.worker == w) = [] := List.filter_eq_nil_iff.2 fun b hb => by simpa using h b hb
  simp only [lastExtraNonce, this, List.getLast?_nil, Option.map_none', Option.getD_none]

theorem expectedNonce_lt (bs : List Build) (w previous : Nat) :
    expectedNonce bs w previous < 4294967296 := by
  unfold expectedNonce; split <;> omega

theorem NonceLaw.snoc {bs : List Build} {b : Build} (h : NonceLaw bs)
    (hb : b.extraNonce = expectedNonce bs b.worker b.previous) : NonceLaw (bs ++ [b]) := by
  intro pre x post hs
  rcases List.eq_nil_or_concat post with rfl | ⟨L, y, rfl⟩
  · obtain ⟨rfl, h'⟩ := List.append_inj' hs rfl
    cases h'; exact hb
  · have hs' : bs ++ [b] = (pre ++ x :: L) ++ [y] := by rw [hs]; simp
    exact h pre x L (List.append_inj' hs' rfl).1

namespace Miner

variable {P : Params}

/-- `hash_previous` and every thread's `extra_nonce` are read off the builds,
    which all followed the rule. -/
structure NonceInv (s : Miner) : Prop where
  hashPrevious : s.hashPrevious = lastPrevious (builds s.log)
  extraNonce : ∀ w, (s.workers w).extraNonce = lastExtraNonce w (builds s.log)
  spawned : ∀ b ∈ builds s.log, b.worker < s.nextWorker
  law : NonceLaw (builds s.log)

theorem init_nonceInv (e : Env) : (init e).NonceInv :=
  ⟨rfl, fun _ => rfl, by simp [init, builds], fun pre b post h => by simp [init, builds] at h⟩

/-- A new thread starts with `extra_nonce = 0`, and no build is its own. -/
theorem NonceInv.spawn {s : Miner} (h : s.NonceInv) (m : Bool) : (s.spawn m).NonceInv where
  hashPrevious := h.hashPrevious
  extraNonce w := by
    by_cases hw : w = s.nextWorker
    · subst hw
      simp only [Miner.spawn, Function.update_same]
      exact (lastExtraNonce_of_forall fun b hb => Nat.ne_of_lt (h.spawned b hb)).symm
    · simp only [Miner.spawn, Function.update_noteq hw]; exact h.extraNonce w
  spawned b hb := Nat.lt_succ_of_lt (h.spawned b hb)
  law := h.law

/-- A step of a thread that keeps its `extra_nonce` and builds nothing. -/
theorem NonceInv.advance {s : Miner} (h : s.NonceInv) {w : Nat} {k : Worker} {evs : List Event}
    (hk : k.extraNonce = (s.workers w).extraNonce) (hev : builds evs = []) :
    (s.advance w k evs).NonceInv where
  hashPrevious := by simpa [hev] using h.hashPrevious
  extraNonce w' := by
    by_cases hw : w' = w
    · subst hw; simpa [hk, hev] using h.extraNonce w'
    · simpa [Function.update_noteq hw, hev] using h.extraNonce w'
  spawned b hb := by simp only [advance_log, builds_append, hev, List.append_nil] at hb; exact h.spawned b hb
  law := by simpa [hev] using h.law

/-- **A build follows the rule**: `increment_extra_nonce` reads the parent of
    the last build from `hash_previous` and the thread's last extra-nonce from
    `extra_nonce`. -/
theorem NonceInv.build {s : Miner} (h : s.NonceInv) {w : Nat} (hw : w < s.nextWorker)
    (created : Option Block) : (s.build P w created).NonceInv := by
  cases created with
  | none => exact h.advance rfl rfl
  | some blk =>
    obtain ⟨k, he, -, hk, -, -⟩ := build_some (P := P) w blk s
    rw [he]
    have hr :=
      incrementExtraNonce_snd_fst P s.hashPrevious blk s.env.bestIndex (s.workers w).extraNonce
    refine ⟨by simp [builds, Event.build?], fun w' => ?_, fun b hb => ?_, ?_⟩
    · by_cases hw' : w' = w
      · subst hw'; simp [builds, Event.build?, lastExtraNonce_snoc, hk]
      · simp [builds, Event.build?, lastExtraNonce_snoc, Function.update_noteq hw', Ne.symm hw',
          h.extraNonce w']
    · simp only [advance_log, builds_append, List.mem_append] at hb
      rcases hb with hb | hb
      · exact h.spawned b hb
      · simp [builds, Event.build?] at hb; subst hb; exact hw
    · simp only [advance_log, builds_append]
      refine h.law.snoc ?_
      simp only [builds, List.filterMap_cons, Event.build?, List.filterMap_nil]
      rw [hr, h.hashPrevious, h.extraNonce]; rfl

/-- A call, a join or a change of the node keeps `NonceInv`. -/
theorem NonceInv.keeps {s s' : Miner} (h : s.NonceInv) (hk : Keeps s s') : s'.NonceInv where
  hashPrevious := by rw [hk.hashPrevious, hk.log]; exact h.hashPrevious
  extraNonce w := by rw [hk.workers, hk.log]; exact h.extraNonce w
  spawned := by rw [hk.log, hk.nextWorker]; exact h.spawned
  law := by rw [hk.log]; exact h.law

/-- **Every action keeps `NonceInv`.** -/
theorem NonceInv.step {s s' : Miner} (h : s.NonceInv) {a : Action} (hs : s.step P a = .ok s') :
    s'.NonceInv := by
  rcases step_cases hs with ⟨w, o, -, hw, -, rfl⟩ | ⟨m, hk⟩ | hk
  · by_cases hpc : (s.workers w).pc = .build
    · rw [loopStep_of_build hpc]; exact h.build hw o.created
    · obtain ⟨k, evs, _, he, -, hk, -, hev⟩ := loopStep_of_ne_build (P := P) (o := o) hpc
      rw [he]
      refine (h.advance hk (List.filterMap_eq_nil_iff.2 fun x hx => ?_)).keeps (.withSample _ _)
      rcases hev with ⟨hp, -⟩ | ⟨-, -, rfl⟩
      · have := hp x hx; cases x <;> first | rfl | cases this
      · revert hx; unfold checkWork; dsimp only; split_ifs <;> simp [Event.build?] <;>
          rintro (rfl | rfl | rfl) <;> rfl
  · exact (h.spawn m).keeps hk
  · exact h.keeps hk

theorem NonceInv.run {s₀ s : Miner} {ok : Action → Prop} (h₀ : s₀.NonceInv) (h : Run P ok s₀ s) :
    s.NonceInv := by
  induction h with
  | refl => exact h₀
  | step _ _ _ hs ih => exact ih.step hs

end Miner

/-- Along builds on one parent, a thread's extra-nonce counts its builds. -/
theorem lastExtraNonce_segment {pre mid : List Build} {b₁ : Build} {post : List Build}
    (hlaw : NonceLaw (pre ++ b₁ :: (mid ++ post))) (hmid : ∀ b ∈ mid, b.previous = b₁.previous)
    (hlt : b₁.extraNonce < 4294967296) :
    lastPrevious (pre ++ b₁ :: mid) = b₁.previous ∧
      lastExtraNonce b₁.worker (pre ++ b₁ :: mid) =
        (b₁.extraNonce + (mid.filter (·.worker == b₁.worker)).length) % 4294967296 := by
  induction mid using List.reverseRecOn generalizing post with
  | nil =>
    have := lastExtraNonce_snoc b₁.worker pre b₁
    simp only [List.append_assoc, List.singleton_append] at this
    simp [lastPrevious, this, Nat.mod_eq_of_lt hlt]
  | append_singleton L x ih =>
    have hL := @ih (x :: post) (by simpa using hlaw) fun b hb => hmid b (by simp [hb])
    have hx : x.extraNonce = expectedNonce (pre ++ b₁ :: L) x.worker x.previous :=
      hlaw (pre ++ b₁ :: L) x post (by simp)
    have e : pre ++ b₁ :: (L ++ [x]) = (pre ++ b₁ :: L) ++ [x] := by simp
    rw [e, lastPrevious_snoc, lastExtraNonce_snoc, hmid x (by simp)]
    refine ⟨rfl, ?_⟩
    by_cases hw : x.worker = b₁.worker
    · rw [if_pos hw, hx, expectedNonce, if_neg (by rw [hL.1, hmid x (by simp)]; simp), hw, hL.2]
      simp [List.filter_append, hw]; omega
    · simp [hw, List.filter_append, hL.2]

/-- **Two candidates of one thread on one parent, with only that parent built on
    between them, have different extra-nonces**, unless `2^32` builds of the
    thread separate them. -/
theorem NonceLaw.ne_of_segment {pre mid post : List Build} {b₁ b₂ : Build}
    (hlaw : NonceLaw (pre ++ b₁ :: (mid ++ b₂ :: post))) (hw : b₂.worker = b₁.worker)
    (hp : b₂.previous = b₁.previous) (hmid : ∀ b ∈ mid, b.previous = b₁.previous)
    (hc : (mid.filter (·.worker == b₁.worker)).length + 1 < 4294967296) :
    b₂.extraNonce ≠ b₁.extraNonce := by
  have h₁ : b₁.extraNonce < 4294967296 := by
    rw [hlaw pre b₁ _ rfl]; exact expectedNonce_lt _ _ _
  obtain ⟨hP, hE⟩ := lastExtraNonce_segment hlaw hmid h₁
  have h₂ : b₂.extraNonce = expectedNonce (pre ++ b₁ :: mid) b₂.worker b₂.previous :=
    hlaw (pre ++ b₁ :: mid) b₂ post (by simp)
  rw [h₂, expectedNonce, if_neg (by rw [hP, hp]; simp), hw, hE]
  omega

namespace Miner

variable (P : Params)

/-- **The extra-nonce counts per run of `loop()`.**  Over every run, each
    build's extra-nonce is `1` when its parent is not the parent of the last
    candidate of any thread, else one more than the thread's own last
    extra-nonce, as a `std::uint32_t`.  So two candidates of one thread on
    one parent, with no candidate on another parent built between them and
    fewer than `2^32` builds of the thread separating them, have different
    extra-nonces. -/
theorem extra_nonce_per_thread {e : Env} {s : Miner} (h : Run P (fun _ => True) (init e) s) :
    (∀ pre b post, builds s.log = pre ++ b :: post →
      b.extraNonce = expectedNonce pre b.worker b.previous) ∧
    ∀ pre b₁ mid b₂ post, builds s.log = pre ++ b₁ :: (mid ++ b₂ :: post) →
      b₂.worker = b₁.worker → b₂.previous = b₁.previous → (∀ b ∈ mid, b.previous = b₁.previous) →
      (mid.filter (·.worker == b₁.worker)).length + 1 < 4294967296 →
      b₂.extraNonce ≠ b₁.extraNonce := by
  have hlaw := ((init_nonceInv e).run h).law
  exact ⟨hlaw, fun pre b₁ mid b₂ post hs => by rw [hs] at hlaw; exact hlaw.ne_of_segment⟩

/-- The answers of the example: a candidate on the parent `7`, signed, no solution. -/
def onParent7 : Oracle :=
  ⟨some { (default : Block) with header := { (default : Header) with previous := 7 } }, true, none, 0,
    0, 0⟩

/-- Proof-of-work started, a candidate built on the parent `7`, proof-of-work
    stopped and started again, and a candidate built on the parent `7`. -/
def restartTrace : List Action :=
  [.startProofOfWork, .work 0 onParent7, .work 0 onParent7, .work 0 onParent7, .work 0 onParent7,
    .stopProofOfWork, .work 0 onParent7, .work 0 onParent7, .joined,
    .startProofOfWork, .work 1 onParent7, .work 1 onParent7, .work 1 onParent7, .work 1 onParent7]

theorem restartTrace_exec : ∃ s, exec exampleParams restartTrace (init exampleEnv) = .ok s ∧
    builds s.log = [⟨0, false, 0, 7, 1⟩, ⟨1, false, 1, 7, 1⟩] :=
  ⟨_, rfl, by decide⟩

/-- **A restart reuses the extra-nonce.**  Two proof-of-work candidates on the
    parent `7`, one before and one after a stop and a start of proof-of-work,
    both carry the extra-nonce `1`. -/
theorem restart_reuses_extra_nonce :
    ∃ s, Run exampleParams (fun _ => True) (init exampleEnv) s ∧
      builds s.log = [⟨0, false, 0, 7, 1⟩, ⟨1, false, 1, 7, 1⟩] := by
  obtain ⟨s, h, hb⟩ := restartTrace_exec
  exact ⟨s, Run.of_exec _ h, hb⟩

theorem extra_nonce_per_thread_example :
    ∃ s, Run exampleParams (fun _ => True) (init exampleEnv) s ∧
    ((∀ pre b post, builds s.log = pre ++ b :: post →
      b.extraNonce = expectedNonce pre b.worker b.previous) ∧
    ∀ pre b₁ mid b₂ post, builds s.log = pre ++ b₁ :: (mid ++ b₂ :: post) →
      b₂.worker = b₁.worker → b₂.previous = b₁.previous → (∀ b ∈ mid, b.previous = b₁.previous) →
      (mid.filter (·.worker == b₁.worker)).length + 1 < 4294967296 →
      b₂.extraNonce ≠ b₁.extraNonce) := by
  obtain ⟨s, h, -⟩ := restartTrace_exec
  exact ⟨s, Run.of_exec _ h, extra_nonce_per_thread exampleParams (Run.of_exec _ h)⟩

end Miner

end Mining

end Vanillacoin
