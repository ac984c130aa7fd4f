/-
  The outstanding asynchronous operations of `tcp_connection_manager`: the
  resolutions of the bootstrap nodes and the waits of its timer.

  * the calls on connections and the address manager leave both alone
    (`tick_outstanding`: `tick` only re-arms the timer, on success);
  * `one_resolution_outstanding`: in every run from the construction or from
    `start()`, at most one resolution is outstanding or has its handler
    queued: each handler resolves the rest of its list only after its own
    resolution is done;
  * `Stage.live` is a wait that will run `tick` with success; until `stop()`,
    and with `tick` run only by the timer's handler, the timer has exactly one
    (`timer_stays_armed`): the chain of ticks `start()` begins is never lost
    and never doubled.
-/
import Vanillacoin.Network.Async

namespace Vanillacoin

/-- A wait of the timer whose handler will run `tick` with success: outstanding,
    or expired and queued. -/
def Stage.live : Stage → Bool
  | .pending | .queued .success => true
  | .queued _ => false

/-- `cancel()` arms no wait. -/
theorem countP_live_map_cancel (ws : List Stage) :
    (ws.map Stage.cancel).countP Stage.live ≤ ws.countP Stage.live := by
  rw [List.countP_map]
  exact List.countP_mono_left fun w _ h => by cases w <;> first | exact h | cases h

/-- The expiry of an outstanding wait keeps it armed. -/
theorem countP_live_set_pending {ws : List Stage} {i : Nat} (hi : ws[i]? = some .pending) :
    (ws.set i (.queued .success)).countP Stage.live = ws.countP Stage.live := by
  induction ws generalizing i with
  | nil => simp at hi
  | cons w ws ih =>
    cases i with
    | zero => obtain rfl : w = .pending := by simpa using hi
              rfl
    | succ i => simp only [List.set_cons_succ, List.countP_cons, ih (by simpa using hi)]

/-- Running a queued handler takes its wait out of the count. -/
theorem countP_live_eraseIdx {ws : List Stage} {i : Nat} {w : Stage} (hi : ws[i]? = some w) :
    ws.countP Stage.live = (ws.eraseIdx i).countP Stage.live + if w.live then 1 else 0 := by
  induction ws generalizing i with
  | nil => simp at hi
  | cons w' ws ih =>
    cases i with
    | zero => obtain rfl : w' = w := by simpa using hi
              simp [List.countP_cons]
    | succ i =>
      simp only [List.eraseIdx_cons_succ, List.countP_cons, ih (by simpa using hi)]
      omega

/-- A call that acts on the timer outside its own handler: `stop()`, whose
    first half cancels it, or `tick` called directly. -/
def Action.actsOnTimer : Action → Bool
  | .tick _ _ | .stop => true
  | _ => false

namespace Manager

variable (P : Params)

/-! ### The calls that leave the outstanding operations alone -/

theorem handleAccept_outstanding {banned : Nat → Bool} {t : Transport} {s s' : Manager}
    (h : s.handleAccept P banned t = .ok s') :
    s'.waits = s.waits ∧ s'.resolutions = s.resolutions := by
  rcases handleAccept_cases P h with rfl | ⟨r, -, -, -, -, rfl⟩ <;> simp

theorem connect_outstanding (banned : Nat → Bool) (ep : Endpoint) (s : Manager) :
    (s.connect banned ep).1.waits = s.waits ∧
      (s.connect banned ep).1.resolutions = s.resolutions := by
  rcases connect_cases banned ep s with h | ⟨-, -, h⟩ <;> simp [h]

theorem topUpBody_outstanding (inp : TickInput) (i : Nat) (s : Manager) :
    (s.topUpBody P inp i).waits = s.waits ∧
      (s.topUpBody P inp i).resolutions = s.resolutions ∧
      (s.topUpBody P inp i).stopping = s.stopping := by
  rcases topUpBody_cases P inp i s with h | ⟨a, -, -, -, -, -, -, -, h⟩ <;> simp [h]

theorem topUp_outstanding (inp : TickInput) (i : Nat) (s : Manager) :
    (s.topUp P inp i).waits = s.waits ∧ (s.topUp P inp i).resolutions = s.resolutions ∧
      (s.topUp P inp i).stopping = s.stopping := by
  induction i, s using topUp.induct P inp with
  | case1 i s h ih =>
    rw [topUp, dif_pos h]
    obtain ⟨hw, hr, hs⟩ := topUpBody_outstanding P inp i s
    exact ⟨ih.1.trans hw, ih.2.1.trans hr, ih.2.2.trans hs⟩
  | case2 i s h => rw [topUp, dif_neg h]; exact ⟨rfl, rfl, rfl⟩

/-- **`tick` re-arms the timer on success, and only then**; it resolves
    nothing, and no call of `stop()` takes the lock in it. -/
theorem tick_outstanding (ec : ErrorCode) (inp : TickInput) (s : Manager) :
    (s.tick P ec inp).waits =
        (if ec = .success then s.waits.map Stage.cancel ++ [.pending] else s.waits) ∧
      (s.tick P ec inp).resolutions = s.resolutions ∧ (s.tick P ec inp).stopping = s.stopping := by
  obtain ⟨-, -, hw, hr, hs⟩ := prune_frame s 0
  obtain ⟨hw', hr', hs'⟩ := topUp_outstanding P inp 0 (s.prune 0)
  unfold tick
  split
  · dsimp only
    split <;> simp [wait, hw, hr, hs, hw', hr', hs']
  · exact ⟨rfl, rfl, rfl⟩

/-! ### At most one resolution -/

/-- **Every action keeps at most one resolution outstanding.** -/
theorem step_resolutions_le {s s' : Manager} {a : Action} (hs : s.resolutions.length ≤ 1)
    (h : s.step P a = .ok s') : s'.resolutions.length ≤ 1 := by
  cases a with
  | accept banned t => rw [(handleAccept_outstanding P h).2]; exact hs
  | connect banned ep => cases h; rw [(connect_outstanding banned ep s).2]; exact hs
  | tick ec inp => cases h; rw [(tick_outstanding P ec inp s).2.1]; exact hs
  | broadcast buf => cases h; exact hs
  | stop => rw [step_stop h]; simpa using hs
  | stopLocked => rw [(step_stopLocked h).2]; exact hs
  | resolveDone i ec => obtain ⟨_, -, rfl⟩ := step_resolveDone h; simpa using hs
  | resolveHandler i ep =>
    obtain ⟨_, _, hi, h⟩ := step_resolveHandler h
    have hlt : i < s.resolutions.length := (List.getElem?_eq_some_iff.1 hi).1
    have h₀ : (s.resolutions.eraseIdx i).length = 0 := by
      rw [List.length_eraseIdx_of_lt hlt]; omega
    rcases onResolve_cases h with rfl | ⟨q, rfl⟩ <;> split <;> simp [h₀]
  | timerDone i => obtain ⟨-, rfl⟩ := step_timerDone h; exact hs
  | timerHandler i inp =>
    obtain ⟨_, -, rfl⟩ := step_timerHandler h; rw [(tick_outstanding P _ inp _).2.1]; exact hs
  | connectionGone h' => cases h; exact hs
  | transportChanged h' v r => cases h; exact hs

/-- **The resolver never has two resolutions in flight.**  In every run from the
    construction or from `start()`, whatever the order of calls, completions
    and handlers, and also after `stop()` cancels the resolver, at most one
    resolution is outstanding or has its handler queued. -/
theorem one_resolution_outstanding {s₀ s : Manager}
    (h₀ : s₀ = init ∨ ∃ shuffle nodes, start shuffle nodes init = .ok s₀)
    (h : Run P (fun _ => True) s₀ s) : s.resolutions.length ≤ 1 := by
  induction h with
  | refl =>
    rcases h₀ with rfl | ⟨_, _, hs⟩
    · exact Nat.zero_le 1
    · obtain ⟨qs, q, rfl⟩ := start_cases hs
      simp [init]
  | step a _ _ hst ih => exact step_resolutions_le P ih hst

/-- The manager after `start()` with two bootstrap nodes. -/
def startedTwo : Manager :=
  (init.issue [⟨"node-a", "9195"⟩, ⟨"node-b", "9195"⟩] ⟨"node-a", "9195"⟩).wait 1

/-- `startedTwo` after the first node resolved: the second one is resolving. -/
def resolvingSecond : Manager :=
  ({ startedTwo with resolutions := [] }.emit (.add ⟨16777216, 9195⟩ localSource)).issue
    [⟨"node-b", "9195"⟩] ⟨"node-b", "9195"⟩

theorem one_resolution_outstanding_example :
    init.start id [("node-a", 9195), ("node-b", 9195)] = .ok startedTwo ∧
      resolvingSecond.resolutions.length ≤ 1 :=
  ⟨rfl, @one_resolution_outstanding ⟨1, 8, fun e => e.address / 65536, fun _ => true,
    fun _ => false⟩ startedTwo resolvingSecond
    (.inr ⟨id, [("node-a", 9195), ("node-b", 9195)], rfl⟩)
    (.step (.resolveHandler 0 ⟨16777216, 9195⟩) (.step (.resolveDone 0 .success) .refl trivial rfl)
      trivial rfl)⟩

/-! ### The timer -/

/-- **Every other action keeps exactly one armed wait.** -/
theorem step_armed {s s' : Manager} {a : Action} (ha : a.actsOnTimer = false)
    (hs : s.waits.countP Stage.live = 1) (h : s.step P a = .ok s') :
    s'.waits.countP Stage.live = 1 := by
  cases a with
  | accept banned t => rw [(handleAccept_outstanding P h).1]; exact hs
  | connect banned ep => cases h; rw [(connect_outstanding banned ep s).1]; exact hs
  | tick ec inp => cases ha
  | broadcast buf => cases h; exact hs
  | stop => cases ha
  | stopLocked => rw [(step_stopLocked h).2]; exact hs
  | resolveDone i ec => obtain ⟨_, -, rfl⟩ := step_resolveDone h; exact hs
  | resolveHandler i ep =>
    obtain ⟨_, _, -, h⟩ := step_resolveHandler h
    rcases onResolve_cases h with rfl | ⟨q, rfl⟩ <;> split <;> simpa using hs
  | timerDone i =>
    obtain ⟨hi, rfl⟩ := step_timerDone h
    exact (countP_live_set_pending hi).trans hs
  | timerHandler i inp =>
    obtain ⟨ec, hi, rfl⟩ := step_timerHandler h
    have he := countP_live_eraseIdx hi
    rw [(tick_outstanding P ec inp _).1]
    split
    · rename_i hec
      subst hec
      have h₀ : (s.waits.eraseIdx i).countP Stage.live = 0 := by simp [Stage.live] at he; omega
      have := countP_live_map_cancel (s.waits.eraseIdx i)
      simp only [List.countP_append, List.countP_singleton, Stage.live, if_true]
      omega
    · have hl : (Stage.queued ec).live = false := by cases ec <;> simp_all [Stage.live]
      simpa [hl, hs] using he.symm
  | connectionGone h' => cases h; exact hs
  | transportChanged h' v r => cases h; exact hs

/-- **The timer stays armed once.**  From `start()`, in every run in which the
    manager is not stopped and `tick` runs only as the timer's handler, over
    every interleaving of calls, completions and handlers, exactly one wait of
    the timer will run `tick` with success: the chain of ticks is never lost
    and never doubled. -/
theorem timer_stays_armed (shuffle : List Query → List Query) (nodes : List (String × Nat))
    {s₀ s : Manager} (h₀ : start shuffle nodes init = .ok s₀)
    (h : Run P (fun a => a.actsOnTimer = false) s₀ s) : s.waits.countP Stage.live = 1 := by
  induction h with
  | refl => obtain ⟨qs, q, rfl⟩ := start_cases h₀; rfl
  | step a _ ha hst ih => exact step_armed P ha ih hst

/-- The manager after `start()` with one bootstrap node. -/
def startedOne : Manager := (init.issue [⟨"node-a", "9195"⟩] ⟨"node-a", "9195"⟩).wait 1

theorem timer_stays_armed_example :
    init.start id [("node-a", 9195)] = .ok startedOne ∧
      ({ startedOne with waits := [.queued .success] } : Manager).waits.countP Stage.live = 1 :=
  ⟨rfl, timer_stays_armed ⟨1, 8, fun e => e.address / 65536, fun _ => true, fun _ => false⟩ id
    [("node-a", 9195)] rfl (.step (.timerDone 0) .refl rfl rfl)⟩

end Manager

end Vanillacoin
