/-
  The group scan of the top-up loop of `tick` ("Only connect to one peer per
  group").

  * `inSameGroup_iff`: the scan counts an entry only when its handle locks and
    the remote endpoint of its transport can be read;
  * `tick_attempts_admissible`: every connection attempt of a pass of `tick` is
    made by an iteration of its top-up loop, to the address `select` returned,
    valid, not local, last tried at least 600 seconds ago and outside the group
    of every entry whose remote endpoint the scan could read;
  * `tick_connects_beside_connecting`: an outgoing connection that is still
    connecting has no readable remote endpoint, so a pass connects to a peer
    of its group.
-/
import Vanillacoin.Network.Async

namespace Vanillacoin

namespace Manager

variable (P : Params)

/-- **The group scan sees only readable entries.** -/
theorem inSameGroup_iff (s : Manager) (a : Endpoint) :
    s.inSameGroup P a = true ↔ ∃ e ∈ s.table.entries, (s.conns e.2).alive = true ∧
      ∃ r, (s.conns e.2).remote = some r ∧ P.group a = P.group r := by
  simp only [inSameGroup, List.any_eq_true, Bool.and_eq_true]
  refine exists_congr fun e => and_congr_right fun _ => and_congr_right fun _ => ?_
  cases (s.conns e.2).remote <;> simp

theorem topUpBody_log (inp : TickInput) (i : Nat) (s : Manager) :
    ∃ evs, (s.topUpBody P inp i).log = s.log ++ evs := by
  rcases topUpBody_cases P inp i s with h | ⟨a, -, -, -, -, -, -, -, h⟩ <;> rw [h] <;> simp

theorem topUp_log (inp : TickInput) (i : Nat) (s : Manager) :
    ∃ evs, (s.topUp P inp i).log = s.log ++ evs := by
  induction i, s using topUp.induct P inp with
  | case1 i s hi ih =>
    rw [topUp, dif_pos hi]
    obtain ⟨e₁, h₁⟩ := topUpBody_log P inp i s
    obtain ⟨e₂, h₂⟩ := ih
    exact ⟨e₁ ++ e₂, by rw [h₂, h₁, List.append_assoc]⟩
  | case2 i s hi => rw [topUp, dif_neg hi]; exact ⟨[], by simp⟩

/-- What the top-up loop checks of `ep` before connecting to it at iteration `i`
    on the manager `s`. -/
def Admissible (inp : TickInput) (i : Nat) (s : Manager) (ep : Endpoint) : Prop :=
  let a := inp.select i (10 + min s.table.size 8 * 10)
  ep = a.endpoint ∧ P.isValid ep = true ∧ P.isLocal ep = false ∧ 600 ≤ inp.now - a.lastTry ∧
    ∀ e ∈ s.table.entries, (s.conns e.2).alive = true → ∀ r, (s.conns e.2).remote = some r →
      P.group ep ≠ P.group r

theorem topUpBody_attempt {inp : TickInput} {i : Nat} {s : Manager} {ep : Endpoint}
    (h : Event.connectionAttempt ep ∈ (s.topUpBody P inp i).log.drop s.log.length) :
    Admissible P inp i s ep := by
  rcases topUpBody_cases P inp i s with hb | ⟨a, rfl, hv, hl, hg, ht, -, -, hb⟩ <;>
    rw [hb] at h
  · simp at h
  · simp only [emit_log, retain_log, List.append_assoc, List.singleton_append, List.drop_left,
      List.cons_append, List.nil_append, List.mem_cons, reduceCtorEq,
      Event.connectionAttempt.injEq, false_or, List.not_mem_nil, or_false] at h
    subst h
    refine ⟨rfl, hv, hl, ht, fun e he ha r hr hgr => ?_⟩
    have := (inSameGroup_iff P _ _).2 ⟨e, he, ha, r, hr, hgr⟩
    simp_all

/-- Every connection attempt the top-up loop makes from one of its heads is
    made at a later head, by an iteration whose test passed, to an admissible
    endpoint. -/
theorem topUp_attempt {inp : TickInput} {s₀ : Manager} {ep : Endpoint} (i : Nat) (s : Manager)
    (hh : TopUpHead P inp s₀ i s)
    (h : Event.connectionAttempt ep ∈ (s.topUp P inp i).log.drop s.log.length) :
    ∃ j s', TopUpHead P inp s₀ j s' ∧ j < sizeSub P.minimumTcpConnections s'.table.size ∧
      Admissible P inp j s' ep := by
  induction i, s using topUp.induct P inp with
  | case1 i s hi ih =>
    obtain ⟨e₁, h₁⟩ := topUpBody_log P inp i s
    obtain ⟨e₂, h₂⟩ := topUp_log P inp (i + 1) (s.topUpBody P inp i)
    rw [topUp, dif_pos hi, h₂, h₁, List.append_assoc, List.drop_left, List.mem_append] at h
    rcases h with h | h
    · exact ⟨i, s, hh, hi, topUpBody_attempt P (by rw [h₁, List.drop_left]; exact h)⟩
    · exact ih (hh.next hi) (by rw [h₂, h₁, List.drop_left]; exact h)
  | case2 i s hi => rw [topUp, dif_neg hi] at h; simp at h

/-- **Every connection attempt of a pass of `tick` passes the filters of its
    top-up loop**: each attempt the pass makes, also to an address attempted
    in an earlier pass, is made at an iteration whose bound test passed, to
    the address `select` returned there, valid, not local, last tried at least
    600 seconds before, and in no group of an entry whose handle locks and
    whose transport's remote endpoint the scan could read at that iteration. -/
theorem tick_attempts_admissible {inp : TickInput} {s : Manager} {ep : Endpoint}
    (h : Event.connectionAttempt ep ∈ (s.tick P .success inp).log.drop s.log.length) :
    ∃ i s', TopUpHead P inp (s.prune 0) i s' ∧
      i < sizeSub P.minimumTcpConnections s'.table.size ∧ Admissible P inp i s' ep := by
  obtain ⟨stops, hs⟩ : ∃ l, (s.prune 0).log = s.log ++ l := ⟨_, prune_zero_log s⟩
  have hp : Event.connectionAttempt ep ∉ stops := by
    have hl := prune_zero_log s
    rw [hs, List.append_cancel_left_eq] at hl
    simp [hl]
  simp only [tick, if_true, emit_log, wait_log, List.append_assoc] at h
  split at h
  · obtain ⟨evs, hevs⟩ := topUp_log P inp 0 (s.prune 0)
    rw [hevs, hs, List.append_assoc, List.append_assoc, List.drop_left] at h
    simp only [List.mem_append, List.mem_cons, reduceCtorEq, List.not_mem_nil, or_false] at h
    rcases h with h | h
    · exact absurd h hp
    · exact topUp_attempt P 0 _ .start (by rw [hevs, List.drop_left]; exact h)
  · rw [hs, List.append_assoc, List.drop_left] at h
    simp only [List.mem_append, List.mem_cons, reduceCtorEq, List.not_mem_nil, or_false] at h
    exact absurd h hp

/-- A connection to `1.0.0.1:9195`, then released by its owners. -/
def releasedOne : Manager :=
  let s := (init.connect (fun _ => false) ⟨16777217, 9195⟩).1
  s.setConn 0 { s.conns 0 with alive := false }

/-- The next pass prunes the released connection and tries its address again. -/
theorem tick_attempts_admissible_example :
    Event.connectionAttempt ⟨16777217, 9195⟩ ∈ releasedOne.log ∧
      Event.connectionAttempt ⟨16777217, 9195⟩ ∈
        (releasedOne.tick oneWanted .success offersOne).log.drop releasedOne.log.length ∧
      ∃ i s', TopUpHead oneWanted offersOne (releasedOne.prune 0) i s' ∧
        i < sizeSub oneWanted.minimumTcpConnections s'.table.size ∧
        Admissible oneWanted offersOne i s' ⟨16777217, 9195⟩ := by
  have hp : releasedOne.prune 0 = releasedOne.eraseAt 0 := by
    rw [prune, dif_pos (by decide), if_neg (by decide), prune, dif_neg (by decide)]
  have h : Event.connectionAttempt ⟨16777217, 9195⟩ ∈
      (releasedOne.tick oneWanted .success offersOne).log.drop releasedOne.log.length := by
    simp only [tick, if_true, hp]
    rw [if_pos (by decide), topUp, dif_pos (by decide), topUp, dif_neg (by decide)]
    decide
  exact ⟨by decide, h, tick_attempts_admissible oneWanted h⟩

/-- **A pass of `tick` connects to a peer in the group of a connection that is
    still connecting**, whatever the group classifier: when the table holds only a
    live outgoing connection to `k` whose transport has no readable remote
    endpoint yet, the scan sees nothing, and the first address `select` returns is
    connected to once it passes the other filters. -/
theorem tick_connects_beside_connecting {inp : TickInput} {s : Manager} {k : Endpoint}
    {h : Nat} (hs : s.table.entries = [(k, h)]) (hc : s.conns h = outbound k)
    (hmin : 2 ≤ P.minimumTcpConnections) (hmax : P.minimumTcpConnections < 18446744073709551616)
    (hv : P.isValid (inp.select 0 20).endpoint = true)
    (hl : P.isLocal (inp.select 0 20).endpoint = false)
    (ht : 600 ≤ inp.now - (inp.select 0 20).lastTry)
    (hb : inp.banned (inp.select 0 20).address = false) (hk : (inp.select 0 20).endpoint ≠ k) :
    Event.connectionAttempt (inp.select 0 20).endpoint ∈ (s.tick P .success inp).log := by
  obtain ⟨hpc, -⟩ := prune_frame s 0
  have hpe : (s.prune 0).table.entries = [(k, h)] := by
    rw [prune_zero_entries, hs]; simp [keeps, hc, outbound]
  have hsize : (s.prune 0).table.size = 1 := by simp [Table.size, hpe]
  have hgroup : ((s.prune 0).emit (.select 20)).inSameGroup P (inp.select 0 20).endpoint = false := by
    cases hg : ((s.prune 0).emit (.select 20)).inSameGroup P (inp.select 0 20).endpoint
    · rfl
    · obtain ⟨e, he, -, r, hr, -⟩ := (inSameGroup_iff P _ _).1 hg
      simp only [emit_table, emit_conns, hpe, List.mem_singleton] at he hr
      subst he; simp [hpc, hc, outbound] at hr
  have hfind : ((s.prune 0).emit (.select 20)).table.find (inp.select 0 20).endpoint = none :=
    Table.find_eq_none.2 fun _ hm => by simp [hpe] at hm; exact hk hm.1
  have hbody : Event.connectionAttempt (inp.select 0 20).endpoint ∈
      ((s.prune 0).topUpBody P inp 0).log := by
    simp only [topUpBody, hsize, show 10 + min 1 8 * 10 = 20 from rfl]
    rw [if_neg (by simp [hv, hl, hgroup]), if_neg (by omega), connect, if_neg (by simp [hb]),
      if_pos hfind]
    simp
  obtain ⟨evs, hevs⟩ := topUp_log P inp 1 ((s.prune 0).topUpBody P inp 0)
  simp only [tick, if_true, hsize, emit_log, wait_log]
  rw [if_pos (by omega), topUp, dif_pos (by unfold sizeSub; omega), hevs]
  simp [hbody]

/-- The failing input: one outgoing connection to `1.0.0.0:9195` still connecting,
    `select` answering `1.0.0.1:9195` in the same `/16` group. -/
theorem tick_connects_beside_connecting_example :
    let P₀ : Params := ⟨8, 8, fun e => e.address / 65536, fun _ => true, fun _ => false⟩
    let inp : TickInput := ⟨fun _ _ => ⟨16777217, 9195, 0, 0⟩, fun _ => false, 600⟩
    let s := (init.connect (fun _ => false) ⟨16777216, 9195⟩).1
    P₀.group ⟨16777217, 9195⟩ = P₀.group ⟨16777216, 9195⟩ ∧
      Event.connectionAttempt ⟨16777217, 9195⟩ ∈ (s.tick P₀ .success inp).log :=
  ⟨rfl, tick_connects_beside_connecting _ (k := ⟨16777216, 9195⟩) (h := 0) rfl rfl (by decide)
    (by decide) rfl rfl (by decide) rfl (by decide)⟩

end Manager

end Vanillacoin
