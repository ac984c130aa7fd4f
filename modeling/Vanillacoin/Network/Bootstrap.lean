/-
  The bootstrap resolution that `start()` begins: `do_resolve` resolves the
  front of the list, and its handler hands the first endpoint to the address
  manager and calls `do_resolve` on the rest.

  * `exec` runs a list of actions on the manager, in order;
  * `chainActions k os` is the chain's completions under the outcomes `os`:
    for each, the resolution at index `k` completing with the outcome's code,
    then its handler running with the outcome's first endpoint;
  * `chainLog qs os` is the calls the chain should make: the resolution of
    each query in order, each followed, on success, by the address manager's
    `add` of its first endpoint with the source `127.0.0.1:0`;
  * `resolve_chain`: from an outstanding resolution of a list of at most 100
    queries, every sequence of outcomes runs to the end, makes exactly those
    calls, has at most one resolution of the chain outstanding at any time,
    and leaves none;
  * `start_resolves_in_order`: `start()` on 1 to 100 bootstrap nodes resolves
    them so, in the order `std::random_shuffle` leaves them, while on no node
    `do_resolve` reads `front()` of the empty vector.
-/
import Vanillacoin.Network.Quiescence

namespace Vanillacoin

namespace Manager

variable (P : Params)

/-- The manager after the actions `as`, in order; the first fault ends the run. -/
def exec : List Action → Manager → Except Fault Manager
  | [], s => .ok s
  | a :: as, s => match s.step P a with
    | .ok s' => exec as s'
    | .error f => .error f

@[simp] theorem exec_nil (s : Manager) : exec P [] s = .ok s := rfl

theorem exec_cons_of_ok {a : Action} {as : List Action} {s s₁ : Manager}
    (h : s.step P a = .ok s₁) : exec P (a :: as) s = exec P as s₁ := by
  simp [exec, h]

/-- The chain's completions under the outcomes `os`: for each, the resolution at
    index `k` completes with the outcome's code, then its handler runs with the
    outcome's first endpoint. -/
def chainActions (k : Nat) : List (ErrorCode × Endpoint) → List Action
  | [] => []
  | o :: os => .resolveDone k o.1 :: .resolveHandler k o.2 :: chainActions k os

/-- The handler's call on the address manager for the outcome `o`. -/
def resolved (o : ErrorCode × Endpoint) : List Event :=
  if o.1 = .success then [.add o.2 localSource] else []

/-- The calls of the chain on the queries `qs` under the outcomes `os`. -/
def chainLog : List Query → List (ErrorCode × Endpoint) → List Event
  | q :: qs, o :: os => .resolve q :: resolved o ++ chainLog qs os
  | _, _ => []

/-- The chain calls only the resolver and the address manager. -/
theorem chainLog_fromResolver {qs : List Query} {os : List (ErrorCode × Endpoint)} {e : Event}
    (h : e ∈ chainLog qs os) : e.fromResolver = true := by
  induction qs generalizing os with
  | nil => simp [chainLog] at h
  | cons q qs ih =>
    cases os with
    | nil => simp [chainLog] at h
    | cons o os =>
      simp only [chainLog, resolved, List.cons_append, List.mem_cons, List.mem_append] at h
      rcases h with rfl | h | h
      · rfl
      · split at h <;> simp at h; subst h; rfl
      · exact ih h

/-- The chain's resolution outstanding while `qs` remains to be resolved. -/
def outstanding (qs : List Query) : List Resolution :=
  if qs = [] then [] else [⟨qs, .pending⟩]

theorem outstanding_length_le (qs : List Query) : (outstanding qs).length ≤ 1 := by
  unfold outstanding; split <;> simp

/-- The chain's first call is the resolution of the front of the list. -/
theorem chainLog_eq_take {qs : List Query} {os : List (ErrorCode × Endpoint)}
    (h : os.length = qs.length) :
    (qs.take 1).map Event.resolve ++ (chainLog qs os).tail = chainLog qs os := by
  cases qs <;> cases os <;> simp_all [chainLog]

/-- **The handler of the resolution of `q :: qs`**: the address manager's `add`
    on success, then the resolution of `qs`, if it is not empty. -/
theorem onResolve_cons (q : Query) {qs : List Query} (ec : ErrorCode) (ep : Endpoint)
    (s : Manager) (hq : qs.length ≤ 100) :
    ∃ s', onResolve (q :: qs) ec ep s = .ok s' ∧
      s'.resolutions = s.resolutions ++ outstanding qs ∧
      s'.log = s.log ++ resolved (ec, ep) ++ (qs.take 1).map Event.resolve := by
  unfold onResolve resolveRest
  cases qs with
  | nil => refine ⟨_, rfl, ?_, ?_⟩ <;> split <;> simp [outstanding, resolved, *]
  | cons q' qs =>
    have hq' : qs.length ≤ 99 := by simp at hq; omega
    refine ⟨(if ec = .success then s.emit (.add ep localSource) else s).issue (q' :: qs) q',
      by simp [doResolve, hq'], ?_, ?_⟩ <;> split <;> simp [outstanding, resolved, *]

/-- **One link of the chain**: the outstanding resolution of `q :: qs`, last of
    the list, completes with `o.1`; its handler then runs with `o.2`. -/
theorem link {rs : List Resolution} {q : Query} {qs : List Query} (o : ErrorCode × Endpoint)
    {s : Manager} (hr : s.resolutions = rs ++ [⟨q :: qs, .pending⟩]) (hq : qs.length ≤ 100) :
    ∃ s₁ s₂, s.step P (.resolveDone rs.length o.1) = .ok s₁ ∧
      s₁.resolutions = rs ++ [⟨q :: qs, .queued o.1⟩] ∧
      s₁.step P (.resolveHandler rs.length o.2) = .ok s₂ ∧
      s₂.resolutions = rs ++ outstanding qs ∧
      s₂.log = s.log ++ resolved o ++ (qs.take 1).map Event.resolve := by
  have h₁ : s.resolutions[rs.length]? = some ⟨q :: qs, .pending⟩ := by simp [hr]
  obtain ⟨s₂, h₂, hr₂, hl₂⟩ := onResolve_cons q o.1 o.2
    { s with resolutions := rs } hq
  refine ⟨{ s with resolutions := rs ++ [⟨q :: qs, .queued o.1⟩] }, s₂, ?_, rfl, ?_, hr₂, hl₂⟩
  · simp [step, h₁, hr]
  · simpa [step, List.eraseIdx_append_of_length_le] using h₂

section
variable {P}

/-- **The resolution chain**: from an outstanding resolution of the last `qs`
    (none if `qs` is empty), at most 100 queries, and one outcome per query, the
    chain runs to the end, makes exactly the calls `chainLog qs os` but the
    first, leaves no resolution of its own outstanding, and has at most one
    outstanding at any point of the run. -/
theorem resolve_chain {rs : List Resolution} (qs : List Query) (os : List (ErrorCode × Endpoint))
    {s : Manager} (hr : s.resolutions = rs ++ outstanding qs) (hq : qs.length ≤ 100)
    (ho : os.length = qs.length) :
    ∃ s', exec P (chainActions rs.length os) s = .ok s' ∧ s'.resolutions = rs ∧
      s'.log = s.log ++ (chainLog qs os).tail ∧
      ∀ j t, exec P ((chainActions rs.length os).take j) s = .ok t →
        ∃ extra, t.resolutions = rs ++ extra ∧ extra.length ≤ 1 := by
  induction os generalizing qs s with
  | nil =>
    obtain rfl : qs = [] := List.length_eq_zero.1 ho.symm
    refine ⟨s, rfl, by simpa [outstanding] using hr, by simp [chainLog], fun j t ht => ?_⟩
    rw [chainActions, List.take_nil, exec_nil] at ht
    cases ht; exact ⟨[], by simpa [outstanding] using hr, by simp⟩
  | cons o os ih =>
    obtain ⟨q, qs, rfl⟩ := List.exists_cons_of_ne_nil (List.ne_nil_of_length_eq_add_one ho.symm)
    have hr' : s.resolutions = rs ++ [⟨q :: qs, .pending⟩] := by simpa [outstanding] using hr
    simp only [List.length_cons, Nat.add_right_cancel_iff] at ho hq
    obtain ⟨s₁, s₂, h₁, hr₁, h₂, hr₂, hl₂⟩ := link P o hr' (by omega)
    obtain ⟨s', he, hr', hl', hmid⟩ := ih qs hr₂ (by omega) ho
    have hrun : ∀ as, exec P (.resolveDone rs.length o.1 :: .resolveHandler rs.length o.2 :: as)
        s = exec P as s₂ := fun as => by rw [exec_cons_of_ok P h₁, exec_cons_of_ok P h₂]
    refine ⟨s', by rw [chainActions, hrun, he], hr', ?_, fun j t ht => ?_⟩
    · simp only [hl', hl₂, chainLog, List.cons_append, List.tail_cons, List.append_assoc,
        chainLog_eq_take ho]
    · match j, ht with
      | 0, ht => cases ht; exact ⟨_, hr, outstanding_length_le _⟩
      | 1, ht =>
        rw [chainActions, List.take_succ_cons, List.take_zero, exec_cons_of_ok P h₁,
          exec_nil] at ht
        cases ht; exact ⟨_, hr₁, by simp⟩
      | j + 2, ht =>
        rw [chainActions, List.take_succ_cons, List.take_succ_cons, hrun] at ht
        exact hmid j t ht

end

/-- **Bootstrap resolution.**  `start()` on at most 100 bootstrap nodes, which
    `std::random_shuffle` puts in the order `shuffle` gives:

    * on no node, `do_resolve` reads `front()` of the empty vector;
    * on one or more, every sequence of outcomes, one per node, runs the
      chain to its end: it resolves the nodes one at a time in the shuffled
      order, at most one resolution of the chain outstanding at any point,
      hands the address manager the first endpoint of each successful
      resolution, with the source `127.0.0.1:0`, in that order, and then
      leaves no resolution of its own outstanding. -/
theorem start_resolves_in_order (shuffle : List Query → List Query)
    (nodes : List (String × Nat)) (os : List (ErrorCode × Endpoint)) (s : Manager)
    (hp : (shuffle (nodes.map Query.ofNode)).Perm (nodes.map Query.ofNode))
    (hn : nodes.length ≤ 100) (ho : os.length = nodes.length) :
    (nodes = [] → start shuffle nodes s = .error .frontOfEmpty) ∧
    (nodes ≠ [] → ∃ s₁ s₂, start shuffle nodes s = .ok s₁ ∧
      exec P (chainActions s.resolutions.length os) s₁ = .ok s₂ ∧
      s₂.resolutions = s.resolutions ∧
      (s₂.log.drop s.log.length).filter Event.fromResolver =
        chainLog (shuffle (nodes.map Query.ofNode)) os ∧
      ∀ j t, exec P ((chainActions s.resolutions.length os).take j) s₁ = .ok t →
        ∃ extra, t.resolutions = s.resolutions ++ extra ∧ extra.length ≤ 1) := by
  have hlen := hp.length_eq
  simp only [List.length_map] at hlen
  constructor
  · rintro rfl
    rw [List.map_nil, List.perm_nil] at hp
    simp [start, doResolve, hp]
  · intro hne
    obtain ⟨q, qs, hqs⟩ := List.exists_cons_of_ne_nil
      (List.ne_nil_of_length_pos (hlen ▸ List.length_pos.2 hne))
    rw [hqs] at hlen ⊢
    simp only [List.length_cons] at hlen
    have hst : start shuffle nodes s = .ok ((s.issue (q :: qs) q).wait 1) := by
      simp [start, doResolve, hqs, show qs.length ≤ 99 by omega]
    obtain ⟨s₂, he, hr, hl, hmid⟩ := @resolve_chain P s.resolutions (q :: qs) os
      ((s.issue (q :: qs) q).wait 1) (by simp [outstanding]) (by simp; omega) (by simp; omega)
    refine ⟨_, s₂, hst, he, hr, ?_, hmid⟩
    rw [hl]
    have hf : (chainLog (q :: qs) os).tail.filter Event.fromResolver =
        (chainLog (q :: qs) os).tail :=
      List.filter_eq_self.2 fun e he => chainLog_fromResolver (List.mem_of_mem_tail he)
    simpa [List.filter_append, Event.fromResolver, hf] using
      @chainLog_eq_take (q :: qs) os (by simp; omega)

/-- The failing input, a configuration with no bootstrap node; and one node whose
    resolution succeeds, which the chain resolves and hands to the address
    manager. -/
theorem start_resolves_in_order_nodes :
    let P₀ : Params := ⟨8, 8, fun e => e.address / 65536, fun _ => true, fun _ => false⟩
    start id [] init = .error .frontOfEmpty ∧
    ∃ s₁ s₂, start id [("node-a", 9195)] init = .ok s₁ ∧
      exec P₀ (chainActions 0 [(.success, ⟨16777217, 9195⟩)]) s₁ = .ok s₂ ∧
      s₂.log.filter Event.fromResolver =
        [.resolve ⟨"node-a", "9195"⟩, .add ⟨16777217, 9195⟩ localSource] := by
  intro P₀
  refine ⟨(start_resolves_in_order P₀ id [] [] init (List.Perm.refl _) (by decide) rfl).1 rfl, ?_⟩
  obtain ⟨s₁, s₂, h₁, h₂, -, hl, -⟩ := (start_resolves_in_order P₀ id [("node-a", 9195)]
    [(.success, ⟨16777217, 9195⟩)] init (List.Perm.refl _) (by decide) rfl).2 (by simp)
  have hc : chainLog (id ([("node-a", 9195)].map Query.ofNode)) [(.success, ⟨16777217, 9195⟩)] =
      [.resolve ⟨"node-a", "9195"⟩, .add ⟨16777217, 9195⟩ localSource] := by decide
  rw [show init.log.length = 0 from rfl, List.drop_zero, hc] at hl
  exact ⟨s₁, s₂, h₁, h₂, hl⟩

end Manager

end Vanillacoin
