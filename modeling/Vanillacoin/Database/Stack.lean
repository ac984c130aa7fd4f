/-
  `database::stack` (`stack.cpp`): the handle through which the node uses its
  `stack_impl`.

  * `Stack` is `stack_impl_`: the allocation it points to, or null, with the
    allocations numbered in the order `new` made them and the calls made on
    them;
  * `start`, `stop`, `join`, `leave`, `store`, `find`, `proxy` and `endpoints`
    are the methods: each forwards to the `stack_impl` when there is one;
    `start` throws when there is one and `stop` when there is none, with the
    texts of their `std::runtime_error`s; `store`, `find` and `proxy` are
    `request` on their own call;
  * `Impl` answers for `stack_impl`, whose code is not in the source;
  * `impl_calls_in_order`: over every sequence of calls from the constructor,
    each allocation is started first and then only receives operations, and
    every allocation but the one `stack_impl_` points to has been stopped,
    once and last.
-/
import Mathlib.Data.List.Basic

namespace Vanillacoin

namespace Database

/-- `stack::configuration::operation_mode_t`. -/
inductive OperationMode
  | interface
  | storage
deriving DecidableEq, Repr

/-- `stack::configuration`: the listen port and the operation mode. -/
structure Configuration where
  port : UInt16
  operationMode : OperationMode
deriving DecidableEq, Repr

/-- `stack::configuration::configuration()`. -/
def Configuration.init : Configuration := ⟨0, .storage⟩

/-- The calls `stack` makes on its `stack_impl`. -/
inductive ImplCall
  | start (config : Configuration)
  | stop
  | join (contacts : List (String × UInt16))
  | leave
  | store (query : String)
  | find (query : String) (maxResults : Nat)
  | proxy (addr : String) (port : UInt16) (buf : List UInt8)
  | endpoints
deriving DecidableEq, Repr

/-- A call that neither starts nor stops the `stack_impl`. -/
def ImplCall.isOperation : ImplCall → Bool
  | .start _ | .stop => false
  | _ => true

/-- What a `stack_impl` answers, from the calls made so far, the current one
    last: the transaction id of `store`, `find` and `proxy`, and the list of
    `endpoints`. -/
structure Impl where
  transactionId : List (Nat × ImplCall) → UInt16
  endpoints : List (Nat × ImplCall) → List (String × UInt16)

/-- The state of a `stack`. -/
structure Stack where
  /-- `stack_impl_`: the allocation it points to, or null. -/
  stackImpl : Option Nat
  /-- The allocations `new stack_impl` made so far. -/
  allocations : Nat
  /-- The calls made on the allocations, in order. -/
  log : List (Nat × ImplCall)

namespace Stack

/-- `stack::stack()`. -/
def init : Stack := ⟨none, 0, []⟩

/-- `stack::start(config)`. -/
def start (s : Stack) (config : Configuration) : Except String Stack :=
  match s.stackImpl with
  | some _ => .error "Stack is already allocated"
  | none =>
    .ok ⟨some s.allocations, s.allocations + 1, s.log ++ [(s.allocations, .start config)]⟩

/-- `stack::stop()`. -/
def stop (s : Stack) : Except String Stack :=
  match s.stackImpl with
  | some k => .ok { s with stackImpl := none, log := s.log ++ [(k, .stop)] }
  | none => .error "Stack is not allocated"

/-- The call `c` on the `stack_impl`, if there is one. -/
def forward (s : Stack) (c : ImplCall) : Stack :=
  match s.stackImpl with
  | some k => { s with log := s.log ++ [(k, c)] }
  | none => s

/-- `stack::join(contacts)`. -/
def join (s : Stack) (contacts : List (String × UInt16)) : Stack := s.forward (.join contacts)

/-- `stack::leave()`. -/
def leave (s : Stack) : Stack := s.forward .leave

variable (I : Impl)

/-- A call that returns the `stack_impl`'s transaction id, or `0` when there is
    no `stack_impl`. -/
def request (s : Stack) (c : ImplCall) : UInt16 × Stack :=
  match s.stackImpl with
  | some k => (I.transactionId (s.log ++ [(k, c)]), s.forward c)
  | none => (0, s)

/-- `stack::store(query)`. -/
def store (s : Stack) (query : String) : UInt16 × Stack := s.request I (.store query)

/-- `stack::find(query, max_results)`. -/
def find (s : Stack) (query : String) (maxResults : Nat) : UInt16 × Stack :=
  s.request I (.find query maxResults)

/-- `stack::proxy(addr, port, buf, len)`. -/
def proxy (s : Stack) (addr : String) (port : UInt16) (buf : List UInt8) : UInt16 × Stack :=
  s.request I (.proxy addr port buf)

/-- `stack::endpoints()`. -/
def endpoints (s : Stack) : List (String × UInt16) × Stack :=
  match s.stackImpl with
  | some k => (I.endpoints (s.log ++ [(k, .endpoints)]), s.forward .endpoints)
  | none => ([], s)

/-- A call on the stack. -/
inductive Call
  | start (config : Configuration)
  | stop
  | join (contacts : List (String × UInt16))
  | leave
  | store (query : String)
  | find (query : String) (maxResults : Nat)
  | proxy (addr : String) (port : UInt16) (buf : List UInt8)
  | endpoints

/-- The stack after a call, or the exception it throws. -/
def Call.apply : Call → Stack → Except String Stack
  | .start config, s => s.start config
  | .stop, s => s.stop
  | .join contacts, s => .ok (s.join contacts)
  | .leave, s => .ok s.leave
  | .store query, s => .ok (s.store I query).2
  | .find query maxResults, s => .ok (s.find I query maxResults).2
  | .proxy addr port buf, s => .ok (s.proxy I addr port buf).2
  | .endpoints, s => .ok (s.endpoints I).2

/-- `s` is reached from `s₀` by calls that do not throw; a call that throws
    leaves the stack as it was. -/
inductive Run (s₀ : Stack) : Stack → Prop
  | refl : Run s₀ s₀
  | step {s s' : Stack} (c : Call) : Run s₀ s → c.apply I s = .ok s' → Run s₀ s'

/-! ### What each call does -/

/-- **The errors of `start` and `stop`**: `start` throws exactly when there is
    a `stack_impl`, `stop` exactly when there is none. -/
theorem start_error {s : Stack} {config : Configuration} {e : String} :
    s.start config = .error e ↔ s.stackImpl.isSome ∧ e = "Stack is already allocated" := by
  unfold start; split <;> simp [*, eq_comm]

theorem stop_error {s : Stack} {e : String} :
    s.stop = .error e ↔ s.stackImpl = none ∧ e = "Stack is not allocated" := by
  unfold stop; split <;> simp [*, eq_comm]

/-- Without a `stack_impl`, the queries answer `0` and nothing. -/
theorem request_none {s : Stack} (h : s.stackImpl = none) (c : ImplCall) :
    s.request I c = (0, s) ∧ s.endpoints I = ([], s) := by
  simp [request, endpoints, h]

theorem request_snd (s : Stack) (c : ImplCall) : (s.request I c).2 = s.forward c := by
  unfold request forward; split <;> rfl

theorem endpoints_snd (s : Stack) : (s.endpoints I).2 = s.forward .endpoints := by
  unfold endpoints forward; split <;> rfl

/-- What a call that does not throw does: start a new allocation, stop the
    current one, or forward an operation. -/
theorem apply_cases {c : Call} {s s' : Stack} (h : c.apply I s = .ok s') :
    (∃ config, s.stackImpl = none ∧ s' =
      ⟨some s.allocations, s.allocations + 1, s.log ++ [(s.allocations, .start config)]⟩) ∨
    (∃ k, s.stackImpl = some k ∧
      s' = { s with stackImpl := none, log := s.log ++ [(k, .stop)] }) ∨
    ∃ o : ImplCall, o.isOperation ∧ s' = s.forward o := by
  cases c with
  | start config =>
    simp only [Call.apply, start] at h; split at h
    · cases h
    · cases h; exact .inl ⟨config, ‹_›, rfl⟩
  | stop =>
    simp only [Call.apply, stop] at h; split at h
    · cases h; exact .inr (.inl ⟨_, ‹_›, rfl⟩)
    · cases h
  | join contacts => cases h; exact .inr (.inr ⟨.join contacts, rfl, rfl⟩)
  | leave => cases h; exact .inr (.inr ⟨.leave, rfl, rfl⟩)
  | store query => cases h; exact .inr (.inr ⟨.store query, rfl, request_snd I s _⟩)
  | find query maxResults =>
    cases h; exact .inr (.inr ⟨.find query maxResults, rfl, request_snd I s _⟩)
  | proxy addr port buf =>
    cases h; exact .inr (.inr ⟨.proxy addr port buf, rfl, request_snd I s _⟩)
  | endpoints => cases h; exact .inr (.inr ⟨.endpoints, rfl, endpoints_snd I s⟩)

/-! ### The calls on each allocation -/

/-- The calls of `log` on allocation `k`, in order. -/
def callsOn (k : Nat) (log : List (Nat × ImplCall)) : List ImplCall :=
  (log.filter fun e => e.1 = k).map Prod.snd

@[simp] theorem callsOn_nil (k : Nat) : callsOn k [] = [] := rfl

theorem callsOn_snoc (k j : Nat) (log : List (Nat × ImplCall)) (c : ImplCall) :
    callsOn k (log ++ [(j, c)]) = callsOn k log ++ if j = k then [c] else [] := by
  by_cases h : j = k <;> simp [callsOn, List.filter_append, h]

/-- A call on one allocation leaves the calls of the others as they were. -/
theorem callsOn_snoc_ne {k j : Nat} (hkj : k ≠ j) (log : List (Nat × ImplCall)) (c : ImplCall) :
    callsOn j (log ++ [(k, c)]) = callsOn j log := by
  simp [callsOn_snoc, hkj]

/-- The calls allocation `k` of `s` has seen: a `start`, then operations, then a
    `stop` unless it is the one `stack_impl_` points to. -/
def InOrder (s : Stack) (k : Nat) : Prop :=
  ∃ config ops, (∀ o ∈ ops, ImplCall.isOperation o) ∧
    callsOn k s.log = .start config :: ops ++ if s.stackImpl = some k then [] else [.stop]

/-- What every run keeps. -/
structure Wf (s : Stack) : Prop where
  current : ∀ k, s.stackImpl = some k → k < s.allocations
  made : ∀ k < s.allocations, s.InOrder k
  fresh : ∀ k, s.allocations ≤ k → callsOn k s.log = []

theorem init_wf : init.Wf := ⟨by simp [init], by simp [init], by simp [init]⟩

/-- **Starting a new allocation.** -/
theorem Wf.start {s : Stack} (hs : s.Wf) (hn : s.stackImpl = none) (config : Configuration) :
    Stack.Wf
      ⟨some s.allocations, s.allocations + 1, s.log ++ [(s.allocations, .start config)]⟩ := by
  refine ⟨fun k hk => (by cases hk; exact Nat.lt_succ_self _),
    fun k (hk : k < s.allocations + 1) => ?_, fun k (hk : s.allocations + 1 ≤ k) => ?_⟩
  · by_cases hka : k = s.allocations
    · subst hka
      exact ⟨config, [], by simp, by simp [callsOn_snoc, hs.fresh _ le_rfl]⟩
    · obtain ⟨config', ops, hops, hcalls⟩ := hs.made k (by omega)
      refine ⟨config', ops, hops, ?_⟩
      simp [callsOn_snoc_ne (Ne.symm hka), hcalls, hn, Ne.symm hka]
  · rw [callsOn_snoc_ne (by omega)]; exact hs.fresh k (by omega)

/-- **Stopping the current allocation.** -/
theorem Wf.stop {s : Stack} (hs : s.Wf) {k : Nat} (hk : s.stackImpl = some k) :
    Stack.Wf { s with stackImpl := none, log := s.log ++ [(k, .stop)] } := by
  refine ⟨fun _ h => (by cases h), fun j (hj : j < s.allocations) => ?_,
    fun j (hj : s.allocations ≤ j) => ?_⟩
  · obtain ⟨config, ops, hops, hcalls⟩ := hs.made j hj
    refine ⟨config, ops, hops, ?_⟩
    by_cases hjk : k = j
    · subst hjk; simp [callsOn_snoc, hcalls, hk]
    · simp [callsOn_snoc_ne hjk, hcalls, hk, hjk]
  · rw [callsOn_snoc_ne (by have := hs.current k hk; omega)]; exact hs.fresh j hj

/-- **Forwarding an operation** to the current allocation. -/
theorem Wf.forward {s : Stack} (hs : s.Wf) {o : ImplCall} (ho : o.isOperation) :
    (s.forward o).Wf := by
  unfold Stack.forward
  split
  · rename_i k hk
    refine ⟨fun _ h => hs.current _ (hk ▸ h), fun j (hj : j < s.allocations) => ?_,
      fun j (hj : s.allocations ≤ j) => ?_⟩
    · obtain ⟨config, ops, hops, hcalls⟩ := hs.made j hj
      by_cases hjk : k = j
      · subst hjk
        refine ⟨config, ops ++ [o], fun o' ho' => ?_, ?_⟩
        · rcases List.mem_append.1 ho' with h | h
          · exact hops o' h
          · rw [List.mem_singleton.1 h]; exact ho
        · simp [callsOn_snoc, hcalls, hk]
      · exact ⟨config, ops, hops, by simp [callsOn_snoc_ne hjk, hcalls, hk, hjk]⟩
    · rw [callsOn_snoc_ne (by have := hs.current k hk; omega)]; exact hs.fresh j hj
  · exact hs

theorem Wf.apply {s s' : Stack} (hs : s.Wf) {c : Call} (h : c.apply I s = .ok s') : s'.Wf := by
  rcases apply_cases I h with ⟨config, hn, rfl⟩ | ⟨k, hk, rfl⟩ | ⟨o, ho, rfl⟩
  · exact hs.start hn config
  · exact hs.stop hk
  · exact hs.forward ho

theorem Wf.run {s₀ s : Stack} (h₀ : s₀.Wf) (h : Run I s₀ s) : s.Wf := by
  induction h with
  | refl => exact h₀
  | step c _ hc ih => exact ih.apply I hc

/-- **Every `stack_impl` sees its calls in order.**  Over every sequence of
    calls on a `stack` from its constructor, each allocation of a `stack_impl`
    is started first and then receives only operations, and every allocation
    but the one `stack_impl_` points to has been stopped, once and last: no
    call reaches a deleted `stack_impl`, and a second `start` never leaves a
    running one behind. -/
theorem impl_calls_in_order {s : Stack} (h : Run I init s) :
    (∀ k < s.allocations, ∃ config ops, (∀ o ∈ ops, ImplCall.isOperation o) ∧
      callsOn k s.log = .start config :: ops ++ if s.stackImpl = some k then [] else [.stop]) ∧
    ∀ k, s.allocations ≤ k → callsOn k s.log = [] :=
  have hs := init_wf.run I h
  ⟨hs.made, hs.fresh⟩

/-- Two sessions of the stack, each storing once. -/
def twoSessions : Impl := ⟨fun _ => 7, fun _ => []⟩

theorem impl_calls_in_order_sessions :
    let s : Stack := ⟨some 1, 2, [(0, .start .init), (0, .store "a"), (0, .stop),
      (1, .start .init)]⟩
    callsOn 0 s.log = [.start .init, .store "a", .stop] ∧
    (∀ k < s.allocations, ∃ config ops, (∀ o ∈ ops, ImplCall.isOperation o) ∧
      callsOn k s.log = .start config :: ops ++ if s.stackImpl = some k then [] else [.stop]) ∧
    ∀ k, s.allocations ≤ k → callsOn k s.log = [] :=
  ⟨by decide, impl_calls_in_order twoSessions
    (.step (.start .init) (.step .stop (.step (.store "a") (.step (.start .init) .refl rfl) rfl)
      rfl) rfl)⟩

end Stack

end Database

end Vanillacoin
