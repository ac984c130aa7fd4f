/-
  The life of each connection, as the manager's calls on it show it:
  `tcp_connection::start`, then `send`s, then at most one `stop`.

  * `Phase` and `Phase.after` are the protocol of one connection, an automaton
    over the manager's calls: `start` takes a fresh connection to running,
    `send` keeps a running one running, `stop` takes a running one to stopped,
    and any other call on it breaks it;
  * `phase h log` is where the calls of `log` leave connection `h`;
  * `Lifecycle` is what every run keeps: no connection broken, every handle
    from `next` on fresh, every entry of the table running, under a handle of
    its own, and every live connection that runs in the table;
  * `connection_calls_in_order`: in every run of the manager from its
    construction or from `start()`, the calls on every connection follow the
    protocol: `start` at most once and first, `send` and `stop` only while it
    runs, `stop` at most once;
  * `stop_leaves_no_connection_running`: `stop()` leaves every connection the
    manager started stopped or released by its last owner.
-/
import Vanillacoin.Network.Async

namespace Vanillacoin

/-- Where a connection stands, as the manager's calls on it show. -/
inductive Phase
  /-- Not started. -/
  | fresh
  /-- Started and not stopped. -/
  | running
  /-- Stopped. -/
  | stopped
  /-- A call out of order: a second `start`, or a `send` or `stop` on a
      connection that is not running. -/
  | broken
deriving DecidableEq, Repr

/-- The protocol of connection `h`: its phase after the call `e`. -/
def Phase.after (h : Nat) (p : Phase) (e : Event) : Phase :=
  match e with
  | .start h' => if h' = h then (if p = .fresh then .running else .broken) else p
  | .send h' _ => if h' = h then (if p = .running then .running else .broken) else p
  | .stop h' => if h' = h then (if p = .running then .stopped else .broken) else p
  | _ => p

/-- The connection a call is on, if it is a call on a connection. -/
def Event.handle? : Event → Option Nat
  | .start h | .send h _ | .stop h => some h
  | _ => none

theorem Phase.after_of_handle_ne {h : Nat} {e : Event} (he : e.handle? ≠ some h) (p : Phase) :
    Phase.after h p e = p := by
  cases e <;> first
    | rfl
    | simp only [Event.handle?, ne_eq, Option.some.injEq] at he; simp [Phase.after, he]

namespace Manager

/-- Where the calls of `log` leave connection `h`. -/
def phase (h : Nat) (log : List Event) : Phase := log.foldl (Phase.after h) .fresh

@[simp] theorem phase_nil (h : Nat) : phase h [] = .fresh := rfl

theorem phase_append (h : Nat) (log evs : List Event) :
    phase h (log ++ evs) = evs.foldl (Phase.after h) (phase h log) :=
  List.foldl_append _ _ _ _

/-- Calls on other connections leave connection `h` where it is. -/
theorem foldl_after_of_handle_ne {h : Nat} {evs : List Event}
    (hev : ∀ e ∈ evs, e.handle? ≠ some h) (p : Phase) : evs.foldl (Phase.after h) p = p := by
  induction evs generalizing p with
  | nil => rfl
  | cons e evs ih =>
    rw [List.foldl_cons, Phase.after_of_handle_ne (hev e (List.mem_cons_self e evs)),
      ih fun e' he' => hev e' (List.mem_cons_of_mem e he')]

theorem phase_append_of_none {evs : List Event} (hev : ∀ e ∈ evs, e.handle? = none)
    (h : Nat) (log : List Event) : phase h (log ++ evs) = phase h log := by
  rw [phase_append, foldl_after_of_handle_ne fun e he => by simp [hev e he]]

/-- `stop` on distinct connections stops each of them once. -/
theorem foldl_after_stops {hs : List Nat} (hnd : hs.Nodup) (h : Nat) (p : Phase) :
    (hs.map Event.stop).foldl (Phase.after h) p =
      if h ∈ hs then Phase.after h p (.stop h) else p := by
  induction hs generalizing p with
  | nil => rfl
  | cons x hs ih =>
    obtain ⟨hx, hnd⟩ := List.nodup_cons.1 hnd
    rw [List.map_cons, List.foldl_cons, ih hnd]
    by_cases hxh : x = h
    · subst hxh; simp [hx]
    · simp [Phase.after, hxh, Ne.symm hxh]

/-- `send` on running connections keeps them running. -/
theorem foldl_after_sends (hs : List Nat) (buf : List UInt8) (h : Nat) {p : Phase}
    (hp : h ∈ hs → p = .running) : (hs.map (Event.send · buf)).foldl (Phase.after h) p = p := by
  induction hs with
  | nil => rfl
  | cons x hs ih =>
    rw [List.map_cons, List.foldl_cons]
    have hx : Phase.after h p (.send x buf) = p := by
      by_cases hxh : x = h
      · subst hxh; simp [Phase.after, hp (List.mem_cons_self x hs)]
      · simp [Phase.after, hxh]
    rw [hx]; exact ih fun hm => hp (List.mem_cons_of_mem x hm)

/-- The calls of `log` on connection `h`, in order. -/
def callsOn (h : Nat) (log : List Event) : List Event := log.filter fun e => e.handle? = some h

/-- The calls a connection may see: `start`, then `send`s, then at most one `stop`. -/
def InOrder (h : Nat) (calls : List Event) : Prop :=
  calls = [] ∨ ∃ bufs : List (List UInt8),
    calls = .start h :: bufs.map (.send h) ∨ calls = .start h :: bufs.map (.send h) ++ [.stop h]

theorem Event.handle?_eq_some {e : Event} {h : Nat} :
    e.handle? = some h ↔ e = .start h ∨ (∃ buf, e = .send h buf) ∨ e = .stop h := by
  cases e <;> simp [Event.handle?, eq_comm]

@[simp] theorem Phase.after_broken (h : Nat) (e : Event) : Phase.after h .broken e = .broken := by
  cases e <;> simp [Phase.after]

theorem foldl_after_broken (h : Nat) (l : List Event) :
    l.foldl (Phase.after h) .broken = .broken := by
  induction l with
  | nil => rfl
  | cons e l ih => rw [List.foldl_cons, Phase.after_broken, ih]

theorem foldl_after_callsOn (h : Nat) (log : List Event) (p : Phase) :
    (callsOn h log).foldl (Phase.after h) p = log.foldl (Phase.after h) p := by
  induction log generalizing p with
  | nil => rfl
  | cons e log ih =>
    by_cases he : e.handle? = some h
    · simp only [callsOn, List.filter_cons, he, decide_True, if_true, List.foldl_cons]
      exact ih _
    · simp only [callsOn, List.filter_cons, he, decide_False, if_false, List.foldl_cons,
        Phase.after_of_handle_ne he]
      exact ih p

theorem foldl_sends_running (h : Nat) (bufs : List (List UInt8)) :
    (bufs.map (Event.send h)).foldl (Phase.after h) .running = .running := by
  induction bufs with
  | nil => rfl
  | cons b bufs ih => simpa [Phase.after] using ih

/-- From a stopped connection, every further call breaks it. -/
theorem eq_nil_of_stopped {h : Nat} {l : List Event} (hl : ∀ e ∈ l, e.handle? = some h)
    (hb : l.foldl (Phase.after h) .stopped ≠ .broken) : l = [] := by
  cases l with
  | nil => rfl
  | cons e l =>
    rcases Event.handle?_eq_some.1 (hl e (List.mem_cons_self e l)) with rfl | ⟨b, rfl⟩ | rfl <;>
      simp [Phase.after, foldl_after_broken] at hb

/-- From a running connection: `send`s, then at most one `stop`. -/
theorem sends_of_running {h : Nat} {l : List Event} (hl : ∀ e ∈ l, e.handle? = some h)
    (hb : l.foldl (Phase.after h) .running ≠ .broken) : ∃ bufs : List (List UInt8),
      l = bufs.map (.send h) ∨ l = bufs.map (.send h) ++ [.stop h] := by
  induction l with
  | nil => exact ⟨[], .inl rfl⟩
  | cons e l ih =>
    have hl' : ∀ e ∈ l, e.handle? = some h := fun e' he' => hl e' (List.mem_cons_of_mem e he')
    rcases Event.handle?_eq_some.1 (hl e (List.mem_cons_self e l)) with rfl | ⟨b, rfl⟩ | rfl
    · simp [Phase.after, foldl_after_broken] at hb
    · obtain ⟨bufs, hbufs⟩ := ih hl' (by simpa [Phase.after] using hb)
      exact ⟨b :: bufs, by rcases hbufs with rfl | rfl <;> simp⟩
    · have := eq_nil_of_stopped hl' (by simpa [Phase.after] using hb)
      exact ⟨[], .inr (by simp [this])⟩

/-- **The language of the protocol**: calls on `h` that do not break it are in order. -/
theorem inOrder_of_ne_broken {h : Nat} {l : List Event} (hl : ∀ e ∈ l, e.handle? = some h)
    (hb : l.foldl (Phase.after h) .fresh ≠ .broken) : InOrder h l := by
  cases l with
  | nil => exact .inl rfl
  | cons e l =>
    have hl' : ∀ e ∈ l, e.handle? = some h := fun e' he' => hl e' (List.mem_cons_of_mem e he')
    rcases Event.handle?_eq_some.1 (hl e (List.mem_cons_self e l)) with rfl | ⟨b, rfl⟩ | rfl
    · obtain ⟨bufs, hbufs⟩ := sends_of_running hl' (by simpa [Phase.after] using hb)
      exact .inr ⟨bufs, by rcases hbufs with rfl | rfl <;> simp⟩
    all_goals simp [Phase.after, foldl_after_broken] at hb

theorem callsOn_handle (h : Nat) (log : List Event) : ∀ e ∈ callsOn h log, e.handle? = some h :=
  fun _ he => of_decide_eq_true (List.mem_filter.1 he).2

/-- A connection that runs has been started and not stopped. -/
theorem callsOn_of_running {h : Nat} {log : List Event} (hr : phase h log = .running) :
    ∃ bufs : List (List UInt8), callsOn h log = .start h :: bufs.map (.send h) := by
  have hf : (callsOn h log).foldl (Phase.after h) .fresh = .running := by
    rw [foldl_after_callsOn]; exact hr
  rcases inOrder_of_ne_broken (callsOn_handle h log) (by simp [hf]) with h₀ | ⟨bufs, h₁ | h₂⟩
  · simp [h₀] at hf
  · exact ⟨bufs, h₁⟩
  · rw [h₂] at hf
    simp [Phase.after, List.foldl_append, foldl_sends_running] at hf

/-- A connection started and not stopped runs. -/
theorem phase_of_started {h : Nat} {log : List Event} (hb : phase h log ≠ .broken)
    (hs : Event.start h ∈ log) (hn : Event.stop h ∉ log) : phase h log = .running := by
  unfold phase at hb ⊢
  rw [← foldl_after_callsOn] at hb ⊢
  have hmem : ∀ e, e ∈ callsOn h log ↔ e ∈ log ∧ e.handle? = some h := fun e => by simp [callsOn]
  rcases inOrder_of_ne_broken (callsOn_handle h log) hb with h₀ | ⟨bufs, h₁ | h₂⟩
  · simpa [h₀] using (hmem (.start h)).2 ⟨hs, rfl⟩
  · rw [h₁]; simp [Phase.after, foldl_sends_running]
  · exact absurd ((hmem _).1 (by simp [h₂])).1 hn

/-- The calls on the live connections of the table, as a map over their handles. -/
theorem onLive_eq (s : Manager) (f : Nat → Event) :
    s.onLive f =
      ((s.table.entries.filter fun e => (s.conns e.2).alive).map Prod.snd).map f := by
  unfold onLive
  induction s.table.entries with
  | nil => rfl
  | cons e es ih => by_cases ha : (s.conns e.2).alive <;> simp [List.filter_cons, ha, ih]

/-- What every run keeps. -/
structure Lifecycle (s : Manager) : Prop where
  unbroken : ∀ h, phase h s.log ≠ .broken
  fresh : ∀ h, s.next ≤ h → phase h s.log = .fresh
  running : ∀ e ∈ s.table.entries, phase e.2 s.log = .running
  handlesNodup : (s.table.entries.map Prod.snd).Nodup
  /-- A live connection that runs is in the table, where `stop()` finds it. -/
  tracked : ∀ h, phase h s.log = .running → (s.conns h).alive → ∃ e ∈ s.table.entries, e.2 = h

theorem init_lifecycle : init.Lifecycle :=
  ⟨by simp [init], by simp [init], by simp [init], by simp [init], by simp [init]⟩

theorem Lifecycle.handle_lt {s : Manager} (hs : s.Lifecycle) {e : Endpoint × Nat}
    (he : e ∈ s.table.entries) : e.2 < s.next :=
  Nat.lt_of_not_le fun hle => by simpa [hs.fresh e.2 hle] using hs.running e he

/-- The table's handles that a list of its entries names. -/
theorem Lifecycle.nodup_handles {s : Manager} (hs : s.Lifecycle) (p : Endpoint × Nat → Bool) :
    ((s.table.entries.filter p).map Prod.snd).Nodup :=
  ((List.filter_sublist _).map _).nodup hs.handlesNodup

/-- A handle of some entries of the table runs and is below `next`. -/
theorem Lifecycle.of_mem_handles {s : Manager} (hs : s.Lifecycle) {p : Endpoint × Nat → Bool}
    {h : Nat} (hm : h ∈ (s.table.entries.filter p).map Prod.snd) :
    phase h s.log = .running ∧ h < s.next := by
  obtain ⟨e, he, rfl⟩ := List.mem_map.1 hm
  exact ⟨hs.running e (List.mem_filter.1 he).1, hs.handle_lt (List.mem_filter.1 he).1⟩

/-- `stop` on the connections of some entries of the table stops each of them. -/
theorem Lifecycle.phase_stops {s : Manager} (hs : s.Lifecycle) (p : Endpoint × Nat → Bool)
    (h : Nat) : phase h (s.log ++ ((s.table.entries.filter p).map Prod.snd).map Event.stop) =
      if h ∈ (s.table.entries.filter p).map Prod.snd then .stopped else phase h s.log := by
  rw [phase_append, foldl_after_stops (hs.nodup_handles p)]
  split
  · rw [(hs.of_mem_handles ‹_›).1]; simp [Phase.after]
  · rfl

/-- After such `stop`s no connection is broken and the handles from `next` on
    are fresh. -/
theorem Lifecycle.after_stops {s s' : Manager} (hs : s.Lifecycle) (p : Endpoint × Nat → Bool)
    (hlog : s'.log = s.log ++ ((s.table.entries.filter p).map Prod.snd).map Event.stop)
    (hn : s'.next = s.next) :
    (∀ h, phase h s'.log ≠ .broken) ∧ ∀ h, s'.next ≤ h → phase h s'.log = .fresh := by
  refine ⟨fun h => ?_, fun h hle => ?_⟩ <;> rw [hlog, hs.phase_stops p]
  · split
    · simp
    · exact hs.unbroken h
  · rw [if_neg fun hm => absurd (hs.of_mem_handles hm).2 (by omega)]
    exact hs.fresh h (hn ▸ hle)

/-- A step that keeps the table, the next handle and every connection's phase,
    and makes no connection live, keeps the invariant. -/
theorem Lifecycle.frame {s s' : Manager} (hs : s.Lifecycle) (ht : s'.table = s.table)
    (hn : s'.next = s.next) (hc : ∀ h, (s'.conns h).alive → (s.conns h).alive)
    (hph : ∀ h, phase h s'.log = phase h s.log) : s'.Lifecycle where
  unbroken h := hph h ▸ hs.unbroken h
  fresh h hh := by rw [hph]; exact hs.fresh h (hn ▸ hh)
  running e he := by rw [hph]; exact hs.running e (ht ▸ he)
  handlesNodup := ht ▸ hs.handlesNodup
  tracked h hr ha := by rw [ht]; exact hs.tracked h (hph h ▸ hr) (hc h ha)

theorem Lifecycle.emit {s : Manager} (hs : s.Lifecycle) (e : Event) (he : e.handle? = none) :
    (s.emit e).Lifecycle :=
  hs.frame rfl rfl (fun _ => id) fun h => phase_append_of_none (by simpa using he) h s.log

/-- **Retaining a new connection under an absent key and starting it**: the
    fresh handle `next` starts running. -/
theorem Lifecycle.retain_start {s : Manager} (hs : s.Lifecycle) {c : Connection}
    (hk : s.table.find c.endpoint = none) : ((s.retain c).emit (.start s.next)).Lifecycle := by
  have hph : ∀ h, phase h ((s.retain c).emit (.start s.next)).log =
      Phase.after h (phase h s.log) (.start s.next) := fun h => by simp [phase_append]
  have hold : ∀ h, h ≠ s.next → phase h ((s.retain c).emit (.start s.next)).log = phase h s.log :=
    fun h hh => by rw [hph]; simp [Phase.after, Ne.symm hh]
  have hnew : phase s.next ((s.retain c).emit (.start s.next)).log = .running := by
    rw [hph, hs.fresh s.next le_rfl]; simp [Phase.after]
  have hent := Table.assign_entries_of_find_none hk s.next
  constructor
  · intro h
    by_cases hh : h = s.next
    · rw [hh, hnew]; simp
    · rw [hold h hh]; exact hs.unbroken h
  · intro h hle
    simp only [emit_next, retain_next] at hle
    rw [hold h (by omega)]; exact hs.fresh h (by omega)
  · intro e he
    simp only [emit_table, retain_table, hent, List.mem_append, List.mem_singleton] at he
    rcases he with he | rfl
    · rw [hold e.2 (Nat.ne_of_lt (hs.handle_lt he))]; exact hs.running e he
    · exact hnew
  · simp only [emit_table, retain_table, hent, List.map_append, List.map_singleton]
    exact List.nodup_append.2 ⟨hs.handlesNodup, List.nodup_singleton _,
      List.disjoint_singleton.2 fun hm => by
        obtain ⟨e, he, hen⟩ := List.mem_map.1 hm
        exact Nat.lt_irrefl _ (hen ▸ hs.handle_lt he)⟩
  · intro h hr ha
    simp only [emit_table, retain_table, hent, List.mem_append, List.mem_singleton]
    by_cases hh : h = s.next
    · exact ⟨(c.endpoint, s.next), .inr rfl, hh.symm⟩
    · simp only [emit_conns, retain_conns, Function.update_noteq hh] at ha
      obtain ⟨e, he, rfl⟩ := hs.tracked _ (hold _ hh ▸ hr) ha
      exact ⟨e, .inl he, rfl⟩

theorem Lifecycle.handleAccept {s s' : Manager} (hs : s.Lifecycle) {P : Params}
    {banned : Nat → Bool} {t : Transport} (h : s.handleAccept P banned t = .ok s') :
    s'.Lifecycle := by
  rcases handleAccept_cases P h with rfl | ⟨r, -, hdup, -, -, rfl⟩
  · exact hs.emit _ rfl
  · exact hs.retain_start (Table.find_none_of_address hdup)

theorem Lifecycle.connect {s : Manager} (hs : s.Lifecycle) (banned : Nat → Bool) (ep : Endpoint) :
    (s.connect banned ep).1.Lifecycle := by
  rcases connect_cases banned ep s with h | ⟨-, hk, h⟩ <;> rw [h]
  · exact hs
  · exact (hs.emit (.connectionAttempt ep) rfl).retain_start hk

/-- **The prune loop** stops each live entry with an invalid transport once,
    while it runs, and keeps the others running. -/
theorem Lifecycle.prune {s : Manager} (hs : s.Lifecycle) : (s.prune 0).Lifecycle := by
  obtain ⟨hc, hn, -⟩ := prune_frame s 0
  have hlog : (s.prune 0).log = s.log ++
      ((s.table.entries.filter (stops s.conns)).map Prod.snd).map Event.stop := by
    rw [prune_zero_log, List.map_map]; rfl
  obtain ⟨hu, hf⟩ := hs.after_stops _ hlog hn
  refine ⟨hu, hf, fun e he => ?_, by rw [prune_zero_entries]; exact hs.nodup_handles _,
    fun h hr ha => ?_⟩
  · rw [prune_zero_entries, List.mem_filter] at he
    rw [hlog, hs.phase_stops, if_neg fun hm => ?_]
    · exact hs.running e he.1
    · -- a kept entry and a stopped one have different handles
      obtain ⟨e', he', hee⟩ := List.mem_map.1 hm
      have hk := he.2
      have hs' := (List.mem_filter.1 he').2
      simp only [keeps, stops, hee, Bool.and_eq_true, Bool.not_eq_true'] at hk hs'
      simp [hk.2] at hs'
  · -- a live running connection was not stopped, so its entry is kept
    rw [hc] at ha
    rw [hlog, hs.phase_stops] at hr
    split at hr
    · cases hr
    · rename_i hm
      obtain ⟨e, he, rfl⟩ := hs.tracked _ hr ha
      have hk : keeps s.conns e = true := by
        cases hv : (s.conns e.2).transportValid
        · exact absurd (List.mem_map.2 ⟨e, List.mem_filter.2 ⟨he, by simp [stops, ha, hv]⟩, rfl⟩) hm
        · simp [keeps, ha, hv]
      exact ⟨e, by rw [prune_zero_entries]; exact List.mem_filter.2 ⟨he, hk⟩, rfl⟩

theorem Lifecycle.topUpBody {s : Manager} (hs : s.Lifecycle) (P : Params) (inp : TickInput)
    (i : Nat) : (s.topUpBody P inp i).Lifecycle := by
  rcases topUpBody_cases P inp i s with h | ⟨a, -, -, -, -, -, -, hk, h⟩ <;> rw [h]
  · exact hs.emit (.select _) rfl
  · exact ((hs.emit (.select _) rfl).emit (.connectionAttempt a.endpoint) rfl).retain_start hk

theorem Lifecycle.topUp {s : Manager} (hs : s.Lifecycle) (P : Params) (inp : TickInput) (i : Nat) :
    (s.topUp P inp i).Lifecycle := by
  induction i, s using topUp.induct P inp with
  | case1 i s h ih => rw [Manager.topUp, dif_pos h]; exact ih (hs.topUpBody P inp i)
  | case2 i s h => rw [Manager.topUp, dif_neg h]; exact hs

theorem Lifecycle.wait {s : Manager} (hs : s.Lifecycle) (n : Nat) : (s.wait n).Lifecycle :=
  hs.frame rfl rfl (fun _ => id) fun h => phase_append_of_none (by simp [Event.handle?]) h s.log

theorem Lifecycle.tick {s : Manager} (hs : s.Lifecycle) (P : Params) (ec : ErrorCode)
    (inp : TickInput) : (s.tick P ec inp).Lifecycle := by
  unfold Manager.tick
  split
  · refine (Lifecycle.wait ?_ 8).emit (.status _) rfl
    split
    · exact hs.prune.topUp P inp 0
    · exact hs.prune
  · exact hs

/-- `broadcast` sends only on running connections. -/
theorem Lifecycle.broadcast {s : Manager} (hs : s.Lifecycle) (buf : List UInt8) :
    (s.broadcast buf).Lifecycle :=
  hs.frame rfl rfl (fun _ => id) fun h => by
    rw [Manager.broadcast, phase_append, onLive_eq]
    exact foldl_after_sends ((s.table.entries.filter fun e => (s.conns e.2).alive).map Prod.snd)
      buf h fun hm => (hs.of_mem_handles hm).1

theorem Lifecycle.cancel {s : Manager} (hs : s.Lifecycle) : s.cancel.Lifecycle :=
  hs.frame rfl rfl (fun _ => id) fun _ => rfl

/-- The second half of `stop()` stops each live connection of the table once
    and empties the table. -/
theorem Lifecycle.stopConnections {s : Manager} (hs : s.Lifecycle) : s.stopConnections.Lifecycle := by
  have hlog : s.stopConnections.log = s.log ++
      ((s.table.entries.filter fun e => (s.conns e.2).alive).map Prod.snd).map Event.stop := by
    rw [← onLive_eq]; rfl
  obtain ⟨hu, hf⟩ := hs.after_stops _ hlog rfl
  refine ⟨hu, hf, by simp, by simp, fun h hr ha => ?_⟩
  -- a live running connection would be in the table, and stopped
  rw [hlog, hs.phase_stops] at hr
  split at hr
  · cases hr
  · rename_i hm
    obtain ⟨e, he, rfl⟩ := hs.tracked _ hr ha
    exact absurd (List.mem_map.2 ⟨e, List.mem_filter.2 ⟨he, ha⟩, rfl⟩) hm

theorem Lifecycle.stop {s : Manager} (hs : s.Lifecycle) : s.stop.Lifecycle :=
  hs.cancel.stopConnections

theorem Lifecycle.withStopping {s : Manager} (hs : s.Lifecycle) (n : Nat) :
    ({ s with stopping := n } : Manager).Lifecycle :=
  hs.frame rfl rfl (fun _ => id) fun _ => rfl

/-- A change of the node to a connection that makes no connection live. -/
theorem Lifecycle.setConn {s : Manager} (hs : s.Lifecycle) {h : Nat} {c : Connection}
    (hc : c.alive → (s.conns h).alive) : (s.setConn h c).Lifecycle :=
  hs.frame rfl rfl (fun h' ha => by
    by_cases hh : h' = h
    · subst hh; exact hc (by simpa using ha)
    · simpa [Function.update_noteq hh] using ha) fun _ => rfl

theorem Lifecycle.issue {s : Manager} (hs : s.Lifecycle) (qs : List Query) (q : Query) :
    (s.issue qs q).Lifecycle :=
  hs.frame rfl rfl (fun _ => id) fun h => phase_append_of_none (by simp [Event.handle?]) h s.log

theorem Lifecycle.onResolve {s s' : Manager} (hs : s.Lifecycle) {qs : List Query}
    {ec : ErrorCode} {ep : Endpoint} (h : onResolve qs ec ep s = .ok s') : s'.Lifecycle := by
  have h₁ : (if ec = .success then s.emit (.add ep localSource) else s).Lifecycle := by
    split
    · exact hs.emit (.add ep localSource) rfl
    · exact hs
  rcases onResolve_cases h with rfl | ⟨q, rfl⟩
  · exact h₁
  · exact h₁.issue _ q

/-- **Every action keeps the invariant.** -/
theorem Lifecycle.step {s s' : Manager} (hs : s.Lifecycle) {P : Params} {a : Action}
    (h : s.step P a = .ok s') : s'.Lifecycle := by
  have hres : ∀ rs : List Resolution, ({ s with resolutions := rs } : Manager).Lifecycle :=
    fun _ => hs.frame rfl rfl (fun _ => id) fun _ => rfl
  have hwaits : ∀ ws : List Stage, ({ s with waits := ws } : Manager).Lifecycle :=
    fun _ => hs.frame rfl rfl (fun _ => id) fun _ => rfl
  cases a with
  | accept banned t => exact hs.handleAccept h
  | connect banned ep => cases h; exact hs.connect banned ep
  | tick ec inp => cases h; exact hs.tick P ec inp
  | broadcast buf => cases h; exact hs.broadcast buf
  | stop => rw [step_stop h]; exact hs.cancel.withStopping _
  | stopLocked => rw [(step_stopLocked h).2]; exact hs.stopConnections.withStopping _
  | resolveDone i ec => obtain ⟨_, -, rfl⟩ := step_resolveDone h; exact hres _
  | resolveHandler i ep => obtain ⟨_, _, -, h⟩ := step_resolveHandler h; exact (hres _).onResolve h
  | timerDone i => obtain ⟨-, rfl⟩ := step_timerDone h; exact hwaits _
  | timerHandler i inp => obtain ⟨_, -, rfl⟩ := step_timerHandler h; exact (hwaits _).tick P _ inp
  | connectionGone h' => cases h; exact hs.setConn fun ha => absurd ha (by simp)
  | transportChanged h' v r => cases h; exact hs.setConn id

theorem Lifecycle.run {P : Params} {ok : Action → Prop} {s₀ s : Manager} (h₀ : s₀.Lifecycle)
    (h : Run P ok s₀ s) : s.Lifecycle := by
  induction h with
  | refl => exact h₀
  | step a _ _ hst ih => exact ih.step hst

/-- `start()` makes no call on a connection. -/
theorem Lifecycle.start {s s' : Manager} (hs : s.Lifecycle) {shuffle : List Query → List Query}
    {nodes : List (String × Nat)} (h : start shuffle nodes s = .ok s') : s'.Lifecycle := by
  obtain ⟨qs, q, rfl⟩ := start_cases h
  exact (hs.issue qs q).wait 1

/-- Every state a run reaches from the construction or from `start()` keeps the
    invariant. -/
theorem Lifecycle.reachable {P : Params} {s₀ s : Manager}
    (h₀ : s₀ = init ∨ ∃ shuffle nodes, Manager.start shuffle nodes init = .ok s₀)
    (h : Run P (fun _ => True) s₀ s) : s.Lifecycle := by
  refine Lifecycle.run ?_ h
  rcases h₀ with rfl | ⟨_, _, hs⟩
  · exact init_lifecycle
  · exact init_lifecycle.start hs

variable (P : Params)

/-- **The calls on every connection follow its protocol.**  In every run of the
    manager from its construction or from `start()`, over every interleaving of
    `handle_accept`, `connect`, `tick`, `broadcast` and `stop` with the
    completions and handlers of its asynchronous operations and the node's
    changes to connections, the calls on each connection are `start`, then
    `send`s, then at most one `stop`; and every connection in the table has
    been started and not stopped. -/
theorem connection_calls_in_order {s₀ s : Manager}
    (h₀ : s₀ = init ∨ ∃ shuffle nodes, start shuffle nodes init = .ok s₀)
    (h : Run P (fun _ => True) s₀ s) :
    (∀ h, InOrder h (callsOn h s.log)) ∧
      ∀ e ∈ s.table.entries, ∃ bufs : List (List UInt8),
        callsOn e.2 s.log = .start e.2 :: bufs.map (.send e.2) := by
  have hl := Lifecycle.reachable h₀ h
  refine ⟨fun h => inOrder_of_ne_broken (callsOn_handle h s.log) ?_,
    fun e he => callsOn_of_running (hl.running e he)⟩
  rw [foldl_after_callsOn]; exact hl.unbroken h

theorem connection_calls_in_order_example :
    let s := ((init.connect (fun _ => false) ⟨16777216, 9195⟩).1.broadcast [1]).stop
    callsOn 0 s.log = [.start 0, .send 0 [1], .stop 0] ∧
      (∀ h, InOrder h (callsOn h s.log)) ∧
      ∀ e ∈ s.table.entries, ∃ bufs : List (List UInt8),
        callsOn e.2 s.log = .start e.2 :: bufs.map (.send e.2) :=
  ⟨by decide, connection_calls_in_order ⟨1, 8, fun e => e.address / 65536, fun _ => true,
    fun _ => false⟩ (.inl rfl)
    (.step .stopLocked (.step .stop (.step (.broadcast [1])
      (.step (.connect (fun _ => false) ⟨16777216, 9195⟩) .refl trivial rfl) trivial rfl) trivial rfl)
      trivial rfl)⟩

/-- **`stop()` leaves no connection running.**  In every run of the manager
    from its construction or from `start()`, over every interleaving of calls,
    completions, handlers and changes to connections, `stop()` leaves every
    connection the manager has started stopped, or released by its last owner:
    a live connection the manager started and did not stop is in its table. -/
theorem stop_leaves_no_connection_running {s₀ s : Manager}
    (h₀ : s₀ = init ∨ ∃ shuffle nodes, start shuffle nodes init = .ok s₀)
    (h : Run P (fun _ => True) s₀ s) :
    ∀ h, Event.start h ∈ s.stop.log → Event.stop h ∈ s.stop.log ∨ (s.conns h).alive = false := by
  have hl := (Lifecycle.reachable h₀ h).stop
  intro h hs
  by_cases hn : Event.stop h ∈ s.stop.log
  · exact .inl hn
  · refine .inr (Bool.eq_false_iff.2 fun ha => ?_)
    obtain ⟨e, he, -⟩ := hl.tracked h (phase_of_started (hl.unbroken h) hs hn) ha
    simp [Manager.stop] at he

/-- Two connections made, the first then released by its owners. -/
def firstReleased : Manager :=
  let s := ((init.connect (fun _ => false) ⟨16777216, 9195⟩).1.connect (fun _ => false)
    ⟨33554432, 9195⟩).1
  s.setConn 0 { s.conns 0 with alive := false }

theorem stop_leaves_no_connection_running_example :
    Event.stop 0 ∉ firstReleased.stop.log ∧ Event.stop 1 ∈ firstReleased.stop.log ∧
      ∀ h, Event.start h ∈ firstReleased.stop.log →
        Event.stop h ∈ firstReleased.stop.log ∨ (firstReleased.conns h).alive = false :=
  ⟨by decide, by decide, stop_leaves_no_connection_running
    ⟨1, 8, fun e => e.address / 65536, fun _ => true, fun _ => false⟩ (.inl rfl)
    (.step (.connectionGone 0) (.step (.connect _ _) (.step (.connect _ _) .refl trivial rfl)
      trivial rfl) trivial rfl)⟩

end Manager

end Vanillacoin
