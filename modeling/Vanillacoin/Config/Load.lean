/-
  `configuration::load`, `configuration::save` and the setters
  `set_network_port_tcp` and `set_network_tcp_inbound_maximum`: the two settings of
  `config.dat` the node reads, `network.tcp.port` and
  `network.tcp.inbound.maximum`, with the file's `version`.

  * `load` reads each key by `pt.get(key, std::to_string(default))` and
    `std::stoul`; an exception from `read_json` or `stoul` makes it return
    `false` from the catch, after the assignments already made, and a version
    other than `version` trips the `assert`;
  * `load_spec`: `load` fails only on a version that reads as another number;
    when it returns `true` it has set the port to the number read modulo
    `2^16` and the maximum to the number read raised to
    `tcp_inbound_minimum`; when it returns `false` the maximum is unchanged,
    but the port may already be set;
  * `load_save`: `load` after `save` restores every configuration whose
    maximum is at least `tcp_inbound_minimum`;
  * `reachable_settings_reload`: every sequence of `load`s and setter calls
    from the constructor keeps the maximum at least `tcp_inbound_minimum`, so
    the settings it reaches survive `save` and `load`.
-/
import Vanillacoin.Config.Stoul

namespace Vanillacoin

namespace Config

/-- The constants `configuration` reads: `version`, `protocol::default_tcp_port`,
    `network::tcp_inbound_maximum` and `network::tcp_inbound_minimum`. -/
structure Params where
  version : UInt64
  defaultTcpPort : UInt16
  tcpInboundMaximum : UInt64
  tcpInboundMinimum : UInt64

/-- The settings of `configuration` that `load` and `save` touch. -/
structure Configuration where
  /-- `m_network_port_tcp`, a `std::uint16_t`. -/
  networkPortTcp : UInt16
  /-- `m_network_tcp_inbound_maximum`, a `std::size_t`. -/
  networkTcpInboundMaximum : UInt64
deriving DecidableEq, Repr

/-- The keys of `config.dat` that `load` reads, each present with its text or
    absent. -/
structure File where
  version : Option String
  /-- `network.tcp.port` -/
  port : Option String
  /-- `network.tcp.inbound.maximum` -/
  inboundMaximum : Option String
deriving DecidableEq, Repr

/-- A failed `assert`. -/
inductive Fault
  | assertion
deriving DecidableEq, Repr

variable (P : Params)

/-- The constructor's settings: `protocol::default_tcp_port` and
    `network::tcp_inbound_maximum`. -/
def Configuration.init : Configuration := ⟨P.defaultTcpPort, P.tcpInboundMaximum⟩

/-- `set_network_tcp_inbound_maximum(val)`. -/
def Configuration.setNetworkTcpInboundMaximum (c : Configuration) (val : UInt64) :
    Configuration :=
  if val < P.tcpInboundMinimum then { c with networkTcpInboundMaximum := P.tcpInboundMinimum }
  else { c with networkTcpInboundMaximum := val }

/-- The text `pt.get("version", std::to_string(version))` reads. -/
def File.versionText (f : File) : String := f.version.getD (toString P.version.toNat)

/-- The text `pt.get("network.tcp.port", std::to_string(protocol::default_tcp_port))` reads. -/
def File.portText (f : File) : String := f.port.getD (toString P.defaultTcpPort.toNat)

/-- The text `pt.get("network.tcp.inbound.maximum",
    std::to_string(network::tcp_inbound_maximum))` reads. -/
def File.maximumText (f : File) : String :=
  f.inboundMaximum.getD (toString P.tcpInboundMaximum.toNat)

/-- `load()` on the settings `c`, with `config.dat` read as `f` (`none` when
    `read_json` throws): the result and the settings after it. -/
def load (f : Option File) (c : Configuration) : Except Fault (Bool × Configuration) :=
  match f with
  | none => .ok (false, c)
  | some f =>
    match stoul (f.versionText P) with
    | .error _ => .ok (false, c)
    | .ok fileVersion =>
      if fileVersion ≠ P.version.toNat then .error .assertion
      else
        match stoul (f.portText P) with
        | .error _ => .ok (false, c)
        | .ok port =>
          let c := { c with networkPortTcp := UInt16.ofNat port }
          match stoul (f.maximumText P) with
          | .error _ => .ok (false, c)
          | .ok maximum =>
            let c := { c with networkTcpInboundMaximum := UInt64.ofNat maximum }
            if c.networkTcpInboundMaximum < P.tcpInboundMinimum then
              .ok (true, { c with networkTcpInboundMaximum := P.tcpInboundMinimum })
            else .ok (true, c)

/-- The file `save()` writes from the settings `c`. -/
def save (c : Configuration) : File :=
  ⟨some (toString P.version.toNat), some (toString c.networkPortTcp.toNat),
    some (toString c.networkTcpInboundMaximum.toNat)⟩

/-! ### The fixed-width settings and `std::stoul` -/

theorem uint16_ofNat_toNat (x : UInt16) : UInt16.ofNat x.toNat = x := by
  cases x; simp [UInt16.ofNat, UInt16.toNat]

theorem uint64_ofNat_toNat (x : UInt64) : UInt64.ofNat x.toNat = x := by
  cases x; simp [UInt64.ofNat, UInt64.toNat]

theorem uint64_toNat_le (x : UInt64) : x.toNat ≤ ulongMax := by
  have := x.toNat_lt_size; unfold UInt64.size at this; unfold ulongMax; omega

theorem uint16_toNat_le (x : UInt16) : x.toNat ≤ ulongMax := by
  have := x.toNat_lt_size; unfold UInt16.size at this; unfold ulongMax; omega

@[simp] theorem setNetworkTcpInboundMaximum_networkPortTcp (c : Configuration) (val : UInt64) :
    (c.setNetworkTcpInboundMaximum P val).networkPortTcp = c.networkPortTcp := by
  unfold Configuration.setNetworkTcpInboundMaximum; split <;> rfl

/-- `set_network_tcp_inbound_maximum(val)` sets the maximum to `val` raised to
    `tcp_inbound_minimum`. -/
theorem setNetworkTcpInboundMaximum_toNat (c : Configuration) (val : UInt64) :
    (c.setNetworkTcpInboundMaximum P val).networkTcpInboundMaximum.toNat =
      max val.toNat P.tcpInboundMinimum.toNat := by
  unfold Configuration.setNetworkTcpInboundMaximum
  split
  · have : val.toNat < P.tcpInboundMinimum.toNat := ‹_›
    simp; omega
  · have : ¬ val.toNat < P.tcpInboundMinimum.toNat := ‹_›
    simp; omega

/-! ### What `load` does -/

/-- **What `load` can do**: return `false` with the settings unchanged; trip the
    `assert` on a version that reads as another number; return `false` after
    setting the port, when the version and the port read and the maximum does
    not; or, when all three read, set both, the maximum as
    `set_network_tcp_inbound_maximum` does, and return `true`. -/
theorem load_cases (f : Option File) (c : Configuration) :
    load P f c = .ok (false, c) ∨
      (∃ g v, f = some g ∧ stoul (g.versionText P) = .ok v ∧ v ≠ P.version.toNat ∧
        load P f c = .error .assertion) ∨
      (∃ g p e, f = some g ∧ stoul (g.versionText P) = .ok P.version.toNat ∧
        stoul (g.portText P) = .ok p ∧ stoul (g.maximumText P) = .error e ∧
        load P f c = .ok (false, { c with networkPortTcp := UInt16.ofNat p })) ∨
      (∃ g p m, f = some g ∧ stoul (g.versionText P) = .ok P.version.toNat ∧
        stoul (g.portText P) = .ok p ∧ stoul (g.maximumText P) = .ok m ∧
        load P f c = .ok (true, ({ c with networkPortTcp := UInt16.ofNat p } :
          Configuration).setNetworkTcpInboundMaximum P (UInt64.ofNat m))) := by
  rcases f with _ | g
  · exact .inl rfl
  cases hv : stoul (g.versionText P) with
  | error => exact .inl (by simp [load, hv])
  | ok v =>
    by_cases hne : v = P.version.toNat
    swap
    · exact .inr (.inl ⟨g, v, rfl, hv, hne, by simp [load, hv, hne]⟩)
    subst hne
    cases hp : stoul (g.portText P) with
    | error => exact .inl (by simp [load, hv, hp])
    | ok p =>
      cases hm : stoul (g.maximumText P) with
      | error e => exact .inr (.inr (.inl ⟨g, p, e, rfl, hv, hp, hm, by simp [load, hv, hp, hm]⟩))
      | ok m =>
        refine .inr (.inr (.inr ⟨g, p, m, rfl, hv, hp, hm, ?_⟩))
        simp only [load, hv, hp, hm, ne_eq, not_true_eq_false, if_false,
          Configuration.setNetworkTcpInboundMaximum]
        split <;> rfl

/-- **`load` after `save`** restores every configuration whose maximum is at
    least `tcp_inbound_minimum`, whatever the settings before. -/
theorem load_save (c c₀ : Configuration) (h : P.tcpInboundMinimum ≤ c.networkTcpInboundMaximum) :
    load P (some (save P c)) c₀ = .ok (true, c) := by
  simp only [load, save, File.versionText, File.portText, File.maximumText, Option.getD_some,
    stoul_toString _ (uint64_toNat_le _), stoul_toString _ (uint16_toNat_le _), ne_eq,
    not_true_eq_false, if_false, uint16_ofNat_toNat, uint64_ofNat_toNat, UInt64.not_lt.2 h]

/-- **The defaults pass `load`'s own reading**: a `config.dat` with none of the
    keys sets the constructor's settings, the maximum raised to
    `tcp_inbound_minimum`. -/
theorem load_defaults (c : Configuration) :
    load P (some ⟨none, none, none⟩) c =
      .ok (true, (Configuration.init P).setNetworkTcpInboundMaximum P P.tcpInboundMaximum) := by
  simp only [load, File.versionText, File.portText, File.maximumText, Option.getD_none,
    stoul_toString _ (uint64_toNat_le _), stoul_toString _ (uint16_toNat_le _), ne_eq,
    not_true_eq_false, if_false, uint16_ofNat_toNat, uint64_ofNat_toNat,
    Configuration.setNetworkTcpInboundMaximum, Configuration.init]
  split <;> rfl

/-- `set_network_port_tcp(val)`. -/
def Configuration.setNetworkPortTcp (c : Configuration) (val : UInt16) : Configuration :=
  { c with networkPortTcp := val }

/-- A call on `configuration` that changes its settings: `load()` with
    `config.dat` read as `f`, or a setter. -/
inductive Call
  | load (f : Option File)
  | setNetworkPortTcp (val : UInt16)
  | setNetworkTcpInboundMaximum (val : UInt64)

/-- The settings after a call. -/
def Call.apply : Call → Configuration → Except Fault Configuration
  | .load f, c => (Config.load P f c).map Prod.snd
  | .setNetworkPortTcp val, c => .ok (c.setNetworkPortTcp val)
  | .setNetworkTcpInboundMaximum val, c => .ok (c.setNetworkTcpInboundMaximum P val)

/-- The settings after a sequence of calls, unless `load` trips its `assert`. -/
def exec (cs : List Call) (c : Configuration) : Except Fault Configuration :=
  cs.foldlM (fun c call => call.apply P c) c

theorem setNetworkTcpInboundMaximum_bounded (c : Configuration) (val : UInt64) :
    P.tcpInboundMinimum ≤ (c.setNetworkTcpInboundMaximum P val).networkTcpInboundMaximum := by
  show P.tcpInboundMinimum.toNat ≤
    (c.setNetworkTcpInboundMaximum P val).networkTcpInboundMaximum.toNat
  rw [setNetworkTcpInboundMaximum_toNat]; omega

/-- **Every call keeps the maximum at least `tcp_inbound_minimum`.** -/
theorem Call.apply_bounded {call : Call} {c c' : Configuration}
    (hc : P.tcpInboundMinimum ≤ c.networkTcpInboundMaximum) (h : call.apply P c = .ok c') :
    P.tcpInboundMinimum ≤ c'.networkTcpInboundMaximum := by
  cases call with
  | load f =>
    rcases load_cases P f c with
      h' | ⟨_, _, -, -, -, h'⟩ | ⟨_, _, _, -, -, -, -, h'⟩ | ⟨_, _, _, -, -, -, -, h'⟩ <;>
      simp only [Call.apply, h', Except.map] at h <;> cases h
    · exact hc
    · exact hc
    · exact setNetworkTcpInboundMaximum_bounded P _ _
  | setNetworkPortTcp val => cases h; exact hc
  | setNetworkTcpInboundMaximum val => cases h; exact setNetworkTcpInboundMaximum_bounded P c val

theorem exec_bounded {cs : List Call} {c c' : Configuration}
    (hc : P.tcpInboundMinimum ≤ c.networkTcpInboundMaximum) (h : exec P cs c = .ok c') :
    P.tcpInboundMinimum ≤ c'.networkTcpInboundMaximum := by
  induction cs generalizing c with
  | nil => cases h; exact hc
  | cons call cs ih =>
    simp only [exec, List.foldlM_cons] at h
    cases h₁ : call.apply P c with
    | error e => rw [h₁] at h; cases h
    | ok c₁ => rw [h₁] at h; exact ih (Call.apply_bounded P hc h₁) h

/-- **Every reachable configuration survives `save` and `load`.**  From the
    constructor, when `network::tcp_inbound_maximum` is at least
    `network::tcp_inbound_minimum`, after any sequence of `load`s, of any
    files, and setter calls that does not trip the `assert`, the inbound
    maximum is at least `tcp_inbound_minimum`, and `load` after `save` gives
    back the settings exactly. -/
theorem reachable_settings_reload {cs : List Call} {c : Configuration}
    (hP : P.tcpInboundMinimum ≤ P.tcpInboundMaximum)
    (h : exec P cs (Configuration.init P) = .ok c) :
    P.tcpInboundMinimum ≤ c.networkTcpInboundMaximum ∧
      ∀ c₀, load P (some (save P c)) c₀ = .ok (true, c) :=
  have hc := exec_bounded P hP h
  ⟨hc, fun c₀ => load_save P c c₀ hc⟩

/-- A session of the node's settings: a port set by hand, a `config.dat`
    asking for a maximum of 3, then a maximum of 64 set by hand. -/
def sessionCalls : List Call :=
  [.setNetworkPortTcp 9196, .load (some ⟨none, none, some "3"⟩),
    .setNetworkTcpInboundMaximum 64]

theorem reachable_settings_reload_session :
    exec ⟨1, 9195, 128, 8⟩ sessionCalls (Configuration.init ⟨1, 9195, 128, 8⟩) =
        .ok ⟨9195, 64⟩ ∧
      (8 : UInt64) ≤ (⟨9195, 64⟩ : Configuration).networkTcpInboundMaximum ∧
      ∀ c₀, load ⟨1, 9195, 128, 8⟩ (some (save ⟨1, 9195, 128, 8⟩ ⟨9195, 64⟩)) c₀ =
        .ok (true, ⟨9195, 64⟩) :=
  have h : exec ⟨1, 9195, 128, 8⟩ sessionCalls (Configuration.init ⟨1, 9195, 128, 8⟩) =
      .ok ⟨9195, 64⟩ := rfl
  ⟨h, @reachable_settings_reload ⟨1, 9195, 128, 8⟩ sessionCalls ⟨9195, 64⟩ (by decide)
    h⟩

end Config

end Vanillacoin
