import Norupo.Control.Keys
import Norupo.Core.Canonical

/-!
# Host keys and port keys

Host names and TCP ports share one space of storage keys, where a port is marked by a prefix and a
host by nothing. What `resolve_http_target` and `resolve_tcp_target` hand out does not collide
there, and no host of a request is read as the key of a port.
-/

namespace Norupo

open Text

/-- The key of a port is a prefix and digits. -/
theorem mem_tcpPort {port : Nat} {c : Char} (hc : c ∈ (RoutingKey.tcpPort port).asStorageKey) :
    c ∈ "tcp:".toList ∨ c.isDigit = true := by
  rw [RoutingKey.asStorageKey, List.mem_append, Nat.toList_repr] at hc
  exact hc.imp_right (Nat.isDigit_of_mem_toDigits (by decide) (by decide))

/-- Ports are read back from their keys. -/
theorem tcpPort_inj {port port' : Nat} (h : (RoutingKey.tcpPort port).asStorageKey =
    (RoutingKey.tcpPort port').asStorageKey) : port = port' := by
  rw [RoutingKey.asStorageKey, RoutingKey.asStorageKey, List.append_cancel_left_eq, Nat.toList_repr,
    Nat.toList_repr] at h
  rw [← Nat.ofDigitChars_ten_toDigits (n := port), h, Nat.ofDigitChars_ten_toDigits]

/-- No text is normalized to the key of a port: a name has no colon, and an address literal begins
with a bracket. -/
theorem normalizeHost_ne_tcpPort {raw key : Text} (h : normalizeHost raw = .ok key) (port : Nat) :
    key ≠ (RoutingKey.tcpPort port).asStorageKey := by
  rintro rfl
  by_cases hb : (trim raw).head? = some '['
  · obtain ⟨address, rest, ht, hclose⟩ := normalizeHost_closed h hb
    exact absurd (List.cons.inj ((normalizeHost_literal hclose ht).mp h).1).1 (by decide)
  · obtain ⟨core, dots, tail, -, hkey, -, hcolon, -⟩ := normalizeHost_plain h hb
    have hmem : ':' ∈ toAsciiLowercase core := by
      rw [← hkey, RoutingKey.asStorageKey]
      exact List.mem_append_left _ (by decide)
    rw [mem_toAsciiLowercase (by decide)] at hmem
    exact hcolon hmem

/-- A label in front of the base domain is no port: it is followed by a dot. -/
theorem publicHost_ne_tcpPort {subdomain baseDomain host : Text}
    (h : publicHost subdomain baseDomain = .ok host) (port : Nat) :
    host ≠ (RoutingKey.tcpPort port).asStorageKey := by
  rintro rfl
  obtain ⟨label, base, -, -, hhost, -⟩ := publicHost_eq_ok h
  have hmem : '.' ∈ (RoutingKey.tcpPort port).asStorageKey := by
    rw [hhost]
    simp
  exact absurd (mem_tcpPort hmem) (by decide)

/-- What is handed out is a host that is the key of no port, or a port. -/
theorem resolveTarget_key {config : NodeConfig} {principal : Principal} {randomSubdomain : Text}
    {spec : Option TunnelSpec} {key : RoutingKey} {publicUrl : Text}
    (h : resolveTarget config principal randomSubdomain spec = .ok (key, publicUrl)) :
    (∃ host, key = .host host ∧ ∀ port, host ≠ (RoutingKey.tcpPort port).asStorageKey) ∨
      ∃ port, key = .tcpPort port := by
  rcases resolveTarget_eq_ok h with ⟨http, -, hr⟩ | ⟨tcp, -, hr⟩
  · obtain ⟨host, rfl, hhost⟩ := resolveHttpTarget_eq_ok hr
    refine .inl ⟨host, rfl, fun port => ?_⟩
    rcases hhost with ⟨-, hnorm, -⟩ | ⟨-, label, hpublic, -⟩
    · exact normalizeHost_ne_tcpPort hnorm port
    · exact publicHost_ne_tcpPort hpublic port
  · obtain ⟨-, -, rfl⟩ := resolveTcpTarget_eq_ok hr
    exact .inr ⟨tcp.remotePort, rfl⟩

/-- The storage keys of two tunnels are equal exactly when their routing keys are, whoever registers
them; no host is normalized to the key of a port; and a request is only ever placed by a record that
the routing table has under a key of no port. -/
theorem storageKeys_disjoint :
    (∀ (config config' : NodeConfig) (principal principal' : Principal)
      (randomSubdomain randomSubdomain' : Text) (spec spec' : Option TunnelSpec)
      (key key' : RoutingKey) (publicUrl publicUrl' : Text),
      resolveTarget config principal randomSubdomain spec = .ok (key, publicUrl) →
      resolveTarget config' principal' randomSubdomain' spec' = .ok (key', publicUrl') →
        (key.asStorageKey = key'.asStorageKey ↔ key = key')) ∧
      (∀ raw host port, normalizeHost raw = .ok host →
        host ≠ (RoutingKey.tcpPort port).asStorageKey) ∧
      ∀ (node : NodeView) (role : Role) (req : HttpRequest) (decision : Decision),
        handle node role req = decision → decision.isPlaced = true →
        ∃ key record, node.lookup key = .ok (some record) ∧
          place node.nodeId node.hasSession role req key record = decision ∧
          ∀ port, key ≠ (RoutingKey.tcpPort port).asStorageKey := by
  refine ⟨?_, ?_, ?_⟩
  · intro config config' principal principal' randomSubdomain randomSubdomain' spec spec' key key'
      publicUrl publicUrl' h h'
    refine ⟨fun heq => ?_, fun heq => by rw [heq]⟩
    rcases resolveTarget_key h with ⟨host, rfl, hhost⟩ | ⟨port, rfl⟩
    · rcases resolveTarget_key h' with ⟨host', rfl, -⟩ | ⟨port', rfl⟩
      · exact congrArg RoutingKey.host heq
      · exact absurd heq (hhost port')
    · rcases resolveTarget_key h' with ⟨host', rfl, hhost'⟩ | ⟨port', rfl⟩
      · exact absurd heq.symm (hhost' port)
      · exact congrArg RoutingKey.tcpPort (tcpPort_inj heq)
  · intro raw host port h
    exact normalizeHost_ne_tcpPort h port
  · intro node role req decision h hplaced
    obtain ⟨key, record, hkey, hlookup, hplace⟩ := handle_cases h hplaced
    obtain ⟨host, -, hnorm⟩ := Option.bind_eq_some_iff.mp (routingKey_of_lookupKey hkey)
    refine ⟨key, record, hlookup, hplace, fun port => ?_⟩
    cases hn : normalizeHost host with
    | error e =>
      rw [hn] at hnorm
      cases hnorm
    | ok key' =>
      rw [hn] at hnorm
      obtain rfl : key' = key := Option.some.inj hnorm
      exact normalizeHost_ne_tcpPort hn port

/-- A subdomain that reads like the mark of a port, next to a port. -/
theorem storageKeys_disjoint_tcp : (RoutingKey.host "tcp.tunnel.com".toList).asStorageKey ≠
    (RoutingKey.tcpPort 5432).asStorageKey := by
  intro heq
  have hhost : resolveTarget testNode (⟨"acct_1".toList, [], [], Limits.default⟩ : Principal) []
      (some (.http ⟨"tcp".toList, [], "3000".toList, false⟩)) =
        .ok (.host "tcp.tunnel.com".toList, "https://tcp.tunnel.com".toList) := rfl
  have hport : resolveTarget testNode (⟨"acct_2".toList, [], [], Limits.default⟩ : Principal) []
      (some (.tcp ⟨5432, "5432".toList⟩)) =
        .ok (.tcpPort 5432, "tcp://tunnel.com:5432".toList) := rfl
  exact absurd ((storageKeys_disjoint.1 _ _ _ _ _ _ _ _ _ _ _ _ hhost hport).mp heq) (by decide)

end Norupo
