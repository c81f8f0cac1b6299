import Norupo.Foundation.Text
import Mathlib.Logic.Function.Basic
import Mathlib.Data.Option.Basic

/-!
# The in-memory routing table

`MemoryRegistry` of `norupo-core/src/registry.rs`. The hash map under the mutex is its lookup
function: no operation iterates over it except `retain`, which acts on every entry separately.
Instants and durations are natural numbers of clock ticks. A call that both evicts and stamps an
expiry reads the clock twice, so it is given two readings.
-/

namespace Norupo

/-- One row of the routing table. -/
structure RouteRecord where
  /-- Canonical key of the route. -/
  routingKey : Text
  /-- Edge node that terminates the agent session. -/
  nodeId : Text
  /-- Internal address a sibling node dials. -/
  nodeAddr : Text
  /-- Agent session that owns the claim: the compare-and-swap token. -/
  sessionId : Text
  /-- Tunnel within that session. -/
  tunnelId : Text
  /-- Owning account. -/
  accountId : Text
  deriving DecidableEq, Repr

/-- Outcome of a claim attempt. -/
inductive Claim
  | acquired
  | taken (owner : RouteRecord)
  deriving DecidableEq, Repr

/-- The readings of `Instant::now()` inside one call: at eviction and at the expiry stamp. -/
structure Clock where
  /-- Read by `evict_expired`. -/
  now : Nat
  /-- Read when a new expiry is computed. -/
  stamp : Nat
  deriving DecidableEq, Repr

/-- The map inside the mutex: key to record and expiry. -/
abbrev MemoryRegistry := Text → Option (RouteRecord × Nat)

namespace MemoryRegistry

/-- `MemoryRegistry::new`. -/
def new : MemoryRegistry := fun _ => none

/-- `evict_expired`: retain the entries whose expiry is still ahead of the clock. -/
def evictExpired (map : MemoryRegistry) (now : Nat) : MemoryRegistry :=
  fun key => (map key).filter fun entry => now < entry.2

/-- `claim`: refuse a key that another session holds, otherwise (re)claim and refresh. -/
def claim (map : MemoryRegistry) (record : RouteRecord) (ttl : Nat) (clock : Clock) :
    MemoryRegistry × Claim :=
  let map := evictExpired map clock.now
  let acquired :=
    (Function.update map record.routingKey (some (record, clock.stamp + ttl)), Claim.acquired)
  match map record.routingKey with
  | some (existing, _) =>
    if existing.sessionId ≠ record.sessionId then (map, .taken existing) else acquired
  | none => acquired

/-- `lookup`: the record of an unexpired entry. -/
def lookup (map : MemoryRegistry) (routingKey : Text) (clock : Clock) :
    MemoryRegistry × Option RouteRecord :=
  let map := evictExpired map clock.now
  (map, (map routingKey).map Prod.fst)

/-- `renew`: extend the expiry when the session still owns the key. -/
def renew (map : MemoryRegistry) (routingKey sessionId : Text) (ttl : Nat) (clock : Clock) :
    MemoryRegistry × Bool :=
  let map := evictExpired map clock.now
  match map routingKey with
  | some (record, _) =>
    if record.sessionId = sessionId then
      (Function.update map routingKey (some (record, clock.stamp + ttl)), true)
    else (map, false)
  | none => (map, false)

/-- `release`: drop the entry when the session owns it. Nothing is evicted here. -/
def release (map : MemoryRegistry) (routingKey sessionId : Text) : MemoryRegistry :=
  match map routingKey with
  | some (record, _) =>
    if record.sessionId = sessionId then Function.update map routingKey none else map
  | none => map

/-- Eviction keeps exactly the entries with a future expiry. -/
theorem evictExpired_eq_some {map : MemoryRegistry} {now : Nat} {key : Text}
    {entry : RouteRecord × Nat} :
    evictExpired map now key = some entry ↔ map key = some entry ∧ now < entry.2 := by
  simp [evictExpired, Option.filter_eq_some_iff]

/-- An evicted or absent key reads as free. -/
theorem evictExpired_eq_none {map : MemoryRegistry} {now : Nat} {key : Text} :
    evictExpired map now key = none ↔ ∀ entry, map key = some entry → entry.2 ≤ now := by
  simp [evictExpired, Option.filter_eq_none_iff]

/-- An earlier eviction makes no difference to a later one. -/
theorem evictExpired_evictExpired (map : MemoryRegistry) {now later : Nat} (h : now ≤ later) :
    evictExpired (evictExpired map now) later = evictExpired map later := by
  funext key
  apply Option.ext
  intro entry
  rw [evictExpired_eq_some, evictExpired_eq_some, evictExpired_eq_some]
  constructor
  · rintro ⟨⟨hm, -⟩, hlater⟩
    exact ⟨hm, hlater⟩
  · rintro ⟨hm, hlater⟩
    exact ⟨⟨hm, by omega⟩, hlater⟩

/-- What eviction does to a single key. -/
theorem evictExpired_cases (map : MemoryRegistry) (now : Nat) (key : Text) :
    evictExpired map now key = map key ∨
      ∃ entry, map key = some entry ∧ entry.2 ≤ now ∧ evictExpired map now key = none := by
  cases hm : map key with
  | none => exact Or.inl (evictExpired_eq_none.mpr (by simp [hm]))
  | some entry =>
    by_cases he : now < entry.2
    · exact Or.inl (evictExpired_eq_some.mpr ⟨hm, he⟩)
    · exact Or.inr ⟨entry, rfl, by omega, evictExpired_eq_none.mpr (by simp [hm]; omega)⟩

/-- Everything a claim can do: lose to another owner, or take the key. -/
theorem claim_cases (map : MemoryRegistry) (record : RouteRecord) (ttl : Nat)
    (clock : Clock) :
    (∃ existing expiry, map record.routingKey = some (existing, expiry) ∧ clock.now < expiry ∧
      existing.sessionId ≠ record.sessionId ∧
      claim map record ttl clock = (evictExpired map clock.now, .taken existing)) ∨
    ((∀ existing expiry, map record.routingKey = some (existing, expiry) → clock.now < expiry →
      existing.sessionId = record.sessionId) ∧
      claim map record ttl clock =
        (Function.update (evictExpired map clock.now) record.routingKey
          (some (record, clock.stamp + ttl)), .acquired)) := by
  cases hm : evictExpired map clock.now record.routingKey with
  | none =>
    right
    refine ⟨fun existing expiry h hlt => ?_, by simp [claim, hm]⟩
    have := evictExpired_eq_none.mp hm _ h
    simp only at this
    omega
  | some entry =>
    obtain ⟨existing, expiry⟩ := entry
    obtain ⟨hget, hlt⟩ := evictExpired_eq_some.mp hm
    by_cases hs : existing.sessionId = record.sessionId
    · right
      refine ⟨fun existing' expiry' h _ => ?_, by simp [claim, hm, hs]⟩
      obtain ⟨rfl, rfl⟩ := Prod.mk.inj (Option.some.inj (hget.symm.trans h))
      exact hs
    · exact Or.inl ⟨existing, expiry, hget, hlt, hs, by simp [claim, hm, hs]⟩

/-- Everything a renewal can do: refresh the owner's entry, or report a lost claim. -/
theorem renew_cases (map : MemoryRegistry) (key sessionId : Text) (ttl : Nat)
    (clock : Clock) :
    (∃ record expiry, map key = some (record, expiry) ∧ clock.now < expiry ∧
      record.sessionId = sessionId ∧
      renew map key sessionId ttl clock =
        (Function.update (evictExpired map clock.now) key (some (record, clock.stamp + ttl)),
          true)) ∨
    ((∀ record expiry, map key = some (record, expiry) → clock.now < expiry →
      record.sessionId ≠ sessionId) ∧
      renew map key sessionId ttl clock = (evictExpired map clock.now, false)) := by
  cases hm : evictExpired map clock.now key with
  | none =>
    right
    refine ⟨fun record expiry h hlt => ?_, by simp [renew, hm]⟩
    have := evictExpired_eq_none.mp hm _ h
    simp only at this
    omega
  | some entry =>
    obtain ⟨record, expiry⟩ := entry
    obtain ⟨hget, hlt⟩ := evictExpired_eq_some.mp hm
    by_cases hs : record.sessionId = sessionId
    · exact Or.inl ⟨record, expiry, hget, hlt, hs, by simp [renew, hm, hs]⟩
    · right
      refine ⟨fun record' expiry' h _ => ?_, by simp [renew, hm, hs]⟩
      obtain ⟨rfl, rfl⟩ := Prod.mk.inj (Option.some.inj (hget.symm.trans h))
      exact hs

/-- After a renewal that reports a lost claim the session has no record under the key. -/
theorem renew_lost {map : MemoryRegistry} {key sessionId : Text} {ttl : Nat} {clock : Clock}
    (h : (renew map key sessionId ttl clock).2 = false) {record : RouteRecord} {expiry : Nat}
    (hk : (renew map key sessionId ttl clock).1 key = some (record, expiry)) :
    record.sessionId ≠ sessionId := by
  rcases renew_cases map key sessionId ttl clock with ⟨old, limit, -, -, -, hr⟩ | ⟨hnot, hr⟩
  · rw [hr] at h
    cases h
  · rw [hr] at hk
    obtain ⟨hget, hlt⟩ := evictExpired_eq_some.mp hk
    exact hnot record expiry hget hlt

/-- Everything a release can do: remove the owner's entry, or nothing. -/
theorem release_cases (map : MemoryRegistry) (key sessionId : Text) :
    (∃ record expiry, map key = some (record, expiry) ∧ record.sessionId = sessionId ∧
      release map key sessionId = Function.update map key none) ∨
    ((∀ record expiry, map key = some (record, expiry) → record.sessionId ≠ sessionId) ∧
      release map key sessionId = map) := by
  cases hm : map key with
  | none => exact Or.inr ⟨by simp, by simp [release, hm]⟩
  | some entry =>
    obtain ⟨record, expiry⟩ := entry
    by_cases hs : record.sessionId = sessionId
    · exact Or.inl ⟨record, expiry, rfl, hs, by simp [release, hm, hs]⟩
    · refine Or.inr ⟨fun record' expiry' h => ?_, by simp [release, hm, hs]⟩
      obtain ⟨rfl, rfl⟩ := Prod.mk.inj (Option.some.inj h)
      exact hs

/-- A release removes the record of its session under its key, and no other. -/
theorem release_eq_some {map : MemoryRegistry} {key sessionId other : Text} {record : RouteRecord}
    {expiry : Nat} :
    release map key sessionId other = some (record, expiry) ↔
      map other = some (record, expiry) ∧ ¬ (other = key ∧ record.sessionId = sessionId) := by
  rcases release_cases map key sessionId with ⟨old, e, hold, hown, hr⟩ | ⟨hnot, hr⟩
  · rw [hr, Function.update_apply]
    split
    · rename_i he
      subst he
      refine iff_of_false (by simp) ?_
      rintro ⟨hget, hne⟩
      obtain ⟨rfl, -⟩ := Prod.mk.inj (Option.some.inj (hold.symm.trans hget))
      exact hne ⟨rfl, hown⟩
    · rename_i he
      simp [he]
  · rw [hr]
    refine ⟨fun hget => ⟨hget, ?_⟩, And.left⟩
    rintro ⟨rfl, hown⟩
    exact hnot record expiry hget hown

end MemoryRegistry

end Norupo
