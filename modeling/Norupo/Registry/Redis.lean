import Norupo.Registry.Codec
import Norupo.Registry.Lease
import Mathlib.Data.List.Pairwise

/-!
# The Redis routing table

`RedisRegistry` of `norupo-core/src/registry.rs`: three scripts over string keys with a
server-side expiry. A script is atomic and sees one clock reading. Instants and durations are
natural numbers of nanoseconds, on the same clock as those of the in-memory table; the server counts
a lifetime in whole milliseconds.

The simulation compares what the two tables show: an entry that has run out may still lie in either
of them, and is invisible in both.
-/

namespace Norupo

open Text

/-- Nanoseconds of a millisecond. -/
def nanosPerMilli : Nat := 1000000

/-- `u64::try_from(ttl.as_millis()).unwrap_or(u64::MAX)`. -/
def toMillis (ttl : Nat) : Nat := min (ttl / nanosPerMilli) (2 ^ 64 - 1)

/-- The string keys of a Redis server, with value and expiry. -/
abbrev RedisStore := Text → Option (Text × Nat)

namespace RedisStore

/-- An empty server. -/
def new : RedisStore := fun _ => none

/-- The unexpired entry of a key. -/
def live (store : RedisStore) (now : Nat) (key : Text) : Option (Text × Nat) :=
  (store key).filter fun entry => now < entry.2

/-- `GET`. -/
def get (store : RedisStore) (now : Nat) (key : Text) : Option Text :=
  (store.live now key).map Prod.fst

/-- `SET` with `PX`. -/
def setPx (store : RedisStore) (now : Nat) (key value : Text) (millis : Nat) : RedisStore :=
  Function.update store key (some (value, now + millis * nanosPerMilli))

/-- `PEXPIRE`. -/
def pexpire (store : RedisStore) (now : Nat) (key : Text) (millis : Nat) : RedisStore :=
  match store.live now key with
  | some (value, _) => Function.update store key (some (value, now + millis * nanosPerMilli))
  | none => store

/-- `DEL`. -/
def del (store : RedisStore) (key : Text) : RedisStore := Function.update store key none

end RedisStore

/-- `RedisRegistry`: the key prefix, and `tonumber` of the scripting language. -/
structure RedisRegistry where
  keyPrefix : Text
  toNumber : Nat → Nat

namespace RedisRegistry

/-- `key`. -/
def key (registry : RedisRegistry) (routingKey : Text) : Text :=
  registry.keyPrefix ++ "route:".toList ++ routingKey

/-- `CLAIM_SCRIPT`: empty on success, or the stored record of the owner. -/
def claimScript (registry : RedisRegistry) (store : RedisStore) (now : Nat)
    (key value : Text) (millis : Nat) (sessionId : Text) : RedisStore × Text :=
  let claimed := (store.setPx now key value (registry.toNumber millis), [])
  match store.get now key with
  | some current => if matchOwner current ≠ some sessionId then (store, current) else claimed
  | none => claimed

/-- `RENEW_SCRIPT`. -/
def renewScript (registry : RedisRegistry) (store : RedisStore) (now : Nat)
    (key : Text) (millis : Nat) (sessionId : Text) : RedisStore × Nat :=
  match store.get now key with
  | some current =>
    if matchOwner current ≠ some sessionId then (store, 0)
    else (store.pexpire now key (registry.toNumber millis), 1)
  | none => (store, 0)

/-- `RELEASE_SCRIPT`. -/
def releaseScript (store : RedisStore) (now : Nat) (key sessionId : Text) : RedisStore × Nat :=
  match store.get now key with
  | some current =>
    if matchOwner current ≠ some sessionId then (store, 0) else (store.del key, 1)
  | none => (store, 0)

/-- One call of the `Registry` trait while the server is available. -/
def perform (registry : RedisRegistry) (store : RedisStore) (now : Nat) :
    RegistryOp → RedisStore × Except Error RegistryReply
  | .claim record ttl =>
    let (store, current) := registry.claimScript store now (registry.key record.routingKey)
      record.encode (toMillis ttl) record.sessionId
    (store, if current.isEmpty then .ok (.claimed .acquired)
      else (RouteRecord.decode current).map fun owner => .claimed (.taken owner))
  | .lookup routingKey =>
    (store, match store.get now (registry.key routingKey) with
      | some raw => (RouteRecord.decode raw).map fun record => .found (some record)
      | none => .ok (.found none))
  | .renew routingKey sessionId ttl =>
    let (store, renewed) := registry.renewScript store now (registry.key routingKey)
      (toMillis ttl) sessionId
    (store, .ok (.renewed (renewed = 1)))
  | .release routingKey sessionId =>
    ((releaseScript store now (registry.key routingKey) sessionId).1, .ok .released)

/-- The replies to calls made at the given times, oldest first. -/
def replies (registry : RedisRegistry) :
    RedisStore → List (Nat × RegistryOp) → List (Except Error RegistryReply)
  | _, [] => []
  | store, (now, op) :: calls =>
    (registry.perform store now op).2 :: registry.replies (registry.perform store now op).1 calls

end RedisRegistry

/-- The replies of the in-memory table to the same calls; a call reads one instant. -/
def MemoryRegistry.replies : MemoryRegistry → List (Nat × RegistryOp) → List RegistryReply
  | _, [] => []
  | map, (now, op) :: calls =>
    (map.perform ⟨now, now⟩ op).2 :: MemoryRegistry.replies (map.perform ⟨now, now⟩ op).1 calls

/-- A lifetime of at least a millisecond and below 2^53 milliseconds. -/
def TtlInRange (ttl : Nat) : Prop := nanosPerMilli ≤ ttl ∧ ttl < 2 ^ 53 * nanosPerMilli

/-- Records are tab-free and lifetimes are in range. -/
def RegistryOp.InRange : RegistryOp → Prop
  | .claim record ttl => record.TabFree ∧ TtlInRange ttl
  | .renew _ _ ttl => TtlInRange ttl
  | _ => True

/-- The lifetime is a whole number of milliseconds. -/
def RegistryOp.WholeMillis : RegistryOp → Prop
  | .claim _ ttl | .renew _ _ ttl => nanosPerMilli ∣ ttl
  | _ => True

instance (ttl : Nat) : Decidable (TtlInRange ttl) :=
  inferInstanceAs (Decidable (nanosPerMilli ≤ ttl ∧ ttl < 2 ^ 53 * nanosPerMilli))

instance : DecidablePred RegistryOp.InRange
  | .claim record ttl => inferInstanceAs (Decidable (record.TabFree ∧ TtlInRange ttl))
  | .renew _ _ ttl => inferInstanceAs (Decidable (TtlInRange ttl))
  | .lookup _ | .release _ _ => isTrue trivial

instance : DecidablePred RegistryOp.WholeMillis
  | .claim _ ttl | .renew _ _ ttl => inferInstanceAs (Decidable (nanosPerMilli ∣ ttl))
  | .lookup _ | .release _ _ => isTrue trivial

/-- A whole lifetime in range reaches the server unchanged. -/
theorem toMillis_mul {ttl : Nat} (h : TtlInRange ttl) (hd : nanosPerMilli ∣ ttl) :
    toMillis ttl < 2 ^ 53 ∧ toMillis ttl * nanosPerMilli = ttl := by
  obtain ⟨n, rfl⟩ := hd
  have hn : nanosPerMilli * n / nanosPerMilli = n := by
    rw [Nat.mul_div_cancel_left n (by decide)]
  have hlt : n < 2 ^ 53 := by
    have := h.2
    rw [Nat.mul_comm (2 ^ 53)] at this
    exact Nat.lt_of_mul_lt_mul_left this
  have hmin : toMillis (nanosPerMilli * n) = n := by
    rw [toMillis, hn]
    omega
  rw [hmin]
  exact ⟨hlt, Nat.mul_comm n nanosPerMilli⟩

/-- An encoded record is not the empty success code. -/
theorem RouteRecord.encode_isEmpty (record : RouteRecord) : record.encode.isEmpty = false := by
  simp [encode, fields, List.intercalate_cons_cons]

/-- What the two tables show from an instant on is the same, and it is tab-free. -/
structure Agree (registry : RedisRegistry) (now : Nat) (map : MemoryRegistry)
    (store : RedisStore) : Prop where
  shown : ∀ key, store.live now (registry.key key) =
    (map.evictExpired now key).map fun entry => (entry.1.encode, entry.2)
  tabFree : ∀ key record expiry, map key = some (record, expiry) → record.TabFree

namespace Agree

variable {registry : RedisRegistry} {now later : Nat} {map : MemoryRegistry} {store : RedisStore}

theorem new (registry : RedisRegistry) : Agree registry 0 MemoryRegistry.new RedisStore.new where
  shown _ := rfl
  tabFree _ _ _ h := by cases h

/-- Entries run out in both tables at the same time. -/
theorem mono (h : Agree registry now map store) (hle : now ≤ later) :
    Agree registry later map store := by
  refine ⟨fun key => ?_, h.tabFree⟩
  have hshown := congrArg (fun entry => entry.filter fun e => decide (later < e.2)) (h.shown key)
  have hstore : ((store.live now (registry.key key)).filter fun e => decide (later < e.2)) =
      store.live later (registry.key key) := by
    rw [RedisStore.live, RedisStore.live, Option.filter_filter]
    congr 1
    funext entry
    rw [← Bool.decide_and, decide_eq_decide]
    omega
  have hmap : ((map.evictExpired now key).map fun e => (e.1.encode, e.2)).filter
      (fun e => decide (later < e.2)) =
      (map.evictExpired later key).map fun e => (e.1.encode, e.2) := by
    rw [Option.filter_map, MemoryRegistry.evictExpired, MemoryRegistry.evictExpired,
      Option.filter_filter]
    congr 2
    funext entry
    simp only [Function.comp_apply]
    rw [← Bool.decide_and, decide_eq_decide]
    omega
  rw [← hstore, ← hmap]
  exact hshown

/-- Eviction changes nothing that is shown. -/
theorem evict (h : Agree registry now map store) :
    Agree registry now (map.evictExpired now) store := by
  refine ⟨fun key => ?_, fun key record expiry hk => ?_⟩
  · rw [h.shown key]
    congr 1
    simp [MemoryRegistry.evictExpired, Option.filter_filter]
  · exact h.tabFree key record expiry (MemoryRegistry.evictExpired_eq_some.mp hk).1

/-- Keys of the server are distinct for distinct routing keys. -/
theorem key_ne {key other : Text} (h : other ≠ key) : registry.key other ≠ registry.key key :=
  fun he => h (List.append_cancel_left he)

/-- Giving a key the same entry in both tables, or removing it from both. -/
theorem update (h : Agree registry now map store) (key : Text) (entry : Option (RouteRecord × Nat))
    (hfree : ∀ record expiry, entry = some (record, expiry) → record.TabFree) :
    Agree registry now (Function.update map key entry)
      (Function.update store (registry.key key) (entry.map fun e => (e.1.encode, e.2))) := by
  refine ⟨fun other => ?_, fun other record expiry hk => ?_⟩
  · by_cases ho : other = key
    · subst ho
      rw [RedisStore.live, MemoryRegistry.evictExpired, Function.update_self, Function.update_self,
        Option.filter_map]
      rfl
    · have hs := h.shown other
      rw [RedisStore.live, MemoryRegistry.evictExpired] at hs ⊢
      rwa [Function.update_of_ne ho, Function.update_of_ne (key_ne ho)]
  · rw [Function.update_apply] at hk
    split at hk
    · exact hfree record expiry hk
    · exact h.tabFree other record expiry hk

/-- The server's answer for a key, read off the in-memory table. -/
theorem get_eq (h : Agree registry now map store) (key : Text) :
    store.get now (registry.key key) =
      (map.evictExpired now key).map fun entry => entry.1.encode := by
  rw [RedisStore.get, h.shown key, Option.map_map]
  rfl

/-- A record that is shown has its owner where the scripts look for it. -/
theorem owner_eq (h : Agree registry now map store) {key : Text} {record : RouteRecord}
    {expiry : Nat} (hk : map.evictExpired now key = some (record, expiry)) :
    matchOwner record.encode = some record.sessionId ∧
      RouteRecord.decode record.encode = .ok record := by
  have hfree := h.evict.tabFree key record expiry hk
  exact ⟨matchOwner_encode hfree, (RouteRecord.decode_encode_iff record).mpr hfree⟩

/-- Forgetting an entry that is not shown. -/
theorem forget (h : Agree registry now map store) {key : Text}
    (hk : map.evictExpired now key = none) :
    Agree registry now (Function.update map key none) store := by
  refine ⟨fun other => ?_, fun other record expiry ho => ?_⟩
  · rw [h.shown other]
    by_cases ho : other = key
    · subst ho
      rw [hk, MemoryRegistry.evictExpired, Function.update_self]
      rfl
    · rw [MemoryRegistry.evictExpired, MemoryRegistry.evictExpired, Function.update_of_ne ho]
  · rw [Function.update_apply] at ho
    split at ho
    · cases ho
    · exact h.tabFree other record expiry ho

/-- A lookup has the same outcome in both tables. -/
theorem lookup (h : Agree registry now map store) (key : Text) :
    (registry.perform store now (.lookup key)).2 = .ok (map.perform ⟨now, now⟩ (.lookup key)).2 ∧
      Agree registry now (map.perform ⟨now, now⟩ (.lookup key)).1
        (registry.perform store now (.lookup key)).1 := by
  refine ⟨?_, h.evict⟩
  have hget := h.get_eq key
  cases hm : map.evictExpired now key with
  | none =>
    rw [hm, Option.map_none] at hget
    simp only [RedisRegistry.perform, MemoryRegistry.perform, MemoryRegistry.lookup, hget, hm]
    rfl
  | some entry =>
    obtain ⟨record, expiry⟩ := entry
    rw [hm, Option.map_some] at hget
    obtain ⟨-, hdecode⟩ := h.owner_eq hm
    simp only [RedisRegistry.perform, MemoryRegistry.perform, MemoryRegistry.lookup, hget, hm,
      hdecode]
    rfl

/-- A release leaves both tables showing the same. The in-memory one may still find an entry that
has run out. -/
theorem release (h : Agree registry now map store) (key sessionId : Text) :
    Agree registry now (map.release key sessionId)
      (RedisRegistry.releaseScript store now (registry.key key) sessionId).1 := by
  have hget := h.get_eq key
  cases hm : map.evictExpired now key with
  | none =>
    rw [hm, Option.map_none] at hget
    simp only [RedisRegistry.releaseScript, hget]
    rcases MemoryRegistry.release_cases map key sessionId with ⟨_, _, _, _, hs⟩ | ⟨-, hs⟩
    · rw [hs]
      exact h.forget hm
    · rw [hs]
      exact h
  | some entry =>
    obtain ⟨record, expiry⟩ := entry
    rw [hm, Option.map_some] at hget
    obtain ⟨howner, -⟩ := h.owner_eq hm
    have hk := (MemoryRegistry.evictExpired_eq_some.mp hm).1
    by_cases hown : record.sessionId = sessionId
    · simp only [RedisRegistry.releaseScript, MemoryRegistry.release, hget, howner, hk, hown, ne_eq,
        not_true_eq_false, if_false, if_true]
      exact h.update key none (by simp)
    · have hne : ¬ some record.sessionId = some sessionId := by simp [hown]
      simp only [RedisRegistry.releaseScript, MemoryRegistry.release, hget, howner, hk, hown, hne,
        ne_eq, not_false_eq_true, if_true, if_false]
      exact h

section Calls

variable (hnum : ∀ n < 2 ^ 53, registry.toNumber n = n)

include hnum

/-- A claim has the same outcome in both tables. -/
theorem claim (h : Agree registry now map store) {record : RouteRecord} {ttl : Nat}
    (hfree : record.TabFree) (hrange : TtlInRange ttl) (hwhole : nanosPerMilli ∣ ttl) :
    (registry.perform store now (.claim record ttl)).2 =
        .ok (map.perform ⟨now, now⟩ (.claim record ttl)).2 ∧
      Agree registry now (map.perform ⟨now, now⟩ (.claim record ttl)).1
        (registry.perform store now (.claim record ttl)).1 := by
  obtain ⟨hlt, hmillis⟩ := toMillis_mul hrange hwhole
  have hset : store.setPx now (registry.key record.routingKey) record.encode
      (registry.toNumber (toMillis ttl)) = Function.update store (registry.key record.routingKey)
        (some (record.encode, now + ttl)) := by
    rw [RedisStore.setPx, hnum _ hlt, hmillis]
  have hstored := h.evict.update record.routingKey (some (record, now + ttl)) (by
    intro record' expiry he
    obtain ⟨rfl, -⟩ := Prod.mk.inj (Option.some.inj he)
    exact hfree)
  have hget := h.get_eq record.routingKey
  cases hm : map.evictExpired now record.routingKey with
  | none =>
    rw [hm, Option.map_none] at hget
    have hscript : registry.claimScript store now (registry.key record.routingKey) record.encode
        (toMillis ttl) record.sessionId = (Function.update store (registry.key record.routingKey)
          (some (record.encode, now + ttl)), []) := by
      simp only [RedisRegistry.claimScript, hget, hset]
    simp only [RedisRegistry.perform, MemoryRegistry.perform, MemoryRegistry.claim, hscript, hm]
    exact ⟨rfl, hstored⟩
  | some entry =>
    obtain ⟨existing, expiry⟩ := entry
    rw [hm, Option.map_some] at hget
    obtain ⟨howner, hdecode⟩ := h.owner_eq hm
    by_cases hown : existing.sessionId = record.sessionId
    · have hscript : registry.claimScript store now (registry.key record.routingKey) record.encode
          (toMillis ttl) record.sessionId = (Function.update store (registry.key record.routingKey)
            (some (record.encode, now + ttl)), []) := by
        simp [RedisRegistry.claimScript, hget, hset, howner, hown]
      simp only [RedisRegistry.perform, MemoryRegistry.perform, MemoryRegistry.claim, hscript, hm,
        hown, ne_eq, not_true_eq_false, if_false]
      exact ⟨rfl, hstored⟩
    · have hscript : registry.claimScript store now (registry.key record.routingKey) record.encode
          (toMillis ttl) record.sessionId = (store, existing.encode) := by
        simp [RedisRegistry.claimScript, hget, howner, hown]
      simp only [RedisRegistry.perform, MemoryRegistry.perform, MemoryRegistry.claim, hscript, hm,
        hown, ne_eq, not_false_eq_true, if_true, RouteRecord.encode_isEmpty, hdecode]
      exact ⟨rfl, h.evict⟩

/-- A renewal has the same outcome in both tables. -/
theorem renew (h : Agree registry now map store) (key sessionId : Text) {ttl : Nat}
    (hrange : TtlInRange ttl) (hwhole : nanosPerMilli ∣ ttl) :
    (registry.perform store now (.renew key sessionId ttl)).2 =
        .ok (map.perform ⟨now, now⟩ (.renew key sessionId ttl)).2 ∧
      Agree registry now (map.perform ⟨now, now⟩ (.renew key sessionId ttl)).1
        (registry.perform store now (.renew key sessionId ttl)).1 := by
  obtain ⟨hlt, hmillis⟩ := toMillis_mul hrange hwhole
  have hget := h.get_eq key
  have hlive := h.shown key
  cases hm : map.evictExpired now key with
  | none =>
    rw [hm, Option.map_none] at hget
    simp only [RedisRegistry.perform, MemoryRegistry.perform, MemoryRegistry.renew,
      RedisRegistry.renewScript, hget, hm]
    exact ⟨rfl, h.evict⟩
  | some entry =>
    obtain ⟨record, expiry⟩ := entry
    rw [hm, Option.map_some] at hget hlive
    obtain ⟨howner, -⟩ := h.owner_eq hm
    by_cases hown : record.sessionId = sessionId
    · have hexpire : store.pexpire now (registry.key key) (registry.toNumber (toMillis ttl)) =
          Function.update store (registry.key key) (some (record.encode, now + ttl)) := by
        rw [RedisStore.pexpire, hlive]
        simp only [hnum _ hlt, hmillis]
      simp only [RedisRegistry.perform, MemoryRegistry.perform, MemoryRegistry.renew,
        RedisRegistry.renewScript, hget, hm, howner, hown, ne_eq, not_true_eq_false, if_false,
        if_true, hexpire]
      refine ⟨rfl, h.evict.update key (some (record, now + ttl)) ?_⟩
      intro record' expiry' he
      obtain ⟨rfl, -⟩ := Prod.mk.inj (Option.some.inj he)
      exact h.evict.tabFree key record expiry hm
    · have hne : ¬ some record.sessionId = some sessionId := by simp [hown]
      simp only [RedisRegistry.perform, MemoryRegistry.perform, MemoryRegistry.renew,
        RedisRegistry.renewScript, hget, hm, howner, hown, hne, ne_eq, not_false_eq_true, if_false,
        if_true]
      exact ⟨rfl, h.evict⟩

/-- Every call has the same outcome in both tables. -/
theorem perform (h : Agree registry now map store) {op : RegistryOp} (hrange : op.InRange)
    (hwhole : op.WholeMillis) :
    (registry.perform store now op).2 = .ok (map.perform ⟨now, now⟩ op).2 ∧
      Agree registry now (map.perform ⟨now, now⟩ op).1 (registry.perform store now op).1 := by
  cases op with
  | claim record ttl => exact h.claim hnum hrange.1 hrange.2 hwhole
  | lookup key => exact h.lookup key
  | renew key sessionId ttl => exact h.renew hnum key sessionId hrange hwhole
  | release key sessionId => exact ⟨rfl, h.release key sessionId⟩

/-- Tables that show the same reply the same from then on. -/
theorem replies (h : Agree registry now map store) {calls : List (Nat × RegistryOp)}
    (htime : (calls.map Prod.fst).Pairwise (· ≤ ·)) (hstart : ∀ call ∈ calls, now ≤ call.1)
    (hrange : ∀ call ∈ calls, call.2.InRange) (hwhole : ∀ call ∈ calls, call.2.WholeMillis) :
    registry.replies store calls = (map.replies calls).map .ok := by
  induction calls generalizing now map store with
  | nil => rfl
  | cons call calls ih =>
    obtain ⟨time, op⟩ := call
    rw [List.map_cons, List.pairwise_cons] at htime
    rw [List.forall_mem_cons] at hstart hrange hwhole
    obtain ⟨hreply, hagree⟩ := (h.mono hstart.1).perform hnum hrange.1 hwhole.1
    have hrest := ih hagree htime.2 (fun call hc => htime.1 _ (List.mem_map_of_mem hc)) hrange.2
      hwhole.2
    rw [RedisRegistry.replies, MemoryRegistry.replies, List.map_cons, hreply, hrest]

end Calls

end Agree

/-- For every sequence of calls at non-decreasing times, with tab-free records and lifetimes of a
whole number of milliseconds in range, the Redis table replies what the in-memory one does. -/
theorem redis_replies_eq (registry : RedisRegistry)
    (hnum : ∀ n < 2 ^ 53, registry.toNumber n = n) (calls : List (Nat × RegistryOp))
    (htime : (calls.map Prod.fst).Pairwise (· ≤ ·)) (hrange : ∀ call ∈ calls, call.2.InRange)
    (hwhole : ∀ call ∈ calls, call.2.WholeMillis) :
    registry.replies RedisStore.new calls = (MemoryRegistry.new.replies calls).map .ok :=
  (Agree.new registry).replies hnum htime (fun _ _ => Nat.zero_le _) hrange hwhole

/-- A record of the session with this id. -/
def testRecord (sessionId : Text) : RouteRecord :=
  ⟨"api.tunnel.com".toList, "node_a".toList, "10.0.0.1:7100".toList, sessionId, "tun_1".toList,
    "acct_1".toList⟩

/-- A server with the default prefix. -/
def testRegistry : RedisRegistry := ⟨"norupo:".toList, id⟩

/-- A claim for a millisecond and a half, looked up after its first millisecond. -/
def fractional : List (Nat × RegistryOp) :=
  [(0, .claim (testRecord "sess_1".toList) 1500000), (1200000, .lookup "api.tunnel.com".toList)]

/-- Two sessions contend for a key, and the first loses it at its expiry. -/
def contended : List (Nat × RegistryOp) :=
  [(0, .claim (testRecord "sess_1".toList) 30000000),
    (1000000, .claim (testRecord "sess_2".toList) 30000000),
    (20000000, .renew "api.tunnel.com".toList "sess_1".toList 30000000),
    (50000000, .claim (testRecord "sess_2".toList) 30000000),
    (50000000, .lookup "api.tunnel.com".toList)]

theorem redis_replies_contended :
    testRegistry.replies RedisStore.new contended =
      [.ok (.claimed .acquired), .ok (.claimed (.taken (testRecord "sess_1".toList))),
        .ok (.renewed true), .ok (.claimed .acquired),
        .ok (.found (some (testRecord "sess_2".toList)))] := by
  rw [redis_replies_eq testRegistry (fun _ _ => rfl) contended (by decide) (by decide) (by decide)]
  rfl

/-- The server drops the fraction of a millisecond, so its entry runs out earlier. -/
theorem redis_replies_fractional :
    ¬ ∀ (registry : RedisRegistry) (calls : List (Nat × RegistryOp)),
      (∀ n < 2 ^ 53, registry.toNumber n = n) → (calls.map Prod.fst).Pairwise (· ≤ ·) →
      (∀ call ∈ calls, call.2.InRange) →
      registry.replies RedisStore.new calls = (MemoryRegistry.new.replies calls).map .ok := by
  intro h
  have heq := h testRegistry fractional (fun _ _ => rfl) (by decide) (by decide)
  cases heq

end Norupo
