import Norupo.Foundation.Sharing
import Norupo.Registry.Redis

/-!
# Environments on one Redis server

`redis_prefix` of `norupo-server/src/config.rs` is there so that several environments can share one
Redis. Every call works on a single key of the server, which begins with the prefix of the calling
environment and `route:`. Environments stay apart as long as their prefixes are distinct and none of
them goes on where another one puts its `route:`.
-/

namespace Norupo

open Sharing Text

/-- The routing key that a call is about. -/
def RegistryOp.routingKey : RegistryOp → Text
  | .claim record _ => record.routingKey
  | .lookup key | .renew key _ _ | .release key _ => key

namespace RedisRegistry

variable (registry : RedisRegistry) (now : Nat) (op : RegistryOp)

/-- What a call makes of the entry of its key, and what it replies. -/
def onEntry (entry : Option (Text × Nat)) : Option (Text × Nat) × Except Error RegistryReply :=
  let (store, reply) := registry.perform (fun _ => entry) now op
  (store (registry.key op.routingKey), reply)

section Entries

variable {registry : RedisRegistry} {now : Nat} {store : RedisStore} {key : Text}

/-- What the server answers for a key, from its entry alone. -/
theorem get_entry (other : Text) :
    RedisStore.get (fun _ => store key) now other = store.get now key :=
  rfl

theorem live_entry (other : Text) :
    RedisStore.live (fun _ => store key) now other = store.live now key := rfl

/-- All calls are single-key. -/
theorem perform_eq_onEntry (op : RegistryOp) :
    registry.perform store now op =
      (Function.update store (registry.key op.routingKey)
        (registry.onEntry now op (store (registry.key op.routingKey))).1,
      (registry.onEntry now op (store (registry.key op.routingKey))).2) := by
  cases hg : store.get now (registry.key op.routingKey) with
  | none =>
    cases op <;> simp only [RegistryOp.routingKey] at hg
    all_goals simp [perform, onEntry, RegistryOp.routingKey, claimScript, renewScript,
      releaseScript, get_entry, hg, RedisStore.setPx]
  | some current =>
    cases op with
    | lookup key => simp [perform, onEntry, RegistryOp.routingKey, get_entry]
    | claim record ttl =>
      simp only [RegistryOp.routingKey] at hg
      by_cases ho : matchOwner current = some record.sessionId <;>
        simp [perform, onEntry, RegistryOp.routingKey, claimScript, get_entry, hg, ho,
          RedisStore.setPx]
    | renew key sessionId ttl =>
      simp only [RegistryOp.routingKey] at hg
      obtain ⟨⟨value, expiry⟩, hl, rfl⟩ := Option.map_eq_some_iff.mp hg
      by_cases ho : matchOwner value = some sessionId <;>
        simp [perform, onEntry, RegistryOp.routingKey, renewScript, get_entry, hg, ho,
          RedisStore.pexpire, live_entry, hl]
    | release key sessionId =>
      simp only [RegistryOp.routingKey] at hg
      by_cases ho : matchOwner current = some sessionId <;>
        simp [perform, onEntry, RegistryOp.routingKey, releaseScript, get_entry, hg, ho,
          RedisStore.del]

end Entries

end RedisRegistry

section Sharing

variable {ι : Type*} (environment : ι → RedisRegistry)

/-- A call that an environment makes at a time. -/
def sharedCall (i : ι) (store : RedisStore) (call : Nat × RegistryOp) :
    RedisStore × Except Error RegistryReply := (environment i).perform store call.1 call.2

/-- Two servers show an environment the same entries. -/
def SameRoutes (i : ι) (store other : RedisStore) : Prop :=
  ∀ key, store ((environment i).key key) = other ((environment i).key key)

/-- No environment has a key of another one. -/
def KeysApart : Prop :=
  ∀ i j, i ≠ j → ∀ key other, (environment i).key key ≠ (environment j).key other

variable {environment}

theorem KeysApart.separate (h : KeysApart environment) :
    Separate (sharedCall environment) (SameRoutes environment) where
  reply i store other call hs := by
    rw [sharedCall, sharedCall, RedisRegistry.perform_eq_onEntry,
      RedisRegistry.perform_eq_onEntry, hs]
  next i store other call hs key := by
    simp only [sharedCall, RedisRegistry.perform_eq_onEntry, Function.update_apply, hs _]
  others i j store other call hij hs key := by
    simp only [sharedCall, RedisRegistry.perform_eq_onEntry]
    rw [Function.update_of_ne (h i j hij _ _), hs]

theorem solo_sharedCall (i : ι) (store : RedisStore) (calls : List (Nat × RegistryOp)) :
    solo (sharedCall environment i) store calls = (environment i).replies store calls := by
  induction calls generalizing store with
  | nil => rfl
  | cons call calls ih => rw [solo, RedisRegistry.replies, ih]; rfl

/-- The environments of a server have prefixes that keep their keys apart. -/
theorem keysApart_iff : KeysApart environment ↔
    ∀ i j, i ≠ j → ¬ (environment i).key [] <+: (environment j).key [] := by
  constructor
  · rintro h i j hij ⟨rest, hrest⟩
    refine h i j hij rest [] ?_
    rw [← hrest]
    simp [RedisRegistry.key]
  · intro h i j hij key other he
    -- Of two beginnings of one key, one begins the other.
    have hi : (environment i).key [] <+: (environment i).key key :=
      ⟨key, by simp [RedisRegistry.key]⟩
    have hj : (environment j).key [] <+: (environment i).key key :=
      ⟨other, by rw [he]; simp [RedisRegistry.key]⟩
    exact (List.prefix_or_prefix_of_prefix hi hj).elim (h i j hij) (h j i hij.symm)

/-- A prefix with its `route:` begins another one with its own exactly if the prefixes are the same
or the first goes on with its `route:` inside the second. -/
theorem key_isPrefix_iff {first second : RedisRegistry} :
    first.key [] <+: second.key [] ↔
      first.keyPrefix = second.keyPrefix ∨
        first.keyPrefix ++ "route:".toList <+: second.keyPrefix := by
  obtain ⟨mine, _⟩ := first
  obtain ⟨theirs, _⟩ := second
  simp only [RedisRegistry.key, List.append_nil]
  constructor
  · intro h
    have hlen : mine.length ≤ theirs.length := by simpa using h.length_le
    obtain ⟨rest, rfl⟩ : mine <+: theirs :=
      List.prefix_of_prefix_length_le ((List.prefix_append _ _).trans h)
        (List.prefix_append _ _) hlen
    rw [List.append_assoc, List.prefix_append_right_inj] at h
    rcases List.prefix_or_prefix_of_prefix h (List.prefix_append rest _) with hm | hr
    · exact .inr ((List.prefix_append_right_inj mine).mpr hm)
    · -- The word has no proper beginning that is also an end of it.
      have hword : ∀ k < 6, "route:".toList <+: "route:".toList.take k ++ "route:".toList →
          k = 0 := by decide
      have htake : rest = "route:".toList.take rest.length := List.prefix_iff_eq_take.mp hr
      by_cases hlt : rest.length < 6
      · rw [htake] at h
        have hzero := hword rest.length hlt h
        exact .inl (by rw [List.eq_nil_of_length_eq_zero hzero, List.append_nil])
      · rw [List.take_of_length_le (by simpa using hlt)] at htake
        exact .inr (htake ▸ List.prefix_rfl)
  · rintro (rfl | h)
    · exact List.prefix_rfl
    · exact h.trans (List.prefix_append _ _)

theorem keysApart_iff_prefixes (environment : ι → RedisRegistry) : KeysApart environment ↔
    ∀ i j, i ≠ j → (environment i).keyPrefix ≠ (environment j).keyPrefix ∧
      ¬ (environment i).keyPrefix ++ "route:".toList <+: (environment j).keyPrefix := by
  rw [keysApart_iff]
  simp only [key_isPrefix_iff, not_or, ne_eq]

/-- A claim is found by a lookup of whoever has a name for its key. -/
theorem found_of_claim {first second : RedisRegistry} (hnum : ∀ n < 2 ^ 53, first.toNumber n = n)
    (record : RouteRecord) {key : Text} (hkey : first.key record.routingKey = second.key key) :
    (second.perform (first.perform RedisStore.new 0 (.claim record nanosPerMilli)).1 0
      (.lookup key)).2 =
        (RouteRecord.decode record.encode).map fun record => .found (some record) := by
  have hmillis : first.toNumber (toMillis nanosPerMilli) = 1 := hnum 1 (by decide)
  have hclaim : (first.perform RedisStore.new 0 (.claim record nanosPerMilli)).1 =
      Function.update RedisStore.new (second.key key) (some (record.encode, nanosPerMilli)) := by
    simp [RedisRegistry.perform, RedisRegistry.claimScript, RedisStore.get, RedisStore.live,
      RedisStore.new, RedisStore.setPx, hmillis, hkey]
  have hget : RedisStore.get (Function.update RedisStore.new (second.key key)
      (some (record.encode, nanosPerMilli))) 0 (second.key key) = some record.encode := by
    simp [RedisStore.get, RedisStore.live, nanosPerMilli]
  rw [hclaim]
  simp only [RedisRegistry.perform, hget]

section Environments

variable [DecidableEq ι] (environment)

/-- Every environment on a shared server gets the replies that it would get from a server of its
own, in all interleavings of all calls, exactly if the prefixes are distinct and none goes on with
`route:` inside another. -/
theorem environments_apart_iff (hnum : ∀ i, ∀ n < 2 ^ 53, (environment i).toNumber n = n) :
    (∀ calls i, own i (replies (sharedCall environment) RedisStore.new calls) =
      (environment i).replies RedisStore.new (own i calls)) ↔
    ∀ i j, i ≠ j → (environment i).keyPrefix ≠ (environment j).keyPrefix ∧
      ¬ (environment i).keyPrefix ++ "route:".toList <+: (environment j).keyPrefix := by
  rw [← keysApart_iff_prefixes]
  constructor
  · rw [keysApart_iff]
    rintro h i j hij ⟨rest, hrest⟩
    -- A record that one environment claims is found by the other under a longer key.
    have hkey : (environment j).key (testRecord []).routingKey =
        (environment i).key (rest ++ (testRecord []).routingKey) := by
      have hj := congrArg (· ++ (testRecord []).routingKey) hrest
      simpa [RedisRegistry.key] using hj.symm
    have hfound := found_of_claim (hnum j) (testRecord []) hkey
    have hreplies := h [(j, 0, .claim (testRecord []) nanosPerMilli),
      (i, 0, .lookup (rest ++ (testRecord []).routingKey))] i
    rw [replies, replies, own_cons_of_ne hij.symm, own_cons_self, own_cons_of_ne hij.symm,
      own_cons_self] at hreplies
    obtain ⟨hreply, -⟩ := List.cons.inj hreplies
    rw [sharedCall, sharedCall, hfound] at hreply
    cases hreply
  · intro h calls i
    rw [h.separate.own_replies (fun _ => rfl) calls, solo_sharedCall]

/-- A server shared by environments that are apart is a table in memory for each of them: in every
interleaving of calls at non-decreasing times, with tab-free records and lifetimes of a whole number
of milliseconds in range, an environment gets the replies of an in-memory table that only it
uses. -/
theorem environments_as_tables (hnum : ∀ i, ∀ n < 2 ^ 53, (environment i).toNumber n = n)
    (hapart : ∀ i j, i ≠ j → (environment i).keyPrefix ≠ (environment j).keyPrefix ∧
      ¬ (environment i).keyPrefix ++ "route:".toList <+: (environment j).keyPrefix)
    (calls : List (ι × Nat × RegistryOp))
    (htime : (calls.map fun call => call.2.1).Pairwise (· ≤ ·))
    (hrange : ∀ call ∈ calls, call.2.2.InRange) (hwhole : ∀ call ∈ calls, call.2.2.WholeMillis)
    (i : ι) :
    own i (replies (sharedCall environment) RedisStore.new calls) =
      (MemoryRegistry.new.replies (own i calls)).map .ok := by
  have hsub := own_sublist i calls
  have hmem {call : Nat × RegistryOp} (hc : call ∈ own i calls) :
      ∃ j, (j, call) ∈ calls := by
    obtain ⟨⟨j, other⟩, hm, rfl⟩ := List.mem_map.mp (hsub.subset hc)
    exact ⟨j, hm⟩
  have htimes : ((own i calls).map Prod.fst).Pairwise (· ≤ ·) := by
    refine List.Pairwise.sublist (hsub.map Prod.fst) ?_
    rwa [List.map_map]
  have hkeys : KeysApart environment := (keysApart_iff_prefixes environment).mpr hapart
  rw [hkeys.separate.own_replies (fun _ => rfl) calls, solo_sharedCall]
  refine (Agree.new (environment i)).replies (hnum i) htimes (fun _ _ => Nat.zero_le _) ?_ ?_
  · intro call hc
    obtain ⟨j, hm⟩ := hmem hc
    exact hrange _ hm
  · intro call hc
    obtain ⟨j, hm⟩ := hmem hc
    exact hwhole _ hm

end Environments

/-- A staging environment beside one with the default prefix. -/
def twoEnvironments : Bool → RedisRegistry
  | true => ⟨"staging:".toList, id⟩
  | false => testRegistry

/-- Two environments that are apart, and two that are not. -/
theorem environments_apart_staging :
    (∀ calls i, own i (replies (sharedCall twoEnvironments) RedisStore.new calls) =
      (twoEnvironments i).replies RedisStore.new (own i calls)) ∧
    ¬ ∀ calls i, own i (replies (sharedCall fun nested : Bool =>
          ⟨if nested then "norupo:route:eu.".toList else "norupo:".toList, id⟩)
        RedisStore.new calls) =
      RedisRegistry.replies ⟨if i then "norupo:route:eu.".toList else "norupo:".toList, id⟩
        RedisStore.new (own i calls) := by
  constructor
  · refine (environments_apart_iff twoEnvironments ?_).mpr (by decide)
    intro i n _
    cases i <;> rfl
  · intro h
    have hapart := (environments_apart_iff (fun nested : Bool =>
      ⟨if nested then "norupo:route:eu.".toList else "norupo:".toList, id⟩)
      (fun _ _ _ => rfl)).mp h
    exact absurd hapart (by decide)

/-- Both environments claim the same host and keep it. -/
def sharedHost : List (Bool × Nat × RegistryOp) :=
  [(true, 0, .claim (testRecord "sess_1".toList) 30000000),
    (false, 1000000, .claim (testRecord "sess_2".toList) 30000000),
    (true, 2000000, .lookup "api.tunnel.com".toList),
    (false, 2000000, .lookup "api.tunnel.com".toList)]

theorem environments_as_tables_shared :
    own true (replies (sharedCall twoEnvironments) RedisStore.new sharedHost) =
      [.ok (.claimed .acquired), .ok (.found (some (testRecord "sess_1".toList)))] ∧
    own false (replies (sharedCall twoEnvironments) RedisStore.new sharedHost) =
      [.ok (.claimed .acquired), .ok (.found (some (testRecord "sess_2".toList)))] := by
  have htables := environments_as_tables twoEnvironments
    (by intro i n _; cases i <;> rfl) (by decide) sharedHost (by decide) (by decide) (by decide)
  rw [htables true, htables false]
  exact ⟨rfl, rfl⟩

end Sharing

end Norupo
