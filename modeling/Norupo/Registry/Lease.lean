import Norupo.Foundation.Since
import Norupo.Registry.Memory

/-!
# Leases read off a history of calls

A history records every call on the table with its clock readings and its reply. Who holds a key at
a moment is defined on the history alone: the record of the last successful claim, as long as the
last successful claim or renewal by its session has not run out and has not been released. The
stored expiry is linked to the history by an invariant of the four operations. Eviction is lazy: the
table may still hold an entry whose lease is over, and drops one only when it has run out.
-/

namespace Norupo

open History

/-- The calls of the `Registry` trait, with their arguments. -/
inductive RegistryOp
  | claim (record : RouteRecord) (ttl : Nat)
  | lookup (routingKey : Text)
  | renew (routingKey sessionId : Text) (ttl : Nat)
  | release (routingKey sessionId : Text)
  deriving DecidableEq, Repr

/-- What a call returns. -/
inductive RegistryReply
  | claimed (outcome : Claim)
  | found (record : Option RouteRecord)
  | renewed (owned : Bool)
  | released
  deriving DecidableEq, Repr

/-- A completed call: when, what, and what it returned. -/
structure RegistryEvent where
  clock : Clock
  op : RegistryOp
  reply : RegistryReply
  deriving DecidableEq, Repr

/-- Perform one call under the lock. -/
def MemoryRegistry.perform (map : MemoryRegistry) (clock : Clock) :
    RegistryOp → MemoryRegistry × RegistryReply
  | .claim record ttl => (map.claim record ttl clock).map id .claimed
  | .lookup key => (map.lookup key clock).map id .found
  | .renew key sessionId ttl => (map.renew key sessionId ttl clock).map id .renewed
  | .release key sessionId => (map.release key sessionId, .released)

/-- Calls executed one at a time on a fresh table under a non-decreasing clock, oldest first,
with the table they leave and the last clock reading. -/
inductive RegistryHistory : MemoryRegistry → List RegistryEvent → Nat → Prop
  | nil : RegistryHistory MemoryRegistry.new [] 0
  | snoc {map events last} (clock : Clock) (op : RegistryOp) :
      RegistryHistory map events last → last ≤ clock.now → clock.now ≤ clock.stamp →
      RegistryHistory (map.perform clock op).1
        (events ++ [⟨clock, op, (map.perform clock op).2⟩]) clock.stamp

/-- The event is a successful claim of the key by this record. -/
def RegistryEvent.Acquires (key : Text) (record : RouteRecord) (e : RegistryEvent) : Prop :=
  record.routingKey = key ∧ e.reply = .claimed .acquired ∧ ∃ ttl, e.op = .claim record ttl

/-- The event is a successful claim or renewal of the key by the session, at `u` for `d`. -/
def RegistryEvent.Refreshes (key sessionId : Text) (lease : Nat × Nat) (e : RegistryEvent) :
    Prop :=
  e.clock.stamp = lease.1 ∧
    ((∃ record, e.op = .claim record lease.2 ∧ record.routingKey = key ∧
        record.sessionId = sessionId ∧ e.reply = .claimed .acquired) ∨
      (e.op = .renew key sessionId lease.2 ∧ e.reply = .renewed true))

/-- The event is a release of the key by the session. -/
def RegistryEvent.Releases (key sessionId : Text) (e : RegistryEvent) : Prop :=
  e.op = .release key sessionId

/-- The record is that of the latest successful claim on the key. -/
def LastClaim (key : Text) (record : RouteRecord) (events : List RegistryEvent) : Prop :=
  Since (RegistryEvent.Acquires key record)
    (fun e => ∃ record', RegistryEvent.Acquires key record' e) events

/-- The session's last successful claim or renewal of the key was at `u` for `d`, and the session
has not released the key since. -/
def LastRefresh (key sessionId : Text) (lease : Nat × Nat) (events : List RegistryEvent) : Prop :=
  Since (RegistryEvent.Refreshes key sessionId lease)
    (fun e => (∃ lease', RegistryEvent.Refreshes key sessionId lease' e) ∨
      RegistryEvent.Releases key sessionId e) events

/-- The lease on a key at time `t`, as the history defines it. -/
def LeaseHeld (key : Text) (record : RouteRecord) (t : Nat) (events : List RegistryEvent) : Prop :=
  LastClaim key record events ∧
    ∃ u d, t < u + d ∧ LastRefresh key record.sessionId (u, d) events

/-- An event refreshes a session's lease in one way only. -/
theorem RegistryEvent.Refreshes.lease_eq {key s : Text} {l l' : Nat × Nat} {e : RegistryEvent}
    (h : e.Refreshes key s l) (h' : e.Refreshes key s l') : l = l' := by
  obtain ⟨hu, hop⟩ := h
  obtain ⟨hu', hop'⟩ := h'
  refine Prod.ext (hu.symm.trans hu') ?_
  rcases hop with ⟨x, hop, -⟩ | ⟨hop, -⟩ <;> rcases hop' with ⟨y, hop', -⟩ | ⟨hop', -⟩ <;>
    · rw [hop] at hop'
      simp_all

/-- There is only one latest successful claim. -/
theorem LastClaim.unique {key : Text} {r r' : RouteRecord} {events : List RegistryEvent}
    (h : LastClaim key r events) (h' : LastClaim key r' events) : r = r' := by
  refine Since.unique (fun e a b ha hb => ?_) h h'
  obtain ⟨-, -, ttl, ha⟩ := ha
  obtain ⟨-, -, ttl', hb⟩ := hb
  exact (RegistryOp.claim.inj (ha.symm.trans hb)).1

/-- The event neither claims nor refreshes the key. -/
def RegistryEvent.Idle (key : Text) (e : RegistryEvent) : Prop :=
  (∀ r, ¬ e.Acquires key r) ∧ ∀ s l, ¬ e.Refreshes key s l

/-- An event that claims nothing leaves the latest claim where it was. -/
theorem lastClaim_snoc_of_idle {key : Text} {r : RouteRecord} {events : List RegistryEvent}
    {e : RegistryEvent} (hq : ∀ r, ¬ e.Acquires key r) :
    LastClaim key r (events ++ [e]) ↔ LastClaim key r events := by
  have hn : ¬ ∃ r, e.Acquires key r := fun ⟨r, hr⟩ => hq r hr
  simp only [LastClaim, since_append_singleton, hq r, hn, false_or, not_false_eq_true, true_and]

/-- An event that refreshes nothing only ends a lease by releasing it. -/
theorem lastRefresh_snoc_of_idle {key s : Text} {l : Nat × Nat} {events : List RegistryEvent}
    {e : RegistryEvent} (hq : ∀ l, ¬ e.Refreshes key s l) :
    LastRefresh key s l (events ++ [e]) ↔ ¬ e.Releases key s ∧ LastRefresh key s l events := by
  have hn : ¬ ∃ l, e.Refreshes key s l := fun ⟨l, hl⟩ => hq l hl
  simp only [LastRefresh, since_append_singleton, hq l, hn, false_or]

/-- The two halves of the invariant at one key. -/
def LeaseAt (map : MemoryRegistry) (events : List RegistryEvent) (last : Nat) (key : Text) :
    Prop :=
  (∀ record expiry, map key = some (record, expiry) →
    LastClaim key record events ∧
      ∃ u d, expiry = u + d ∧ LastRefresh key record.sessionId (u, d) events) ∧
  ∀ record u d, LastClaim key record events → LastRefresh key record.sessionId (u, d) events →
    map key = some (record, u + d) ∨ (map key = none ∧ u + d ≤ last)

/-- At a key that the event does not touch, at most an expired entry disappears. -/
theorem LeaseAt.of_idle {map map' : MemoryRegistry} {events : List RegistryEvent}
    {last now stamp : Nat} {e : RegistryEvent} {key : Text} (h : LeaseAt map events last key)
    (hlast : last ≤ now) (hstamp : now ≤ stamp) (hidle : e.Idle key)
    (hrel : ∀ record expiry, map' key = some (record, expiry) → ¬ e.Releases key record.sessionId)
    (hmap : map' key = map key ∨
      ∃ entry, map key = some entry ∧ entry.2 ≤ now ∧ map' key = none) :
    LeaseAt map' (events ++ [e]) stamp key := by
  constructor
  · intro record expiry hget
    rcases hmap with he | ⟨entry, -, -, hn⟩
    · obtain ⟨hc, u, d, hx, hr⟩ := h.1 record expiry (he ▸ hget)
      exact ⟨(lastClaim_snoc_of_idle hidle.1).mpr hc, u, d, hx,
        (lastRefresh_snoc_of_idle (hidle.2 _)).mpr ⟨hrel record expiry hget, hr⟩⟩
    · rw [hn] at hget
      cases hget
  · intro record u d hc hr
    have hr := ((lastRefresh_snoc_of_idle (hidle.2 _)).mp hr).2
    rcases h.2 record u d ((lastClaim_snoc_of_idle hidle.1).mp hc) hr with hs | ⟨hn, hle⟩
    · rcases hmap with he | ⟨entry, hget, hexp, hn⟩
      · exact Or.inl (he.trans hs)
      · obtain rfl := Option.some.inj (hget.symm.trans hs)
        exact Or.inr ⟨hn, by simp only at hexp; omega⟩
    · rcases hmap with he | ⟨entry, hget, -, -⟩
      · exact Or.inr ⟨he.trans hn, by omega⟩
      · rw [hn] at hget
        cases hget

/-- At a key whose entry the event sets afresh, the lease is the one the event grants. -/
theorem LeaseAt.of_refresh {events : List RegistryEvent} {map' : MemoryRegistry}
    {stamp ttl : Nat} {e : RegistryEvent} {key : Text} {record : RouteRecord}
    (hget : map' key = some (record, stamp + ttl))
    (hclaim : ∀ r, LastClaim key r (events ++ [e]) ↔ r = record)
    (hrefresh : e.Refreshes key record.sessionId (stamp, ttl)) :
    LeaseAt map' (events ++ [e]) stamp key := by
  constructor
  · intro r expiry h
    obtain ⟨rfl, rfl⟩ := Prod.mk.inj (Option.some.inj (hget.symm.trans h))
    exact ⟨(hclaim record).mpr rfl, stamp, ttl, rfl,
      since_append_singleton.mpr (Or.inl hrefresh)⟩
  · intro r u d hc hr
    obtain rfl := (hclaim r).mp hc
    rcases since_append_singleton.mp hr with hr | ⟨hn, -⟩
    · obtain ⟨rfl, rfl⟩ := Prod.mk.inj (hr.lease_eq hrefresh)
      exact Or.inl hget
    · exact (hn (Or.inl ⟨_, hrefresh⟩)).elim

/-- A claim event acquires nothing but its own record. -/
theorem acquires_claim_iff {key : Text} {r record : RouteRecord} {ttl : Nat} {clock : Clock}
    {outcome : Claim} :
    RegistryEvent.Acquires key r ⟨clock, .claim record ttl, .claimed outcome⟩ ↔
      r = record ∧ record.routingKey = key ∧ outcome = .acquired := by
  simp only [RegistryEvent.Acquires, RegistryReply.claimed.injEq, RegistryOp.claim.injEq]
  constructor
  · rintro ⟨hk, ho, ttl', rfl, -⟩
    exact ⟨rfl, hk, ho⟩
  · rintro ⟨rfl, hk, ho⟩
    exact ⟨hk, ho, ttl, rfl, rfl⟩

/-- A claim that fails, or that is for another key, leaves the key alone. -/
theorem idle_claim {key : Text} {record : RouteRecord} {ttl : Nat} {clock : Clock}
    {outcome : Claim} (h : record.routingKey ≠ key ∨ outcome ≠ .acquired) :
    RegistryEvent.Idle key ⟨clock, .claim record ttl, .claimed outcome⟩ := by
  refine ⟨fun r hr => ?_, fun s l hr => ?_⟩
  · obtain ⟨-, hk, ho⟩ := acquires_claim_iff.mp hr
    exact h.elim (fun hne => hne hk) (fun hne => hne ho)
  · rcases hr with ⟨-, ⟨x, hop, hk, -, ho⟩ | ⟨hop, -⟩⟩
    · obtain ⟨rfl, -⟩ := RegistryOp.claim.inj hop
      exact h.elim (fun hne => hne hk) (fun hne => hne (RegistryReply.claimed.inj ho))
    · cases hop

/-- A renewal that fails, or that is for another key, leaves the key alone. -/
theorem idle_renew {key key' s : Text} {ttl : Nat} {clock : Clock} {owned : Bool}
    (h : key' ≠ key ∨ owned = false) :
    RegistryEvent.Idle key ⟨clock, .renew key' s ttl, .renewed owned⟩ := by
  refine ⟨fun r hr => ?_, fun s l hr => ?_⟩
  · obtain ⟨-, hr, -⟩ := hr
    cases hr
  · rcases hr with ⟨-, ⟨x, hop, -⟩ | ⟨hop, ho⟩⟩
    · cases hop
    · obtain ⟨rfl, -, -⟩ := RegistryOp.renew.inj hop
      simp_all

/-- Calls other than claims and renewals grant no lease. -/
theorem idle_of_op {key : Text} {clock : Clock} {op : RegistryOp} {reply : RegistryReply}
    (hc : ∀ record ttl, op ≠ .claim record ttl) (hr : ∀ k s ttl, op ≠ .renew k s ttl) :
    RegistryEvent.Idle key ⟨clock, op, reply⟩ := by
  refine ⟨fun r ⟨_, _, ttl, hop⟩ => hc _ _ hop, fun s l hl => ?_⟩
  rcases hl with ⟨-, ⟨x, hop, -⟩ | ⟨hop, -⟩⟩
  · exact hc _ _ hop
  · exact hr _ _ _ hop

/-- Every call keeps the link between table and history. -/
theorem LeaseAt.perform {map : MemoryRegistry} {events : List RegistryEvent} {last : Nat}
    {key : Text} (h : LeaseAt map events last key) (clock : Clock) (op : RegistryOp)
    (hlast : last ≤ clock.now) (hstamp : clock.now ≤ clock.stamp) :
    LeaseAt (map.perform clock op).1 (events ++ [⟨clock, op, (map.perform clock op).2⟩])
      clock.stamp key := by
  have hevict := map.evictExpired_cases clock.now key
  cases op with
  | claim record ttl =>
    rcases map.claim_cases record ttl clock with ⟨existing, expiry, -, -, -, he⟩ | ⟨-, he⟩
    · simp only [MemoryRegistry.perform, he, Prod.map_apply, id_eq]
      exact h.of_idle hlast hstamp (idle_claim (Or.inr (by simp)))
        (by simp [RegistryEvent.Releases]) hevict
    · simp only [MemoryRegistry.perform, he, Prod.map_apply, id_eq]
      by_cases hk : record.routingKey = key
      · subst hk
        refine LeaseAt.of_refresh (Function.update_self ..) (fun r => ?_)
          ⟨rfl, Or.inl ⟨record, rfl, rfl, rfl, rfl⟩⟩
        simp only [LastClaim, since_append_singleton, acquires_claim_iff, and_true]
        exact ⟨fun hr => hr.elim id fun hr => (hr.1 ⟨record, rfl⟩).elim, Or.inl⟩
      · refine h.of_idle hlast hstamp (idle_claim (Or.inl hk))
          (by simp [RegistryEvent.Releases]) ?_
        rwa [Function.update_of_ne (Ne.symm hk)]
  | lookup key' =>
    exact h.of_idle hlast hstamp (idle_of_op (by simp) (by simp))
      (by simp [RegistryEvent.Releases]) hevict
  | renew key' s ttl =>
    rcases map.renew_cases key' s ttl clock with ⟨record, expiry, hget, -, hs, he⟩ | ⟨-, he⟩
    · simp only [MemoryRegistry.perform, he, Prod.map_apply, id_eq]
      by_cases hk : key' = key
      · subst hk
        have hclaim := (h.1 record expiry hget).1
        refine LeaseAt.of_refresh (Function.update_self ..) (fun r => ?_)
          ⟨rfl, Or.inr ⟨by rw [hs], rfl⟩⟩
        rw [lastClaim_snoc_of_idle (fun r hr => by obtain ⟨-, hr, -⟩ := hr; cases hr)]
        exact ⟨fun hr => hr.unique hclaim, fun hr => hr ▸ hclaim⟩
      · refine h.of_idle hlast hstamp (idle_renew (Or.inl hk))
          (by simp [RegistryEvent.Releases]) ?_
        rwa [Function.update_of_ne (Ne.symm hk)]
    · simp only [MemoryRegistry.perform, he, Prod.map_apply, id_eq]
      exact h.of_idle hlast hstamp (idle_renew (Or.inr rfl))
        (by simp [RegistryEvent.Releases]) hevict
  | release key' s =>
    have hidle : RegistryEvent.Idle key ⟨clock, .release key' s, .released⟩ :=
      idle_of_op (by simp) (by simp)
    simp only [MemoryRegistry.perform]
    rcases map.release_cases key' s with ⟨record, expiry, hget, hs, he⟩ | ⟨hother, he⟩
    · by_cases hk : key' = key
      · subst hk
        refine ⟨fun r x hr => by simp [he] at hr, fun r u d hc hr => ?_⟩
        -- The lease that ends here is the released one: no other claim is the latest.
        have hrec : r = record :=
          ((lastClaim_snoc_of_idle hidle.1).mp hc).unique (h.1 record expiry hget).1
        have hnot := ((lastRefresh_snoc_of_idle (hidle.2 _)).mp hr).1
        exact (hnot (by simp [RegistryEvent.Releases, hrec, hs])).elim
      · have hne : key ≠ key' := Ne.symm hk
        refine h.of_idle hlast hstamp hidle (by simp [RegistryEvent.Releases, hk]) (Or.inl ?_)
        rw [he, Function.update_of_ne hne]
    · rw [he]
      refine h.of_idle hlast hstamp hidle (fun r x hr hrel => ?_) (Or.inl rfl)
      obtain ⟨rfl, rfl⟩ := RegistryOp.release.inj hrel
      exact hother r x hr rfl

/-- The link holds after every history. -/
theorem RegistryHistory.leaseAt {map : MemoryRegistry} {events : List RegistryEvent} {last : Nat}
    (h : RegistryHistory map events last) (key : Text) : LeaseAt map events last key := by
  induction h with
  | nil =>
    exact ⟨fun _ _ hget => by simp [MemoryRegistry.new] at hget,
      fun _ _ _ hc => (not_since_nil hc).elim⟩
  | snoc clock op _ hlast hstamp ih => exact ih.perform clock op hlast hstamp

/-- A lease of the history is exactly an unexpired entry of the table. -/
theorem RegistryHistory.leaseHeld_iff {map : MemoryRegistry} {events : List RegistryEvent}
    {last t : Nat} (h : RegistryHistory map events last) (ht : last ≤ t) (key : Text)
    (record : RouteRecord) :
    LeaseHeld key record t events ↔ ∃ expiry, map key = some (record, expiry) ∧ t < expiry := by
  constructor
  · rintro ⟨hc, u, d, hlt, hr⟩
    rcases (h.leaseAt key).2 record u d hc hr with hs | ⟨-, hle⟩
    · exact ⟨u + d, hs, hlt⟩
    · omega
  · rintro ⟨expiry, hget, hlt⟩
    obtain ⟨hc, u, d, rfl, hr⟩ := (h.leaseAt key).1 record expiry hget
    exact ⟨hc, u, d, hlt, hr⟩

/-- **Exact leases.** After any history, a lookup finds a record exactly while the history grants
its lease; meanwhile other sessions can neither take, extend nor drop the key and leave its record
and expiry as they are; and once no lease is granted, the next claim by anyone succeeds. -/
theorem RegistryHistory.exact_leases {map : MemoryRegistry} {events : List RegistryEvent}
    {last : Nat} (h : RegistryHistory map events last) (key : Text) (clock : Clock)
    (hclock : last ≤ clock.now) :
    (∀ record, (map.lookup key clock).2 = some record ↔ LeaseHeld key record clock.now events) ∧
    (∀ owner, LeaseHeld key owner clock.now events →
      (∀ record ttl, record.routingKey = key → record.sessionId ≠ owner.sessionId →
        (map.claim record ttl clock).2 = .taken owner ∧
          (map.claim record ttl clock).1 key = map key) ∧
      (∀ sessionId ttl, sessionId ≠ owner.sessionId →
        (map.renew key sessionId ttl clock).2 = false ∧
          (map.renew key sessionId ttl clock).1 key = map key) ∧
      (∀ sessionId, sessionId ≠ owner.sessionId → map.release key sessionId = map)) ∧
    ((∀ owner, ¬ LeaseHeld key owner clock.now events) →
      ∀ record ttl, record.routingKey = key → (map.claim record ttl clock).2 = .acquired) := by
  simp only [h.leaseHeld_iff hclock]
  refine ⟨fun record => ?_, ?_, fun hfree record ttl hk => ?_⟩
  · simp [MemoryRegistry.lookup, MemoryRegistry.evictExpired_eq_some]
  · rintro owner ⟨expiry, hget, hlt⟩
    have hkept : map.evictExpired clock.now key = map key :=
      (MemoryRegistry.evictExpired_eq_some.mpr ⟨hget, hlt⟩).trans hget.symm
    refine ⟨fun record ttl hk hs => ?_, fun s ttl hs => ?_, fun s hs => ?_⟩
    · subst hk
      rcases map.claim_cases record ttl clock with ⟨e, x, he, -, -, hc⟩ | ⟨hown, -⟩
      · obtain ⟨rfl, rfl⟩ := Prod.mk.inj (Option.some.inj (he.symm.trans hget))
        exact ⟨by rw [hc], by rw [hc]; exact hkept⟩
      · exact (hs (hown owner expiry hget hlt).symm).elim
    · rcases map.renew_cases key s ttl clock with ⟨r, x, he, -, hr, -⟩ | ⟨-, hc⟩
      · obtain ⟨rfl, rfl⟩ := Prod.mk.inj (Option.some.inj (he.symm.trans hget))
        exact (hs hr.symm).elim
      · exact ⟨by rw [hc], by rw [hc]; exact hkept⟩
    · rcases map.release_cases key s with ⟨r, x, he, hr, -⟩ | ⟨-, hc⟩
      · obtain ⟨rfl, rfl⟩ := Prod.mk.inj (Option.some.inj (he.symm.trans hget))
        exact (hs hr.symm).elim
      · exact hc
  · subst hk
    rcases map.claim_cases record ttl clock with ⟨e, x, he, hlt, -, -⟩ | ⟨-, hc⟩
    · exact (hfree e ⟨x, he, hlt⟩).elim
    · rw [hc]

/-- A claim on one fixed name, by the given session. -/
def apiRecord (sessionId : Text) : RouteRecord where
  routingKey := "api.tunnel.com".toList
  nodeId := "node_a".toList
  nodeAddr := "10.0.0.1:7100".toList
  sessionId := sessionId
  tunnelId := "tun_1".toList
  accountId := "acct_1".toList

/-- A second session loses at time twenty and wins at time forty against a claim made at time ten
for thirty ticks. -/
theorem RegistryHistory.exact_leases_second_claimer :
    let map := (MemoryRegistry.new.perform ⟨10, 10⟩ (.claim (apiRecord "sess_1".toList) 30)).1
    (map.claim (apiRecord "sess_2".toList) 30 ⟨20, 21⟩).2 = .taken (apiRecord "sess_1".toList) ∧
      (map.claim (apiRecord "sess_2".toList) 30 ⟨40, 41⟩).2 = .acquired := by
  have h := RegistryHistory.snoc ⟨10, 10⟩ (.claim (apiRecord "sess_1".toList) 30) .nil
    (by decide) (by decide)
  have early := h.exact_leases "api.tunnel.com".toList ⟨20, 21⟩ (by decide)
  have late := h.exact_leases "api.tunnel.com".toList ⟨40, 41⟩ (by decide)
  have hheld := (early.1 (apiRecord "sess_1".toList)).mp (by decide)
  refine ⟨((early.2.1 _ hheld).1 _ 30 rfl (by decide)).1, late.2.2 (fun owner ho => ?_) _ 30 rfl⟩
  have hfound := (late.1 owner).mpr ho
  have hnone : (none : Option RouteRecord) = some owner := hfound
  cases hnone

end Norupo
