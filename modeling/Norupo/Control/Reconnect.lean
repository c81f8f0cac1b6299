import Norupo.Control.Ownership

/-!
# An agent that comes back

Every connection of an agent gets a session id of its own, and the routing table tells owners apart
by session id. An agent that comes back while the record of its previous session is in the table is
therefore refused like any other session, until that record has been released or has expired.
-/

namespace Norupo

open Transition

namespace Cluster

variable {s s' : Cluster} {a : ClusterAction} {j : Text}

/-- A registration waits for its claim. -/
theorem Step.driver_claiming (h : Step s a s') {requestId publicUrl : Text} {record : RouteRecord}
    (hj : (s.session j).driver = .claiming requestId record publicUrl)
    (ha : ∀ clock, a ≠ .claim j clock) :
    (s'.session j).driver = .claiming requestId record publicUrl := by
  cases h
  all_goals first
    | exact hj
    | (simp only [setSession, setDriver, setHeartbeat, called, Function.update_apply]
       split_ifs <;> simp_all)

/-- A registration whose claim is answered waits for its reply. -/
theorem Step.driver_claimed (h : Step s a s') {requestId publicUrl : Text} {record : RouteRecord}
    {claim : Claim} (hj : (s.session j).driver = .claimed requestId record publicUrl claim)
    (ha : a ≠ .register j) :
    (s'.session j).driver = .claimed requestId record publicUrl claim := by
  cases h
  all_goals first
    | exact hj
    | (simp only [setSession, setDriver, setHeartbeat, called, Function.update_apply]
       split_ifs <;> simp_all)

end Cluster

/-- An `OpenTunnel` of session `j` that reaches the routing table, from the frame to the answer,
with whatever else moves in between. -/
structure Registration (s : Cluster) (j : Text) where
  request : OpenTunnel
  randomSubdomain : Text
  tunnelId : Text
  record : RouteRecord
  publicUrl : Text
  opened : Cluster
  opens : s.step (.openTunnel j request randomSubdomain tunnelId) = some opened
  prepared : (opened.session j).driver = .claiming request.requestId record publicUrl
  /-- What happens before the claim. -/
  waiting : List ClusterAction
  unclaimed : ∀ clock, .claim j clock ∉ waiting
  claiming : Cluster
  waits : exec Cluster.step opened waiting = some claiming
  clock : Clock
  claimed : Cluster
  claims : claiming.step (.claim j clock) = some claimed
  /-- What happens before the answer. -/
  answering : List ClusterAction
  unanswered : .register j ∉ answering
  answered : Cluster
  answers : exec Cluster.step claimed answering = some answered
  finished : Cluster
  finishes : answered.step (.register j) = some finished

namespace Registration

variable {s : Cluster} {j : Text}

/-- The agent is told that the tunnel is accepted. -/
def IsAccepted (r : Registration s j) : Prop :=
  ∃ status, (r.finished.session j).driver = .replying status ∧
    status.requestId = r.request.requestId ∧ status.routingKey = r.record.routingKey ∧
    status.accepted = true

/-- When the claim is made, the record of no other session is in force under the key. -/
def IsFree (r : Registration s j) : Prop :=
  ∀ existing expiry, r.claiming.registry r.record.routingKey = some (existing, expiry) →
    existing.sessionId ≠ j → expiry ≤ r.clock.now

/-- The claim is made under the id of the session. -/
theorem driver_claiming (r : Registration s j) :
    (r.claiming.session j).driver = .claiming r.request.requestId r.record r.publicUrl ∧
      r.record.sessionId = j := by
  constructor
  · have hwaits := r.waits
    have hunclaimed := r.unclaimed
    revert hunclaimed
    refine exec_history (P := fun as t => (∀ clock, .claim j clock ∉ as) →
      (t.session j).driver = .claiming r.request.requestId r.record r.publicUrl)
      (fun _ => r.prepared) ?_ hwaits
    intro as t a t' hold hstep hnot
    refine (Cluster.step_cases hstep).driver_claiming
      (hold fun clock hmem => hnot clock (List.mem_append_left _ hmem)) ?_
    rintro clock rfl
    exact hnot clock (List.mem_append_right _ (List.mem_singleton_self _))
  · have hprepared := r.prepared
    have hopens := Cluster.step_cases r.opens
    generalize r.opened = opened at hopens hprepared
    cases hopens with
    | openTunnel hd hp =>
      simp only [Cluster.setDriver, Cluster.setSession, Function.update_self] at hprepared
      obtain ⟨-, rfl, -⟩ := Driver.claiming.inj hprepared
      exact (prepareTunnel_ok hp).1
    | openRejected hd =>
      simp at hprepared

/-- The answer follows the claim. -/
theorem driver_answered (r : Registration s j) {claim : Claim}
    (hclaim : (r.claimed.session j).driver =
      .claimed r.request.requestId r.record r.publicUrl claim) :
    (r.answered.session j).driver = .claimed r.request.requestId r.record r.publicUrl claim := by
  have hanswers := r.answers
  have hunanswered := r.unanswered
  revert hunanswered
  refine exec_history (P := fun as t => .register j ∉ as → (t.session j).driver =
    .claimed r.request.requestId r.record r.publicUrl claim) (fun _ => hclaim) ?_ hanswers
  intro as t a t' hold hstep hnot
  refine (Cluster.step_cases hstep).driver_claimed
    (hold fun hmem => hnot (List.mem_append_left _ hmem)) ?_
  rintro rfl
  exact hnot (List.mem_append_right _ (List.mem_singleton_self _))

/-- The state after the claim. -/
theorem driver_claimed (r : Registration s j) :
    (r.claimed.session j).driver = .claimed r.request.requestId r.record r.publicUrl
      (r.claiming.registry.claim r.record (r.claiming.session j).node.routeTtl r.clock).2 := by
  obtain ⟨hd, -⟩ := r.driver_claiming
  have hclaims := Cluster.step_cases r.claims
  generalize r.claimed = claimed at hclaims ⊢
  cases hclaims with
  | claim hd' hf =>
    obtain ⟨rfl, rfl, rfl⟩ := Driver.claiming.inj (hd'.symm.trans hd)
    simp

/-- In every run, a registration that reaches the routing table is accepted exactly when no other
session, an earlier one of the same agent included, has a record in force under the key. -/
theorem isAccepted_iff (r : Registration s j) : r.IsAccepted ↔ r.IsFree := by
  obtain ⟨-, hown⟩ := r.driver_claiming
  have hclaimed := r.driver_claimed
  have hfinishes := Cluster.step_cases r.finishes
  unfold IsAccepted IsFree
  rcases MemoryRegistry.claim_cases r.claiming.registry r.record
    (r.claiming.session j).node.routeTtl r.clock with
    ⟨existing, expiry, hget, hlt, hother, hc⟩ | ⟨hfree, hc⟩
  · -- Another session holds the key: the answer names it.
    rw [hc] at hclaimed
    have hanswered := r.driver_answered hclaimed
    generalize r.finished = finished at hfinishes ⊢
    refine iff_of_false ?_ ?_
    · rintro ⟨status, hstatus, -, -, hacc⟩
      cases hfinishes with
      | register hd => simp [hanswered] at hd
      | registerTaken hd =>
        simp only [Cluster.setDriver, Cluster.setSession, Function.update_self] at hstatus
        obtain rfl := Driver.replying.inj hstatus
        simp [finishTunnel, rejectTunnel] at hacc
    · intro hall
      have := hall existing expiry hget (hown ▸ hother)
      omega
  · rw [hc] at hclaimed
    have hanswered := r.driver_answered hclaimed
    generalize r.finished = finished at hfinishes ⊢
    refine iff_of_true ?_ ?_
    · cases hfinishes with
      | register hd =>
        obtain ⟨rfl, rfl, rfl, -⟩ := Driver.claimed.inj (hd.symm.trans hanswered)
        simp [finishTunnel]
      | registerTaken hd => simp [hanswered] at hd
    · intro existing expiry hget hne
      by_contra hlt
      exact hne (hown ▸ hfree existing expiry hget (by omega))

end Registration

open Cluster

/-- The request that `registering` makes. -/
def nameRequest : OpenTunnel := ⟨"req".toList, some (.http ⟨"a".toList, [], "3000".toList, false⟩)⟩

/-- The agent hangs up and connects again after the teardown of its first session has released the
name. -/
def comingBackLater : List ClusterAction :=
  [.disconnect "ses_1".toList
      [⟨"tun_1".toList, "a.tunnel.com".toList, "https://a.tunnel.com".toList⟩],
    .releaseNext "ses_1".toList, .leave "ses_1".toList,
    .connect "ses_2".toList testNode ⟨"acct".toList, [], [], Limits.default⟩,
    .welcome "ses_2".toList]

/-- The agent asks for its name again and gets it. -/
theorem isAccepted_iff_released : ∃ (s : Cluster) (r : Registration s "ses_2".toList),
    exec step Cluster.init
      (registering "ses_1".toList "tun_1".toList ⟨0, 0⟩ ++ comingBackLater) = some s ∧
    r.request = nameRequest ∧ r.record.routingKey = "a.tunnel.com".toList ∧ r.IsAccepted := by
  obtain ⟨s, hs, r, hrequest, hkey, hnone⟩ : ∃ s,
      exec step Cluster.init
        (registering "ses_1".toList "tun_1".toList ⟨0, 0⟩ ++ comingBackLater) = some s ∧
      ∃ r : Registration s "ses_2".toList, r.request = nameRequest ∧
        r.record.routingKey = "a.tunnel.com".toList ∧
        r.claiming.registry r.record.routingKey = none :=
    ⟨_, rfl, ⟨nameRequest, [], "tun_2".toList, _, _, _, rfl, rfl, [], by simp, _, rfl, ⟨1, 1⟩, _,
      rfl, [], by simp, _, rfl, _, rfl⟩, rfl, rfl, rfl⟩
  refine ⟨s, r, hs, hrequest, hkey, r.isAccepted_iff.mpr ?_⟩
  intro existing expiry hget
  rw [hnone] at hget
  cases hget

/-- The agent hangs up and connects again before the teardown of its first session has released the
name. -/
def comingBack : List ClusterAction :=
  [.disconnect "ses_1".toList
      [⟨"tun_1".toList, "a.tunnel.com".toList, "https://a.tunnel.com".toList⟩],
    .connect "ses_2".toList testNode ⟨"acct".toList, [], [], Limits.default⟩,
    .welcome "ses_2".toList]

/-- The agent asks for its name again and is refused. -/
theorem reconnect_refused :
    ¬ ∀ (before after : List ClusterAction) (held s : Cluster) (i j : Text) (r : Registration s j),
      exec step Cluster.init before = some held → exec step held after = some s →
      (∃ randomSubdomain tunnelId, .openTunnel i r.request randomSubdomain tunnelId ∈ before) →
      (∃ tunnel ∈ (held.session i).tunnels, tunnel.routingKey = r.record.routingKey) →
      (∃ tunnels, .disconnect i tunnels ∈ after) →
      i ≠ j → (s.session j).principal = (s.session i).principal →
      (∀ k node principal, .connect k node principal ∈ before ++ after ++ r.waiting →
        principal.accountId = (s.session i).principal.accountId) →
      r.IsAccepted := by
  intro h
  obtain ⟨held, s, hheld, hs, r, hrequest, hkey, hwaiting, htunnel, hprincipal, haccount,
      hrefused⟩ : ∃ held s,
        exec step Cluster.init (registering "ses_1".toList "tun_1".toList ⟨0, 0⟩) = some held ∧
        exec step held comingBack = some s ∧
        ∃ r : Registration s "ses_2".toList, r.request = nameRequest ∧
          r.record.routingKey = "a.tunnel.com".toList ∧ r.waiting = [] ∧
          (⟨"tun_1".toList, "a.tunnel.com".toList, "https://a.tunnel.com".toList⟩ : Tunnel) ∈
            (held.session "ses_1".toList).tunnels ∧
          (s.session "ses_2".toList).principal = (s.session "ses_1".toList).principal ∧
          (s.session "ses_1".toList).principal.accountId = "acct".toList ∧ ¬ r.IsAccepted := by
    refine ⟨_, _, rfl, rfl, ⟨nameRequest, [], "tun_2".toList, _, _, _, rfl, rfl, [], by simp, _,
      rfl, ⟨1, 1⟩, _, rfl, [], by simp, _, rfl, _, rfl⟩, rfl, rfl, rfl, ?_, rfl, rfl, ?_⟩
    · exact List.mem_singleton_self _
    · rintro ⟨status, hstatus, -, -, haccepted⟩
      rw [← Driver.replying.inj hstatus] at haccepted
      cases haccepted
  refine hrefused (h _ _ held s "ses_1".toList "ses_2".toList r hheld hs
    ⟨[], "tun_1".toList, ?_⟩ ⟨_, htunnel, hkey.symm⟩ ⟨_, List.mem_cons_self⟩ (by decide) hprincipal
    ?_)
  · rw [hrequest]
    simp [registering, nameRequest]
  · intro k node principal hmem
    rw [hwaiting] at hmem
    simp [registering, comingBack] at hmem
    rcases hmem with ⟨-, -, rfl⟩ | ⟨-, -, rfl⟩ <;> exact haccount.symm

end Norupo
