import Norupo.Control.Teardown
import Mathlib.Algebra.Order.BigOperators.Group.Finset

/-!
# The tunnel quota of an account

`register_tunnel` compares the quota of the account with the tunnels of its own session. What the
sessions of an account list together stays within the quota as long as a tunnel is inserted only
where the other sessions of the account on the node have none, or where one more fits.
-/

namespace Norupo

open Transition

/-- Whoever is authenticated as the account gets its quota. -/
def ClusterAction.grants (account : Text) (quota : Nat) : ClusterAction → Bool
  | .connect _ _ principal => principal.accountId ≠ account || principal.limits.maxTunnels = quota
  | _ => true

namespace Cluster

/-- The live sessions of an account on a node. -/
def accountSessions (s : Cluster) (nodeId account : Text) : Finset Text :=
  (s.manager nodeId).filter fun i => (s.session i).principal.accountId = account

/-- What the live sessions of an account on a node list together. -/
def accountTunnels (s : Cluster) (nodeId account : Text) : Nat :=
  ∑ i ∈ s.accountSessions nodeId account, (s.session i).tunnels.length

/-- What the other live sessions of the account list. -/
def tunnelsBeside (s : Cluster) (nodeId account i : Text) : Nat :=
  ∑ j ∈ (s.accountSessions nodeId account).erase i, (s.session j).tunnels.length

/-- A tunnel of the account is inserted only where no other session has one, or where one more fits.
A listed tunnel of the same id, which the new one replaces, does not count. -/
def leavesRoom (nodeId account : Text) (quota : Nat) (s : Cluster) : ClusterAction → Bool
  | .register i =>
    match (s.session i).driver with
    | .claimed _ record _ .acquired =>
      !(i ∈ s.accountSessions nodeId account) || s.tunnelsBeside nodeId account i = 0 ||
        s.tunnelsBeside nodeId account i +
          (removeTunnel record.tunnelId (s.session i).tunnels).length < quota
    | _ => true
  | _ => true

/-- What the check of `register_tunnel` keeps true of each session of the account. -/
structure Metered (account : Text) (quota : Nat) (s : Cluster) : Prop where
  coherent : Coherent s
  greeting : ∀ i, (s.session i).driver = .greeting → (s.session i).tunnels = []
  granted : ∀ i, (s.session i).driver ≠ .absent → (s.session i).principal.accountId = account →
    (s.session i).principal.limits.maxTunnels = quota
  claiming : ∀ i, (s.session i).driver.record ≠ none →
    (s.session i).principal.accountId = account → (s.session i).tunnels.length < quota

theorem Metered.init (account : Text) (quota : Nat) : Metered account quota Cluster.init where
  coherent := .init
  greeting i h := by simp [Cluster.init] at h
  granted i h := by simp [Cluster.init] at h
  claiming i h := by simp [Cluster.init, Driver.record] at h

section Step

variable {s s' : Cluster} {a : ClusterAction} {nodeId account : Text} {quota : Nat}

theorem length_removeTunnel_le (tunnelId : Text) (tunnels : List Tunnel) :
    (removeTunnel tunnelId tunnels).length ≤ tunnels.length := List.length_filter_le _ _

/-- Only a registration adds to the tunnels of a session. -/
theorem Step.tunnels_length (h : Step s a s') (i : Text)
    (hr : a ≠ .register i ∨ ∀ requestId record publicUrl,
      (s.session i).driver ≠ .claimed requestId record publicUrl .acquired) :
    (s'.session i).tunnels.length ≤ (s.session i).tunnels.length := by
  cases h
  case register j requestId record publicUrl hd =>
    have hne : i ≠ j := by
      rintro rfl
      rcases hr with hr | hr
      · exact hr rfl
      · exact hr _ _ _ hd
    simp [hne]
  all_goals first
    | exact le_rfl
    | (simp only [setSession, setDriver, setHeartbeat, called, Function.update_apply]
       split_ifs <;> simp_all [length_removeTunnel_le])

/-- Who a session belongs to does not change. -/
theorem Step.principal (h : Step s a s') {i : Text} (hi : (s.session i).driver ≠ .absent) :
    (s'.session i).principal = (s.session i).principal := by
  cases h
  all_goals first
    | rfl
    | (simp only [setSession, setDriver, setHeartbeat, called, Function.update_apply]
       split_ifs <;> simp_all)

/-- A session enters the table of its node when its agent has been welcomed. -/
theorem Step.listed_cases (h : Step s a s') {i : Text}
    (hi : (s'.session i).driver.isListed = true) :
    (s.session i).driver.isListed = true ∨
      ((s.session i).driver = .greeting ∧ (s'.session i).tunnels = (s.session i).tunnels) := by
  cases h
  all_goals first
    | exact .inl hi
    | (simp only [setSession, setDriver, setHeartbeat, called, Function.update_apply] at hi ⊢
       split_ifs at hi ⊢ <;> simp_all [Driver.isListed])

/-- A live session was live before, or it lists nothing yet. -/
theorem Metered.accountSessions_cases (hm : Metered account quota s) (h : s.step a = some s')
    {i : Text} (hi : i ∈ s'.accountSessions nodeId account) :
    i ∈ s.accountSessions nodeId account ∨ (s'.session i).tunnels = [] := by
  have hc := step_cases h
  obtain ⟨hmem, haccount⟩ := Finset.mem_filter.mp hi
  obtain ⟨hlisted, hnode⟩ := ((hm.coherent.step h).listed i nodeId).mp hmem
  rcases hc.listed_cases hlisted with hl | ⟨hg, ht⟩
  · have hstarted : (s.session i).driver.hasStarted = true := by
      cases hd : (s.session i).driver <;> simp_all [Driver.isListed, Driver.hasStarted]
    have habsent : (s.session i).driver ≠ .absent := by
      intro hd
      simp [hd, Driver.isListed] at hl
    left
    apply Finset.mem_filter.mpr
    refine ⟨(hm.coherent.listed i nodeId).mpr ⟨hl, ?_⟩, ?_⟩
    · rw [← (hc.session_mono i hstarted).2]
      exact hnode
    · rw [← hc.principal habsent]
      exact haccount
  · exact .inr (ht.trans (hm.greeting i hg))

/-- A step that registers nothing adds nothing to what the account lists. -/
theorem Metered.accountTunnels_le (hm : Metered account quota s) (h : s.step a = some s')
    (hr : ∀ i, a ≠ .register i ∨ ∀ requestId record publicUrl,
      (s.session i).driver ≠ .claimed requestId record publicUrl .acquired) :
    s'.accountTunnels nodeId account ≤ s.accountTunnels nodeId account := by
  calc s'.accountTunnels nodeId account
      ≤ ∑ i ∈ s.accountSessions nodeId account, (s'.session i).tunnels.length := by
        apply Finset.sum_le_sum_of_ne_zero
        intro i hi hne
        apply (hm.accountSessions_cases h hi).resolve_right
        intro hnil
        exact hne (by rw [hnil, List.length_nil])
    _ ≤ s.accountTunnels nodeId account := by
        apply Finset.sum_le_sum
        intro i _
        exact (step_cases h).tunnels_length i (hr i)

/-- Changing one session changes its own part of what the account lists. -/
theorem accountTunnels_setSession {i : Text} {c : ControlSession}
    (hp : c.principal = (s.session i).principal) :
    (s.setSession i c).accountTunnels nodeId account =
      if i ∈ s.accountSessions nodeId account then
        s.tunnelsBeside nodeId account i + c.tunnels.length
      else s.accountTunnels nodeId account := by
  have hsessions : (s.setSession i c).accountSessions nodeId account =
      s.accountSessions nodeId account := by
    apply Finset.filter_congr
    intro j _
    by_cases hj : j = i
    · subst hj
      simp [hp]
    · simp [hj]
  have hother : ∀ j, j ≠ i → ((s.setSession i c).session j).tunnels.length =
      (s.session j).tunnels.length := by
    intro j hj
    simp [hj]
  rw [accountTunnels, hsessions]
  split
  · rename_i hi
    rw [← Finset.sum_erase_add _ _ hi]
    congr 1
    · apply Finset.sum_congr rfl
      intro j hj
      exact hother j (Finset.ne_of_mem_erase hj)
    · simp
  · rename_i hi
    apply Finset.sum_congr rfl
    intro j hj
    exact hother j fun he => hi (he ▸ hj)

/-- What the account lists after one of its sessions has registered a tunnel. -/
theorem accountTunnels_register {i requestId publicUrl : Text} {record : RouteRecord}
    (hd : (s.session i).driver = .claimed requestId record publicUrl .acquired)
    (h : s.step (.register i) = some s') :
    s'.accountTunnels nodeId account =
      if i ∈ s.accountSessions nodeId account then
        s.tunnelsBeside nodeId account i +
          ((removeTunnel record.tunnelId (s.session i).tunnels).length + 1)
      else s.accountTunnels nodeId account := by
  simp only [step, hd] at h
  obtain rfl := Option.some.inj h
  refine (accountTunnels_setSession (by rfl)).trans ?_
  simp [finishTunnel, insertTunnel]

theorem Metered.greeting_step (hm : Metered account quota s) (h : Step s a s') (i : Text)
    (hi : (s'.session i).driver = .greeting) : (s'.session i).tunnels = [] := by
  have hg := hm.greeting i
  cases h
  all_goals first
    | exact hg hi
    | (simp only [setSession, setDriver, setHeartbeat, called, Function.update_apply] at hi ⊢
       split_ifs at hi ⊢ <;> simp_all [removeTunnel])

theorem Metered.granted_step (hm : Metered account quota s) (ha : a.grants account quota = true)
    (h : Step s a s') (i : Text) (hi : (s'.session i).driver ≠ .absent)
    (haccount : (s'.session i).principal.accountId = account) :
    (s'.session i).principal.limits.maxTunnels = quota := by
  have hg := hm.granted i
  cases h
  case connect j node principal hd =>
    by_cases hj : i = j
    · subst hj
      simp only [setSession, Function.update_self] at haccount ⊢
      simpa [ClusterAction.grants, haccount] using ha
    · simp only [setSession, Function.update_of_ne hj] at hi haccount ⊢
      exact hg hi haccount
  all_goals first
    | exact hg hi haccount
    | (simp only [setSession, setDriver, setHeartbeat, called, Function.update_apply]
         at hi haccount ⊢
       split_ifs at hi haccount ⊢ <;> simp_all)

theorem Metered.claiming_step (hm : Metered account quota s) (hpos : 0 < quota) (h : Step s a s')
    (i : Text) (hi : (s'.session i).driver.record ≠ none)
    (haccount : (s'.session i).principal.accountId = account) :
    (s'.session i).tunnels.length < quota := by
  have hg := hm.claiming i
  cases h
  case openTunnel j request randomSubdomain tunnelId record publicUrl hd hp =>
    by_cases hj : i = j
    · subst hj
      simp only [setDriver, setSession, Function.update_self] at haccount ⊢
      have hgrant := hm.granted i (by simp [hd]) haccount
      exact hgrant ▸ prepareTunnel_below hp (hgrant ▸ hpos)
    · simp only [setDriver, setSession, Function.update_of_ne hj] at hi haccount ⊢
      exact hg hi haccount
  case dropTunnel j tunnel rest hb =>
    by_cases hj : i = j
    · subst hj
      simp only [setSession, Function.update_self] at hi haccount ⊢
      exact (length_removeTunnel_le _ _).trans_lt (hg hi haccount)
    · simp only [setSession, Function.update_of_ne hj] at hi haccount ⊢
      exact hg hi haccount
  all_goals first
    | exact hg hi haccount
    | (simp only [setSession, setDriver, setHeartbeat, called, Function.update_apply]
         at hi haccount ⊢
       split_ifs at hi haccount ⊢ <;> simp_all [Driver.record])

theorem Metered.step (hm : Metered account quota s) (hpos : 0 < quota)
    (ha : a.grants account quota = true) (h : s.step a = some s') : Metered account quota s' where
  coherent := hm.coherent.step h
  greeting := hm.greeting_step (step_cases h)
  granted := hm.granted_step ha (step_cases h)
  claiming := hm.claiming_step hpos (step_cases h)

/-- A registration stays within the quota exactly if it leaves room. -/
theorem Metered.register_iff (hm : Metered account quota s)
    (hp : s.accountTunnels nodeId account ≤ quota) {i requestId publicUrl : Text}
    {record : RouteRecord}
    (hd : (s.session i).driver = .claimed requestId record publicUrl .acquired)
    (h : s.step (.register i) = some s') :
    s'.accountTunnels nodeId account ≤ quota ↔
      leavesRoom nodeId account quota s (.register i) = true := by
  have hroom : leavesRoom nodeId account quota s (.register i) = true ↔
      (i ∈ s.accountSessions nodeId account →
        s.tunnelsBeside nodeId account i = 0 ∨ s.tunnelsBeside nodeId account i +
          (removeTunnel record.tunnelId (s.session i).tunnels).length < quota) := by
    simp only [leavesRoom, hd, Bool.or_eq_true, Bool.not_eq_true', decide_eq_true_eq,
      decide_eq_false_iff_not, or_assoc]
    exact imp_iff_not_or.symm
  rw [hroom, accountTunnels_register hd h]
  by_cases hi : i ∈ s.accountSessions nodeId account
  · have hown : (removeTunnel record.tunnelId (s.session i).tunnels).length < quota :=
      (length_removeTunnel_le _ _).trans_lt
        (hm.claiming i (by simp [hd, Driver.record]) (Finset.mem_filter.mp hi).2)
    simp only [hi, if_true, true_implies]
    omega
  · simp only [hi, if_false, false_implies, iff_true]
    exact hp

theorem Metered.step_iff (hm : Metered account quota s)
    (hp : s.accountTunnels nodeId account ≤ quota) (h : s.step a = some s') :
    s'.accountTunnels nodeId account ≤ quota ↔ leavesRoom nodeId account quota s a = true := by
  by_cases hr : ∃ i requestId record publicUrl, a = .register i ∧
      (s.session i).driver = .claimed requestId record publicUrl .acquired
  · obtain ⟨i, requestId, record, publicUrl, rfl, hd⟩ := hr
    exact hm.register_iff hp hd h
  · refine iff_of_true ((hm.accountTunnels_le h fun i => ?_).trans hp) ?_
    · apply or_iff_not_imp_left.mpr
      intro ha requestId record publicUrl hd
      exact hr ⟨i, requestId, record, publicUrl, not_not.mp ha, hd⟩
    · unfold leavesRoom
      split
      · split
        · rename_i i _ requestId record publicUrl hd
          exact absurd ⟨i, requestId, record, publicUrl, rfl, hd⟩ hr
        · rfl
      · rfl

end Step

/-- The live sessions of an account on a node stay within its quota, in all states on the way,
exactly if no tunnel is inserted beside the tunnels of another session where no more fit. -/
theorem accountTunnels_le_iff {account : Text} {quota : Nat} (hpos : 0 < quota) (nodeId : Text)
    {as : List ClusterAction}
    (hgrant : Throughout step (fun _ a => a.grants account quota = true) Cluster.init as) :
    Always step (fun s => s.accountTunnels nodeId account ≤ quota) Cluster.init as ↔
      Throughout step (fun s a => leavesRoom nodeId account quota s a = true) Cluster.init as := by
  refine hgrant.always_iff (I := Metered account quota) ?_ ?_ (.init account quota)
    (Nat.zero_le quota)
  · intro s a s' hm ha hs
    exact hm.step hpos ha hs
  · intro s a s' hm hp _ hs
    exact hm.step_iff hp hs

/-- A session of an account with a quota of one tunnel, which registers a name. -/
def registeringName (sessionId tunnelId name : Text) (clock : Clock) : List ClusterAction :=
  [.connect sessionId testNode ⟨"acct".toList, [], [], ⟨1, 512⟩⟩, .welcome sessionId,
    .openTunnel sessionId ⟨"req".toList, some (.http ⟨name, [], "3000".toList, false⟩)⟩ [] tunnelId,
    .claim sessionId clock, .register sessionId, .replied sessionId]

theorem accountTunnels_le_alone :
    Always step (fun s => s.accountTunnels "node_a".toList "acct".toList ≤ 1) Cluster.init
      (registeringName "ses_1".toList "tun_1".toList "a".toList ⟨0, 0⟩) :=
  (accountTunnels_le_iff Nat.one_pos "node_a".toList (.of_meets (by decide))).mpr
    (.of_meets (by decide))

/-- Two sessions of one account register one tunnel each, with a quota of one tunnel. -/
theorem accountTunnels_two_sessions :
    ¬ ∀ (account : Text) (quota : Nat) (nodeId : Text) (as : List ClusterAction) (s : Cluster),
      0 < quota →
      Throughout step (fun _ a => a.grants account quota = true) Cluster.init as →
      exec step Cluster.init as = some s → s.accountTunnels nodeId account ≤ quota := by
  intro h
  obtain ⟨s, hs, htwo⟩ : ∃ s, exec step Cluster.init
      (registeringName "ses_1".toList "tun_1".toList "a".toList ⟨0, 0⟩ ++
        registeringName "ses_2".toList "tun_2".toList "b".toList ⟨1, 1⟩) = some s ∧
      s.accountTunnels "node_a".toList "acct".toList = 2 := ⟨_, rfl, by decide⟩
  have hle := h "acct".toList 1 "node_a".toList _ s Nat.one_pos (.of_meets (by decide)) hs
  omega

end Cluster

end Norupo
