import Norupo.Foundation.Transition
import Norupo.Ingress.HandOff

/-!
# The journey of a public request

A request goes from listener to listener. Which node a hand-off reaches, and whether on its public
or on its peer listener, is up to the addresses in the routing table, and every node has its own
answer of the routing table at every lookup: all of this is the environment. The request carries its
own mark, which `PeerClient::forward` sets and `handle` checks on every listener. Of the HTTP client
nothing is used but that the mark arrives.
-/

namespace Norupo

open Transition

/-- A request in flight and the nodes that have passed it to `PeerClient::forward`. -/
structure Journey where
  /-- The request as the next listener receives it. -/
  pending : Option HttpRequest
  /-- The nodes that handed the request off, oldest first. -/
  handedBy : List Text

/-- The request is received by a listener of a node, with what that node knows then. -/
inductive JourneyAction
  | arrive (node : NodeView) (role : Role)

namespace Journey

/-- A request that a public client has sent. -/
def start (req : HttpRequest) : Journey := ⟨some req, []⟩

/-- One visit of the request; `none` when it is not in flight. -/
def step (parseUri : Text → Option Uri) (transport : HttpTransport) (s : Journey) :
    JourneyAction → Option Journey
  | .arrive node role =>
    s.pending.map fun req =>
      match handle node role req with
      | .handOff _ record =>
        { pending := (forward parseUri node.nodeId record req).bind transport.deliver
          handedBy := s.handedBy ++ [node.nodeId] }
      | _ => { s with pending := none }

/-- A request that has been handed off has been handed off once, and bears the mark. -/
def Marked (s : Journey) : Prop :=
  s.handedBy = [] ∨ s.handedBy.length = 1 ∧
    ∀ req ∈ s.pending, (getHeader hopHeader req.headers).isSome

/-- What `PeerClient::forward` sends bears the mark. -/
theorem forward_marked {parseUri : Text → Option Uri} {nodeId : Text} {record : RouteRecord}
    {req out : HttpRequest} (h : forward parseUri nodeId record req = some out) :
    (getHeader hopHeader out.headers).isSome := by
  obtain ⟨target, -, rfl⟩ := Option.map_eq_some_iff.mp h
  simp [getHeader, insertHeader, List.find?_append]

/-- One visit keeps the mark with the hand-off. -/
theorem Marked.step {parseUri : Text → Option Uri} {transport : HttpTransport}
    (ht : transport.KeepsMark) {s s' : Journey} {a : JourneyAction} (hm : Marked s)
    (h : s.step parseUri transport a = some s') : Marked s' := by
  obtain ⟨node, role⟩ := a
  obtain ⟨req, hreq, rfl⟩ := Option.map_eq_some_iff.mp h
  cases hd : handle node role req with
  | handOff key record =>
    have hunmarked := (handle_handOff hd).2.2
    rcases hm with hnone | ⟨-, hmark⟩
    · refine .inr ⟨by simp [hnone], ?_⟩
      intro got hgot
      obtain ⟨out, hsend, hdeliver⟩ := Option.bind_eq_some_iff.mp (Option.mem_def.mp hgot)
      exact ht out got hdeliver (forward_marked hsend)
    · -- A marked request is not handed off again.
      have hsome := hmark req hreq
      rw [hunmarked] at hsome
      cases hsome
  | _ => exact hm.imp id fun hone => ⟨hone.1, by simp⟩

/-- A public request is passed to `PeerClient::forward` at most once, whichever nodes it visits. -/
theorem handedBy_le_one {parseUri : Text → Option Uri} {transport : HttpTransport}
    (ht : transport.KeepsMark) {req : HttpRequest} {s : Journey}
    (h : Reachable (step parseUri transport) (start req) s) : s.handedBy.length ≤ 1 := by
  have hm : Marked s := h.invariant (.inl rfl) fun _ _ _ hm _ hs => hm.step ht hs
  rcases hm with hnone | ⟨hone, -⟩
  · rw [hnone]
    exact Nat.zero_le 1
  · exact hone.le

/-- Two nodes that place every tunnel on each other: the request is refused on the second. -/
theorem handedBy_le_one_loop : ∃ s,
    exec (step parsePlainUri plainTransport)
      (start (rootRequest none [⟨hostHeader, asciiBytes "a.tunnel.com".toList⟩]))
      [.arrive entryNode .publicListener,
        .arrive { entryNode with nodeId := "node_c".toList } .publicListener] = some s ∧
    s.handedBy = ["node_b".toList] ∧ s.handedBy.length ≤ 1 := by
  obtain ⟨s, hs, hby⟩ : ∃ s,
      exec (step parsePlainUri plainTransport)
        (start (rootRequest none [⟨hostHeader, asciiBytes "a.tunnel.com".toList⟩]))
        [.arrive entryNode .publicListener,
          .arrive { entryNode with nodeId := "node_c".toList } .publicListener] = some s ∧
      s.handedBy = ["node_b".toList] := ⟨_, rfl, rfl⟩
  exact ⟨s, hs, hby, handedBy_le_one keepsMark_plainTransport (.of_exec .nil hs)⟩

end Journey

end Norupo
