import Norupo.Control.Register
import Norupo.Foundation.Markup
import Norupo.Ingress.HandOff

/-!
# The error pages of the edge

`error_page` of `norupo-server/src/http.rs` and the pages that `ingress.rs` and `peer.rs` answer
with. Some of them quote what the public client or an operator wrote: the host that nobody serves,
the host that is no host, a limit, a timeout. The detail of a page is markup, so each caller has to
escape what it quotes. Whatever is quoted, a page has the tags of its wording, and its reader sees
the quoted text as it was written.
-/

namespace Norupo

open Text

/-- An edge-generated error page. -/
structure Page where
  status : Nat
  headers : List (Text × Text)
  body : Text
  deriving DecidableEq, Repr

/-- The part of a page before its detail; the titles of all callers are texts of their own. -/
def pageHead (status : Nat) (title : Text) : Text :=
  "<!doctype html>\n<html><head><meta charset=\"utf-8\"><title>".toList ++
    (Nat.repr status).toList ++ " ".toList ++ htmlEscape title ++
  ("</title><style>body\x7bfont:16px/1.6 system-ui,sans-serif;max-width:40rem;margin:6rem auto;" ++
    "padding:0 1.5rem;color:#1a1a1a\x7dh1\x7bfont-size:1.4rem;margin:0 0 .5rem\x7d" ++
    "code\x7bbackground:#f4f4f5;padding:.1rem .3rem;border-radius:.2rem\x7d" ++
    "footer\x7bmargin-top:2rem;color:#71717a;font-size:.85rem\x7d</style></head>" ++
    "<body><h1>").toList ++
    (Nat.repr status).toList ++ " &middot; ".toList ++ htmlEscape title ++ "</h1><p>".toList

/-- The part of a page after its detail. -/
def pageFoot : Text := "</p><footer>norupo edge</footer></body></html>\n".toList

/-- `error_page`. -/
def errorPage (status : Nat) (title detail : Text) : Page where
  status := status
  headers := [("content-type".toList, "text/html; charset=utf-8".toList),
    ("cache-control".toList, "no-store".toList)]
  body := pageHead status title ++ detail ++ pageFoot

/-- `tunnel_not_found`. -/
def tunnelNotFound (routingKey : Text) : Page :=
  let page := errorPage 404 "Tunnel not found".toList
    ("No agent is serving <code>".toList ++ htmlEscape routingKey ++
      ("</code>. Start one with <code>norupo http 3000 --subdomain &lt;name&gt;</code>.").toList)
  { page with headers := page.headers ++ [("x-norupo-error".toList, "tunnel_not_found".toList)] }

/-- The `Debug` text of a `Duration` of whole milliseconds. -/
def debugMillis (ms : Nat) : Text :=
  if ms = 0 then "0ns".toList
  else if ms < 1000 then (Nat.repr ms).toList ++ "ms".toList
  else
    let rest := (Nat.repr (1000 + ms % 1000)).toList.tail
    (Nat.repr (ms / 1000)).toList ++
      (if ms % 1000 = 0 then [] else '.' :: trimEnd (· = '0') rest) ++ "s".toList

/-- One session of the session table, as `snapshot_json` shows it. -/
structure SessionSnapshot where
  sessionId : Text
  accountId : Text
  openStreams : Nat
  tunnels : List Tunnel
  deriving DecidableEq, Repr

/-- What a node tells about itself. -/
structure NodeStatus where
  nodeId : Text
  nodeAddr : Text
  version : Text
  sessions : List SessionSnapshot
  deriving DecidableEq, Repr

/-- What the edge answers on its own endpoints. The two JSON bodies are given by their fields. -/
inductive InternalReply
  /-- The plain answer to a probe of a load balancer. -/
  | ok
  | health (nodeId nodeAddr version : Text) (sessions tunnels : Nat)
  | tunnels (sessions : List SessionSnapshot)
  | page (page : Page)
  deriving DecidableEq, Repr

/-- `internal_endpoint`. -/
def internalEndpoint (status : NodeStatus) (role : Role) (path : Text) : InternalReply :=
  let path := trimEnd (· = '/') path
  if path = "/__norupo/healthz".toList then
    if role = .publicListener then .ok
    else .health status.nodeId status.nodeAddr status.version status.sessions.length
      (status.sessions.map fun session => session.tunnels.length).sum
  else if path = "/__norupo/tunnels".toList ∧ role = .peerListener then .tunnels status.sessions
  else .page (errorPage 404 "Not found".toList "Unknown edge endpoint.".toList)

/-- The page that `handle` answers with, if it does not pass the request on. -/
def Decision.page (status : NodeStatus) (role : Role) : Decision → Option Page
  | .internal path =>
    match internalEndpoint status role path with
    | .page page => some page
    | _ => none
  | .errorPage status title detail => some (Norupo.errorPage status title detail)
  | .notFound routingKey | .releaseStale routingKey _ => some (tunnelNotFound routingKey)
  | .serve _ | .handOff _ _ => none

/-- How `forward_local` fails before the response has begun. -/
inductive ServeFailure
  /-- `OpenError::SessionGone`. -/
  | sessionGone
  /-- `OpenError::TooManyStreams`. -/
  | tooManyStreams (limit : Nat)
  /-- The agent reset the stream instead of answering. -/
  | unreachable
  /-- No response head within `response_timeout_ms`. -/
  | timedOut (responseTimeoutMs : Nat)

/-- The page for a failure of `forward_local`. -/
def ServeFailure.page (record : RouteRecord) : ServeFailure → Page
  | .sessionGone => tunnelNotFound record.routingKey
  | .tooManyStreams limit => errorPage 503 "Too many concurrent requests".toList
      ("This tunnel is limited to ".toList ++ (Nat.repr limit).toList ++
        " concurrent requests.".toList)
  | .unreachable => errorPage 502 "Local service unreachable".toList
      "The agent could not reach the local service it is forwarding to.".toList
  | .timedOut ms => errorPage 504 "Tunnel timed out".toList
      ("The local service did not respond within ".toList ++ debugMillis ms ++ ".".toList)

/-- How `PeerClient::forward` fails. -/
inductive PeerFailure
  | badAddress
  | unreachable

/-- The page for a failure of `PeerClient::forward`. -/
def PeerFailure.page : PeerFailure → Page
  | .badAddress => errorPage 502 "Bad peer address".toList
      "The routing table names an edge node the cluster cannot address.".toList
  | .unreachable => errorPage 502 "Edge node unreachable".toList
      ("The edge node holding this tunnel did not answer. It may have just restarted; retry " ++
        "shortly.").toList

/-- The pages that a request can be answered with. -/
inductive Answers (node : NodeView) (role : Role) (req : HttpRequest) : Page → Prop
  | decided {page : Page} (status : NodeStatus) :
      (handle node role req).page status role = some page → Answers node role req page
  | failed {record : RouteRecord} (failure : ServeFailure) :
      handle node role req = .serve record → Answers node role req (failure.page record)
  | handedOff {key : Text} {record : RouteRecord} (failure : PeerFailure) :
      handle node role req = .handOff key record → Answers node role req failure.page

/-- The fixed texts of a page around what it quotes. -/
structure Wording where
  status : Nat
  title : Text
  before : Text
  after : Text

/-- The wordings of the edge. -/
def wordings : List Wording :=
  [⟨404, "Not found".toList, "Unknown edge endpoint.".toList, []⟩,
    ⟨400, "Missing host".toList,
      ("The request did not carry a <code>Host</code> header, so the edge cannot tell which " ++
        "tunnel it belongs to.").toList, []⟩,
    ⟨400, "Invalid host".toList, [], []⟩,
    ⟨502, "Routing unavailable".toList,
      ("The edge could not reach its routing table. This is a server-side problem; retry " ++
        "shortly.").toList, []⟩,
    ⟨508, "Routing loop".toList,
      ("The edge cluster disagreed about which node owns this tunnel. Retry in a " ++
        "moment.").toList, []⟩,
    ⟨404, "Tunnel not found".toList, "No agent is serving <code>".toList,
      "</code>. Start one with <code>norupo http 3000 --subdomain &lt;name&gt;</code>.".toList⟩,
    ⟨503, "Too many concurrent requests".toList, "This tunnel is limited to ".toList,
      " concurrent requests.".toList⟩,
    ⟨502, "Local service unreachable".toList,
      "The agent could not reach the local service it is forwarding to.".toList, []⟩,
    ⟨504, "Tunnel timed out".toList, "The local service did not respond within ".toList,
      ".".toList⟩,
    ⟨502, "Bad peer address".toList,
      "The routing table names an edge node the cluster cannot address.".toList, []⟩,
    ⟨502, "Edge node unreachable".toList,
      ("The edge node holding this tunnel did not answer. It may have just restarted; retry " ++
        "shortly.").toList, []⟩]

/-- The markup before and after what a page quotes. -/
def Wording.head (w : Wording) : Text := pageHead w.status w.title ++ w.before

def Wording.foot (w : Wording) : Text := w.after ++ pageFoot

/-- What a page may quote: the host that was asked for, why it is none, the key of the record that
was found, or a number of the configuration. -/
inductive Quotes (node : NodeView) (req : HttpRequest) : Text → Prop
  | nothing : Quotes node req []
  | key {key : Text} : lookupKey req = some key → Quotes node req key
  | reason {host : Text} {e : Error} : requestHost req = some host → normalizeHost host = .error e →
      Quotes node req e.toText
  | registered {key : Text} {record : RouteRecord} : lookupKey req = some key →
      node.lookup key = .ok (some record) → Quotes node req record.routingKey
  | limit (n : Nat) : Quotes node req (Nat.repr n).toList
  | timeout (ms : Nat) : Quotes node req (debugMillis ms)

section Escaping

/-- The escape of one character. -/
theorem htmlEscape_singleton (c : Char) :
    htmlEscape [c] = "&amp;".toList ∧ c = '&' ∨ htmlEscape [c] = "&lt;".toList ∧ c = '<' ∨
      htmlEscape [c] = "&gt;".toList ∧ c = '>' ∨
      htmlEscape [c] = "&quot;".toList ∧ c = Char.ofNat 34 ∨
      htmlEscape [c] = "&#x27;".toList ∧ c = Char.ofNat 39 ∨
      htmlEscape [c] = [c] ∧ c ≠ '&' ∧ c ≠ '<' := by
  have hof {n : Nat} (h : c.toNat = n) : c = Char.ofNat n := by rw [← h, Char.ofNat_toNat]
  simp only [htmlEscape, List.flatMap_cons, List.flatMap_nil, List.append_nil]
  split
  · exact .inl ⟨rfl, ‹_›⟩
  split
  · exact .inr (.inl ⟨rfl, ‹_›⟩)
  split
  · exact .inr (.inr (.inl ⟨rfl, ‹_›⟩))
  split
  · exact .inr (.inr (.inr (.inl ⟨rfl, hof ‹_›⟩)))
  split
  · exact .inr (.inr (.inr (.inr (.inl ⟨rfl, hof ‹_›⟩))))
  · exact .inr (.inr (.inr (.inr (.inr ⟨rfl, ‹_›, ‹_›⟩))))

/-- `html_escape` is an escape for markup. -/
def htmlEscaping : Markup.Escape where
  escape c := htmlEscape [c]
  opens_no_tag c := by
    rcases htmlEscape_singleton c with ⟨h, -⟩ | ⟨h, -⟩ | ⟨h, -⟩ | ⟨h, -⟩ | ⟨h, -⟩ | ⟨h, -, hlt⟩ <;>
      rw [h]
    case inr.inr.inr.inr.inr => simpa using Ne.symm hlt
    all_goals decide
  closed c := by
    rcases htmlEscape_singleton c with ⟨h, -⟩ | ⟨h, -⟩ | ⟨h, -⟩ | ⟨h, -⟩ | ⟨h, -⟩ | ⟨h, hamp, -⟩ <;>
      rw [h]
    case inr.inr.inr.inr.inr => simp [Markup.openAfter, hamp]
    all_goals decide
  decodes c rest := by
    rcases htmlEscape_singleton c with ⟨h, hc⟩ | ⟨h, hc⟩ | ⟨h, hc⟩ | ⟨h, hc⟩ | ⟨h, hc⟩ |
      ⟨h, hamp, -⟩ <;> rw [h]
    case inr.inr.inr.inr.inr => simp [Markup.decode, hamp]
    all_goals rw [hc]; rfl

theorem htmlEscape_eq (raw : Text) : htmlEscape raw = raw.flatMap htmlEscaping.escape := by
  simp only [htmlEscaping, htmlEscape, List.flatMap_cons, List.flatMap_nil, List.append_nil]

/-- What has nothing to escape stays as it is. -/
theorem htmlEscape_eq_self {raw : Text}
    (h : ∀ c ∈ raw, htmlEscape [c] = [c]) : htmlEscape raw = raw := by
  induction raw with
  | nil => rfl
  | cons c raw ih =>
    have hrest := ih fun d hd => h d (List.mem_cons_of_mem c hd)
    rw [htmlEscape_eq, List.flatMap_cons, ← htmlEscape_eq, hrest]
    exact congrArg (· ++ raw) (h c List.mem_cons_self)

/-- Decimal numbers have nothing to escape. -/
theorem htmlEscape_digit {c : Char} (h : isAsciiDigit c = true) : htmlEscape [c] = [c] := by
  rcases htmlEscape_singleton c with ⟨-, hc⟩ | ⟨-, hc⟩ | ⟨-, hc⟩ | ⟨-, hc⟩ | ⟨-, hc⟩ | ⟨he, -, -⟩
  case inr.inr.inr.inr.inr => exact he
  all_goals
    rw [hc] at h
    exact absurd h (by decide)

theorem htmlEscape_repr (n : Nat) : htmlEscape (Nat.repr n).toList = (Nat.repr n).toList :=
  htmlEscape_eq_self fun _ hc =>
    htmlEscape_digit (List.all_eq_true.mp (all_isAsciiDigit_repr n) _ hc)

/-- Durations have nothing to escape. -/
theorem htmlEscape_debugMillis (ms : Nat) : htmlEscape (debugMillis ms) = debugMillis ms := by
  have hunit {unit : Text} (h : unit.all (fun c => htmlEscape [c] = [c]) = true) :
      ∀ c ∈ unit, htmlEscape [c] = [c] := by simpa using h
  have hdigits (n : Nat) : ∀ c ∈ (Nat.repr n).toList, htmlEscape [c] = [c] :=
    fun c hc => htmlEscape_digit (List.all_eq_true.mp (all_isAsciiDigit_repr n) c hc)
  refine htmlEscape_eq_self fun c hc => ?_
  unfold debugMillis at hc
  split at hc
  · exact hunit (by decide) c hc
  split at hc
  · exact (List.mem_append.mp hc).elim (hdigits _ c) (hunit (by decide) c)
  simp only [List.mem_append] at hc
  rcases hc with (hc | hc) | hc
  · exact hdigits _ c hc
  · split at hc
    · cases hc
    rcases List.mem_cons.mp hc with rfl | hc
    · rfl
    · have hrest : c ∈ (Nat.repr (1000 + ms % 1000)).toList.tail := by
        rw [trimEnd, List.mem_reverse] at hc
        exact List.mem_reverse.mp ((List.dropWhile_suffix _).subset hc)
      exact hdigits _ c (List.mem_of_mem_tail hrest)
  · exact hunit (by decide) c hc

end Escaping

section Reading

/-- Whatever its status and its title, the head of a page ends between two tags. -/
theorem complete_pageHead (status : Nat) (title : Text) :
    Markup.Complete (pageHead status title) := by
  have hnumber : Markup.Complete (Nat.repr status).toList := by
    rw [← htmlEscape_repr, htmlEscape_eq]
    exact htmlEscaping.complete_flatMap _
  have htitle : Markup.Complete (htmlEscape title) := by
    rw [htmlEscape_eq]
    exact htmlEscaping.complete_flatMap _
  unfold pageHead
  rw [String.toList_append, String.toList_append, String.toList_append]
  -- The style sheet is written in four parts, and each of them is complete.
  refine .append (.append (.append (.append (.append (.append (.append (.append ?_ hnumber) ?_)
    htitle) (.append (.append (.append ?_ ?_) ?_) ?_)) hnumber) ?_) htitle) ?_
  all_goals decide +kernel

/-- The texts before a quotation are complete, too. -/
theorem complete_head {w : Wording} (h : w ∈ wordings) : Markup.Complete w.head := by
  have hbefore : ∀ w ∈ wordings, Markup.Complete w.before := by decide +kernel
  exact (complete_pageHead w.status w.title).append (hbefore w h)

/-- A page whose detail is a wording around an escaped quotation. -/
theorem errorPage_body (w : Wording) (quoted : Text) :
    (errorPage w.status w.title (w.before ++ htmlEscape quoted ++ w.after)).body =
      w.head ++ htmlEscape quoted ++ w.foot := by
  simp only [errorPage, Wording.head, Wording.foot, List.append_assoc]

variable {node : NodeView} {role : Role} {req : HttpRequest} {page : Page}

/-- A page with a wording around a quotation. -/
def Worded (node : NodeView) (req : HttpRequest) (page : Page) : Prop :=
  ∃ w ∈ wordings, ∃ quoted, Quotes node req quoted ∧ page.status = w.status ∧
    page.body = w.head ++ htmlEscape quoted ++ w.foot

theorem Worded.of_quotes {quoted : Text} (i : Fin wordings.length) (hq : Quotes node req quoted)
    (hstatus : page.status = (wordings.get i).status)
    (hbody : page.body = (errorPage (wordings.get i).status (wordings.get i).title
      ((wordings.get i).before ++ htmlEscape quoted ++ (wordings.get i).after)).body) :
    Worded node req page :=
  ⟨wordings.get i, List.get_mem _ _, quoted, hq, hstatus, by rw [hbody, errorPage_body]⟩

/-- Where nothing is quoted the detail is the wording itself. -/
theorem Worded.of_plain (i : Fin wordings.length) (hafter : (wordings.get i).after = [])
    (hpage : page = errorPage (wordings.get i).status (wordings.get i).title
      (wordings.get i).before) : Worded node req page := by
  subst hpage
  have hnil : htmlEscape [] = [] := rfl
  refine .of_quotes i .nothing rfl ?_
  rw [hafter, hnil, List.append_nil, List.append_nil]

/-- The page for a host that nobody serves. -/
theorem Worded.tunnelNotFound {key : Text} (hq : Quotes node req key) :
    Worded node req (Norupo.tunnelNotFound key) :=
  .of_quotes ⟨5, by decide⟩ hq rfl rfl

/-- The pages of `handle`. -/
theorem Worded.of_handle {status : NodeStatus}
    (h : (handle node role req).page status role = some page) : Worded node req page := by
  unfold handle at h
  split at h
  · -- The edge's own endpoints have one page.
    simp only [Decision.page, internalEndpoint] at h
    split at h
    · rename_i reply hreply
      split at hreply
      · split at hreply <;> cases hreply
      split at hreply
      · cases hreply
      obtain rfl := InternalReply.page.inj hreply
      exact .of_plain ⟨0, by decide⟩ rfl (Option.some.inj h).symm
    · cases h
  rename_i hpath
  split at h
  · exact .of_plain ⟨1, by decide⟩ rfl (Option.some.inj h).symm
  rename_i host hhost
  split at h
  · rename_i e he
    obtain rfl := Option.some.inj h
    exact .of_quotes ⟨2, by decide⟩ (.reason hhost he) rfl (by simp [errorPage, wordings])
  rename_i key hkey
  have hlookup : lookupKey req = some key := by
    simp [lookupKey, hpath, routingKey, hhost, hkey, Except.toOption]
  split at h
  · exact .of_plain ⟨3, by decide⟩ rfl (Option.some.inj h).symm
  · obtain rfl := Option.some.inj h
    exact .tunnelNotFound (.key hlookup)
  rename_i record hrecord
  unfold place at h
  split at h
  · split at h
    · cases h
    · obtain rfl := Option.some.inj h
      exact .tunnelNotFound (.key hlookup)
  split at h
  · exact .of_plain ⟨4, by decide⟩ rfl (Option.some.inj h).symm
  · cases h

/-- Every page that a request is answered with is a wording around an escaped quotation. -/
theorem Worded.of_answers (h : Answers node role req page) : Worded node req page := by
  cases h with
  | decided status h => exact .of_handle h
  | failed failure h =>
    obtain ⟨key, hkey, hlookup, -⟩ := handle_serve h
    cases failure with
    | sessionGone => exact .tunnelNotFound (.registered hkey hlookup)
    | tooManyStreams limit =>
      refine .of_quotes ⟨6, by decide⟩ (.limit limit) rfl ?_
      rw [htmlEscape_repr]
      rfl
    | unreachable => exact .of_plain ⟨7, by decide⟩ rfl rfl
    | timedOut ms =>
      refine .of_quotes ⟨8, by decide⟩ (.timeout ms) rfl ?_
      rw [htmlEscape_debugMillis]
      rfl
  | handedOff failure h =>
    cases failure with
    | badAddress => exact .of_plain ⟨9, by decide⟩ rfl rfl
    | unreachable => exact .of_plain ⟨10, by decide⟩ rfl rfl

end Reading

/-- No request can put markup into a page of the edge: the tags of a page are those of its wording,
and its reader sees the fixed texts with the quoted text between them, character for character. -/
theorem pages_inert {node : NodeView} {role : Role} {req : HttpRequest} {page : Page}
    (h : Answers node role req page) : ∃ w ∈ wordings, ∃ quoted, Quotes node req quoted ∧
      page.status = w.status ∧
      Markup.tags .text page.body = Markup.tags .text (w.head ++ w.foot) ∧
      Markup.shown page.body = Markup.shown w.head ++ quoted ++ Markup.shown w.foot := by
  obtain ⟨w, hw, quoted, hq, hstatus, hbody⟩ := Worded.of_answers h
  refine ⟨w, hw, quoted, hq, hstatus, ?_⟩
  rw [hbody, htmlEscape_eq]
  exact htmlEscaping.read_insert (complete_head hw) quoted w.foot

/-- A host that is a tag, which nobody serves. -/
theorem pages_inert_script : ∃ node req page, Answers node .publicListener req page ∧
    requestHost req = some "<script>".toList ∧ ∃ w ∈ wordings, ∃ quoted,
      Quotes node req quoted ∧ page.status = w.status ∧
      Markup.tags .text page.body = Markup.tags .text (w.head ++ w.foot) ∧
      Markup.shown page.body = Markup.shown w.head ++ quoted ++ Markup.shown w.foot := by
  let node : NodeView := { entryNode with lookup := fun _ => .ok none }
  let req := rootRequest none [⟨hostHeader, asciiBytes "<script>".toList⟩]
  have hdecision : handle node .publicListener req = .notFound "<script>".toList := rfl
  have hanswer : Answers node .publicListener req (tunnelNotFound "<script>".toList) :=
    .decided ⟨[], [], [], []⟩ (by rw [hdecision]; rfl)
  exact ⟨node, req, _, hanswer, rfl, pages_inert hanswer⟩

end Norupo
