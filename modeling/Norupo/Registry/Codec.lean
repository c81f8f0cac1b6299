import Norupo.Core.Error
import Norupo.Registry.Memory

/-!
# Records as stored text

`RouteRecord::encode` and `decode` of `norupo-core/src/registry.rs`, and the pattern by which the
Redis scripts read the owner out of a stored record. Fields are separated by tabs and nothing
escapes a tab inside a field, so a record survives exactly when none of its fields has one.
-/

namespace Norupo

open Text

/-- The separator of a stored record. -/
def tab : Char := '\t'

namespace RouteRecord

/-- The fields in the order in which they are stored. -/
def fields (record : RouteRecord) : List Text :=
  [record.routingKey, record.nodeId, record.nodeAddr, record.sessionId, record.tunnelId,
    record.accountId]

/-- `RouteRecord::encode`. -/
def encode (record : RouteRecord) : Text := [tab].intercalate record.fields

/-- The `next` closure of `decode`. -/
def nextField (parts : List Text) (n : Nat) (name : Text) : Except Error Text :=
  match parts[n]? with
  | some part => .ok part
  | none =>
    .error (.registryUnavailable ("record missing field `".toList ++ name ++ "`".toList))

/-- `RouteRecord::decode`. -/
def decode (raw : Text) : Except Error RouteRecord := do
  let parts := raw.splitOn tab
  let routingKey ← nextField parts 0 "routing_key".toList
  let nodeId ← nextField parts 1 "node_id".toList
  let nodeAddr ← nextField parts 2 "node_addr".toList
  let sessionId ← nextField parts 3 "session_id".toList
  let tunnelId ← nextField parts 4 "tunnel_id".toList
  let accountId ← nextField parts 5 "account_id".toList
  return ⟨routingKey, nodeId, nodeAddr, sessionId, tunnelId, accountId⟩

/-- No field has a tab. -/
def TabFree (record : RouteRecord) : Prop := ∀ field ∈ record.fields, tab ∉ field

instance (record : RouteRecord) : Decidable record.TabFree :=
  inferInstanceAs (Decidable (∀ field ∈ record.fields, tab ∉ field))

end RouteRecord

/-- One `[^\t]*\t` of a script's pattern. -/
def skipField (text : Text) : Option Text :=
  match text.dropWhile (· ≠ tab) with
  | [] => none
  | _ :: rest => some rest

/-- The owner that the scripts read, `^[^\t]*\t[^\t]*\t[^\t]*\t([^\t]*)`. -/
def matchOwner (current : Text) : Option Text := do
  let rest ← skipField current
  let rest ← skipField rest
  let rest ← skipField rest
  return rest.takeWhile (· ≠ tab)

/-- The parts of a split text do not contain the separator. -/
theorem not_mem_of_mem_splitOn {c : Char} {text part : Text} (h : part ∈ text.splitOn c) :
    c ∉ part := by
  induction text generalizing part with
  | nil =>
    rw [List.splitOn_nil, List.mem_singleton] at h
    rw [h]
    exact List.not_mem_nil
  | cons x text ih =>
    rw [List.splitOn_cons_eq_if_modifyHead] at h
    split at h
    · rcases List.mem_cons.mp h with rfl | h
      · exact List.not_mem_nil
      · exact ih h
    · rename_i hx
      obtain ⟨first, rest, hs⟩ := List.exists_cons_of_ne_nil (List.splitOn_ne_nil c text)
      rw [hs] at h ih
      rcases List.mem_cons.mp h with rfl | h
      · rw [List.mem_cons, not_or]
        exact ⟨fun hc => hx (by simp [hc]), ih List.mem_cons_self⟩
      · exact ih (List.mem_cons_of_mem first h)

namespace RouteRecord

theorem nextField_eq_ok {parts : List Text} {n : Nat} {name part : Text} :
    nextField parts n name = .ok part ↔ parts[n]? = some part := by
  unfold nextField
  split <;> simp_all

/-- A tab-free record is what its stored text splits into. -/
theorem TabFree.splitOn_encode {record : RouteRecord} (h : record.TabFree) :
    record.encode.splitOn tab = record.fields :=
  List.splitOn_intercalate tab h (by simp [fields])

/-- A text is decoded exactly when it has at least six parts, and then the first six are the
fields. -/
theorem decode_eq_ok {raw : Text} {record : RouteRecord} :
    decode raw = .ok record ↔ (raw.splitOn tab).take 6 = record.fields := by
  simp only [decode, bind_eq_ok, nextField_eq_ok, pure_eq_ok]
  generalize raw.splitOn tab = parts
  constructor
  · rintro ⟨routingKey, h0, nodeId, h1, nodeAddr, h2, sessionId, h3, tunnelId, h4, accountId, h5,
      rfl⟩
    have hfields : parts.take 6 = [parts[0]?, parts[1]?, parts[2]?, parts[3]?, parts[4]?,
        parts[5]?].filterMap id := by
      rcases parts with _ | ⟨_, _ | ⟨_, _ | ⟨_, _ | ⟨_, _ | ⟨_, _ | ⟨_, rest⟩⟩⟩⟩⟩⟩ <;> simp
    rw [hfields, h0, h1, h2, h3, h4, h5]
    rfl
  · intro h
    rw [← List.take_append_drop 6 parts, h]
    exact ⟨_, rfl, _, rfl, _, rfl, _, rfl, _, rfl, _, rfl, rfl⟩

/-- Decoding an encoded record gives the record back exactly when no field has a tab. -/
theorem decode_encode_iff (record : RouteRecord) :
    decode record.encode = .ok record ↔ record.TabFree := by
  rw [decode_eq_ok]
  constructor
  · intro h field hfield
    rw [← h] at hfield
    exact not_mem_of_mem_splitOn (List.mem_of_mem_take hfield)
  · intro h
    rw [h.splitOn_encode]
    rfl

end RouteRecord

/-- A field without tabs is skipped as a whole. -/
theorem skipField_append {field : Text} (h : tab ∉ field) (rest : Text) :
    skipField (field ++ tab :: rest) = some rest := by
  rw [skipField, dropWhile_ne_append h]

/-- A text is split into what stands in front of its first tab and the parts of the rest. -/
theorem splitOn_eq_cons (text : Text) : text.splitOn tab = text.takeWhile (· ≠ tab) ::
    ((skipField text).map (List.splitOn tab)).getD [] := by
  cases hr : splitOnce tab text with
  | none =>
    have hfree := splitOnce_eq_none.mp hr
    have hskip : skipField text = none := by
      rw [skipField, List.dropWhile_eq_nil_iff.mpr (decide_ne_of_notMem hfree)]
    rw [List.splitOn_eq_singleton hfree, takeWhile_ne_of_notMem hfree, hskip]
    rfl
  | some p =>
    obtain ⟨hfree, rfl⟩ := splitOnce_eq_some hr
    rw [List.splitOn_append_cons_self_of_not_mem hfree, takeWhile_ne_append hfree,
      skipField_append hfree]
    rfl

theorem getElem?_splitOn_succ (text : Text) (n : Nat) :
    (text.splitOn tab)[n + 1]? = (skipField text).bind fun rest => (rest.splitOn tab)[n]? := by
  rw [splitOn_eq_cons, List.getElem?_cons_succ]
  cases skipField text <;> rfl

/-- The scripts read the fourth part of a text, if it has four. -/
theorem matchOwner_eq_getElem? (text : Text) : matchOwner text = (text.splitOn tab)[3]? := by
  have hfirst (rest : Text) : (rest.splitOn tab)[0]? = some (rest.takeWhile (· ≠ tab)) := by
    rw [splitOn_eq_cons]
    rfl
  simp only [getElem?_splitOn_succ, hfirst]
  rfl

/-- The scripts read the session id of a tab-free record. -/
theorem matchOwner_encode {record : RouteRecord} (h : record.TabFree) :
    matchOwner record.encode = some record.sessionId := by
  rw [matchOwner_eq_getElem?, h.splitOn_encode]
  rfl

end Norupo
