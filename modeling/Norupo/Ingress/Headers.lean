import Norupo.Ingress.Route

/-!
# Hop-by-hop headers

`sanitize_headers` of `norupo-server/src/http.rs`, on a header map in iteration order. A
`Connection` header nominates further headers as hop-by-hop. The code reads its values as text, and
skips a value that is not printable ASCII as a whole; the rule itself is stated on the bytes.
-/

namespace Norupo

open Text

/-- `HOP_BY_HOP`. -/
def hopByHop : List Text :=
  ["connection", "keep-alive", "proxy-authenticate", "proxy-authorization", "te", "trailer",
    "transfer-encoding", "upgrade"].map String.toList

def connectionHeader : Text := "connection".toList

/-- The name is in `HOP_BY_HOP`. -/
def isHopByHop (name : Text) : Bool := hopByHop.contains (toAsciiLowercase name)

/-- `HeaderMap::get_all`. -/
def getAll (name : Text) (headers : List Header) : List Bytes :=
  (headers.filter fun header => header.name = name).map Header.value

/-- The names that `sanitize_headers` gathers from the `Connection` headers. -/
def connectionListed (headers : List Header) : List Text :=
  (getAll connectionHeader headers).flatMap fun value =>
    match toStr value with
    | some text => (text.splitOn ',').map fun token => toAsciiLowercase (trim token)
    | none => []

/-- `sanitize_headers`. -/
def sanitizeHeaders (headers : List Header) : List Header :=
  headers.filter fun header =>
    !isHopByHop header.name &&
      !(connectionListed headers).contains (toAsciiLowercase header.name)

/-- A header value as text, one character for each byte. -/
def latin1 (value : Bytes) : Text := value.map fun byte => Char.ofNat byte.toNat

/-- White space inside a header value. -/
def isBlank (c : Char) : Bool := c = ' ' || c = '\t'

/-- A token without the white space around it. -/
def trimBlank (token : Text) : Text := trimEnd isBlank (token.dropWhile isBlank)

/-- A token of the value is the name, ignoring case. -/
def nominates (value : Bytes) (name : Text) : Bool :=
  ((latin1 value).splitOn ',').any fun token => eqIgnoreAsciiCase (trimBlank token) name

/-- The values of `Connection` headers that `sanitize_headers` reads. -/
def isReadable (value : Bytes) : Bool := value.all isVisibleAscii

/-- Some `Connection` header nominates the name. -/
def isNominated (headers : List Header) (name : Text) : Bool :=
  (getAll connectionHeader headers).any fun value => nominates value name

/-- The headers that may cross a hop: those neither in `HOP_BY_HOP` nor nominated. -/
def endToEnd (headers : List Header) : List Header :=
  headers.filter fun header => !isHopByHop header.name && !isNominated headers header.name

/-- The header is nominated by a `Connection` value that is printable ASCII, if it is nominated by
one that is not. -/
def NominatedReadably (headers : List Header) (name : Text) : Prop :=
  (∃ value ∈ getAll connectionHeader headers, isReadable value = false ∧
      nominates value name = true) →
    ∃ value ∈ getAll connectionHeader headers, isReadable value = true ∧
      nominates value name = true

/-- Two filters of a list agree exactly when their predicates agree on its members. -/
theorem filter_eq_filter_iff {α : Type*} {p q : α → Bool} {l : List α} :
    l.filter p = l.filter q ↔ ∀ a ∈ l, p a = q a := by
  constructor
  · intro h a ha
    have hmem : a ∈ l.filter p ↔ a ∈ l.filter q := by rw [h]
    rw [List.mem_filter, List.mem_filter, and_iff_right ha, and_iff_right ha] at hmem
    exact Bool.eq_iff_iff.mpr hmem
  · exact List.filter_congr

/-- White space of printable text is blank. -/
theorem isWhitespace_of_visible {byte : UInt8} (h : isVisibleAscii byte = true) :
    isWhitespace (Char.ofNat byte.toNat) = isBlank (Char.ofNat byte.toNat) := by
  have hcode : (Char.ofNat byte.toNat).toNat = byte.toNat := by
    have hlt := byte.toNat_lt
    have hvalid : byte.toNat.isValidChar := .inl (by omega)
    rw [Char.ofNat, dif_pos hvalid]
    rfl
  have hspace : Char.ofNat byte.toNat = ' ' ↔ byte.toNat = 32 := by
    rw [← Char.toNat_inj, hcode]
    rfl
  have htab : Char.ofNat byte.toNat = '\t' ↔ byte.toNat = 9 := by
    rw [← Char.toNat_inj, hcode]
    rfl
  simp only [isVisibleAscii, Bool.or_eq_true, Bool.and_eq_true, decide_eq_true_eq,
    UInt8.le_iff_toNat_le, UInt8.lt_iff_toNat_lt, ← UInt8.toNat_inj] at h
  have hbounds : 32 ≤ byte.toNat ∧ byte.toNat < 127 ∨ byte.toNat = 9 := h
  rw [Bool.eq_iff_iff]
  simp only [isWhitespace, isBlank, hcode, hspace, htab, Bool.or_eq_true, Bool.and_eq_true,
    decide_eq_true_eq, beq_iff_eq]
  omega

/-- A readable value is read as its bytes, and its tokens are trimmed of blanks. -/
theorem trim_token {value : Bytes} (h : isReadable value = true) {token : Text}
    (ht : token ∈ (latin1 value).splitOn ',') : trim token = trimBlank token := by
  have hchar : ∀ c ∈ token, isWhitespace c = isBlank c := by
    intro c hc
    obtain ⟨byte, hb, rfl⟩ := List.mem_map.mp (mem_of_mem_splitOn ht hc)
    exact isWhitespace_of_visible (List.all_eq_true.mp h byte hb)
  rw [trim, trimBlank, dropWhile_congr hchar]
  exact trimEnd_congr fun c hc => hchar c ((List.dropWhile_suffix _).subset hc)

/-- The names that are gathered are those that readable values nominate. -/
theorem mem_connectionListed {headers : List Header} {name : Text} :
    toAsciiLowercase name ∈ connectionListed headers ↔
      ∃ value ∈ getAll connectionHeader headers, isReadable value = true ∧
        nominates value name = true := by
  rw [connectionListed, List.mem_flatMap]
  refine exists_congr fun value => and_congr_right fun _ => ?_
  cases hr : isReadable value with
  | false =>
    have hnone : toStr value = none := if_neg (by rw [← isReadable, hr]; exact Bool.false_ne_true)
    simp [hnone]
  | true =>
    have hsome : toStr value = some (latin1 value) := if_pos hr
    rw [hsome, List.mem_map, nominates, List.any_eq_true, and_iff_right rfl]
    refine exists_congr fun token => and_congr_right fun ht => ?_
    rw [trim_token hr ht, eqIgnoreAsciiCase, beq_iff_eq]

/-- `sanitize_headers` lets through exactly the headers that may cross a hop, in order and
unchanged, exactly when no header beyond `HOP_BY_HOP` is nominated by unreadable `Connection` values
alone. -/
theorem sanitizeHeaders_eq_iff (headers : List Header) :
    sanitizeHeaders headers = endToEnd headers ↔
      ∀ header ∈ headers, isHopByHop header.name = false →
        NominatedReadably headers header.name := by
  rw [sanitizeHeaders, endToEnd, filter_eq_filter_iff]
  refine forall₂_congr fun header _ => ?_
  cases isHopByHop header.name with
  | true => simp
  | false =>
    have hlisted : (connectionListed headers).contains (toAsciiLowercase header.name) = true ↔
        ∃ value ∈ getAll connectionHeader headers, isReadable value = true ∧
          nominates value header.name = true := by
      rw [List.contains_iff_mem, mem_connectionListed]
    have hnominated : isNominated headers header.name = true ↔
        (∃ value ∈ getAll connectionHeader headers, isReadable value = true ∧
          nominates value header.name = true) ∨
        ∃ value ∈ getAll connectionHeader headers, isReadable value = false ∧
          nominates value header.name = true := by
      rw [isNominated, List.any_eq_true]
      constructor
      · rintro ⟨value, hv, hn⟩
        cases hr : isReadable value with
        | true => exact .inl ⟨value, hv, hr, hn⟩
        | false => exact .inr ⟨value, hv, hr, hn⟩
      · rintro (⟨value, hv, -, hn⟩ | ⟨value, hv, -, hn⟩)
        · exact ⟨value, hv, hn⟩
        · exact ⟨value, hv, hn⟩
    rw [eq_self_iff_true, true_imp_iff, Bool.not_false, Bool.true_and, Bool.true_and,
      Bool.not_inj_iff, Bool.eq_iff_iff, hlisted, hnominated, NominatedReadably, iff_self_or]

/-- A `Connection` value with one byte that is no ASCII nominates nothing any more. -/
theorem sanitizeHeaders_unreadable : ¬ ∀ headers : List Header,
    sanitizeHeaders headers = endToEnd headers := by
  intro h
  have heq := h [⟨connectionHeader, [120, 45, 97, 44, 233]⟩, ⟨"x-a".toList, [49]⟩]
  revert heq
  decide

end Norupo
