import Norupo.Ingress.Response
import Mathlib.Data.Nat.Log

/-!
# How many headers the edge can take

`to_header_map` of `norupo-server/src/http.rs` once more, with the ways in which it can panic. A
header map has at most `2 ^ 15` entries: it refuses to be created for more, counting a third as
slack, and it refuses to grow beyond. The list comes from the agent, and its length is not checked.
-/

namespace Norupo

/-- `MAX_SIZE` of a header map. -/
def headerMapMax : Nat := 2 ^ 15

/-- `usize::next_power_of_two`. -/
def nextPowerOfTwo (n : Nat) : Nat := 2 ^ Nat.clog 2 n

/-- `HeaderMap::with_capacity`; `none` is its panic. -/
def HeaderMap.withCapacity (capacity : Nat) : Option HeaderMap :=
  if nextPowerOfTwo (capacity + capacity / 3) ≤ headerMapMax then some Multimap.empty else none

/-- `HeaderMap::append`; `none` is its panic. -/
def HeaderMap.append? (map : HeaderMap) (name : Text) (value : Bytes) : Option HeaderMap :=
  if (map.append name value).entries.length ≤ headerMapMax then some (map.append name value)
  else none

/-- One round of the loop of `to_header_map`; `none` is a panic. -/
def addHeader? (lib : HttpLibrary) (map : HeaderMap) (header : Header) : Option HeaderMap :=
  if isHopByHop header.name then some map
  else match lib.headerName header.name, lib.headerBytes header.value with
    | some name, some value => map.append? name value
    | _, _ => some map

/-- `to_header_map` with its panics. -/
def toHeaderMap? (lib : HttpLibrary) (headers : List Header) : Option HeaderMap := do
  let map ← HeaderMap.withCapacity headers.length
  headers.foldlM (addHeader? lib) map

/-- The length up to which a map can be created. -/
def maxHeaders : Nat := 24576

/-- The least power of two from a number on is below a power of two exactly when the number is. -/
theorem nextPowerOfTwo_le_iff {n k : Nat} : nextPowerOfTwo n ≤ 2 ^ k ↔ n ≤ 2 ^ k := by
  rw [nextPowerOfTwo, Nat.pow_le_pow_iff_right (by decide), Nat.clog_le_iff_le_pow (by decide)]

/-- A map is created for up to 24576 headers. -/
theorem withCapacity_eq_some {capacity : Nat} {map : HeaderMap} :
    HeaderMap.withCapacity capacity = some map ↔ capacity ≤ maxHeaders ∧ map = Multimap.empty := by
  have hroom : nextPowerOfTwo (capacity + capacity / 3) ≤ headerMapMax ↔ capacity ≤ maxHeaders := by
    rw [headerMapMax, nextPowerOfTwo_le_iff, maxHeaders]
    omega
  rw [HeaderMap.withCapacity, Option.ite_none_right_eq_some, hroom, Option.some.injEq, eq_comm]

/-- One round of the loop, when it does not panic. -/
def addHeader (lib : HttpLibrary) (map : HeaderMap) (header : Header) : HeaderMap :=
  if isHopByHop header.name then map
  else match lib.headerName header.name, lib.headerBytes header.value with
    | some name, some value => map.append name value
    | _, _ => map

/-- A round of the loop does not panic while there is room for one more entry. -/
theorem addHeader?_of_room (lib : HttpLibrary) {map : HeaderMap} (header : Header)
    (h : map.entries.length < headerMapMax) :
    addHeader? lib map header = some (addHeader lib map header) ∧
      (addHeader lib map header).entries.length ≤ map.entries.length + 1 := by
  unfold addHeader? addHeader
  split
  · exact ⟨rfl, by omega⟩
  split
  · rename_i name value _ _
    have hone := map.length_entries_append_le name value
    exact ⟨if_pos (by omega), hone⟩
  · exact ⟨rfl, by omega⟩

/-- The loop does not panic while there is room for an entry of each header. -/
theorem foldlM_addHeader?_of_room (lib : HttpLibrary) {headers : List Header} {map : HeaderMap}
    (h : map.entries.length + headers.length ≤ headerMapMax) :
    headers.foldlM (addHeader? lib) map = some (headers.foldl (addHeader lib) map) := by
  induction headers generalizing map with
  | nil => rfl
  | cons header headers ih =>
    rw [List.length_cons] at h
    have hmax : map.entries.length < headerMapMax := by omega
    obtain ⟨hadd, hlen⟩ := addHeader?_of_room lib header hmax
    rw [List.foldlM_cons, hadd, List.foldl_cons]
    exact ih (by omega)

/-- Up to its limit `to_header_map` builds its map, and beyond it panics. -/
theorem toHeaderMap?_eq (lib : HttpLibrary) (headers : List Header) :
    toHeaderMap? lib headers =
      if headers.length ≤ maxHeaders then some (toHeaderMap lib headers) else none := by
  rw [toHeaderMap?]
  split
  · rename_i h
    have hroom : (Multimap.empty : HeaderMap).entries.length + headers.length ≤ headerMapMax := by
      change 0 + headers.length ≤ 2 ^ 15
      rw [maxHeaders] at h
      omega
    rw [withCapacity_eq_some.mpr ⟨h, rfl⟩]
    exact foldlM_addHeader?_of_room lib hroom
  · rename_i h
    rw [Option.bind_eq_bind, Option.bind_eq_none_iff]
    intro map hmap
    exact absurd (withCapacity_eq_some.mp hmap).1 h

/-- `to_header_map` returns, whatever the headers are, exactly when there are at most 24576 of
them. -/
theorem toHeaderMap?_isSome_iff (lib : HttpLibrary) (headers : List Header) :
    (toHeaderMap? lib headers).isSome = true ↔ headers.length ≤ maxHeaders := by
  rw [toHeaderMap?_eq]
  split
  · rename_i h
    exact iff_of_true rfl h
  · rename_i h
    exact iff_of_false Bool.false_ne_true h

/-- A list of one header more than a map can be created for. -/
theorem toHeaderMap?_too_many : ¬ ∀ (lib : HttpLibrary) (headers : List Header),
    (toHeaderMap? lib headers).isSome = true := by
  intro h
  have hmany := h plainLibrary (List.replicate 24577 ⟨"a".toList, [49]⟩)
  have hlong : ¬ (List.replicate 24577 (⟨"a".toList, [49]⟩ : Header)).length ≤ maxHeaders := by
    rw [List.length_replicate, maxHeaders]
    omega
  rw [toHeaderMap?_eq, if_neg hlong] at hmany
  cases hmany

end Norupo
