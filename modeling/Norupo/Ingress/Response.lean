import Norupo.Agent.Target
import Norupo.Foundation.Multimap
import Norupo.Ingress.HandOff
import Norupo.Ingress.Headers

/-!
# The headers of a response

The way of the local service's headers to the public client: `serve_stream` of
`norupo-client/src/agent.rs` copies them into the response head, and `build_response` turns the head
into a header map again by `to_header_map` of `norupo-server/src/http.rs`. That function drops the
names of `HOP_BY_HOP` and nothing else, so a nomination by `Connection` is forgotten. The header
`x-norupo-stream`, which `build_response` then sets to the id of the stream, is left out.
-/

namespace Norupo

/-- `HeaderMap`. -/
abbrev HeaderMap := Multimap Text Bytes

/-- The headers of a map in order of iteration; this is how `serve_stream` copies them. -/
def HeaderMap.headers (map : HeaderMap) : List Header := map.iter.map fun e => ⟨e.1, e.2⟩

/-- `to_header_map`: rebuilds a header map, dropping what is malformed or hop-by-hop. -/
def toHeaderMap (lib : HttpLibrary) (headers : List Header) : HeaderMap :=
  headers.foldl (fun map header =>
    if isHopByHop header.name then map
    else match lib.headerName header.name, lib.headerBytes header.value with
      | some name, some value => map.append name value
      | _, _ => map) Multimap.empty

/-- A header as it stands in a header map: its name and its value are read back as they are. -/
def HttpLibrary.WellFormed (lib : HttpLibrary) (header : Header) : Prop :=
  lib.headerName header.name = some header.name ∧
    lib.headerBytes header.value = some header.value

instance (lib : HttpLibrary) (header : Header) : Decidable (lib.WellFormed header) :=
  inferInstanceAs (Decidable (_ ∧ _))

/-- On well-formed headers only the names of `HOP_BY_HOP` are dropped. -/
theorem toHeaderMap_eq_ofList {lib : HttpLibrary} {pairs : List (Text × Bytes)}
    (h : ∀ e ∈ pairs, lib.WellFormed ⟨e.1, e.2⟩) :
    toHeaderMap lib (pairs.map fun e => ⟨e.1, e.2⟩) =
      .ofList (pairs.filter fun e => !isHopByHop e.1) := by
  induction pairs using List.reverseRecOn with
  | nil => rfl
  | append_singleton pairs e ih =>
    have hpairs := ih fun d hd => h d (List.mem_append_left _ hd)
    obtain ⟨hname, hvalue⟩ := h e (List.mem_append_right _ (List.mem_singleton_self e))
    unfold toHeaderMap Multimap.ofList at hpairs ⊢
    rw [List.map_append, List.foldl_append, hpairs, List.filter_append, List.foldl_append]
    simp only [List.map_cons, List.map_nil, List.foldl_cons, List.foldl_nil, List.filter_cons,
      List.filter_nil]
    cases isHopByHop e.1 with
    | true => rfl
    | false => simp [hname, hvalue]

/-- What the public client receives of a local service's headers. -/
theorem headers_toHeaderMap {lib : HttpLibrary} {map : HeaderMap}
    (h : ∀ header ∈ map.headers, lib.WellFormed header) :
    (toHeaderMap lib map.headers).headers =
      map.headers.filter fun header => !isHopByHop header.name := by
  have hpairs : ∀ e ∈ map.iter, lib.WellFormed ⟨e.1, e.2⟩ :=
    fun e he => h _ (List.mem_map_of_mem he)
  rw [HeaderMap.headers, HeaderMap.headers, toHeaderMap_eq_ofList hpairs,
    Multimap.iter_ofList_filter map fun name => !isHopByHop name, List.filter_map]
  rfl

/-- The public client receives exactly the headers that may cross a hop, in order and with their
multiplicity, exactly when no `Connection` header of the response nominates one of its headers
beyond `HOP_BY_HOP`. -/
theorem response_headers_iff (lib : HttpLibrary) (map : HeaderMap)
    (h : ∀ header ∈ map.headers, lib.WellFormed header) :
    (toHeaderMap lib map.headers).headers = endToEnd map.headers ↔
      ∀ header ∈ map.headers, isNominated map.headers header.name = true →
        isHopByHop header.name = true := by
  rw [headers_toHeaderMap h, endToEnd, filter_eq_filter_iff]
  refine forall₂_congr fun header _ => ?_
  cases isHopByHop header.name <;> cases isNominated map.headers header.name <;> simp

/-- A response with one nomination that `HOP_BY_HOP` covers and a repeated header. -/
def cookieResponse : HeaderMap :=
  .ofList [("connection".toList, asciiBytes "keep-alive".toList),
    ("keep-alive".toList, asciiBytes "timeout=5".toList),
    ("set-cookie".toList, asciiBytes "a=1".toList), ("set-cookie".toList, asciiBytes "b=2".toList)]

/-- Both cookies survive, and nothing else. -/
theorem response_headers_cookie :
    (toHeaderMap plainLibrary cookieResponse.headers).headers = endToEnd cookieResponse.headers :=
  (response_headers_iff plainLibrary cookieResponse (by decide)).mpr (by decide)

/-- A header that the local service nominates as hop-by-hop reaches the public client. -/
theorem response_headers_nominated : ¬ ∀ (lib : HttpLibrary) (map : HeaderMap),
    (∀ header ∈ map.headers, lib.WellFormed header) →
      (toHeaderMap lib map.headers).headers = endToEnd map.headers := by
  intro h
  have heq := h plainLibrary (.ofList [("connection".toList, asciiBytes "x-debug".toList),
    ("x-debug".toList, asciiBytes "1".toList)]) (by decide)
  revert heq
  decide

end Norupo
