import Norupo.Foundation.Pattern
import Norupo.Registry.Redis

/-!
# The owner of a stored record

The scripts that run in Redis find the owner of a record with a Lua pattern, and the registry
decodes the record by splitting it at its tabs. Both come down to the parts of the text: the pattern
captures the fourth part whenever there is one, and `decode` takes the first six.
-/

namespace Norupo

open Text Pattern

/-- The pattern of the scripts, `^[^\t]*\t[^\t]*\t[^\t]*\t([^\t]*)`. -/
def ownerPattern : List (Item Char) :=
  [.star (· ≠ tab), .single (· = tab), .star (· ≠ tab), .single (· = tab), .star (· ≠ tab),
    .single (· = tab), .openCapture, .star (· ≠ tab), .closeCapture]

section Matching

variable {items : List (Item Char)} {start : Text} {captured : Option Text}

/-- The repetition in front of a tab skips a field, and it gives nothing back. -/
theorem matchItems_field (text : Text) :
    matchItems (.star (· ≠ tab) :: .single (· = tab) :: items) start captured text =
      (skipField text).bind (matchItems items start captured) := by
  rw [matchItems, maxExpand_of_stops, skipField]
  · cases hd : text.dropWhile (· ≠ tab) with
    | nil => rfl
    | cons c rest =>
      have hc : c = tab := by
        have hnot := List.head?_dropWhile_not (fun d : Char => decide (d ≠ tab)) text
        rw [hd] at hnot
        simpa using hnot
      simp [matchItems, hc]
  · intro c rest hc
    have hne : c ≠ tab := of_decide_eq_true hc
    simp [matchItems, hne]

/-- The capture at the end takes all up to the next tab. -/
theorem matchItems_capture (start text : Text) :
    matchItems [.openCapture, .star (· ≠ tab), .closeCapture] start captured text =
      some (some (text.takeWhile (· ≠ tab))) := by
  have hlength : text.length - (text.dropWhile (· ≠ tab)).length =
      (text.takeWhile (· ≠ tab)).length := by
    have := congrArg List.length
      (List.takeWhile_append_dropWhile :
        text.takeWhile (· ≠ tab) ++ text.dropWhile (· ≠ tab) = text)
    rw [List.length_append] at this
    omega
  rw [matchItems, matchItems, maxExpand_of_matches rfl, matchItems, matchItems, hlength]
  rw [← List.prefix_iff_eq_take.mp (List.takeWhile_prefix _)]

end Matching

/-- The model of the scripts reads what their pattern captures. -/
theorem capture_ownerPattern (current : Text) :
    Pattern.capture ownerPattern current = matchOwner current := by
  have hfields : matchItems ownerPattern [] none current = (matchOwner current).map some := by
    simp only [ownerPattern, matchItems_field, matchOwner, Option.bind_eq_bind]
    cases skipField current with
    | none => rfl
    | some second =>
      rw [Option.bind_some, Option.bind_some]
      cases skipField second with
      | none => rfl
      | some third =>
        rw [Option.bind_some, Option.bind_some]
        cases skipField third with
        | none => rfl
        | some fourth => exact matchItems_capture [] fourth
  rw [Pattern.capture, hfields]
  cases matchOwner current <;> rfl

/-- The scripts read what their pattern captures. Of every text that is decoded this is the session
id of the record; and a record without tabs is decoded from its stored text, which names its session
to the pattern and is never the empty success code. -/
theorem owner_agrees :
    (∀ current, matchOwner current = Pattern.capture ownerPattern current) ∧
      (∀ raw record, RouteRecord.decode raw = .ok record →
        Pattern.capture ownerPattern raw = some record.sessionId) ∧
      ∀ record : RouteRecord, record.TabFree →
        RouteRecord.decode record.encode = .ok record ∧
          Pattern.capture ownerPattern record.encode = some record.sessionId ∧
          record.encode ≠ [] := by
  refine ⟨fun current => (capture_ownerPattern current).symm, ?_, ?_⟩
  · intro raw record h
    have hparts := RouteRecord.decode_eq_ok.mp h
    rw [capture_ownerPattern, matchOwner_eq_getElem?,
      ← List.getElem?_take_of_lt (by decide : 3 < 6), hparts]
    rfl
  · intro record hfree
    refine ⟨(RouteRecord.decode_encode_iff record).mpr hfree, ?_, ?_⟩
    · rw [capture_ownerPattern]
      exact matchOwner_encode hfree
    · exact List.isEmpty_eq_false_iff.mp record.encode_isEmpty

/-- A text with empty fields and with a field too many. -/
theorem owner_agrees_extra :
    Pattern.capture ownerPattern "a.tunnel.com\t\t\tses_1\ttun_1\t\textra".toList =
      some "ses_1".toList := by
  have hdecode : RouteRecord.decode "a.tunnel.com\t\t\tses_1\ttun_1\t\textra".toList =
      .ok ⟨"a.tunnel.com".toList, [], [], "ses_1".toList, "tun_1".toList, []⟩ := rfl
  exact owner_agrees.2.1 _ _ hdecode

end Norupo
