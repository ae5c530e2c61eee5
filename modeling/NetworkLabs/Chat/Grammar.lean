import NetworkLabs.Chat.Dpp
import NetworkLabs.Foundations.Occurrence

/-!
# Parsing what was built

`strstr` finds the leftmost delimiter, and a colon at the end of a username forms one with the
delimiter behind it. All other transmissions are parsed as they were built.
-/

namespace NetworkLabs.Chat

open Foundations

/-- `strstr` finds the leftmost delimiter if there is one. -/
theorem splitDelimiter_spec (s : List Byte) :
    (∀ before after, splitDelimiter s = some (before, after) →
      SplitsAt dppDelimiter s before after) ∧
      (splitDelimiter s = none → ¬dppDelimiter <:+: s) := by
  induction s with
  | nil =>
    refine ⟨fun before after h => ?_, fun _ => by decide⟩
    cases h
  | cons b s ih =>
    cases s with
    | nil =>
      refine ⟨fun before after h => ?_, fun _ hinfix => ?_⟩
      · cases h
      · have hlength := hinfix.length_le
        simp [dppDelimiter] at hlength
    | cons c bs =>
      obtain ⟨ihsome, ihnone⟩ := ih
      by_cases hfront : [b, c] = dppDelimiter
      · rw [splitDelimiter, if_pos hfront]
        refine ⟨fun before after h => ?_, fun h => ?_⟩
        · cases h
          have hsplit := SplitsAt.front dppDelimiter bs
          rwa [← hfront] at hsplit ⊢
        · cases h
      · have hno : ¬dppDelimiter <+: b :: c :: bs := by
          rintro ⟨rest, hrest⟩
          obtain ⟨hb, hrest⟩ := List.cons.inj hrest
          rw [← hb, ← (List.cons.inj hrest).1] at hfront
          exact hfront rfl
        rw [splitDelimiter, if_neg hfront]
        refine ⟨fun before after h => ?_, fun h hinfix => ?_⟩
        · obtain ⟨⟨before', after'⟩, hrest, heq⟩ := Option.map_eq_some_iff.mp h
          cases heq
          exact (ihsome _ _ hrest).cons hno
        · rcases List.infix_cons_iff.mp hinfix with hfirst | hlater
          · exact hno hfirst
          · exact ihnone (Option.map_eq_none_iff.mp h) hlater

/-- What `strstr` finds is the leftmost delimiter, and it finds one wherever there is one. -/
theorem splitDelimiter_eq_some_iff {s before after : List Byte} :
    splitDelimiter s = some (before, after) ↔ SplitsAt dppDelimiter s before after := by
  refine ⟨(splitDelimiter_spec s).1 before after, fun h => ?_⟩
  cases hsplit : splitDelimiter s with
  | none => exact absurd h.occurs ((splitDelimiter_spec s).2 hsplit)
  | some parts =>
    obtain ⟨before', after'⟩ := parts
    obtain ⟨rfl, rfl⟩ := h.unique ((splitDelimiter_spec s).1 before' after' hsplit)
    rfl

/-- `strstr` finds nothing in exactly the strings without a delimiter. -/
theorem splitDelimiter_eq_none_iff {s : List Byte} :
    splitDelimiter s = none ↔ ¬dppDelimiter <:+: s := by
  refine ⟨(splitDelimiter_spec s).2, fun h => ?_⟩
  cases hsplit : splitDelimiter s with
  | none => rfl
  | some parts => exact absurd ((splitDelimiter_spec s).1 parts.1 parts.2 hsplit).occurs h

/-- Parsing gives exactly the transmissions back whose username does not run into the delimiter
behind it. -/
theorem parseTransmission_build_iff {t : Transmission} (h : t.Sendable) :
    parseTransmission t.build = .ok (some t) ↔ t.Separated :=
  ⟨fun hparse => (of_parseTransmission hparse).2, parseTransmission_build h⟩

/-- The transmission of user `a` with the text `::b` is one of them. -/
theorem parseTransmission_build_colons :
    parseTransmission (Transmission.message [0x61] [0x3a, 0x3a, 0x62]).build =
      .ok (some (.message [0x61] [0x3a, 0x3a, 0x62])) :=
  (parseTransmission_build_iff (t := .message [0x61] [0x3a, 0x3a, 0x62])
    ⟨⟨by decide, by decide, rfl⟩, by decide, by decide⟩).mpr
    (by rw [Transmission.Separated]; decide)

/-- User `a:` says `hi`, which is parsed as user `a` saying `:hi`. -/
theorem parseTransmission_build_fails :
    (Transmission.message [0x61, 0x3a] [0x68, 0x69]).Sendable ∧
      parseTransmission (Transmission.message [0x61, 0x3a] [0x68, 0x69]).build =
        .ok (some (.message [0x61] [0x3a, 0x68, 0x69])) ∧
      ¬∀ t : Transmission, t.Sendable → parseTransmission t.build = .ok (some t) := by
  have hsendable : (Transmission.message [0x61, 0x3a] [0x68, 0x69]).Sendable :=
    ⟨⟨by decide, by decide, rfl⟩, by decide, by decide⟩
  have hparse : parseTransmission (Transmission.message [0x61, 0x3a] [0x68, 0x69]).build =
      .ok (some (.message [0x61] [0x3a, 0x68, 0x69])) := by
    rw [parseTransmission, if_pos (Transmission.length_build_lt hsendable)]
    rfl
  refine ⟨hsendable, hparse, fun hall => ?_⟩
  have hback := hparse.symm.trans (hall _ hsendable)
  cases hback

end NetworkLabs.Chat
