import Mathlib.Data.List.TakeWhile
import NetworkLabs.Foundations.LittleEndian
import NetworkLabs.Foundations.Memory

/-!
# The Dual-Purpose Protocol

`dpp.c` on strings of bytes. A transmission has no length and no end marker:
`parse_transmission` takes what one `recv` returned for exactly one transmission.
-/

namespace NetworkLabs.Chat

open Foundations

/-- `DPP_DELIMITER`, the string "::". -/
def dppDelimiter : List Byte := [0x3a, 0x3a]

/-- `DPP_MESSAGE`, the string "MSG". -/
def dppMessage : List Byte := [0x4d, 0x53, 0x47]

/-- `DPP_JOIN`, the string "HELO". -/
def dppJoin : List Byte := [0x48, 0x45, 0x4c, 0x4f]

/-- `DPP_QUIT`, the string "BYE". -/
def dppQuit : List Byte := [0x42, 0x59, 0x45]

/-- `MAX_MESSAGE_LENGTH`, the characters of a message at most. -/
@[simp] def maxMessageLength : ℕ := 512

/-- `MAX_USERNAME_LENGTH`, the characters of a username at most. -/
@[simp] def maxUsernameLength : ℕ := 20

/-- `DPP_MAX_OVERHEAD`, what the longest type and the delimiters take. -/
@[simp] def dppMaxOverhead : ℕ := 8

/-- `BUFFER_SIZE` of the client and the server, with one more character for the terminator. -/
@[simp] def bufferSize : ℕ := maxMessageLength + maxUsernameLength + dppMaxOverhead + 1

/-- `build_message`, without the terminator that `sprintf` writes behind it. -/
def buildMessage (username message : List Byte) : List Byte :=
  dppMessage ++ dppDelimiter ++ username ++ dppDelimiter ++ message

/-- `build_join`, which names the user and has one delimiter only. -/
def buildJoin (username : List Byte) : List Byte := dppJoin ++ dppDelimiter ++ username

/-- `build_quit`, which differs from `build_join` in its type only. -/
def buildQuit (username : List Byte) : List Byte := dppQuit ++ dppDelimiter ++ username

/-- What a transmission says: its type with the parts that go with it. -/
inductive Transmission where
  | message (username text : List Byte)
  | join (username : List Byte)
  | quit (username : List Byte)
  deriving DecidableEq, Repr

/-- The bytes that a client sends for a transmission, by the `build_x` function of its type. -/
def Transmission.build : Transmission → List Byte
  | .message username text => buildMessage username text
  | .join username => buildJoin username
  | .quit username => buildQuit username

/-- `strstr` for the delimiter, with the parts of the string before and after it. -/
def splitDelimiter : List Byte → Option (List Byte × List Byte)
  | b :: c :: bs =>
    if [b, c] = dppDelimiter then some ([], bs)
    else (splitDelimiter (c :: bs)).map fun (before, after) => (b :: before, after)
  | _ => none

/-- The string that a buffer starts with, up to the first NUL. -/
def cString (received : List Byte) : List Byte := received.takeWhile (· ≠ 0)

/-- The end of `parse_transmission`: the type is compared, with `none` for
`DPP_UNKNOWN_TYPE`. A message without a second delimiter gets a pointer to no string. -/
def interpret (type rest : List Byte) : Except Fault (Option Transmission) :=
  let username := (splitDelimiter rest).elim rest Prod.fst
  if type = dppMessage then
    match splitDelimiter rest with
    | some (_, text) => .ok (some (.message username text))
    | none => .error .outOfBounds
  else if type = dppJoin then .ok (some (.join username))
  else if type = dppQuit then .ok (some (.quit username))
  else .ok none

/-- `parse_transmission` on the bytes that `recv` returned; the terminating zero is written
behind them. -/
def parseTransmission (received : List Byte) : Except Fault (Option Transmission) :=
  if received.length < bufferSize then
    match splitDelimiter (cString received) with
    | some (type, rest) => interpret type rest
    | none => .ok none
  else .error .outOfBounds

/-- `is_quit`, which compares the first three characters of the buffer, whatever was received
there and whatever follows. -/
def isQuit (transmissionBuffer : Memory Byte) : Bool :=
  transmissionBuffer.read 0 dppQuit.length == dppQuit

/-- A username that `main` of the client accepts from its command line. -/
structure AdmittedUsername (username : List Byte) : Prop where
  length_le : username.length ≤ maxUsernameLength
  no_nul : 0 ∉ username
  no_delimiter : splitDelimiter username = none

/-- A line that `fgets` reads, up to the first zero byte in it. -/
structure AdmittedMessage (message : List Byte) : Prop where
  length_le : message.length ≤ maxMessageLength
  no_nul : 0 ∉ message
  newline_last : 0x0a ∉ message.dropLast

/-- A transmission that a client can send, with a username and a text that it admits. -/
def Transmission.Admitted : Transmission → Prop
  | .message username text => AdmittedUsername username ∧ AdmittedMessage text
  | .join username | .quit username => AdmittedUsername username

/-- A transmission whose username is admitted and whose text is any string of the length that
the client reads. -/
def Transmission.Sendable : Transmission → Prop
  | .message username text =>
    AdmittedUsername username ∧ text.length ≤ maxMessageLength ∧ 0 ∉ text
  | .join username | .quit username => AdmittedUsername username

/-- The username of a message does not run into the delimiter behind it. -/
def Transmission.Separated : Transmission → Prop
  | .message username _ => username.getLast? ≠ some 0x3a
  | .join _ | .quit _ => True

/-- A line that `fgets` reads is such a text. -/
theorem Transmission.Admitted.sendable {t : Transmission} (h : t.Admitted) : t.Sendable := by
  cases t with
  | message username text => exact ⟨h.1, h.2.length_le, h.2.no_nul⟩
  | join username => exact h
  | quit username => exact h

/-- Where the delimiter is found, and that it is not found earlier. -/
theorem of_splitDelimiter {s before after : List Byte}
    (h : splitDelimiter s = some (before, after)) :
    s = before ++ dppDelimiter ++ after ∧ before.getLast? ≠ some 0x3a := by
  induction s generalizing before with
  | nil => cases h
  | cons b s ih =>
    cases s with
    | nil => cases h
    | cons c bs =>
      rw [splitDelimiter] at h
      split at h
      · rename_i hdelimiter
        cases h
        rw [List.nil_append, ← hdelimiter]
        exact ⟨rfl, nofun⟩
      · rename_i hno
        obtain ⟨⟨rest, after'⟩, hrest, heq⟩ := Option.map_eq_some_iff.mp h
        cases heq
        obtain ⟨hsplit, hlast⟩ := ih hrest
        refine ⟨by rw [hsplit]; rfl, ?_⟩
        cases rest with
        | nil =>
          -- the delimiter would have been found one byte earlier
          intro hb
          simp only [List.getLast?_singleton, Option.some.injEq] at hb
          simp only [dppDelimiter, List.nil_append, List.cons_append, List.cons.injEq] at hsplit
          exact hno (by rw [hb, hsplit.1]; rfl)
        | cons d ds => simpa using hlast

/-- The delimiter is found behind a part that has none and does not run into it. -/
theorem splitDelimiter_append {before : List Byte} (after : List Byte)
    (hbefore : splitDelimiter before = none) (hlast : before.getLast? ≠ some 0x3a) :
    splitDelimiter (before ++ dppDelimiter ++ after) = some (before, after) := by
  induction before with
  | nil => rfl
  | cons b before ih =>
    cases before with
    | nil =>
      simp only [List.getLast?_singleton, ne_eq, Option.some.injEq] at hlast
      have hrest : splitDelimiter (dppDelimiter ++ after) = some ([], after) := rfl
      have hno : [b, 0x3a] ≠ dppDelimiter := by
        intro heq
        exact hlast (List.cons.inj heq).1
      have hfirst : splitDelimiter ([b] ++ dppDelimiter ++ after) =
          (splitDelimiter (dppDelimiter ++ after)).map fun (x, y) => (b :: x, y) := by
        exact if_neg hno
      rw [hfirst, hrest]
      rfl
    | cons c bs =>
      rw [splitDelimiter] at hbefore
      split at hbefore
      · cases hbefore
      · rename_i hno
        have hrest := ih (Option.map_eq_none_iff.mp hbefore) (by simpa using hlast)
        have hfirst : splitDelimiter (b :: c :: bs ++ dppDelimiter ++ after) =
            (splitDelimiter (c :: bs ++ dppDelimiter ++ after)).map fun (x, y) => (b :: x, y) := by
          exact if_neg hno
        rw [hfirst, hrest]
        rfl

/-- A string without a zero byte is read whole. -/
theorem cString_eq {bs : List Byte} (h : 0 ∉ bs) : cString bs = bs := by
  rw [cString, List.takeWhile_eq_self_iff]
  intro b hb
  rw [decide_eq_true_iff]
  rintro rfl
  exact h hb

/-- The length of a transmission leaves room for the terminating zero. -/
theorem Transmission.length_build_lt {t : Transmission} (h : t.Sendable) :
    t.build.length < bufferSize := by
  cases t with
  | message username text =>
    have hu := h.1.length_le
    have ht := h.2.1
    simp [Transmission.build, buildMessage, dppMessage, dppDelimiter] at hu ht ⊢
    omega
  | join username =>
    have hu := AdmittedUsername.length_le h
    simp [Transmission.build, buildJoin, dppJoin, dppDelimiter] at hu ⊢
    omega
  | quit username =>
    have hu := AdmittedUsername.length_le h
    simp [Transmission.build, buildQuit, dppQuit, dppDelimiter] at hu ⊢
    omega

/-- No byte of a transmission ends the string. -/
theorem Transmission.no_nul {t : Transmission} (h : t.Sendable) : 0 ∉ t.build := by
  have htypes : (0 : Byte) ∉ dppMessage ∧ 0 ∉ dppJoin ∧ 0 ∉ dppQuit ∧ 0 ∉ dppDelimiter := by
    decide
  obtain ⟨hmessage, hjoin, hquit, hdelimiter⟩ := htypes
  cases t with
  | message username text =>
    simp only [Transmission.build, buildMessage, List.mem_append, not_or]
    exact ⟨⟨⟨⟨hmessage, hdelimiter⟩, h.1.no_nul⟩, hdelimiter⟩, h.2.2⟩
  | join username =>
    simp only [Transmission.build, buildJoin, List.mem_append, not_or]
    exact ⟨⟨hjoin, hdelimiter⟩, AdmittedUsername.no_nul h⟩
  | quit username =>
    simp only [Transmission.build, buildQuit, List.mem_append, not_or]
    exact ⟨⟨hquit, hdelimiter⟩, AdmittedUsername.no_nul h⟩

/-- The type of a transmission is split off. -/
theorem splitDelimiter_type {type : List Byte} (rest : List Byte)
    (htype : type = dppMessage ∨ type = dppJoin ∨ type = dppQuit) :
    splitDelimiter (type ++ dppDelimiter ++ rest) = some (type, rest) := by
  apply splitDelimiter_append
  · rcases htype with rfl | rfl | rfl <;> rfl
  · rcases htype with rfl | rfl | rfl <;> decide

/-- Parsing what was built gives the transmission back, unless its username runs into the
delimiter. -/
theorem parseTransmission_build {t : Transmission} (h : t.Sendable) (hseparated : t.Separated) :
    parseTransmission t.build = .ok (some t) := by
  rw [parseTransmission, if_pos (Transmission.length_build_lt h),
    cString_eq (Transmission.no_nul h)]
  cases t with
  | message username text =>
    have hsplit := splitDelimiter_append text h.1.no_delimiter hseparated
    have hbuild : (Transmission.message username text).build =
        dppMessage ++ dppDelimiter ++ (username ++ dppDelimiter ++ text) := by
      simp [Transmission.build, buildMessage]
    rw [hbuild, splitDelimiter_type _ (Or.inl rfl)]
    dsimp only [interpret]
    rw [if_pos rfl, hsplit]
    rfl
  | join username =>
    rw [Transmission.build, buildJoin, splitDelimiter_type _ (Or.inr (Or.inl rfl))]
    have hnew : dppJoin ≠ dppMessage := by decide
    simp [interpret, AdmittedUsername.no_delimiter h, hnew]
  | quit username =>
    rw [Transmission.build, buildQuit, splitDelimiter_type _ (Or.inr (Or.inr rfl))]
    have hnew : dppQuit ≠ dppMessage ∧ dppQuit ≠ dppJoin := by decide
    simp [interpret, AdmittedUsername.no_delimiter h, hnew]

/-- The username that is split off is the beginning of the rest. -/
theorem username_starts (rest : List Byte) :
    (splitDelimiter rest).elim rest Prod.fst <+: rest := by
  cases hsplit : splitDelimiter rest with
  | none => exact List.prefix_rfl
  | some parts =>
    obtain ⟨username, after⟩ := parts
    rw [(of_splitDelimiter hsplit).1, List.append_assoc]
    exact List.prefix_append _ _

/-- What a type and the rest are interpreted as is built from them. -/
theorem of_interpret {type rest : List Byte} {t : Transmission}
    (h : interpret type rest = .ok (some t)) :
    t.build <+: type ++ dppDelimiter ++ rest ∧ t.Separated := by
  unfold interpret at h
  dsimp only at h
  split at h
  · rename_i htype
    split at h
    · rename_i username text hsplit
      obtain ⟨hrest, hlast⟩ := of_splitDelimiter hsplit
      simp only [hsplit, Option.elim_some, Except.ok.injEq, Option.some.injEq] at h
      subst h
      refine ⟨?_, hlast⟩
      rw [htype, hrest]
      simp [Transmission.build, buildMessage]
    · cases h
  · split at h
    · rename_i htype
      cases h
      rw [htype]
      exact ⟨(List.prefix_append_right_inj _).mpr (username_starts rest), trivial⟩
    · split at h
      · rename_i htype
        cases h
        rw [htype]
        exact ⟨(List.prefix_append_right_inj _).mpr (username_starts rest), trivial⟩
      · cases h

/-- What is parsed as a transmission begins with its bytes, and its parts are separated. -/
theorem of_parseTransmission {received : List Byte} {t : Transmission}
    (h : parseTransmission received = .ok (some t)) : t.build <+: received ∧ t.Separated := by
  unfold parseTransmission at h
  split at h
  · split at h
    · rename_i type rest hsplit
      obtain ⟨hbuild, hseparated⟩ := of_interpret h
      rw [← (of_splitDelimiter hsplit).1] at hbuild
      exact ⟨hbuild.trans (List.takeWhile_prefix _), hseparated⟩
    · cases h
  · cases h

end NetworkLabs.Chat
