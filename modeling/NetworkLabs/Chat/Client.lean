import NetworkLabs.Chat.Grammar
import NetworkLabs.Foundations.CString

/-!
# The receiving side of the client

`parse_transmission` as it works in the client's buffer: it terminates the received bytes,
cuts them in place and returns pointers to the parts, which the client then reads. With a
pointer for every part this is the parser on strings, and it fails where that one fails.
-/

namespace NetworkLabs.Chat.Client

open Foundations

/-- A pointer that `parse_transmission` returns: into the buffer, or computed from `NULL`. -/
inductive Pointer
  | buffer (offset : ℕ)
  | null (offset : ℕ)
  deriving DecidableEq

/-- The values that `parse_transmission` returns, under the names that `dpp.h` gives them. -/
inductive TransmissionType
  /-- `DPP_UNKNOWN_TYPE`. -/
  | unknown
  /-- `DPP_MESSAGE_TYPE`. -/
  | message
  /-- `DPP_JOIN_TYPE`. -/
  | join
  /-- `DPP_QUIT_TYPE`. -/
  | quit
  deriving DecidableEq

/-- What a call of `parse_transmission` leaves. An out pointer is `none` when the call does not
assign it. -/
structure Parsed where
  type : TransmissionType
  transmissionBuffer : Memory Byte
  usernamePointer : Option Pointer
  messagePointer : Option Pointer

/-- The string at an offset of `receiver_buffer`; reading fails when it does not end there. -/
def stringAt (m : Memory Byte) (offset : ℕ) : Except Fault (List Byte) :=
  match textAt 0 m bufferSize offset with
  | some text => .ok text
  | none => .error .outOfBounds

/-- `strstr` for the delimiter, with the offset of what it finds. -/
def strstr (m : Memory Byte) (offset : ℕ) : Except Fault (Option ℕ) :=
  (stringAt m offset).map fun text => (splitDelimiter text).map fun parts => offset + parts.1.length

/-- Write the end of a string into `receiver_buffer`, which is undefined behaviour behind its
last character. -/
def terminate (m : Memory Byte) (place : ℕ) : Except Fault (Memory Byte) :=
  if place < bufferSize then .ok (m.write place [0]) else .error .outOfBounds

/-- What is returned for a type, after the username was split off. Without a second delimiter
the message pointer is computed from `NULL`. -/
def compareType (m : Memory Byte) (username : ℕ) (delimiterStart : Option ℕ) (type : List Byte) :
    Parsed :=
  if type = dppMessage then
    { type := .message
      transmissionBuffer := m
      usernamePointer := some (.buffer username)
      messagePointer := some (delimiterStart.elim (.null dppDelimiter.length) fun start =>
        .buffer (start + dppDelimiter.length)) }
  else
    { type := if type = dppJoin then .join else if type = dppQuit then .quit else .unknown
      transmissionBuffer := m
      usernamePointer := some (.buffer username)
      messagePointer := none }

/-- `parse_transmission` behind the first delimiter. A second delimiter is cut off with what
follows it, and need not be there. -/
def splitUsername (m : Memory Byte) (username : ℕ) : Except Fault Parsed :=
  (strstr m username).bind fun delimiterStart =>
    (delimiterStart.elim (.ok m) (terminate m)).bind fun m =>
      (stringAt m 0).map (compareType m username delimiterStart)

/-- `parse_transmission` on `receiver_buffer`. It terminates the transmission itself and
searches for the delimiter from the start. -/
def parseTransmission (transmissionBuffer : Memory Byte) (numCharReceived : ℕ) :
    Except Fault Parsed :=
  (terminate transmissionBuffer numCharReceived).bind fun m =>
    (strstr m 0).bind fun delimiterStart =>
      match delimiterStart with
      | some start =>
        (terminate m start).bind fun m => splitUsername m (start + dppDelimiter.length)
      | none => .ok ⟨.unknown, m, none, none⟩

/-- The string that the client reads through a returned pointer. -/
def Parsed.read (p : Parsed) : Option Pointer → Except Fault (List Byte)
  | some (.buffer offset) => stringAt p.transmissionBuffer offset
  | some (.null _) | none => .error .outOfBounds

/-- What the client reads for each type before it prints. -/
def Parsed.transmission (p : Parsed) : Except Fault (Option Transmission) :=
  match p.type with
  | .message =>
    match p.read p.usernamePointer, p.read p.messagePointer with
    | .ok username, .ok text => .ok (some (.message username text))
    | .error e, _ | _, .error e => .error e
  | .join => (p.read p.usernamePointer).map fun username => some (.join username)
  | .quit => (p.read p.usernamePointer).map fun username => some (.quit username)
  | .unknown => .ok none

/-- The receiving loop for one chunk: `recv`, the parser and the reads. -/
def receive (receiverBuffer : Memory Byte) (chunk : List Byte) :
    Except Fault (Option Transmission) :=
  (parseTransmission (receiverBuffer.write 0 chunk) chunk.length).bind Parsed.transmission

/-! ### Strings in the buffer -/

/-- The buffer holds a string, with its end, from an offset on. -/
def Holds (m : Memory Byte) (offset : ℕ) (text : List Byte) : Prop :=
  HoldsTextAt 0 m offset text ∧ offset + text.length < bufferSize

/-- A string that the buffer holds is read up to its NUL, whatever bytes follow that. -/
theorem Holds.stringAt_eq {m : Memory Byte} {offset : ℕ} {text : List Byte}
    (h : Holds m offset text) : stringAt m offset = .ok text := by
  rw [stringAt, h.1.textAt_eq h.2]

/-- A delimiter is searched in the string only, and its place is counted from the start of the
buffer. -/
theorem Holds.strstr_eq {m : Memory Byte} {offset : ℕ} {text : List Byte}
    (h : Holds m offset text) :
    strstr m offset = .ok ((splitDelimiter text).map fun parts => offset + parts.1.length) := by
  rw [strstr, h.stringAt_eq]
  rfl

/-- Cutting at a delimiter leaves the string before it and the one behind it. -/
theorem Holds.cut {m : Memory Byte} {offset : ℕ} {text before after : List Byte}
    (h : Holds m offset text) (hsplit : splitDelimiter text = some (before, after)) :
    ∃ m', terminate m (offset + before.length) = .ok m' ∧ Holds m' offset before ∧
      Holds m' (offset + before.length + dppDelimiter.length) after ∧
      ∀ {offset' text'}, Holds m offset' text' → offset' + text'.length < offset + before.length →
        Holds m' offset' text' := by
  obtain ⟨htext, hsize⟩ := h
  obtain ⟨hparts, -⟩ := of_splitDelimiter hsplit
  rw [hparts] at htext hsize
  obtain ⟨hbefore, hafter⟩ := htext.cut (by decide)
  simp only [List.length_append] at hsize
  exact ⟨_, if_pos (by omega), ⟨hbefore, by omega⟩, ⟨hafter, by omega⟩,
    fun h' hplace => ⟨h'.1.write 0 (Or.inr hplace), h'.2⟩⟩

/-- The received bytes, terminated, hold the string that they begin with. -/
theorem holds_received (receiverBuffer : Memory Byte) {chunk : List Byte}
    (hsize : chunk.length < bufferSize) :
    ∃ m, terminate (receiverBuffer.write 0 chunk) chunk.length = .ok m ∧
      Holds m 0 (cString chunk) := by
  have hterminated : HoldsTextAt (0 : Byte) _ 0 _ :=
    holdsTextAt_terminated (receiverBuffer.write 0 chunk) 0 chunk.length
  rw [Memory.read_write receiverBuffer 0 rfl, Nat.zero_add] at hterminated
  have hlength : (cString chunk).length ≤ chunk.length := (List.takeWhile_prefix _).length_le
  exact ⟨_, if_pos hsize, hterminated, by omega⟩

/-- Behind the first delimiter the username is split off, and what follows it is a string too. -/
theorem splitUsername_spec {m : Memory Byte} {username : ℕ} {type rest : List Byte}
    (htype : Holds m 0 type) (hrest : Holds m username rest) (hplace : type.length < username) :
    ∃ m', splitUsername m username = .ok (compareType m' username
        ((splitDelimiter rest).map fun parts => username + parts.1.length) type) ∧
      Holds m' username ((splitDelimiter rest).elim rest Prod.fst) ∧
      ∀ before after, splitDelimiter rest = some (before, after) →
        Holds m' (username + before.length + dppDelimiter.length) after := by
  rw [splitUsername, hrest.strstr_eq]
  cases hsplit : splitDelimiter rest with
  | none =>
    refine ⟨m, ?_, hrest, fun _ _ h => by cases h⟩
    exact congrArg (Except.map _) htype.stringAt_eq
  | some parts =>
    obtain ⟨before, after⟩ := parts
    obtain ⟨m', hcut, hbefore, hafter, hkept⟩ := hrest.cut hsplit
    refine ⟨m', ?_, hbefore, ?_⟩
    · have hread := (hkept htype (by omega)).stringAt_eq
      dsimp only [Option.map_some, Except.bind, Option.elim_some]
      rw [hcut]
      exact congrArg (Except.map _) hread
    · rintro _ _ ⟨⟩
      exact hafter

/-- What `parse_transmission` returns and what its pointers denote, for bytes that leave room
for the terminator. -/
theorem parseTransmission_spec (receiverBuffer : Memory Byte) {chunk : List Byte}
    (hsize : chunk.length < bufferSize) :
    match splitDelimiter (cString chunk) with
    | none => ∃ m, parseTransmission (receiverBuffer.write 0 chunk) chunk.length =
        .ok ⟨.unknown, m, none, none⟩
    | some (type, rest) => ∃ m,
        parseTransmission (receiverBuffer.write 0 chunk) chunk.length =
          .ok (compareType m (type.length + dppDelimiter.length) ((splitDelimiter rest).map
            fun parts => type.length + dppDelimiter.length + parts.1.length) type) ∧
        Holds m (type.length + dppDelimiter.length) ((splitDelimiter rest).elim rest Prod.fst) ∧
        ∀ before after, splitDelimiter rest = some (before, after) →
          Holds m (type.length + dppDelimiter.length + before.length + dppDelimiter.length)
            after := by
  obtain ⟨m, hterminate, htext⟩ := holds_received receiverBuffer hsize
  rw [parseTransmission, hterminate]
  dsimp only [Except.bind]
  rw [htext.strstr_eq]
  cases hsplit : splitDelimiter (cString chunk) with
  | none => exact ⟨m, rfl⟩
  | some parts =>
    obtain ⟨type, rest⟩ := parts
    obtain ⟨m', hcut, htype, hrest, -⟩ := htext.cut hsplit
    rw [Nat.zero_add] at hcut hrest
    obtain ⟨m'', hparse, hparts⟩ :=
      splitUsername_spec htype hrest (Nat.lt_add_of_pos_right (by decide))
    refine ⟨m'', ?_, hparts⟩
    dsimp only [Option.map_some, Except.bind]
    rw [Nat.zero_add, hcut]
    exact hparse

/-! ### The parser on strings -/

/-- What the client reads for a type and the parts behind it is what they are interpreted as. -/
theorem transmission_compareType {m : Memory Byte} {username : ℕ} {type rest : List Byte}
    (husername : Holds m username ((splitDelimiter rest).elim rest Prod.fst))
    (hmessage : ∀ before after, splitDelimiter rest = some (before, after) →
      Holds m (username + before.length + dppDelimiter.length) after) :
    (compareType m username ((splitDelimiter rest).map fun parts => username + parts.1.length)
      type).transmission = interpret type rest := by
  have hread := husername.stringAt_eq
  have hjoin : dppJoin ≠ dppMessage := by decide
  have hquit : dppQuit ≠ dppMessage ∧ dppQuit ≠ dppJoin := by decide
  unfold compareType interpret
  dsimp only
  by_cases htype : type = dppMessage
  · rw [if_pos htype, if_pos htype]
    cases hsplit : splitDelimiter rest with
    | none =>
      rw [hsplit] at hread
      simp only [Parsed.transmission, Parsed.read, hread, Option.map_none, Option.elim_none]
    | some parts =>
      obtain ⟨before, after⟩ := parts
      rw [hsplit] at hread
      simp only [Parsed.transmission, Parsed.read, hread, Option.map_some, Option.elim_some,
        (hmessage before after hsplit).stringAt_eq]
  · rw [if_neg htype, if_neg htype]
    by_cases htype' : type = dppJoin
    · simp only [Parsed.transmission, Parsed.read, hread, if_pos htype']
      rfl
    · by_cases htype'' : type = dppQuit
      · simp only [Parsed.transmission, Parsed.read, hread, if_neg htype', if_pos htype'']
        rfl
      · simp only [Parsed.transmission, if_neg htype', if_neg htype'']

/-- What the client obtains from a chunk, in a buffer that held anything before, is what the
parser on strings obtains from it. -/
theorem receive_eq (receiverBuffer : Memory Byte) (chunk : List Byte) :
    receive receiverBuffer chunk = Chat.parseTransmission chunk := by
  by_cases hsize : chunk.length < bufferSize
  · have hspec := parseTransmission_spec receiverBuffer hsize
    rw [receive, Chat.parseTransmission, if_pos hsize]
    cases hsplit : splitDelimiter (cString chunk) with
    | none =>
      rw [hsplit] at hspec
      obtain ⟨m, hparse⟩ := hspec
      rw [hparse]
      rfl
    | some parts =>
      obtain ⟨type, rest⟩ := parts
      rw [hsplit] at hspec
      obtain ⟨m, hparse, husername, hmessage⟩ := hspec
      rw [hparse]
      exact transmission_compareType husername hmessage
  · rw [receive, parseTransmission, terminate, if_neg hsize, Chat.parseTransmission, if_neg hsize]
    rfl

end NetworkLabs.Chat.Client
