import NetworkLabs.Chat.Client

/-!
# The language of the protocol

The texts that `parse_transmission` takes for messages, joins and quits, and the parts that its
pointers denote. It accepts the protocol's texts, and also messages that are not finished.
-/

namespace NetworkLabs.Chat.Client

open Foundations

/-- The text is that of a message: its type, a username up to the leftmost delimiter behind the
first one, and the rest. -/
def IsMessage (text username message : List Byte) : Prop :=
  ∃ rest, text = dppMessage ++ dppDelimiter ++ rest ∧ SplitsAt dppDelimiter rest username message

/-- The text begins with a type in front of its first delimiter, and the username is what stands
behind it up to the next delimiter or the end. -/
def IsNotice (type text username : List Byte) : Prop :=
  ∃ rest, SplitsAt dppDelimiter text type rest ∧
    ((∃ after, SplitsAt dppDelimiter rest username after) ∨
      ¬dppDelimiter <:+: rest ∧ username = rest)

/-- The text is that of a message whose username is not delimited. -/
def Unfinished (text : List Byte) : Prop :=
  ∃ rest, text = dppMessage ++ dppDelimiter ++ rest ∧ ¬dppDelimiter <:+: rest

/-- A pointer denotes a string that ends inside the buffer. -/
def Parsed.Denotes (p : Parsed) (pointer : Option Pointer) (text : List Byte) : Prop :=
  ∃ offset, pointer = some (.buffer offset) ∧ Holds p.transmissionBuffer offset text

/-- What is returned for a text is what the grammar says. -/
structure AcceptsGrammar (text : List Byte) (p : Parsed) : Prop where
  message_iff : p.type = .message ↔ ∃ username message, IsMessage text username message
  message_parts : ∀ username message, IsMessage text username message →
    p.Denotes p.usernamePointer username ∧ p.Denotes p.messagePointer message
  message_pointer : p.type = .message → ∃ offset < bufferSize,
    p.messagePointer = some (.buffer offset)
  join_iff : p.type = .join ↔ ∃ username, IsNotice dppJoin text username
  quit_iff : p.type = .quit ↔ ∃ username, IsNotice dppQuit text username
  notice_parts : ∀ username, IsNotice dppJoin text username ∨ IsNotice dppQuit text username →
    p.Denotes p.usernamePointer username
  unknown_iff : p.type = .unknown ↔ (∀ username message, ¬IsMessage text username message) ∧
    ∀ username, ¬IsNotice dppJoin text username ∧ ¬IsNotice dppQuit text username

/-- Messages are found by the two searches of `parse_transmission`. -/
theorem isMessage_iff {text username message : List Byte} : IsMessage text username message ↔
    ∃ rest, splitDelimiter text = some (dppMessage, rest) ∧
      splitDelimiter rest = some (username, message) := by
  simp only [splitDelimiter_eq_some_iff]
  constructor
  · rintro ⟨rest, rfl, hrest⟩
    exact ⟨rest, splitDelimiter_eq_some_iff.mp (splitDelimiter_type rest (Or.inl rfl)), hrest⟩
  · rintro ⟨rest, htext, hrest⟩
    exact ⟨rest, htext.split, hrest⟩

/-- Notices too, whose username ends where a second delimiter begins, if there is one. -/
theorem isNotice_iff {type text username : List Byte} : IsNotice type text username ↔
    ∃ rest, splitDelimiter text = some (type, rest) ∧
      username = (splitDelimiter rest).elim rest Prod.fst := by
  simp only [IsNotice, ← splitDelimiter_eq_some_iff, ← splitDelimiter_eq_none_iff]
  refine exists_congr fun rest => and_congr_right fun _ => ?_
  cases splitDelimiter rest with
  | none => simp
  | some parts =>
    obtain ⟨before, after⟩ := parts
    simp [eq_comm]

/-- And so are messages that are not finished. -/
theorem unfinished_iff {text : List Byte} : Unfinished text ↔
    ∃ rest, splitDelimiter text = some (dppMessage, rest) ∧ splitDelimiter rest = none := by
  simp only [Unfinished, splitDelimiter_eq_none_iff]
  constructor
  · rintro ⟨rest, rfl, hrest⟩
    exact ⟨rest, splitDelimiter_type rest (Or.inl rfl), hrest⟩
  · rintro ⟨rest, htext, hrest⟩
    exact ⟨rest, (of_splitDelimiter htext).1, hrest⟩

/-! ### What is returned -/

section CompareType

variable (m : Memory Byte) (username : ℕ) (delimiterStart : Option ℕ) (type : List Byte)

/-- Whatever the type is, the username is the text in the buffer. -/
@[simp] theorem compareType_usernamePointer :
    (compareType m username delimiterStart type).usernamePointer = some (.buffer username) := by
  unfold compareType
  split <;> rfl

/-- The comparison of the type only reads, and writes nothing to the buffer. -/
@[simp] theorem compareType_transmissionBuffer :
    (compareType m username delimiterStart type).transmissionBuffer = m := by
  unfold compareType
  split <;> rfl

/-- The text of a message starts behind the delimiter, and is `NULL` with an offset when there
is none. -/
theorem compareType_messagePointer :
    (compareType m username delimiterStart dppMessage).messagePointer =
      some (delimiterStart.elim (.null dppDelimiter.length) fun start =>
        .buffer (start + dppDelimiter.length)) := by
  rw [compareType, if_pos rfl]

/-- Each value is returned for its own type, and `unknown` for everything else. -/
theorem compareType_type_iff :
    ((compareType m username delimiterStart type).type = .message ↔ type = dppMessage) ∧
      ((compareType m username delimiterStart type).type = .join ↔ type = dppJoin) ∧
      ((compareType m username delimiterStart type).type = .quit ↔ type = dppQuit) ∧
      ((compareType m username delimiterStart type).type = .unknown ↔
        type ≠ dppMessage ∧ type ≠ dppJoin ∧ type ≠ dppQuit) := by
  have hdistinct : dppMessage ≠ dppJoin ∧ dppMessage ≠ dppQuit ∧ dppJoin ≠ dppQuit := by decide
  obtain ⟨hmj, hmq, hjq⟩ := hdistinct
  unfold compareType
  split
  · rename_i htype
    subst htype
    simp [hmj, hmq]
  · rename_i hmessage
    by_cases hjoin : type = dppJoin
    · subst hjoin
      simp [hmessage, hjq]
    · by_cases hquit : type = dppQuit
      · subst hquit
        simp [hmessage, hjoin]
      · simp [hmessage, hjoin, hquit]

end CompareType

/-- A text with no delimiter is unknown and nothing else. -/
theorem acceptsGrammar_unknown {text : List Byte} (hsplit : splitDelimiter text = none)
    (m : Memory Byte) : AcceptsGrammar text ⟨.unknown, m, none, none⟩ := by
  have hmessage : ∀ username message, ¬IsMessage text username message := by
    intro username message h
    obtain ⟨rest, htext, -⟩ := isMessage_iff.mp h
    cases hsplit.symm.trans htext
  have hnotice : ∀ type username, ¬IsNotice type text username := by
    intro type username h
    obtain ⟨rest, htext, -⟩ := isNotice_iff.mp h
    cases hsplit.symm.trans htext
  constructor
  case message_iff =>
    refine iff_of_false TransmissionType.noConfusion ?_
    rintro ⟨username, message, h⟩
    exact hmessage username message h
  case message_parts => exact fun username message h => absurd h (hmessage username message)
  case message_pointer => exact TransmissionType.noConfusion
  case join_iff =>
    refine iff_of_false TransmissionType.noConfusion ?_
    rintro ⟨username, h⟩
    exact hnotice _ username h
  case quit_iff =>
    refine iff_of_false TransmissionType.noConfusion ?_
    rintro ⟨username, h⟩
    exact hnotice _ username h
  case notice_parts =>
    rintro username (h | h)
    · exact absurd h (hnotice _ username)
    · exact absurd h (hnotice _ username)
  case unknown_iff =>
    exact iff_of_true rfl ⟨hmessage, fun username => ⟨hnotice _ username, hnotice _ username⟩⟩

/-- A text with a delimiter is taken for what it is unless it is a message that is not
finished. -/
theorem acceptsGrammar_compareType {text type rest : List Byte} {m : Memory Byte} {username : ℕ}
    (hsplit : splitDelimiter text = some (type, rest))
    (husername : Holds m username ((splitDelimiter rest).elim rest Prod.fst))
    (hmessage : ∀ before after, splitDelimiter rest = some (before, after) →
      Holds m (username + before.length + dppDelimiter.length) after)
    (hfinished : type = dppMessage → splitDelimiter rest ≠ none) :
    AcceptsGrammar text (compareType m username
      ((splitDelimiter rest).map fun parts => username + parts.1.length) type) := by
  obtain ⟨hmessageType, hjoinType, hquitType, hunknownType⟩ := compareType_type_iff m username
    ((splitDelimiter rest).map fun parts => username + parts.1.length) type
  have hisMessage : ∀ {u t}, IsMessage text u t ↔
      type = dppMessage ∧ splitDelimiter rest = some (u, t) := by
    intro u t
    simp [isMessage_iff, hsplit]
  have hisNotice : ∀ {type' u}, IsNotice type' text u ↔
      type = type' ∧ u = (splitDelimiter rest).elim rest Prod.fst := by
    intro type' u
    simp [isNotice_iff, hsplit]
  have hpointer : ∀ {u t}, splitDelimiter rest = some (u, t) → type = dppMessage →
      (compareType m username ((splitDelimiter rest).map fun parts => username + parts.1.length)
        type).messagePointer = some (.buffer (username + u.length + dppDelimiter.length)) := by
    rintro u t hrest rfl
    rw [compareType_messagePointer, hrest]
    rfl
  have hfound : ∀ {type'}, type = type' ↔ ∃ u, IsNotice type' text u := by
    intro type'
    constructor
    · intro htype
      exact ⟨_, hisNotice.mpr ⟨htype, rfl⟩⟩
    · rintro ⟨u, h⟩
      exact (hisNotice.mp h).1
  constructor
  case message_iff =>
    rw [hmessageType]
    constructor
    · intro htype
      obtain ⟨⟨u, t⟩, hrest⟩ := Option.ne_none_iff_exists'.mp (hfinished htype)
      exact ⟨u, t, hisMessage.mpr ⟨htype, hrest⟩⟩
    · rintro ⟨u, t, h⟩
      exact (hisMessage.mp h).1
  case message_parts =>
    intro u t h
    obtain ⟨htype, hrest⟩ := hisMessage.mp h
    refine ⟨⟨username, by simp, ?_⟩, ⟨_, hpointer hrest htype, ?_⟩⟩
    · rw [compareType_transmissionBuffer]
      rwa [hrest] at husername
    · rw [compareType_transmissionBuffer]
      exact hmessage u t hrest
  case message_pointer =>
    intro htype
    rw [hmessageType] at htype
    obtain ⟨⟨u, t⟩, hrest⟩ := Option.ne_none_iff_exists'.mp (hfinished htype)
    obtain ⟨-, hsize⟩ := hmessage u t hrest
    exact ⟨_, by omega, hpointer hrest htype⟩
  case join_iff => exact hjoinType.trans hfound
  case quit_iff => exact hquitType.trans hfound
  case notice_parts =>
    intro u h
    have hu : u = (splitDelimiter rest).elim rest Prod.fst := by
      rcases h with h | h
      · exact (hisNotice.mp h).2
      · exact (hisNotice.mp h).2
    refine ⟨username, by simp, ?_⟩
    rw [compareType_transmissionBuffer, hu]
    exact husername
  case unknown_iff =>
    rw [hunknownType]
    constructor
    · rintro ⟨hno, hno', hno''⟩
      exact ⟨fun u t h => hno (hisMessage.mp h).1,
        fun u => ⟨fun h => hno' (hisNotice.mp h).1, fun h => hno'' (hisNotice.mp h).1⟩⟩
    · rintro ⟨hno, hno'⟩
      refine ⟨fun htype => ?_, fun htype => ?_, fun htype => ?_⟩
      · obtain ⟨⟨u, t⟩, hrest⟩ := Option.ne_none_iff_exists'.mp (hfinished htype)
        exact hno u t (hisMessage.mpr ⟨htype, hrest⟩)
      · exact (hno' _).1 (hisNotice.mpr ⟨htype, rfl⟩)
      · exact (hno' _).2 (hisNotice.mpr ⟨htype, rfl⟩)

/-- The text of a message that is not finished is taken for a message. -/
theorem not_acceptsGrammar_of_unfinished {text : List Byte} {p : Parsed} (h : Unfinished text)
    (htype : p.type = .message) : ¬AcceptsGrammar text p := by
  intro haccepts
  obtain ⟨rest, htext, hrest⟩ := unfinished_iff.mp h
  obtain ⟨username, message, hmessage⟩ := haccepts.message_iff.mp htype
  obtain ⟨rest', htext', hrest'⟩ := isMessage_iff.mp hmessage
  cases htext.symm.trans htext'
  cases hrest.symm.trans hrest'

/-- A received text that leaves room for the terminator is taken for what the grammar says
exactly when it is no message that is not finished. -/
theorem acceptsGrammar_iff (receiverBuffer : Memory Byte) {text : List Byte} (hnul : 0 ∉ text)
    (hsize : text.length < bufferSize) :
    ∃ p, parseTransmission (receiverBuffer.write 0 text) text.length = .ok p ∧
      (AcceptsGrammar text p ↔ ¬Unfinished text) := by
  have hspec := parseTransmission_spec receiverBuffer hsize
  rw [cString_eq hnul] at hspec
  cases hsplit : splitDelimiter text with
  | none =>
    rw [hsplit] at hspec
    obtain ⟨m, hparse⟩ := hspec
    refine ⟨_, hparse, iff_of_true (acceptsGrammar_unknown hsplit m) fun h => ?_⟩
    obtain ⟨rest, htext, -⟩ := unfinished_iff.mp h
    cases hsplit.symm.trans htext
  | some parts =>
    obtain ⟨type, rest⟩ := parts
    rw [hsplit] at hspec
    obtain ⟨m, hparse, husername, hmessage⟩ := hspec
    refine ⟨_, hparse, fun haccepts h => ?_, fun h => ?_⟩
    · obtain ⟨rest', htext, -⟩ := unfinished_iff.mp h
      cases hsplit.symm.trans htext
      exact not_acceptsGrammar_of_unfinished h ((compareType_type_iff _ _ _ _).1.mpr rfl) haccepts
    · refine acceptsGrammar_compareType hsplit husername hmessage fun htype hrest => h ?_
      exact unfinished_iff.mpr ⟨rest, htype ▸ hsplit, hrest⟩

/-- User `a` says `hi`, which makes the transmission `MSG::a::hi`. -/
def greeting : List Byte := buildMessage [0x61] [0x68, 0x69]

/-- A greeting is a message that is finished. -/
theorem not_unfinished_greeting : ¬Unfinished greeting := by
  intro h
  obtain ⟨rest, htext, hrest⟩ := unfinished_iff.mp h
  have hsplit : splitDelimiter greeting = some (dppMessage, [0x61, 0x3a, 0x3a, 0x68, 0x69]) := rfl
  cases hsplit.symm.trans htext
  cases hrest

/-- The greeting is taken for what it is, a message with a username and a text. -/
theorem acceptsGrammar_greeting :
    ∃ p, parseTransmission ((Memory.fill 0).write 0 greeting) greeting.length = .ok p ∧
      AcceptsGrammar greeting p := by
  obtain ⟨p, hparse, hiff⟩ :=
    acceptsGrammar_iff (Memory.fill 0) (by decide : 0 ∉ greeting) (by decide)
  exact ⟨p, hparse, hiff.mpr not_unfinished_greeting⟩

/-- `MSG::hi` has no second delimiter, so that `hi` is the username and there is no message. -/
def unfinishedGreeting : List Byte := dppMessage ++ dppDelimiter ++ [0x68, 0x69]

/-- It is taken for a message, with a message pointer computed from `NULL`. -/
theorem acceptsGrammar_fails : ∃ p,
    parseTransmission ((Memory.fill 0).write 0 unfinishedGreeting) unfinishedGreeting.length =
      .ok p ∧ p.type = .message ∧ p.messagePointer = some (.null 2) ∧
      ¬AcceptsGrammar unfinishedGreeting p := by
  have hspec := parseTransmission_spec (Memory.fill 0)
    (by decide : unfinishedGreeting.length < bufferSize)
  have hsplit : splitDelimiter (cString unfinishedGreeting) = some (dppMessage, [0x68, 0x69]) := rfl
  rw [hsplit] at hspec
  obtain ⟨m, hparse, -⟩ := hspec
  have htype := (compareType_type_iff m (dppMessage.length + dppDelimiter.length) none
    dppMessage).1.mpr rfl
  refine ⟨_, hparse, htype, compareType_messagePointer m _ _, ?_⟩
  exact not_acceptsGrammar_of_unfinished (unfinished_iff.mpr ⟨_, rfl, rfl⟩) htype

/-! ### The client's buffers -/

/-- The parser on strings fails for chunks that fill the buffer and for messages that are not
finished. -/
theorem parseTransmission_ok_iff (chunk : List Byte) :
    (∃ t, Chat.parseTransmission chunk = .ok t) ↔
      chunk.length < bufferSize ∧ ¬Unfinished (cString chunk) := by
  rw [Chat.parseTransmission, unfinished_iff]
  by_cases hsize : chunk.length < bufferSize
  · rw [if_pos hsize, and_iff_right hsize]
    cases hsplit : splitDelimiter (cString chunk) with
    | none => simp
    | some parts =>
      obtain ⟨type, rest⟩ := parts
      by_cases htype : type = dppMessage
      · cases hrest : splitDelimiter rest <;> simp [interpret, htype, hrest]
      · have hother : ∃ t, interpret type rest = .ok t := by
          simp only [interpret, if_neg htype]
          split
          · exact ⟨_, rfl⟩
          · split <;> exact ⟨_, rfl⟩
        refine iff_of_true hother ?_
        rintro ⟨rest', htext, -⟩
        exact htype (Prod.mk.inj (Option.some.inj htext)).1
  · rw [if_neg hsize]
    refine iff_of_false ?_ fun h => hsize h.1
    rintro ⟨t, ht⟩
    cases ht

/-- Whatever the client sends fits `sender_buffer` with its terminator, and whatever the buffer
held before, parsing and reading a chunk stays inside `receiver_buffer` exactly when the chunk
leaves room for the terminator and is no message that is not finished. -/
theorem buffersKept_iff {sent : Transmission} (h : sent.Sendable) (receiverBuffer : Memory Byte)
    (chunk : List Byte) :
    sent.build.length + 1 ≤ bufferSize ∧
      ((∃ received, receive receiverBuffer chunk = .ok received) ↔
        chunk.length < bufferSize ∧ ¬Unfinished (cString chunk)) := by
  refine ⟨Transmission.length_build_lt h, ?_⟩
  rw [receive_eq, parseTransmission_ok_iff]

/-- The greeting fits both buffers and is received without undefined behaviour. -/
theorem buffersKept_greeting :
    (Transmission.message [0x61] [0x68, 0x69]).build.length + 1 ≤ bufferSize ∧
      ∃ received, receive (Memory.fill 0) greeting = .ok received := by
  have hsendable : (Transmission.message [0x61] [0x68, 0x69]).Sendable :=
    ⟨⟨by decide, by decide, rfl⟩, by decide, by decide⟩
  obtain ⟨hfits, hreceived⟩ := buffersKept_iff hsendable (Memory.fill 0) greeting
  exact ⟨hfits, hreceived.mpr ⟨by decide, not_unfinished_greeting⟩⟩

/-- A chunk of `BUFFER_SIZE` bytes is terminated behind the buffer, and `MSG::hi` is read
through a pointer computed from `NULL`. -/
theorem buffersKept_fails :
    receive (Memory.fill 0) (List.replicate bufferSize 0x61) = .error .outOfBounds ∧
      receive (Memory.fill 0) unfinishedGreeting = .error .outOfBounds ∧
      ¬∀ chunk : List Byte, 1 ≤ chunk.length → chunk.length ≤ bufferSize →
        ∃ t, receive (Memory.fill 0) chunk = .ok t := by
  have hfull : ¬(List.replicate bufferSize (0x61 : Byte)).length < bufferSize := by
    rw [List.length_replicate]
    exact Nat.lt_irrefl bufferSize
  have hunfinished : receive (Memory.fill 0) unfinishedGreeting = .error .outOfBounds := by
    rw [receive_eq]
    rfl
  refine ⟨?_, hunfinished, fun hall => ?_⟩
  · rw [receive_eq, Chat.parseTransmission, if_neg hfull]
  · obtain ⟨t, ht⟩ := hall unfinishedGreeting (by decide) (by decide)
    cases hunfinished.symm.trans ht

end NetworkLabs.Chat.Client
