import NetworkLabs.Chat.Client
import NetworkLabs.Foundations.Run

/-!
# A session of the client

The two threads of `client.c` from the creation of `client_sender` on. A section is what a
thread does between two uses of a lock, or one call that may block. `client_sender` holds
`join_lock` between its test of the flags and `pthread_cond_wait`, and `main` then waits at
its sections under this lock; `quit_lock` is not held at these places, so the flag it protects
may be set there.
-/

namespace NetworkLabs.Chat.Session

open Foundations

/-- Where `main` stands, from its receiving loop on. The chunk is the one that it has received
last. -/
inductive MainThread
  /-- It waits in `recv`. -/
  | recv
  /-- The connection was terminated, and it sets the quit flag. -/
  | terminated
  /-- It signals `join_cvar` in case the join request was never acknowledged. -/
  | signalling
  /-- It has received a chunk and tests the quit flag. -/
  | quitCheck (chunk : List Byte)
  /-- It interprets a chunk. -/
  | interpreting (chunk : List Byte)
  /-- The join request is acknowledged, and it sets the flag and signals `join_cvar`. -/
  | acknowledging
  /-- It waits for `client_sender` in `pthread_join`. -/
  | joining
  /-- It has returned. -/
  | returned
  deriving DecidableEq

/-- Where `client_sender` stands. It waits for the answer to its join request before it reads
the first line. -/
inductive ClientSender
  /-- It sends the join request. -/
  | requesting
  /-- It takes `join_lock` and tests the flags. -/
  | waitCheck
  /-- It holds `join_lock` and calls `pthread_cond_wait`. -/
  | waiting
  /-- It sleeps in `pthread_cond_wait`. -/
  | asleep
  /-- It tests the quit flag. -/
  | quitCheck
  /-- It waits in `fgets`. -/
  | reading
  /-- It has encountered the end of its input, and sets the quit flag. -/
  | quitting
  /-- It sends a transmission. -/
  | sending (transmission : List Byte)
  /-- It has returned. -/
  | ended
  deriving DecidableEq

/-- The globals, the buffer of `main` and the positions of the threads, and what happened so
far: what was sent, which lines were read and what was interpreted. -/
structure State where
  username : List Byte
  joinAcknowledged : Bool
  quitNecessary : Bool
  exited : Bool
  main : MainThread
  sender : ClientSender
  receiverBuffer : Memory Byte
  sent : List (List Byte)
  lines : List (List Byte)
  interpreted : List (Option Transmission)

/-- Both threads start, `main` in its first `recv` and `client_sender` with its join request. -/
def initial (username : List Byte) : State where
  username := username
  joinAcknowledged := false
  quitNecessary := false
  exited := false
  main := .recv
  sender := .requesting
  receiverBuffer := Memory.fill 0
  sent := []
  lines := []
  interpreted := []

/-- A section under `join_lock`, which waits while `client_sender` holds it. -/
def State.lockJoin (s : State) (s' : State) : State := if s.sender = .waiting then s else s'

/-- `pthread_cond_signal`, which wakes `client_sender` up if it sleeps and is lost if it does
not. -/
def State.signal (s : State) : State :=
  if s.sender = .asleep then { s with sender := .waitCheck } else s

/-- A string is built in `sender_buffer` and is undefined behaviour if it does not fit with its
terminator. -/
def State.build (s : State) (transmission : List Byte) : Except Fault State :=
  if transmission.length < bufferSize then .ok { s with sender := .sending transmission }
  else .error .outOfBounds

/-! ### `main` -/

/-- `main` interprets a chunk. The flag is set, with its print, in the next section. -/
def interpretChunk (s : State) (chunk : List Byte) : Except Fault State :=
  (Client.parseTransmission (s.receiverBuffer.write 0 chunk) chunk.length).bind fun parsed =>
    parsed.transmission.map fun transmission =>
      { s with
        receiverBuffer := parsed.transmissionBuffer
        interpreted := s.interpreted ++ [transmission]
        main := if transmission = some (.join s.username) then .acknowledging else .recv }

/-- The next section of `main`. What it waits for in `recv` is an action of its own. -/
def mainSection (s : State) : Except Fault State :=
  match s.main with
  | .recv | .returned => .ok s
  | .terminated => .ok { s with quitNecessary := true, main := .signalling }
  | .signalling => .ok (s.lockJoin { s.signal with main := .joining })
  | .quitCheck chunk =>
    .ok { s with main := if s.quitNecessary then .joining else .interpreting chunk }
  | .interpreting chunk => interpretChunk s chunk
  | .acknowledging => .ok (s.lockJoin { s.signal with joinAcknowledged := true, main := .recv })
  | .joining =>
    .ok (if s.sender = .ended then { s with main := .returned, exited := true } else s)

/-- `recv` returns a chunk; an empty one stands for the return value 0. -/
def recv (s : State) (chunk : List Byte) : State :=
  match s.main with
  | .recv =>
    if chunk = [] then { s with main := .terminated }
    else if chunk.length ≤ bufferSize then { s with main := .quitCheck chunk }
    else s
  | _ => s

/-! ### `client_sender` -/

/-- The next section of `client_sender`. What it waits for in `fgets` is an action of
its own. -/
def senderSection (s : State) : Except Fault State :=
  match s.sender with
  | .requesting =>
    if (buildJoin s.username).length < bufferSize then
      .ok { s with sent := s.sent ++ [buildJoin s.username], sender := .waitCheck }
    else .error .outOfBounds
  | .waitCheck =>
    .ok { s with
      sender := if !s.joinAcknowledged && !s.quitNecessary then .waiting else .quitCheck }
  | .waiting => .ok { s with sender := .asleep }
  | .quitCheck => .ok { s with sender := if s.quitNecessary then .ended else .reading }
  | .quitting => State.build { s with quitNecessary := true } (buildQuit s.username)
  | .sending transmission => .ok { s with sent := s.sent ++ [transmission], sender := .quitCheck }
  | .asleep | .reading | .ended => .ok s

/-- A line as `fgets` reads it: not longer than the buffer allows, with a newline only at its
end. -/
def IsLine (line : List Byte) : Prop := line.length ≤ maxMessageLength ∧ 0x0a ∉ line.dropLast

instance (line : List Byte) : Decidable (IsLine line) := inferInstanceAs (Decidable (_ ∧ _))

/-- `fgets` returns a line, and `build_message` reads it up to the first zero byte. -/
def fgets (s : State) (line : List Byte) : Except Fault State :=
  match s.sender with
  | .reading =>
    if IsLine line then
      State.build { s with lines := s.lines ++ [line] } (buildMessage s.username (cString line))
    else .ok s
  | _ => .ok s

/-! ### Both threads -/

/-- The sections of both threads and the outcomes of the calls that may block. -/
inductive Action
  /-- `recv` returns a chunk, or 0 for an empty one. -/
  | recv (chunk : List Byte)
  /-- `recv` returns -1. -/
  | recvFails
  /-- `main` continues. -/
  | main
  /-- `fgets` returns a line. -/
  | fgets (line : List Byte)
  /-- `fgets` returns `NULL`. -/
  | fgetsNull
  /-- `client_sender` continues. -/
  | sender
  /-- `send` returns -1. -/
  | sendFails
  /-- `pthread_cond_wait` wakes up without a signal. -/
  | wake
  deriving DecidableEq

/-- One section of a process that has not exited. A call that fails makes the process exit. -/
def runningStep (s : State) : Action → Except Fault State
  | .recv chunk => .ok (recv s chunk)
  | .recvFails => .ok (if s.main = .recv then { s with exited := true } else s)
  | .main => mainSection s
  | .fgets line => fgets s line
  | .fgetsNull => .ok (if s.sender = .reading then { s with sender := .quitting } else s)
  | .sender => senderSection s
  | .sendFails =>
    .ok (match s.sender with
      | .requesting | .sending _ => { s with exited := true }
      | _ => s)
  | .wake => .ok s.signal

/-- One section, as long as the process has not exited. -/
def step (s : State) (act : Action) : Except Fault State :=
  if s.exited then .ok s else runningStep s act

/-! ### What one section can do -/

/-- The outcomes of one section, with the place of the thread that takes it. -/
inductive Effect (s : State) : Action → State → Prop
  /-- There is nothing to do, or the section waits. -/
  | idle (act : Action) : Effect s act s
  /-- A call fails. -/
  | exited (act : Action) : Effect s act { s with exited := true }
  /-- `recv` returns 0. -/
  | terminated (hmain : s.main = .recv) : Effect s (.recv []) { s with main := .terminated }
  /-- `recv` returns a chunk. -/
  | received {chunk : List Byte} (hmain : s.main = .recv) (hsome : chunk ≠ []) :
      Effect s (.recv chunk) { s with main := .quitCheck chunk }
  /-- `main` sets the quit flag. -/
  | flagged (hmain : s.main = .terminated) :
      Effect s .main { s with quitNecessary := true, main := .signalling }
  /-- `main` signals and goes to `pthread_join`. -/
  | signalled (hmain : s.main = .signalling) (hlock : s.sender ≠ .waiting) :
      Effect s .main { s.signal with main := .joining }
  /-- `main` finds the quit flag set. -/
  | stopped {chunk : List Byte} (hmain : s.main = .quitCheck chunk)
      (hquit : s.quitNecessary = true) : Effect s .main { s with main := .joining }
  /-- `main` finds the quit flag not set. -/
  | checked {chunk : List Byte} (hmain : s.main = .quitCheck chunk)
      (hquit : s.quitNecessary = false) : Effect s .main { s with main := .interpreting chunk }
  /-- `main` interprets a chunk. -/
  | interpreted {chunk : List Byte} (buffer : Memory Byte) {transmission : Option Transmission}
      (hmain : s.main = .interpreting chunk)
      (hreceive : Client.receive s.receiverBuffer chunk = .ok transmission) :
      Effect s .main
        { s with
          receiverBuffer := buffer
          interpreted := s.interpreted ++ [transmission]
          main := if transmission = some (.join s.username) then .acknowledging else .recv }
  /-- `main` sets the flag and signals. -/
  | acknowledged (hmain : s.main = .acknowledging) (hlock : s.sender ≠ .waiting) :
      Effect s .main { s.signal with joinAcknowledged := true, main := .recv }
  /-- `main` returns. -/
  | returned (hmain : s.main = .joining) (hended : s.sender = .ended) :
      Effect s .main { s with main := .returned, exited := true }
  /-- The join request is sent. -/
  | requested (hsender : s.sender = .requesting) :
      Effect s .sender { s with sent := s.sent ++ [buildJoin s.username], sender := .waitCheck }
  /-- `client_sender` has to wait. -/
  | mustWait (hsender : s.sender = .waitCheck) (hjoin : s.joinAcknowledged = false)
      (hquit : s.quitNecessary = false) : Effect s .sender { s with sender := .waiting }
  /-- `client_sender` has not to wait. -/
  | mayChat (hsender : s.sender = .waitCheck)
      (hflags : s.joinAcknowledged = true ∨ s.quitNecessary = true) :
      Effect s .sender { s with sender := .quitCheck }
  /-- `client_sender` falls asleep and releases `join_lock`. -/
  | slept (hsender : s.sender = .waiting) : Effect s .sender { s with sender := .asleep }
  /-- `client_sender` wakes up. -/
  | woken (hsender : s.sender = .asleep) : Effect s .wake { s with sender := .waitCheck }
  /-- `client_sender` finds the quit flag set. -/
  | ended (hsender : s.sender = .quitCheck) (hquit : s.quitNecessary = true) :
      Effect s .sender { s with sender := .ended }
  /-- `client_sender` finds the quit flag not set. -/
  | reads (hsender : s.sender = .quitCheck) (hquit : s.quitNecessary = false) :
      Effect s .sender { s with sender := .reading }
  /-- `fgets` returns a line. -/
  | line {line : List Byte} (hsender : s.sender = .reading) (hline : IsLine line) :
      Effect s (.fgets line)
        { s with
          lines := s.lines ++ [line]
          sender := .sending (buildMessage s.username (cString line)) }
  /-- `fgets` returns `NULL`. -/
  | null (hsender : s.sender = .reading) : Effect s .fgetsNull { s with sender := .quitting }
  /-- `client_sender` sets the quit flag. -/
  | quit (hsender : s.sender = .quitting) :
      Effect s .sender
        { s with quitNecessary := true, sender := .sending (buildQuit s.username) }
  /-- `client_sender` sends a transmission. -/
  | sent {transmission : List Byte} (hsender : s.sender = .sending transmission) :
      Effect s .sender { s with sent := s.sent ++ [transmission], sender := .quitCheck }

private theorem effect_of_mainSection {s s' : State} (h : mainSection s = .ok s') :
    Effect s .main s' := by
  unfold mainSection at h
  split at h
  · cases h
    exact .idle _
  · cases h
    exact .idle _
  · rename_i hmain
    cases h
    exact .flagged hmain
  · rename_i hmain
    cases h
    unfold State.lockJoin
    split
    · exact .idle _
    · rename_i hlock
      exact .signalled hmain hlock
  · rename_i chunk hmain
    cases h
    cases hquit : s.quitNecessary with
    | true =>
      have heffect := Effect.stopped hmain hquit
      rwa [hquit] at heffect
    | false =>
      have heffect := Effect.checked hmain hquit
      rwa [hquit] at heffect
  · rename_i chunk hmain
    obtain ⟨parsed, hparsed, hrest⟩ := of_bind_eq_ok h
    obtain ⟨transmission, htransmission, rfl⟩ := of_map_eq_ok hrest
    refine .interpreted _ hmain ?_
    rw [Client.receive, hparsed]
    exact htransmission
  · rename_i hmain
    cases h
    unfold State.lockJoin
    split
    · exact .idle _
    · rename_i hlock
      exact .acknowledged hmain hlock
  · rename_i hmain
    cases h
    split
    · rename_i hended
      exact .returned hmain hended
    · exact .idle _

private theorem effect_of_senderSection {s s' : State} (h : senderSection s = .ok s') :
    Effect s .sender s' := by
  unfold senderSection at h
  split at h
  · rename_i hsender
    split at h
    · cases h
      exact .requested hsender
    · cases h
  · rename_i hsender
    cases h
    split
    · rename_i hflags
      rw [Bool.and_eq_true, Bool.not_eq_true', Bool.not_eq_true'] at hflags
      exact .mustWait hsender hflags.1 hflags.2
    · rename_i hflags
      refine .mayChat hsender ?_
      cases hjoin : s.joinAcknowledged with
      | true => exact Or.inl rfl
      | false =>
        rw [hjoin, Bool.not_false, Bool.true_and, Bool.not_eq_true', Bool.not_eq_false] at hflags
        exact Or.inr hflags
  · rename_i hsender
    cases h
    exact .slept hsender
  · rename_i hsender
    cases h
    split
    · rename_i hquit
      exact .ended hsender hquit
    · rename_i hquit
      exact .reads hsender (by simpa using hquit)
  · rename_i hsender
    unfold State.build at h
    split at h
    · cases h
      exact .quit hsender
    · cases h
  · rename_i transmission hsender
    cases h
    exact .sent hsender
  · cases h
    exact .idle _
  · cases h
    exact .idle _
  · cases h
    exact .idle _

/-- Every successful step of the session is one of the listed outcomes. -/
theorem effect_of_step {s s' : State} {act : Action} (h : step s act = .ok s') :
    Effect s act s' := by
  unfold step at h
  split at h
  · cases h
    exact .idle _
  · unfold runningStep at h
    split at h
    · rename_i chunk
      cases h
      unfold recv
      split
      · rename_i hmain
        split
        · rename_i hnone
          subst hnone
          exact .terminated hmain
        · rename_i hsome
          split
          · exact .received hmain hsome
          · exact .idle _
      · exact .idle _
    · cases h
      split
      · exact .exited _
      · exact .idle _
    · exact effect_of_mainSection h
    · rename_i line
      unfold fgets at h
      split at h
      · rename_i hsender
        split at h
        · rename_i hline
          unfold State.build at h
          split at h
          · cases h
            exact .line hsender hline
          · cases h
        · cases h
          exact .idle _
      · cases h
        exact .idle _
    · cases h
      split
      · rename_i hsender
        exact .null hsender
      · exact .idle _
    · exact effect_of_senderSection h
    · cases h
      split
      · exact .exited _
      · exact .exited _
      · exact .idle _
    · cases h
      unfold State.signal
      split
      · rename_i hsender
        exact .woken hsender
      · exact .idle _

end NetworkLabs.Chat.Session
