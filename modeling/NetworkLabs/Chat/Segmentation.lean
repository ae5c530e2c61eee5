import Mathlib.Data.List.Forall2
import NetworkLabs.Chat.Dpp

/-!
# Transmissions cut and merged by TCP

A client's transmissions reach another client through two byte streams. The server passes
on what each `recv` returned until it takes it for a request to quit; the receiving client
parses what each `recv` returned.
-/

namespace NetworkLabs.Chat

open Foundations

/-- One way in which calls of `recv` return the bytes of a stream. -/
structure Chunks (stream : List Byte) where
  chunks : List (List Byte)
  nonempty : ∀ chunk ∈ chunks, chunk ≠ []
  bounded : ∀ chunk ∈ chunks, chunk.length ≤ bufferSize
  flatten_eq : chunks.flatten = stream

/-- What `server_receiver` broadcasts of the chunks that it receives; `receiver_buffer` is
never cleared between them. -/
def serverReceiver (receiverBuffer : Memory Byte) : List (List Byte) → List (List Byte)
  | [] => []
  | chunk :: chunks =>
    let buffer := receiverBuffer.write 0 chunk
    chunk :: if isQuit buffer then [] else serverReceiver buffer chunks

/-- What the receiving loop of the client obtains from the chunks that it receives. -/
def clientReceiver : List (List Byte) → Except Fault (List (Option Transmission))
  | [] => .ok []
  | chunk :: chunks =>
    match parseTransmission chunk with
    | .ok t => (clientReceiver chunks).map fun ts => t :: ts
    | .error e => .error e

/-- The bytes that a client sends, without anything between two transmissions. -/
def sentStream (transmissions : List Transmission) : List Byte :=
  (transmissions.map Transmission.build).flatten

/-- The transmissions of a client and the ways in which the server and a receiving client
receive them. -/
structure Conversation where
  transmissions : List Transmission
  admitted : ∀ t ∈ transmissions, t.Admitted
  server : Chunks (sentStream transmissions)
  client : Chunks (serverReceiver (Memory.fill 0) server.chunks).flatten

/-- The receiving client obtains the transmissions that were sent, all of them and no other
ones. -/
def Conversation.Survives (c : Conversation) : Prop :=
  clientReceiver c.client.chunks = .ok (c.transmissions.map some)

/-- No chunk but the last leaves a request to quit at the start of the server's buffer. -/
def StaysOpen (receiverBuffer : Memory Byte) : List (List Byte) → Prop
  | chunk :: next :: chunks =>
    isQuit (receiverBuffer.write 0 chunk) = false ∧
      StaysOpen (receiverBuffer.write 0 chunk) (next :: chunks)
  | _ => True

/-- The server broadcasts a first part of the chunks. -/
theorem serverReceiver_prefix (buffer : Memory Byte) (chunks : List (List Byte)) :
    serverReceiver buffer chunks <+: chunks := by
  induction chunks generalizing buffer with
  | nil => exact List.prefix_rfl
  | cons chunk chunks ih =>
    rw [serverReceiver]
    apply (List.prefix_cons_inj chunk).mpr
    split
    · exact List.nil_prefix
    · exact ih _

/-- The server broadcasts everything if it stays open to the last chunk. -/
theorem serverReceiver_eq_iff {buffer : Memory Byte} {chunks : List (List Byte)} :
    serverReceiver buffer chunks = chunks ↔ StaysOpen buffer chunks := by
  induction chunks generalizing buffer with
  | nil => exact iff_of_true rfl trivial
  | cons chunk chunks ih =>
    cases chunks with
    | nil =>
      refine iff_of_true ?_ trivial
      rw [serverReceiver, serverReceiver, ite_self]
    | cons next chunks =>
      rw [StaysOpen, ← ih, serverReceiver]
      cases isQuit (buffer.write 0 chunk) with
      | true => simp
      | false => simp

/-- A first part of nonempty chunks with all their bytes is all of them. -/
theorem eq_of_prefix_of_flatten {part chunks : List (List Byte)} (hpart : part <+: chunks)
    (hnonempty : ∀ chunk ∈ chunks, chunk ≠ [])
    (hlength : chunks.flatten.length ≤ part.flatten.length) : part = chunks := by
  obtain ⟨rest, rfl⟩ := hpart
  rw [List.flatten_append, List.length_append] at hlength
  have hrest : rest.flatten = [] := List.length_eq_zero_iff.mp (by omega)
  cases rest with
  | nil => rw [List.append_nil]
  | cons chunk rest =>
    rw [List.flatten_cons, List.append_eq_nil_iff] at hrest
    exact absurd hrest.1 (hnonempty chunk (List.mem_append_right _ List.mem_cons_self))

/-- A client that is sent one transmission at a time obtains them all. -/
theorem clientReceiver_build {transmissions : List Transmission}
    (hadmitted : ∀ t ∈ transmissions, t.Admitted)
    (hseparated : ∀ t ∈ transmissions, t.Separated) :
    clientReceiver (transmissions.map Transmission.build) = .ok (transmissions.map some) := by
  induction transmissions with
  | nil => rfl
  | cons t transmissions ih =>
    obtain ⟨ht, hrest⟩ := List.forall_mem_cons.mp hadmitted
    obtain ⟨ht', hrest'⟩ := List.forall_mem_cons.mp hseparated
    rw [List.map_cons, clientReceiver, parseTransmission_build ht.sendable ht', ih hrest hrest']
    rfl

/-- The first transmission obtained is parsed from the first chunk. -/
theorem of_clientReceiver {chunks : List (List Byte)} {t : Transmission}
    {transmissions : List Transmission}
    (h : clientReceiver chunks = .ok ((t :: transmissions).map some)) :
    ∃ chunk rest, chunks = chunk :: rest ∧ parseTransmission chunk = .ok (some t) ∧
      clientReceiver rest = .ok (transmissions.map some) := by
  cases chunks with
  | nil => cases h
  | cons chunk rest =>
    rw [clientReceiver] at h
    split at h
    · rename_i parsed hparse
      cases hrest : clientReceiver rest with
      | error e =>
        rw [hrest] at h
        cases h
      | ok parsedRest =>
        rw [hrest] at h
        simp only [Except.map, List.map_cons, Except.ok.injEq, List.cons.injEq] at h
        obtain ⟨rfl, rfl⟩ := h
        exact ⟨chunk, rest, rfl, hparse, hrest⟩
    · cases h

/-- The chunks from which the transmissions are obtained begin with them one by one. -/
theorem forall₂_of_clientReceiver {chunks : List (List Byte)}
    {transmissions : List Transmission}
    (h : clientReceiver chunks = .ok (transmissions.map some)) :
    List.Forall₂ (fun t chunk => t.Separated ∧ t.build <+: chunk) transmissions chunks := by
  induction transmissions generalizing chunks with
  | nil =>
    cases chunks with
    | nil => exact .nil
    | cons chunk rest =>
      rw [clientReceiver] at h
      split at h
      · cases hrest : clientReceiver rest <;> rw [hrest] at h <;> cases h
      · cases h
  | cons t transmissions ih =>
    obtain ⟨chunk, rest, rfl, hparse, hrest⟩ := of_clientReceiver h
    exact .cons (of_parseTransmission hparse).symm (ih hrest)

/-- Chunks that begin with the transmissions hold at least their bytes, and no more only if
they are the transmissions. -/
theorem eq_build_of_forall₂ {chunks : List (List Byte)} {transmissions : List Transmission}
    (h : List.Forall₂ (fun t chunk => t.build <+: chunk) transmissions chunks) :
    (sentStream transmissions).length ≤ chunks.flatten.length ∧
      (chunks.flatten.length ≤ (sentStream transmissions).length →
        chunks = transmissions.map Transmission.build) := by
  induction h with
  | nil => exact ⟨le_rfl, fun _ => rfl⟩
  | @cons t chunk transmissions chunks hfirst _ ih =>
    have hlength := hfirst.length_le
    simp only [sentStream, List.map_cons, List.flatten_cons, List.length_append] at ih ⊢
    refine ⟨by omega, fun hle => ?_⟩
    rw [← hfirst.eq_of_length (by omega), ih.2 (by omega)]

/-- The transmissions survive exactly when the server takes nothing but the last chunk for a
request to quit, the client receives one transmission at a time, and no message's username
ends with a colon. -/
theorem survives_iff (c : Conversation) :
    c.Survives ↔ StaysOpen (Memory.fill 0) c.server.chunks ∧
      c.client.chunks = c.transmissions.map Transmission.build ∧
      ∀ t ∈ c.transmissions, t.Separated := by
  constructor
  · intro h
    obtain ⟨hseparated, hparts⟩ := (List.forall₂_and_left _ _).mp (forall₂_of_clientReceiver h)
    obtain ⟨hle, heq⟩ := eq_build_of_forall₂ hparts
    have hpart := serverReceiver_prefix (Memory.fill 0) c.server.chunks
    have hclient := congrArg List.length c.client.flatten_eq
    have hserver := congrArg List.length c.server.flatten_eq
    have hforwarded : (serverReceiver (Memory.fill 0) c.server.chunks).flatten.length ≤
        c.server.chunks.flatten.length := by
      obtain ⟨rest, hrest⟩ := hpart
      rw [← congrArg List.flatten hrest, List.flatten_append, List.length_append]
      omega
    refine ⟨?_, heq (by omega), hseparated⟩
    rw [← serverReceiver_eq_iff]
    exact eq_of_prefix_of_flatten hpart c.server.nonempty (by omega)
  · rintro ⟨-, hchunks, hseparated⟩
    rw [Conversation.Survives, hchunks]
    exact clientReceiver_build c.admitted hseparated

/-- A user `a` joins and says hi, in two transmissions. -/
def joinAndGreet : List Transmission := [.join [0x61], .message [0x61] [0x68, 0x69, 0x0a]]

/-- Both transmissions are of the kind that the programs build. -/
theorem joinAndGreet_admitted : ∀ t ∈ joinAndGreet, t.Admitted := by
  have husername : AdmittedUsername [0x61] := by
    constructor <;> decide
  have htext : AdmittedMessage [0x68, 0x69, 0x0a] := by
    constructor <;> decide
  rintro t ht
  rcases List.mem_pair.mp ht with rfl | rfl
  · exact husername
  · exact ⟨husername, htext⟩

/-- One `recv` returns everything, which TCP may do when the client is quick. -/
def wholeStream (stream : List Byte) (hstream : stream = sentStream joinAndGreet) :
    Chunks stream where
  chunks := [sentStream joinAndGreet]
  nonempty := by
    rintro chunk hchunk
    rw [List.mem_singleton.mp hchunk]
    decide
  bounded := by
    rintro chunk hchunk
    rw [List.mem_singleton.mp hchunk]
    decide
  flatten_eq := by rw [List.flatten_singleton, hstream]

/-- Each `recv` returns one transmission, as `client_sender` had sent them. -/
def oneByOne : Chunks (sentStream joinAndGreet) where
  chunks := joinAndGreet.map Transmission.build
  nonempty := by decide
  bounded := by decide
  flatten_eq := rfl

/-- The server receives the two transmissions one by one, as `a` waits for the first to come
back before sending the second; another client receives both at once. -/
def mergedConversation : Conversation where
  transmissions := joinAndGreet
  admitted := joinAndGreet_admitted
  server := oneByOne
  client := wholeStream _ rfl

/-- The receiving client sees one user `aMSG` join and no message. -/
theorem survives_fails_for_merged : ¬mergedConversation.Survives := by
  have hparsed : clientReceiver mergedConversation.client.chunks =
      .ok [some (.join [0x61, 0x4d, 0x53, 0x47])] := by
    decide +kernel
  intro h
  rw [Conversation.Survives, hparsed] at h
  cases h

end NetworkLabs.Chat
