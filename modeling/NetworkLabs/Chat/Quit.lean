import NetworkLabs.Chat.Language
import NetworkLabs.Chat.Segmentation

/-!
# What the server takes for a request to quit

The server compares the first three bytes of its buffer, which is neither terminated nor
cleared, and the clients parse the chunk. A request that the clients see the server sees too,
but the server also takes other chunks for one.
-/

namespace NetworkLabs.Chat

open Foundations

/-- `parse_transmission` applied by a client to a chunk returns `DPP_QUIT_TYPE`. -/
def ReturnsQuit (clientBuffer : Memory Byte) (chunk : List Byte) : Prop :=
  ∃ p, Client.parseTransmission (clientBuffer.write 0 chunk) chunk.length = .ok p ∧ p.type = .quit

/-- The server and the clients agree on every chunk of a sequence that one `server_receiver`
receives, each overwriting the beginning of its buffer. -/
def AgreesOnQuit (receiverBuffer : Memory Byte) : List (List Byte) → Prop
  | [] => True
  | chunk :: chunks =>
    (∀ clientBuffer,
      isQuit (receiverBuffer.write 0 chunk) = true ↔ ReturnsQuit clientBuffer chunk) ∧
      AgreesOnQuit (receiverBuffer.write 0 chunk) chunks

/-- The chunk begins with `BYE::` and leaves room for the terminator, or it does not begin with
`BYE` even when the bytes that the buffer holds behind it are added. -/
def Unmistakable (receiverBuffer : Memory Byte) (chunk : List Byte) : Prop :=
  dppQuit ++ dppDelimiter <+: chunk ∧ chunk.length < bufferSize ∨
    ¬dppQuit <+: chunk ++ receiverBuffer.read chunk.length dppQuit.length

/-- Every chunk of the sequence is unmistakable, for the buffer that the chunks before
it leave. -/
def AllUnmistakable (receiverBuffer : Memory Byte) : List (List Byte) → Prop
  | [] => True
  | chunk :: chunks =>
    Unmistakable receiverBuffer chunk ∧ AllUnmistakable (receiverBuffer.write 0 chunk) chunks

/-- What `is_quit` compares: the start of the chunk, and behind a chunk that is shorter what the
buffer held before. -/
theorem isQuit_iff (receiverBuffer : Memory Byte) (chunk : List Byte) :
    isQuit (receiverBuffer.write 0 chunk) = true ↔
      dppQuit <+: chunk ++ receiverBuffer.read chunk.length dppQuit.length := by
  have hread : (receiverBuffer.write 0 chunk).read 0 (chunk.length + dppQuit.length) =
      chunk ++ receiverBuffer.read chunk.length dppQuit.length := by
    rw [Memory.read_add, Memory.read_write receiverBuffer 0 rfl, Nat.zero_add,
      Memory.read_write_disjoint receiverBuffer (Or.inr (by rw [Nat.zero_add]))]
  rw [isQuit, beq_iff_eq, List.prefix_iff_eq_take, ← hread,
    Memory.take_read _ (Nat.le_add_left _ _)]
  exact eq_comm

/-- A string begins with what the bytes begin with, up to a zero byte. -/
theorem cString_append {xs : List Byte} (hxs : 0 ∉ xs) (ys : List Byte) :
    cString (xs ++ ys) = xs ++ cString ys := by
  refine List.takeWhile_append_of_pos fun b hb => ?_
  rw [decide_eq_true_iff]
  rintro rfl
  exact hxs hb

/-- The type of a chunk is `BYE` when it begins with `BYE::`. -/
theorem splitDelimiter_quit_iff (chunk : List Byte) :
    (∃ rest, splitDelimiter (cString chunk) = some (dppQuit, rest)) ↔
      dppQuit ++ dppDelimiter <+: chunk := by
  constructor
  · rintro ⟨rest, hsplit⟩
    have htext := (of_splitDelimiter hsplit).1
    exact (htext ▸ List.prefix_append _ rest).trans (List.takeWhile_prefix _)
  · rintro ⟨rest, rfl⟩
    refine ⟨cString rest, ?_⟩
    rw [cString_append (by decide)]
    exact splitDelimiter_type _ (Or.inr (Or.inr rfl))

/-- What the clients take for a request to quit. -/
theorem returnsQuit_iff (clientBuffer : Memory Byte) (chunk : List Byte) :
    ReturnsQuit clientBuffer chunk ↔
      dppQuit ++ dppDelimiter <+: chunk ∧ chunk.length < bufferSize := by
  rw [ReturnsQuit, ← splitDelimiter_quit_iff]
  by_cases hsize : chunk.length < bufferSize
  · have hspec := Client.parseTransmission_spec clientBuffer hsize
    cases hsplit : splitDelimiter (cString chunk) with
    | none =>
      rw [hsplit] at hspec
      obtain ⟨m, hparse⟩ := hspec
      refine iff_of_false ?_ ?_
      · rintro ⟨p, hp, htype⟩
        cases hparse.symm.trans hp
        cases htype
      · rintro ⟨⟨rest, hrest⟩, -⟩
        cases hrest
    | some parts =>
      obtain ⟨type, rest⟩ := parts
      rw [hsplit] at hspec
      obtain ⟨m, hparse, -⟩ := hspec
      obtain ⟨-, -, hquit, -⟩ := Client.compareType_type_iff m
        (type.length + dppDelimiter.length)
        ((splitDelimiter rest).map fun parts => type.length + dppDelimiter.length + parts.1.length)
        type
      constructor
      · rintro ⟨p, hp, htype⟩
        cases hparse.symm.trans hp
        rw [hquit] at htype
        exact ⟨⟨rest, by rw [htype]⟩, hsize⟩
      · rintro ⟨⟨rest', hrest'⟩, -⟩
        cases hrest'
        exact ⟨_, hparse, hquit.mpr rfl⟩
  · refine iff_of_false ?_ fun h => hsize h.2
    rintro ⟨p, hp, -⟩
    rw [Client.parseTransmission, Client.terminate, if_neg hsize] at hp
    cases hp

/-- On one chunk they agree exactly when it is unmistakable. -/
theorem agreesOnQuit_chunk_iff (receiverBuffer clientBuffer : Memory Byte) (chunk : List Byte) :
    (isQuit (receiverBuffer.write 0 chunk) = true ↔ ReturnsQuit clientBuffer chunk) ↔
      Unmistakable receiverBuffer chunk := by
  rw [isQuit_iff, returnsQuit_iff, Unmistakable]
  have hboth : dppQuit ++ dppDelimiter <+: chunk →
      dppQuit <+: chunk ++ receiverBuffer.read chunk.length dppQuit.length := fun h =>
    ((List.prefix_append _ _).trans h).trans (List.prefix_append _ _)
  constructor
  · intro hiff
    by_cases hquit : dppQuit <+: chunk ++ receiverBuffer.read chunk.length dppQuit.length
    · exact Or.inl (hiff.mp hquit)
    · exact Or.inr hquit
  · rintro (hclient | hserver)
    · exact iff_of_true (hboth hclient.1) hclient
    · exact iff_of_false hserver fun hclient => hserver (hboth hclient.1)

/-- The server and the clients agree on what a request to quit is in exactly the sequences whose
chunks are all unmistakable. -/
theorem agreesOnQuit_iff (receiverBuffer : Memory Byte) (chunks : List (List Byte)) :
    AgreesOnQuit receiverBuffer chunks ↔ AllUnmistakable receiverBuffer chunks := by
  induction chunks generalizing receiverBuffer with
  | nil => exact Iff.rfl
  | cons chunk chunks ih =>
    rw [AgreesOnQuit, AllUnmistakable]
    refine and_congr ⟨fun h => ?_, fun h clientBuffer => ?_⟩ (ih _)
    · exact (agreesOnQuit_chunk_iff receiverBuffer (Memory.fill 0) chunk).mp (h _)
    · exact (agreesOnQuit_chunk_iff receiverBuffer clientBuffer chunk).mpr h

/-- The chunks `xYES` and `B`, after which the buffer begins with `BYES`. -/
def leftoverQuit : List (List Byte) := [[0x78, 0x59, 0x45, 0x53], [0x42]]

/-- The server goes on after the first chunk and disconnects the client after the second, which
no client takes for a request to quit. -/
theorem agreesOnQuit_fails :
    serverReceiver (Memory.fill 0) leftoverQuit = leftoverQuit ∧
      ¬AgreesOnQuit (Memory.fill 0) leftoverQuit := by
  refine ⟨rfl, ?_⟩
  rintro ⟨-, hagree, -⟩
  have hquit := (hagree (Memory.fill 0)).mp (by decide)
  rw [returnsQuit_iff] at hquit
  exact absurd hquit.1 (by decide)

end NetworkLabs.Chat
