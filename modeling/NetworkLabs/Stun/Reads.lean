import NetworkLabs.Stun.Visits

/-!
# The bytes that the handlers read

Nothing is compared with the number of bytes received. A message of up to two attributes whose
addresses are complete is read within its bytes, and so is what is no success response; other
datagrams make the handlers read what was in the buffer before.
-/

namespace NetworkLabs.Stun.Program

open Foundations

/-- A word of the buffer: its offset and its width in bytes. -/
structure Field where
  offset : ℕ
  width : ℕ
  deriving DecidableEq

variable (p : Program) (order : ByteOrder) (m : Memory Byte)

/-- What is read of the attribute at a place: its length and its type, and the port and the
address where the type says so. -/
def attributeFields (stray : Stray) (location : ℕ) : List Field :=
  [⟨location + 2, 2⟩, ⟨location, 2⟩] ++
    if p.field order m stray location 2 ∈
        p.addressTypes.map fun type => Host.htons order type.toNat then
      [⟨location + 6, 2⟩, ⟨location + 8, 4⟩]
    else []

/-- The loop reads a field when it starts at a cursor. -/
inductive LoopReads (numBytesAttributes : ℕ) : Cursor → Field → Prop
  | now {c : Cursor} {f : Field} (hguard : c.index < numBytesAttributes) (stray : Stray)
    (hf : f ∈ p.attributeFields order m stray c.visited) : LoopReads numBytesAttributes c f
  | later {c : Cursor} {f : Field} (hguard : c.index < numBytesAttributes) (stray : Stray)
    (h : LoopReads numBytesAttributes
      ((p.loop order m numBytesAttributes).body c stray) f) : LoopReads numBytesAttributes c f

/-- The handler reads a field of the buffer after a datagram has come in. -/
inductive Reads : Field → Prop
  | length : Reads ⟨2, 2⟩
  | type : Reads ⟨0, 2⟩
  | walk {f : Field} (hsuccess : Host.word order m 0 2 = Host.htons order 0x0101)
    (h : p.LoopReads order m (Host.numBytesAttributes order m) .start f) : Reads f

/-- Every field that is read lies within the bytes received. -/
def ReadsReceived (datagram : List Byte) : Prop :=
  ∀ f, p.Reads order (p.receive m datagram) f → f.offset + f.width ≤ datagram.length

/-- The datagrams that a handler can deal with: a message of another type, or a success response
of up to two attributes with complete addresses. -/
inductive Expected : List Byte → Prop
  | other {datagram : List Byte} (hsize : datagram.length ≤ p.stunBufferSize)
    (hheader : 4 ≤ datagram.length) (htype : datagram.take 2 ≠ bigEndian 2 0x0101) :
    Expected datagram
  | success {r : Message} {rest : List Byte}
    (hsize : (r.encode ++ rest).length ≤ p.stunBufferSize) (htwo : r.attributes.length ≤ 2)
    (haddress : ∀ a ∈ r.attributes, a.type ∈ p.addressTypes → 8 ≤ a.value.length) :
    Expected (r.encode ++ rest)

variable {p order m} {r : Message}

/-- The fields of a complete attribute lie in the message. -/
theorem attributeFields_le {k : ℕ} {a : RawAttribute} (ha : r.attributes[k]? = some a)
    (haddress : a.type ∈ p.addressTypes → 8 ≤ a.value.length)
    (hsize : r.encode.length ≤ p.stunBufferSize) {stray : Stray} {f : Field}
    (hf : f ∈ p.attributeFields order (p.receive m r.encode) stray (r.start k)) :
    f.offset + f.width ≤ r.encode.length := by
  have hend := r.start_add_le ha
  rw [← r.length_encode] at hend
  rcases List.mem_append.mp hf with hheader | hvalue
  · rcases List.mem_pair.mp hheader with rfl | rfl
    · dsimp only
      omega
    · dsimp only
      omega
  · split_ifs at hvalue with htype
    · obtain ⟨type, hmem, hfield⟩ := List.mem_map.mp htype
      rw [eq_comm, receive_attributeType ha (by omega)] at hfield
      have hlength := haddress (hfield ▸ hmem)
      rcases List.mem_pair.mp hvalue with rfl | rfl
      · dsimp only
        omega
      · dsimp only
        omega
    · cases hvalue

/-- The loop over a message of up to two complete attributes stays in the message. -/
theorem LoopReads.le (htwo : r.attributes.length ≤ 2)
    (haddress : ∀ a ∈ r.attributes, a.type ∈ p.addressTypes → 8 ≤ a.value.length)
    (hsize : r.encode.length ≤ p.stunBufferSize) {c : Cursor} {f : Field}
    (hreads : p.LoopReads order (p.receive m r.encode)
      (Host.numBytesAttributes order (p.receive m r.encode)) c f)
    {k : ℕ} (hk : k ≤ r.attributes.length) (hc : Located r k c) :
    f.offset + f.width ≤ r.encode.length := by
  induction hreads generalizing k with
  | now hguard stray hf =>
    have hlt := (messageLoop_guard_iff hk hc.index_eq).mp hguard
    rw [hc.visited_eq hlt] at hf
    exact attributeFields_le (List.getElem?_eq_getElem hlt) (haddress _ (List.getElem_mem hlt))
      hsize hf
  | later hguard stray hreads ih =>
    have hlt := (messageLoop_guard_iff hk hc.index_eq).mp hguard
    have hend := r.start_add_le (List.getElem?_eq_getElem hlt)
    rw [← r.length_encode] at hend
    exact ih hlt (hc.body hlt (by omega) (by omega) stray)

/-- A field that is read of an expected datagram lies within it. -/
theorem Expected.field_le {datagram : List Byte} (hexpected : p.Expected datagram) {f : Field}
    (hreads : p.Reads order (p.receive m datagram) f) :
    f.offset + f.width ≤ datagram.length := by
  cases hexpected with
  | other hsize hheader htype =>
    cases hreads with
    | length => exact hheader
    | type => exact Nat.le_trans (by decide) hheader
    | walk hsuccess h =>
      have hbytes : datagram = [] ++ datagram.take 2 ++ datagram.drop 2 :=
        (List.take_append_drop 2 datagram).symm
      have htaken : (datagram.take 2).length = 2 := by
        rw [List.length_take]
        omega
      have hread := receive_read (p := p) (m := m) hbytes (by simp; omega)
      rw [htaken, List.length_nil] at hread
      rw [Host.word_eq_htons_iff, hread] at hsuccess
      exact absurd hsuccess htype
  | @success r rest hsize htwo haddress =>
    rw [List.length_append] at hsize ⊢
    have hlength := r.length_encode
    have hheader : stunHeaderSize = 20 := rfl
    cases hreads with
    | length =>
      dsimp only
      omega
    | type =>
      dsimp only
      omega
    | walk hsuccess h =>
      rw [← receive_append] at h
      have hle := h.le htwo haddress (by omega) (Nat.zero_le _) (.start r)
      omega

/-- Every field that is read of an expected datagram lies within the bytes received, whatever the
buffer held before and whatever the byte order of the host is. -/
theorem readsReceived_of_expected (p : Program) (order : ByteOrder) (m : Memory Byte)
    {datagram : List Byte} (hexpected : p.Expected datagram) :
    p.ReadsReceived order m datagram := fun _ hreads =>
  hexpected.field_le hreads

/-- A mapped address and the address of the source, as a server without encoding sends them. -/
def twoAddresses : Message where
  identification := zeroIdentification
  attributes := [addressAttribute 0x0001 ⟨0xC6336401, 4242⟩,
    addressAttribute 0x0004 ⟨0x4D48A9D2, 3479⟩]
  length_identification := length_zeroIdentification
  length_lt := Nat.le_of_ble_eq_true rfl

/-- Both handlers read a message with two addresses, and a byte behind it, within its bytes. -/
theorem readsReceived_twoAddresses :
    symmetry.ReadsReceived .leastFirst (Memory.fill 0) (twoAddresses.encode ++ [0x00]) ∧
      coneLevel.ReadsReceived .mostFirst (Memory.fill 0) (twoAddresses.encode ++ [0x00]) := by
  have haddress : ∀ a ∈ twoAddresses.attributes, 8 ≤ a.value.length := by decide
  exact ⟨readsReceived_of_expected symmetry .leastFirst (Memory.fill 0)
      (.success (by decide) (by decide) fun a ha _ => haddress a ha),
    readsReceived_of_expected coneLevel .mostFirst (Memory.fill 0)
      (.success (by decide) (by decide) fun a ha _ => haddress a ha)⟩

/-- A success response that ends with the header, although it tells of an attribute. -/
def headerOnly : List Byte := [0x01, 0x01, 0x00, 0x04] ++ List.replicate 16 0

/-- A success response with a mapped address of four bytes. -/
def shortAddress : List Byte :=
  [0x01, 0x01, 0x00, 0x08] ++ List.replicate 16 0 ++ [0x00, 0x01, 0x00, 0x04] ++
    [0x00, 0x01, 0x10, 0x92]

/-- A field of the first attribute that is not received whole. -/
theorem not_readsReceived {datagram : List Byte} {f : Field}
    (hsuccess : Host.word order (p.receive m datagram) 0 2 = Host.htons order 0x0101)
    (hsome : 0 < Host.numBytesAttributes order (p.receive m datagram))
    (hf : f ∈ p.attributeFields order (p.receive m datagram) (fun _ => 0) stunHeaderSize)
    (hout : datagram.length < f.offset + f.width) : ¬p.ReadsReceived order m datagram := by
  intro h
  have hle := h f (.walk hsuccess (.now hsome _ hf))
  omega

/-- A datagram of one byte, a header without its attribute, and a mapped address without the IP
make both handlers read behind the bytes received. -/
theorem readsReceived_fails :
    (¬symmetry.ReadsReceived .leastFirst (Memory.fill 0) [0x01] ∧
      ¬coneLevel.ReadsReceived .leastFirst (Memory.fill 0) [0x01]) ∧
    (¬symmetry.ReadsReceived .leastFirst (Memory.fill 0) headerOnly ∧
      ¬coneLevel.ReadsReceived .leastFirst (Memory.fill 0) headerOnly) ∧
    (¬symmetry.ReadsReceived .leastFirst (Memory.fill 0) shortAddress ∧
      ¬coneLevel.ReadsReceived .leastFirst (Memory.fill 0) shortAddress) := by
  refine ⟨⟨?_, ?_⟩, ⟨?_, ?_⟩, ⟨?_, ?_⟩⟩
  · exact fun h => absurd (h ⟨2, 2⟩ .length) (by decide)
  · exact fun h => absurd (h ⟨2, 2⟩ .length) (by decide)
  · exact not_readsReceived (f := ⟨22, 2⟩) (by decide +kernel) (by decide +kernel)
      (by decide +kernel) (by decide)
  · exact not_readsReceived (f := ⟨22, 2⟩) (by decide +kernel) (by decide +kernel)
      (by decide +kernel) (by decide)
  · exact not_readsReceived (f := ⟨28, 4⟩) (by decide +kernel) (by decide +kernel)
      (by decide +kernel) (by decide)
  · exact not_readsReceived (f := ⟨28, 4⟩) (by decide +kernel) (by decide +kernel)
      (by decide +kernel) (by decide)

end NetworkLabs.Stun.Program
