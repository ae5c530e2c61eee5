import NetworkLabs.Stun.Verdict

/-!
# Servers of both kinds

Some servers send the mapped address plain and others encode it. On a little-endian host the
handler notes the same address, so that the flag stays as it is; on a big-endian host two such
servers look like a symmetric NAT.
-/

namespace NetworkLabs.Stun.Host

open Foundations

variable {order : ByteOrder} {s : State} {a : Attribute} {address : Address}

/-- A datagram that comes in changes nothing that was noted. -/
theorem represents_receive {seen : FirstSeen Address} (hrep : Represents s.toState seen)
    (arrival : Arrival) : Represents (s.receive order arrival).toState seen := by
  have hreceived : Represents (recvfrom s.toState arrival).1 seen := by
    cases arrival <;> exact ⟨hrep.first, hrep.differs⟩
  rw [State.receive]
  dsimp only
  split <;> exact ⟨hreceived.first, hreceived.differs⟩

/-- Any datagram may come in, and an attribute that is processed carries the address or none. -/
def About (address : Address) (s : State) : Event → Prop
  | .receive _ => True
  | .process location => ∃ a : Attribute, HoldsAttribute s.toState location a ∧
      location + a.encode.length ≤ stunBufferSize ∧ ∀ b ∈ a.address, b = address

/-- As long as every attribute that is processed is about one address, plain or encoded, the flag
is not set. -/
def MixingSilent (order : ByteOrder) (address : Address) : Prop :=
  ∀ events t, Meets (step order) (About address) initial events →
    Foundations.run (step order) initial events = .ok t → t.isBehindSymmetricNat = 0

/-- The handler with as many responses as it expects, in the order of their arrival; no walk
that ends needs the `extra` fuel. -/
def run (order : ByteOrder) (extra : ℕ) (responses : List Response) : Except Failure State :=
  responseHandler order (stunBufferSize + extra) responses.length initial
    (responses.map Response.arrival)

/-- The handler does not set the flag for responses of up to two attributes about one address,
plain or encoded. -/
def HandlerSilent (order : ByteOrder) (address : Address) : Prop :=
  ∀ extra responses,
    (∀ r ∈ responses, r.attributes.length ≤ 2 ∧ ∀ b ∈ r.addresses, b = address) →
      ∃ t, run order extra responses = .ok t ∧ t.isBehindSymmetricNat = 0

/-- Nothing but an address has been seen, and so the flag is not set. -/
def OnlySeen (address : Address) (s : State) : Prop :=
  ∃ seen : FirstSeen Address, Represents s.toState seen ∧ seen.differs = false ∧
    ∀ b ∈ seen.first, b = address

/-- One more attribute about the address, which differs from nothing that was seen. -/
theorem OnlySeen.see {seen : FirstSeen Address} (hdiffers : seen.differs = false)
    (hfirst : ∀ b ∈ seen.first, b = address) :
    (seen.see address).differs = false ∧ ∀ b ∈ (seen.see address).first, b = address := by
  rw [FirstSeen.see]
  cases hseen : seen.first with
  | none =>
    refine ⟨hdiffers, fun b hb => ?_⟩
    exact (Option.mem_some_iff.mp hb).symm
  | some b =>
    obtain rfl := hfirst b hseen
    dsimp only
    rw [if_pos rfl]
    exact ⟨hdiffers, hfirst⟩

/-- On a little-endian host no other address is seen than the one that the attributes carry. -/
theorem OnlySeen.step {t : State} {e : Event} (hs : OnlySeen address s) (he : About address s e)
    (hstep : Host.step .leastFirst s e = .ok t) : OnlySeen address t := by
  obtain ⟨seen, hrep, hdiffers, hfirst⟩ := hs
  cases e with
  | receive arrival =>
    cases hstep
    exact ⟨seen, represents_receive hrep arrival, hdiffers, hfirst⟩
  | process location =>
    obtain ⟨a, ha, hfits, haddress⟩ := he
    have hprocess := (processAttribute_eq .leastFirst ha hfits).symm.trans hstep
    rw [decoded_leastFirst] at hprocess
    cases hprocess
    cases hcarried : a.address with
    | none => exact ⟨seen, hrep, hdiffers, hfirst⟩
    | some b =>
      obtain rfl := haddress b hcarried
      have hsee := OnlySeen.see hdiffers hfirst
      exact ⟨seen.see b, hrep.note b, hsee.1, hsee.2⟩

/-- On a little-endian host servers of both kinds do not set the flag. -/
theorem mixingSilent_leastFirst (address : Address) : MixingSilent .leastFirst address := by
  intro events t hmeets hrun
  have hinitial : OnlySeen address initial :=
    ⟨FirstSeen.nothing, ⟨rfl, rfl⟩, rfl, fun b hb => absurd hb (Option.not_mem_none b)⟩
  have hstep : ∀ s e t, OnlySeen address s → About address s e →
      Host.step .leastFirst s e = .ok t → OnlySeen address t := fun _ _ _ hs he ht => hs.step he ht
  obtain ⟨seen, hrep, hdiffers, -⟩ := invariant_of_run hstep hinitial hmeets hrun
  rw [hrep.differs, hdiffers]
  rfl

/-- Nor does the handler set it, which visits both attributes of such a response. -/
theorem handlerSilent_leastFirst (address : Address) : HandlerSilent .leastFirst address := by
  intro extra responses hresponses
  have hinitial : Represents Stun.initial FirstSeen.nothing := ⟨rfl, rfl⟩
  obtain ⟨s', hrun, hrep⟩ := responseHandler_of_le_two responses
    (fun r hr => (hresponses r hr).1) hinitial (1017 + extra)
  have hfuel : 1017 + extra + 3 = stunBufferSize + extra := by
    rw [Nat.add_right_comm]
    rfl
  have hmap := responseHandler_leastFirst (stunBufferSize + extra) responses.length initial
    (responses.map Response.arrival)
  rw [hfuel] at hrun
  obtain ⟨t, ht, rfl⟩ := of_map_eq_ok (hmap.trans hrun)
  refine ⟨t, ht, ?_⟩
  have hagree : ¬Disagree (responses.flatMap Response.addresses) := by
    rintro ⟨b, hb, c, hc, hne⟩
    obtain ⟨r, hr, hb⟩ := List.mem_flatMap.mp hb
    obtain ⟨r', hr', hc⟩ := List.mem_flatMap.mp hc
    exact hne (((hresponses r hr).2 b hb).trans ((hresponses r' hr').2 c hc).symm)
  have hdiffers := hrep.differs
  rwa [if_neg (mt (foldl_see_differs _).mp hagree)] at hdiffers

/-- A transaction ID of zeros, where it makes no difference. -/
def zeroTransactionId : List Byte := List.replicate 12 0

/-- It has the length of a transaction ID. -/
theorem length_zeroTransactionId : zeroTransactionId.length = 12 := rfl

/-- A response with one attribute of the size of an address. -/
def single (a : Attribute) (h : a.encode.length = 12) : Response where
  source := 0xC0000201
  transactionId := zeroTransactionId
  attributes := [a]
  length_transactionId := length_zeroTransactionId
  fits := by
    rw [encodeAttributes_cons, encodeAttributes_nil, List.append_nil, h]
    exact Nat.le_of_ble_eq_true rfl

/-- The attribute is behind the header once the response has come in. -/
theorem holdsAttribute_receive (order : ByteOrder) (s : State) (h : a.encode.length = 12) :
    HoldsAttribute (s.receive order (single a h).arrival).toState stunHeaderSize a := by
  have hread := receive_attributes s.toState (single a h)
  have hencode : encodeAttributes (single a h).attributes = a.encode := List.append_nil _
  rw [hencode] at hread
  exact hread

/-- A response with one attribute has it processed right behind the header, and nothing else. -/
theorem processResponse_single (order : ByteOrder) (s : State) (h : a.encode.length = 12)
    (fuel : ℕ) :
    processResponse order (fuel + 2) (s.receive order (single a h).arrival) =
      processAttribute order (s.receive order (single a h).arrival) stunHeaderSize := by
  have hbuffer : (s.receive order (single a h).arrival).responseBuffer =
      Program.symmetry.receive s.responseBuffer (single a h).message.encode := by
    rw [(single a h).encode_message]
    rfl
  have hsuccess : word order (s.receive order (single a h).arrival).responseBuffer 0 2 =
      htons order 0x0101 := by
    rw [hbuffer]
    exact Program.symmetry.receive_type order s.responseBuffer (single a h).message
  have hnumber : numBytesAttributes order
      (s.receive order (single a h).arrival).responseBuffer = 12 := by
    rw [hbuffer, Program.symmetry.receive_numBytesAttributes]
    have hencode : encodeRaw (single a h).message.attributes = a.encode :=
      (encodeRaw_map_raw _).trans (List.append_nil _)
    rw [hencode, h]
  have hvalue : a.value.length = 8 := by
    have hlength := a.length_encode
    omega
  have hlength : ntohs order (word order
      (s.receive order (single a h).arrival).responseBuffer (stunHeaderSize + 2) 2) = 8 := by
    rw [(holdsAttribute_receive order s h).length_eq order (by omega), hvalue]
  have hguard : Cursor.start.index < 12 := by decide
  have hfits : Cursor.start.visited + 4 ≤ Program.symmetry.stunBufferSize := by decide
  have hend : ¬(Cursor.start.next 8).index < 12 := by decide
  have hvisited : Cursor.start.visited = stunHeaderSize := rfl
  rw [processResponse, if_pos hsuccess, hnumber, Program.walk, if_pos hguard, if_pos hfits,
    hvisited, hlength]
  cases processAttribute order (s.receive order (single a h).arrival) stunHeaderSize with
  | error e => rfl
  | ok t =>
    dsimp only
    rw [Program.walk, if_neg hend]

/-- The handler goes on to the next response, with the state that the attribute of this one left
behind. -/
theorem responseHandler_single (order : ByteOrder) {s t : State} (h : a.encode.length = 12)
    {fuel expected : ℕ} {arrivals : List Arrival}
    (hprocess : processAttribute order (s.receive order (single a h).arrival) stunHeaderSize =
      .ok t) :
    responseHandler order (fuel + 2) (expected + 1) s ((single a h).arrival :: arrivals) =
      responseHandler order (fuel + 2) expected t arrivals := by
  have hpos : 0 < (recvfrom s.toState (single a h).arrival).2 := recvfrom_arrival_pos _ _
  rw [responseHandler, if_pos hpos, processResponse_single, hprocess]

/-- An attribute with an address has the size of one. -/
theorem length_encode_mappedAddress (address : Address) :
    (Attribute.mappedAddress address).encode.length = 12 := length_encode_of_address rfl

/-- So has an encoded one, as only bits are flipped. -/
theorem length_encode_xorMappedAddress (address : Address) :
    (Attribute.xorMappedAddress address).encode.length = 12 := length_encode_of_address rfl

/-- The response of a server that sends the address plain. -/
def plainResponse (address : Address) : Response :=
  single (.mappedAddress address) (length_encode_mappedAddress address)

/-- The response of a server that encodes it, in one attribute. -/
def encodedResponse (address : Address) : Response :=
  single (.xorMappedAddress address) (length_encode_xorMappedAddress address)

/-- On a host of the other order the attributes of two servers of different kinds set the
flag. -/
theorem flag_of_both (horder : order ≠ .leastFirst) (address : Address) : ∃ s₂ s₄,
    processAttribute order (initial.receive order (plainResponse address).arrival)
      stunHeaderSize = .ok s₂ ∧
    processAttribute order (s₂.receive order (encodedResponse address).arrival)
      stunHeaderSize = .ok s₄ ∧ s₄.isBehindSymmetricNat = 1 := by
  obtain ⟨found, hfound, hne⟩ := exists_decoded_ne horder address
  have hfits : stunHeaderSize + 12 ≤ stunBufferSize := by decide
  let s₁ := initial.receive order (plainResponse address).arrival
  let s₂ := s₁.note order address
  let s₃ := s₂.receive order (encodedResponse address).arrival
  let s₄ := s₃.note order found
  have ha := holdsAttribute_receive order initial (length_encode_mappedAddress address)
  have ha' := holdsAttribute_receive order s₂ (length_encode_xorMappedAddress address)
  have hprocess : processAttribute order s₁ stunHeaderSize = .ok s₂ :=
    processAttribute_eq order ha (by rwa [length_encode_mappedAddress])
  have hprocess' : processAttribute order s₃ stunHeaderSize = .ok s₄ := by
    have h := processAttribute_eq order ha' (by rwa [length_encode_xorMappedAddress])
    rw [hfound] at h
    exact h
  refine ⟨s₂, s₄, hprocess, hprocess', ?_⟩
  have hrep : Represents s₄.toState ((FirstSeen.nothing.see address).see found) :=
    (represents_receive ((represents_receive ⟨rfl, rfl⟩ _).note _) _).note _
  have hdiffers : ((FirstSeen.nothing.see address).see found).differs = true := by
    simp [FirstSeen.see, FirstSeen.nothing, hne]
  have hflag := hrep.differs
  rwa [if_pos hdiffers] at hflag

/-- On a host of the other order mixing the two kinds sets the flag. -/
theorem not_mixingSilent (horder : order ≠ .leastFirst) (address : Address) :
    ¬MixingSilent order address := by
  intro hsilent
  obtain ⟨s₂, s₄, hprocess, hprocess', hflag⟩ := flag_of_both horder address
  let s₁ := initial.receive order (plainResponse address).arrival
  let s₃ := s₂.receive order (encodedResponse address).arrival
  have hfits : stunHeaderSize + 12 ≤ stunBufferSize := by decide
  let events : List Event := [.receive (plainResponse address).arrival, .process stunHeaderSize,
    .receive (encodedResponse address).arrival, .process stunHeaderSize]
  have hrun : Foundations.run (Host.step order) initial events = .ok s₄ :=
    run_cons_eq_ok.mpr ⟨s₁, rfl, run_cons_eq_ok.mpr ⟨s₂, hprocess,
      run_cons_eq_ok.mpr ⟨s₃, rfl, run_cons_eq_ok.mpr ⟨s₄, hprocess', rfl⟩⟩⟩⟩
  have habout : About address s₁ (.process stunHeaderSize) :=
    ⟨_, holdsAttribute_receive order initial (length_encode_mappedAddress address),
      by rwa [length_encode_mappedAddress], fun b hb => (Option.mem_some_iff.mp hb).symm⟩
  have habout' : About address s₃ (.process stunHeaderSize) :=
    ⟨_, holdsAttribute_receive order s₂ (length_encode_xorMappedAddress address),
      by rwa [length_encode_xorMappedAddress], fun b hb => (Option.mem_some_iff.mp hb).symm⟩
  have hmeets : Meets (Host.step order) (About address) initial events := by
    refine ⟨trivial, habout, ?_⟩
    rw [Host.step, hprocess]
    exact ⟨trivial, habout', by rw [Host.step, hprocess']; trivial⟩
  rw [hsilent events s₄ hmeets hrun] at hflag
  cases hflag

/-- The handler sets it for the responses of two servers. -/
theorem not_handlerSilent (horder : order ≠ .leastFirst) (address : Address) :
    ¬HandlerSilent order address := by
  intro hsilent
  obtain ⟨s₂, s₄, hprocess, hprocess', hflag⟩ := flag_of_both horder address
  have hrun : run order 0 [plainResponse address, encodedResponse address] = .ok s₄ := by
    have hfuel : stunBufferSize + 0 = 1018 + 2 := rfl
    rw [run, hfuel]
    exact (responseHandler_single order (length_encode_mappedAddress address) hprocess).trans
      (responseHandler_single order (length_encode_xorMappedAddress address) hprocess')
  obtain ⟨t, ht, hzero⟩ := hsilent 0 [plainResponse address, encodedResponse address] (by
    intro r hr
    rcases List.mem_pair.mp hr with rfl | rfl
    · exact ⟨Nat.le_succ 1, fun b hb => List.mem_singleton.mp hb⟩
    · exact ⟨Nat.le_succ 1, fun b hb => List.mem_singleton.mp hb⟩)
  cases hrun.symm.trans ht
  rw [hzero] at hflag
  cases hflag

/-- The two kinds of attributes are decoded to the same address if and only if the host is
little-endian. So it is with mixing them, which does not set the flag then, whether attributes
are processed in any order or the handler performs its walks. -/
theorem decodings_agree_iff (order : ByteOrder) (address : Address) :
    (SameDecoding order address ↔ order = .leastFirst) ∧
      (MixingSilent order address ↔ order = .leastFirst) ∧
      (HandlerSilent order address ↔ order = .leastFirst) := by
  refine ⟨⟨fun h => ?_, ?_⟩, ⟨fun h => ?_, ?_⟩, fun h => ?_, ?_⟩
  · by_contra horder
    exact not_sameDecoding horder address h
  · rintro rfl
    exact sameDecoding_leastFirst address
  · by_contra horder
    exact not_mixingSilent horder address h
  · rintro rfl
    exact mixingSilent_leastFirst address
  · by_contra horder
    exact not_handlerSilent horder address h
  · rintro rfl
    exact handlerSilent_leastFirst address

/-- On a big-endian host the two attributes with 198.51.100.1 and port 4242 are decoded to
different ports, and two servers that send one each set the flag. -/
theorem decodings_differ_mostFirst :
    ¬SameDecoding .mostFirst ⟨0xC6336401, 4242⟩ ∧ ¬MixingSilent .mostFirst ⟨0xC6336401, 4242⟩ ∧
      ¬HandlerSilent .mostFirst ⟨0xC6336401, 4242⟩ := by
  have horder : ByteOrder.mostFirst ≠ .leastFirst := by decide
  exact ⟨not_sameDecoding horder _, not_mixingSilent horder _, not_handlerSilent horder _⟩

end NetworkLabs.Stun.Host
