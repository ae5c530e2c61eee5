import NetworkLabs.Foundations.Run
import NetworkLabs.Stun.Received
import NetworkLabs.Stun.Walk

/-!
# The verdict of the test

The verdict is right for responses of at most two attributes. From the third attribute on
the walk looks at the wrong places, so that for every number of attributes from three on
some response makes it leave the buffer.
-/

namespace NetworkLabs.Stun

open Foundations

/-- The handler with as many responses as it expects, in the order of their arrival; no walk
that ends needs the `extra` fuel. -/
def run (extra : ℕ) (responses : List Response) : Except Failure State :=
  responseHandler (stunBufferSize + extra) responses.length initial
    (responses.map Response.arrival)

/-- The verdict tells whether two of the mapped addresses that the responses carry differ,
and is the same for every order of the responses. -/
def VerdictRight (extra : ℕ) (responses : List Response) : Prop :=
  ∃ s, run extra responses = .ok s ∧
    (s.isBehindSymmetricNat = 1 ↔ Disagree (responses.flatMap Response.addresses)) ∧
    ∀ responses', responses'.Perm responses → ∃ s', run extra responses' = .ok s' ∧
      s'.isBehindSymmetricNat = s.isBehindSymmetricNat

variable {s : State} {seen : FirstSeen Address} {fuel : ℕ}

/-- The state in which a received response is processed, with the text of its sender. -/
def State.receive (s : State) (r : Response) : State :=
  State.nameSender (recvfrom s r.arrival).1

/-- The response is in the buffer as the message that it is. -/
theorem receive_responseBuffer (s : State) (r : Response) :
    (s.receive r).responseBuffer = Program.symmetry.receive s.responseBuffer r.message.encode := by
  rw [r.encode_message]
  rfl

/-- Receiving changes none of the variables that hold the first address. -/
theorem Represents.receive (hrep : Represents s seen) (r : Response) :
    Represents (s.receive r) seen :=
  ⟨hrep.first, hrep.differs⟩

/-- A received response has its attributes walked through. -/
theorem processResponse_eq (s : State) (r : Response) (fuel : ℕ) :
    processResponse fuel (s.receive r) =
      walk (encodeAttributes r.attributes).length fuel (s.receive r) stunHeaderSize 0 := by
  have hsuccess : word (s.receive r).responseBuffer 0 2 = htons 0x0101 := by
    rw [receive_responseBuffer]
    exact Program.symmetry.receive_type .leastFirst s.responseBuffer r.message
  have hnumber : ntohs (word (s.receive r).responseBuffer 2 2) =
      (encodeAttributes r.attributes).length := by
    rw [receive_responseBuffer, ← encodeRaw_map_raw]
    exact Program.symmetry.receive_numBytesAttributes .leastFirst s.responseBuffer r.message
  rw [processResponse, if_pos hsuccess, hnumber]

/-- The attributes of a received response stand behind its header. -/
theorem receive_attributes (s : State) (r : Response) :
    (s.receive r).responseBuffer.read stunHeaderSize (encodeAttributes r.attributes).length =
      encodeAttributes r.attributes := by
  have hencode : r.encode = r.header ++ encodeAttributes r.attributes ++ [] :=
    (List.append_nil _).symm
  have hfits : r.header.length + (encodeAttributes r.attributes).length ≤
      Program.symmetry.stunBufferSize := by
    rw [r.length_header]
    exact r.fits
  rw [receive_responseBuffer, r.encode_message, ← r.length_header]
  exact Program.receive_read hencode hfits

/-- The arrival of a response is no failure and no empty datagram. -/
theorem recvfrom_arrival_pos (s : State) (r : Response) : 0 < (recvfrom s r.arrival).2 := by
  have hcount : (recvfrom s r.arrival).2 = ((r.encode.take stunBufferSize).length : ℤ) := rfl
  have hheader : r.encode.length = _ := List.length_append
  have hbuffer : stunBufferSize = stunHeaderSize + 1000 := rfl
  have hsize : stunHeaderSize = 20 := rfl
  rw [r.length_header] at hheader
  rw [hcount, List.length_take]
  omega

/-- The handler expects one response less after each response. -/
theorem responseHandler_cons (s : State) (r : Response) (fuel expected : ℕ)
    (arrivals : List Arrival) :
    responseHandler fuel (expected + 1) s (r.arrival :: arrivals) =
      match processResponse fuel (s.receive r) with
      | .ok s' => responseHandler fuel expected s' arrivals
      | .error e => .error e := by
  rw [responseHandler]
  exact if_pos (recvfrom_arrival_pos s r)

/-- Responses of at most two attributes are all processed, and every address is noted. -/
theorem responseHandler_of_le_two (responses : List Response)
    (htwo : ∀ r ∈ responses, r.attributes.length ≤ 2) (hrep : Represents s seen) (fuel : ℕ) :
    ∃ s', responseHandler (fuel + 3) responses.length s (responses.map Response.arrival) =
        .ok s' ∧
      Represents s' ((responses.flatMap Response.addresses).foldl FirstSeen.see seen) := by
  induction responses generalizing s seen with
  | nil => exact ⟨s, rfl, hrep⟩
  | cons r responses ih =>
    obtain ⟨s₁, hwalk, hrep₁⟩ := walk_of_length_le_two (receive_attributes s r) r.fits
      (htwo r List.mem_cons_self) (hrep.receive r) fuel
    obtain ⟨s', hrun, hrep'⟩ := ih (fun r' hr' => htwo r' (List.mem_cons_of_mem r hr')) hrep₁
    refine ⟨s', ?_, ?_⟩
    · rw [List.length_cons, List.map_cons, responseHandler_cons, processResponse_eq, hwalk]
      exact hrun
    · rw [List.flatMap_cons, List.foldl_append]
      exact hrep'

/-- If some response cannot be processed in any state, the handler does not come to an end. -/
theorem responseHandler_error {responses : List Response} {r : Response} (hr : r ∈ responses)
    (hfails : ∀ s, ∃ e, processResponse fuel (State.receive s r) = .error e) (s : State) :
    ∃ e, responseHandler fuel responses.length s (responses.map Response.arrival) = .error e := by
  induction responses generalizing s with
  | nil => cases hr
  | cons r' responses ih =>
    rw [List.length_cons, List.map_cons, responseHandler_cons]
    rcases List.mem_cons.mp hr with rfl | hr
    · obtain ⟨e, he⟩ := hfails s
      exact ⟨e, by rw [he]⟩
    · cases hprocess : processResponse fuel (s.receive r') with
      | error e => exact ⟨e, rfl⟩
      | ok s' => exact ih hr s'

/-- The verdict for responses of at most two attributes. -/
theorem verdictRight_of_le_two {responses : List Response}
    (htwo : ∀ r ∈ responses, r.attributes.length ≤ 2) (extra : ℕ) :
    VerdictRight extra responses := by
  have hinitial : Represents initial FirstSeen.nothing := ⟨rfl, rfl⟩
  have hend : ∀ responses', responses'.Perm responses → ∃ s, run extra responses' = .ok s ∧
      (s.isBehindSymmetricNat = 1 ↔ Disagree (responses.flatMap Response.addresses)) ∧
      s.isBehindSymmetricNat ≤ 1 := by
    intro responses' hperm
    obtain ⟨s, hrun, hrep⟩ := responseHandler_of_le_two responses'
      (fun r hr => htwo r (hperm.mem_iff.mp hr)) hinitial (1017 + extra)
    refine ⟨s, ?_, ?_, ?_⟩
    · have hfuel : stunBufferSize + extra = 1017 + extra + 3 := by
        rw [Nat.add_right_comm]
        rfl
      rw [run, hfuel, hrun]
    · rw [← disagree_perm (hperm.flatMap_right _), ← foldl_see_differs, hrep.differs]
      split <;> simp_all
    · rw [hrep.differs]
      split <;> decide
  obtain ⟨s, hrun, hverdict, hle⟩ := hend responses (List.Perm.refl _)
  refine ⟨s, hrun, hverdict, ?_⟩
  intro responses' hperm
  obtain ⟨s', hrun', hverdict', hle'⟩ := hend responses' hperm
  refine ⟨s', hrun', ?_⟩
  have hsame := hverdict'.trans hverdict.symm
  omega

section Padded

/-- An attribute without a value that carries no address, of any type but the two
for addresses. -/
def emptyAttribute (type : BitVec 16) (irrelevant : type ≠ 0x0001 ∧ type ≠ 0x0020) : Attribute :=
  .other type [] irrelevant (Nat.dvd_zero 4)

/-- Four zeros, which look like an empty attribute of type 0. -/
def zeroBlock : List Byte := (emptyAttribute 0x0000 (by decide)).encode

/-- A `SOFTWARE` attribute without a value, which the handler passes over. -/
def softwareBlock : List Byte := (emptyAttribute 0x8022 (by decide)).encode

/-- Zeros for the value of an attribute, in blocks of four bytes. -/
def zeros (p : ℕ) : List Byte := (List.replicate p zeroBlock).flatten

/-- Each block of zeros has four bytes, so that padding keeps the attributes behind it on a
boundary. -/
theorem length_zeros (p : ℕ) : (zeros p).length = 4 * p := by
  have hblock : zeroBlock.length = 4 := rfl
  simp [zeros, List.length_flatten, hblock, Nat.mul_comm]

/-- A `SOFTWARE` attribute with `4 * p` zeros, which moves what is behind it. -/
def paddingAttribute (p : ℕ) : Attribute :=
  .other 0x8022 (zeros p) (by decide) (length_zeros p ▸ Nat.dvd_mul_right 4 p)

/-- A padding attribute, and `n` attributes without a value behind it. -/
def paddedAttributes (p n : ℕ) : List Attribute :=
  paddingAttribute p :: List.replicate n (emptyAttribute 0x8022 (by decide))

/-- The blocks of four bytes of the padded attributes, of which the walk reads one after the
other. -/
def paddedBlocks (p n : ℕ) : List (List Byte) :=
  (bigEndian 2 0x8022 ++ bigEndian 2 (4 * p)) ::
    (List.replicate p zeroBlock ++ List.replicate n softwareBlock)

/-- All blocks have four bytes, so that they can be counted instead of bytes. -/
theorem length_of_mem_paddedBlocks {p n : ℕ} : ∀ block ∈ paddedBlocks p n, block.length = 4 := by
  intro block hblock
  simp only [paddedBlocks, List.mem_cons, List.mem_append, List.mem_replicate] at hblock
  rcases hblock with rfl | ⟨-, rfl⟩ | ⟨-, rfl⟩ <;> rfl

/-- Padded attributes are sent as their blocks, which is what lets the walk be counted in
blocks. -/
theorem encode_paddedAttributes (p n : ℕ) :
    encodeAttributes (paddedAttributes p n) = (paddedBlocks p n).flatten := by
  have hrest : encodeAttributes (List.replicate n (emptyAttribute 0x8022 (by decide))) =
      (List.replicate n softwareBlock).flatten := by
    rw [encodeAttributes, List.flatMap_def, List.map_replicate, softwareBlock]
  rw [paddedAttributes, encodeAttributes_cons, hrest, paddedBlocks, List.flatten_cons,
    List.flatten_append, ← List.append_assoc, paddingAttribute, Attribute.encode]
  simp only [Attribute.type, Attribute.value, length_zeros]
  rfl

/-- The size of padded attributes in bytes: the header of the padding, its zeros and the
attributes behind it. -/
theorem length_paddedAttributes (p n : ℕ) :
    (encodeAttributes (paddedAttributes p n)).length = 4 + 4 * (p + n) := by
  have hzeros : (List.replicate p zeroBlock).flatten.length = 4 * p := length_zeros p
  have hsoftware : (List.replicate n softwareBlock).flatten.length = 4 * n := by
    have hblock : softwareBlock.length = 4 := rfl
    rw [List.length_flatten, List.map_replicate, List.sum_replicate_nat, hblock, Nat.mul_comm]
  rw [encode_paddedAttributes, paddedBlocks, List.flatten_cons, List.flatten_append,
    List.length_append, List.length_append, List.length_append, hzeros, hsoftware,
    length_bigEndian, length_bigEndian]
  omega

/-- Padding behind a mapped address, or in its place: the attributes that stand in front. -/
def frontAttributes (front : Option Address) : List Attribute :=
  front.toList.map .mappedAddress

/-- The number of blocks in front of the padding, which a mapped address takes. -/
def frontSize : Option Address → ℕ
  | none => 0
  | some _ => 3

/-- An address in front takes three blocks: the header of its attribute and eight bytes of
value. -/
theorem length_frontAttributes (front : Option Address) :
    (encodeAttributes (frontAttributes front)).length = 4 * frontSize front := by
  cases front with
  | none => rfl
  | some address => simp [frontAttributes, frontSize, Attribute.length_encode, Attribute.value]

/-- Attributes are sent one after the other, so that a list in two parts is sent in
two parts. -/
theorem encodeAttributes_append (as bs : List Attribute) :
    encodeAttributes (as ++ bs) = encodeAttributes as ++ encodeAttributes bs :=
  List.flatMap_append

/-- A response with padded attributes that fill the buffer, behind an address or not. -/
def paddedResponse (front : Option Address) (p n : ℕ) (h : frontSize front + p + n = 249) :
    Response where
  source := 0
  transactionId := List.replicate 12 0
  attributes := frontAttributes front ++ paddedAttributes p n
  length_transactionId := rfl
  fits := by
    rw [encodeAttributes_append, List.length_append, length_frontAttributes,
      length_paddedAttributes]
    have hbuffer : stunBufferSize = stunHeaderSize + 1000 := rfl
    omega

/-- The buffer holds an attribute of four bytes that carries no address. -/
def HoldsEmpty (s : State) (location : ℕ) : Prop :=
  ∃ a, a.address = none ∧ a.encode.length = 4 ∧ HoldsAttribute s location a

/-- Each block of padded attributes but the first looks like an empty attribute. -/
theorem holdsEmpty_of_padded {p n start : ℕ}
    (hread : s.responseBuffer.read start (encodeAttributes (paddedAttributes p n)).length =
      encodeAttributes (paddedAttributes p n)) {k : ℕ} (hpos : 0 < k) (hk : k ≤ p + n) :
    HoldsEmpty s (start + 4 * k) := by
  obtain ⟨k, rfl⟩ := Nat.exists_eq_succ_of_ne_zero (Nat.ne_zero_of_lt hpos)
  rw [encode_paddedAttributes] at hread
  have hlength : k + 1 < (paddedBlocks p n).length := by
    simp only [paddedBlocks, List.length_cons, List.length_append, List.length_replicate]
    omega
  have hblock := Memory.read_flatten length_of_mem_paddedBlocks hread hlength
  have hmem : (paddedBlocks p n)[k + 1] ∈
      List.replicate p zeroBlock ++ List.replicate n softwareBlock :=
    List.getElem_mem _
  rcases List.mem_append.mp hmem with hzero | hsoftware
  · rw [(List.mem_replicate.mp hzero).2] at hblock
    exact ⟨emptyAttribute 0x0000 (by decide), rfl, rfl, hblock⟩
  · rw [(List.mem_replicate.mp hsoftware).2] at hblock
    exact ⟨emptyAttribute 0x8022 (by decide), rfl, rfl, hblock⟩

/-- A walk over empty attributes that adds up its distances leaves the buffer. -/
theorem walk_outside {f : ℕ}
    (hempty : ∀ k, f < k → k ≤ 249 → HoldsEmpty s (stunHeaderSize + 4 * k))
    {i j : ℕ} (hpos : f < j) (hlast : j ≤ 249) (hfar : 0 < i ∨ j ≤ 248) (fuel : ℕ) :
    ∃ e, walk 1000 fuel s (stunHeaderSize + 4 * i) (4 * j) = .error e := by
  induction fuel generalizing i j with
  | zero => exact ⟨_, rfl⟩
  | succ fuel ih =>
    have hbuffer : stunBufferSize = stunHeaderSize + 1000 := rfl
    have hplace : stunHeaderSize + 4 * i + 4 * j = stunHeaderSize + 4 * (i + j) := by omega
    by_cases hinside : i + j ≤ 249
    · obtain ⟨a, hnone, hfour, ha⟩ := hempty (i + j) (by omega) hinside
      rw [← hplace] at ha
      have hprocess := ha.process_other (by omega) hnone
      rw [ha.walk_eq (by omega) (by omega) (by omega) hprocess, hfour, hplace, ← Nat.mul_succ]
      exact ih (by omega) (by omega) (by omega)
    · refine ⟨.outOfBounds, ?_⟩
      have houtside : ¬stunHeaderSize + 4 * i + 4 * j + 4 ≤ stunBufferSize := by omega
      have hindex : 4 * j < 1000 := by omega
      rw [walk, if_pos hindex]
      exact if_neg houtside

/-- A walk that comes to padded attributes up to the end of the buffer leaves it behind the
third attribute. -/
theorem walk_padded {f p n : ℕ}
    (hread : s.responseBuffer.read (stunHeaderSize + 4 * f)
      (encodeAttributes (paddedAttributes p n)).length = encodeAttributes (paddedAttributes p n))
    (h : f + p + n = 249) (hsome : 1 ≤ n) (hn : 0 < f ∨ 2 ≤ n) (fuel : ℕ) :
    ∃ e, walk 1000 fuel s stunHeaderSize (4 * f) = .error e := by
  cases fuel with
  | zero => exact ⟨_, rfl⟩
  | succ fuel =>
    have hfirst := hread
    rw [paddedAttributes, encodeAttributes_cons] at hfirst
    have ha : HoldsAttribute s (stunHeaderSize + 4 * f) (paddingAttribute p) :=
      (Memory.read_eq_append hfirst).1
    have hlength : (paddingAttribute p).encode.length = 4 * p + 4 := by
      rw [Attribute.length_encode, ← length_zeros]
      rfl
    have hbuffer : stunBufferSize = stunHeaderSize + 1000 := rfl
    have hindex : 4 * f + (4 * p + 4) = 4 * (f + p + 1) := by omega
    rw [ha.walk_eq (by omega) (by omega) (by omega) (ha.process_other (by omega) rfl), hlength,
      hindex]
    have hempty : ∀ k, f < k → k ≤ 249 → HoldsEmpty s (stunHeaderSize + 4 * k) := by
      intro k hpos hk
      have hplace : stunHeaderSize + 4 * k = stunHeaderSize + 4 * f + 4 * (k - f) := by omega
      rw [hplace]
      exact holdsEmpty_of_padded hread (by omega) (by omega)
    exact walk_outside hempty (by omega) (by omega) (by omega) fuel

/-- A padded response of three attributes or more cannot be processed in any state. -/
theorem processResponse_padded {front : Option Address} {p n : ℕ}
    (h : frontSize front + p + n = 249) (hsome : 1 ≤ n) (hn : 0 < frontSize front ∨ 2 ≤ n)
    (s : State) : ∃ e, processResponse fuel (s.receive (paddedResponse front p n h)) =
      .error e := by
  have hread := receive_attributes s (paddedResponse front p n h)
  have hattributes : (paddedResponse front p n h).attributes =
    frontAttributes front ++ paddedAttributes p n := rfl
  have htotal : (encodeAttributes (frontAttributes front ++ paddedAttributes p n)).length =
      1000 := by
    rw [encodeAttributes_append, List.length_append, length_frontAttributes,
      length_paddedAttributes]
    omega
  rw [processResponse_eq, hattributes, htotal]
  rw [hattributes, encodeAttributes_append] at hread
  obtain ⟨hfront, hpadded⟩ := Memory.read_eq_append hread
  rw [length_frontAttributes] at hpadded
  cases front with
  | none => exact walk_padded hpadded h hsome hn fuel
  | some address =>
    cases fuel with
    | zero => exact ⟨_, rfl⟩
    | succ fuel =>
      have ha : HoldsAttribute (s.receive (paddedResponse (some address) p n h))
          (stunHeaderSize + 0) (.mappedAddress address) := by
        have hencode : encodeAttributes (frontAttributes (some address)) =
          (Attribute.mappedAddress address).encode := List.append_nil _
        rwa [hencode] at hfront
      have hlength : (Attribute.mappedAddress address).encode.length = 12 :=
        Host.length_encode_of_address rfl
      have hbuffer : stunBufferSize = stunHeaderSize + 1000 := rfl
      obtain ⟨s₁, hprocess, hsame⟩ : ∃ s₁,
          processAttribute (s.receive (paddedResponse (some address) p n h)) (stunHeaderSize + 0) =
            .ok s₁ ∧
          s₁.responseBuffer = (s.receive (paddedResponse (some address) p n h)).responseBuffer :=
        ⟨_, ha.process_eq (by omega), Host.found_responseBuffer _ _ _⟩
      rw [ha.walk_eq (by omega) (by omega) (by omega) hprocess, hlength]
      rw [← hsame] at hpadded
      exact walk_padded hpadded h hsome hn fuel

/-- A response of each number of attributes that fits, with an address if that fits, too. -/
def responseOfLength (address : Address) : (n : ℕ) → n ≤ 250 → Response
  | 0, _ =>
    { source := 0, transactionId := List.replicate 12 0, attributes := [],
      length_transactionId := rfl, fits := by decide }
  | 1, _ =>
    { source := 0, transactionId := List.replicate 12 0, attributes := [.mappedAddress address],
      length_transactionId := rfl, fits := by
        rw [encodeAttributes_cons, encodeAttributes_nil, List.append_nil,
          Host.length_encode_of_address rfl]
        decide }
  | n + 2, h =>
    if hn : n ≤ 246 then paddedResponse (some address) (246 - n) n (by rw [frontSize]; omega)
    else paddedResponse none (248 - n) (n + 1) (by rw [frontSize]; omega)

/-- It has as many attributes as it should, whether the address fits in front of the padding or
not. -/
theorem length_responseOfLength (address : Address) {n : ℕ} (hn : n ≤ 250) :
    (responseOfLength address n hn).attributes.length = n := by
  rcases n with _ | _ | n
  · rfl
  · rfl
  · rw [responseOfLength]
    split
    · simp [paddedResponse, frontAttributes, paddedAttributes, Nat.add_comm]
    · simp [paddedResponse, frontAttributes, paddedAttributes]

/-- Padding carries no address, so that it has no part in the right verdict. -/
theorem addresses_paddedAttributes (p n : ℕ) :
    (paddedAttributes p n).filterMap Attribute.address = [] := by
  rw [List.filterMap_eq_nil_iff]
  intro a ha
  rcases List.mem_cons.mp ha with rfl | ha
  · rfl
  · rw [(List.mem_replicate.mp ha).2]
    rfl

/-- It carries the address if that fits, which is so up to 248 attributes. -/
theorem addresses_responseOfLength (address : Address) {n : ℕ} (hn : n ≤ 250) (hpos : 0 < n)
    (hfits : n ≤ 248) : (responseOfLength address n hn).addresses = [address] := by
  rcases n with _ | _ | n
  · cases hpos
  · rfl
  · have hle : n ≤ 246 := by omega
    rw [responseOfLength, dif_pos hle, Response.addresses]
    exact congrArg (address :: ·) (addresses_paddedAttributes (246 - n) n)

/-- From three attributes on it cannot be processed, since the misplaced third iteration leads
the walk out of the buffer. -/
theorem processResponse_responseOfLength (address : Address) {n : ℕ} (hn : n ≤ 250)
    (hthree : 3 ≤ n) (s : State) :
    ∃ e, processResponse fuel (s.receive (responseOfLength address n hn)) = .error e := by
  obtain ⟨n, rfl⟩ := Nat.exists_eq_add_of_le' (Nat.le_of_succ_le hthree)
  rw [responseOfLength]
  split
  · have hfront : 0 < frontSize (some address) := Nat.zero_lt_succ 2
    exact processResponse_padded _ (by omega) (.inl hfront) s
  · exact processResponse_padded _ (by omega) (.inr (by omega)) s

end Padded

/-- Some responses with numbers of attributes one of which exceeds two make the handler fail. -/
theorem not_verdictRight_of_three (address : Address) (extra : ℕ) {counts : List ℕ}
    (hfit : ∀ n ∈ counts, n ≤ 250) {n : ℕ} (hn : n ∈ counts) (hthree : 3 ≤ n) :
    ¬VerdictRight extra (counts.pmap (responseOfLength address) hfit) := by
  rintro ⟨s, hrun, -⟩
  have hmem : responseOfLength address n (hfit n hn) ∈
      counts.pmap (responseOfLength address) hfit := List.mem_pmap.mpr ⟨n, hn, rfl⟩
  obtain ⟨e, herror⟩ := responseHandler_error hmem
    (fun s => processResponse_responseOfLength address (hfit n hn) hthree s) initial
  rw [run, herror] at hrun
  cases hrun

/-- The verdict is right for all responses with some numbers of attributes if and only if
none of these numbers exceeds two, also if only responses are considered that carry an
address wherever they have an attribute. Up to 248 attributes fit beside an address. -/
theorem verdictRight_iff (extra : ℕ) (counts : List ℕ) (hfit : ∀ n ∈ counts, n ≤ 250) :
    ((∀ responses : List Response, responses.map (fun r => r.attributes.length) = counts →
        VerdictRight extra responses) ↔
      ∀ n ∈ counts, n ≤ 2) ∧
    ((∀ n ∈ counts, n ≤ 248) →
      ((∀ responses : List Response, responses.map (fun r => r.attributes.length) = counts →
          (∀ r ∈ responses, r.attributes ≠ [] → r.addresses ≠ []) →
            VerdictRight extra responses) ↔
        ∀ n ∈ counts, n ≤ 2)) := by
  have hright : (∀ n ∈ counts, n ≤ 2) → ∀ responses : List Response,
      responses.map (fun r => r.attributes.length) = counts → VerdictRight extra responses := by
    rintro htwo responses rfl
    apply verdictRight_of_le_two
    intro r hr
    exact htwo _ (List.mem_map_of_mem hr)
  let address : Address := ⟨0xC6336401, 4242⟩
  let responses := counts.pmap (responseOfLength address) hfit
  have hcounts : responses.map (fun r => r.attributes.length) = counts := by
    simp [responses, List.map_pmap, length_responseOfLength]
  refine ⟨⟨fun hall n hn => ?_, hright⟩, fun hbeside => ⟨fun hall n hn => ?_, ?_⟩⟩
  · by_contra hthree
    exact not_verdictRight_of_three address extra hfit hn (by omega) (hall responses hcounts)
  · by_contra hthree
    refine not_verdictRight_of_three address extra hfit hn (by omega) (hall responses hcounts ?_)
    intro r hr hsome
    obtain ⟨k, hk, rfl⟩ := List.mem_pmap.mp hr
    have hpos : 0 < k := by
      rw [← length_responseOfLength address (hfit k hk)]
      exact List.length_pos_of_ne_nil hsome
    rw [addresses_responseOfLength address (hfit k hk) hpos (hbeside k hk)]
    exact List.cons_ne_nil address []
  · exact fun htwo responses hresponses _ => hright htwo responses hresponses

/-- Nine responses, as many as the program expects, with one or two attributes each, and all
that carry an address. -/
theorem verdictRight_nine :
    (∀ responses : List Response,
        responses.map (fun r => r.attributes.length) = [1, 2, 1, 2, 1, 2, 1, 2, 1] →
          VerdictRight 0 responses) ∧
    ((∀ responses : List Response,
        responses.map (fun r => r.attributes.length) = [1, 2, 1, 2, 1, 2, 1, 2, 1] →
          (∀ r ∈ responses, r.attributes ≠ [] → r.addresses ≠ []) → VerdictRight 0 responses) ↔
      ∀ n ∈ [1, 2, 1, 2, 1, 2, 1, 2, 1], n ≤ 2) :=
  have h := verdictRight_iff 0 [1, 2, 1, 2, 1, 2, 1, 2, 1] (by decide)
  ⟨h.1.mpr (by decide), h.2 (by decide)⟩

/-- A response with a mapped address, and one with two that differ. -/
def responsesThree : List Response :=
  List.replicate 8
    { source := 0xC0000201, transactionId := List.replicate 12 0
      attributes := [.mappedAddress ⟨0xC6336401, 4242⟩]
      length_transactionId := rfl, fits := by decide } ++
  [{ source := 0xC0000201, transactionId := List.replicate 12 0
     attributes := [.mappedAddress ⟨0xC6336401, 4242⟩, emptyAttribute 0x8022 (by decide),
       .xorMappedAddress ⟨0xC6336401, 4243⟩]
     length_transactionId := rfl, fits := by decide }]

/-- The address in the third attribute of the last response is missed. -/
theorem verdictRight_fails_for_third : ¬VerdictRight 0 responsesThree := by
  rintro ⟨s, hrun, hverdict, -⟩
  have htest : endsWith (run 0 responsesThree) (fun s => s.isBehindSymmetricNat == 0) = true := by
    decide +kernel
  have hdiffer : Disagree (responsesThree.flatMap Response.addresses) :=
    ⟨⟨0xC6336401, 4242⟩, by decide, ⟨0xC6336401, 4243⟩, by decide, by decide⟩
  obtain ⟨s', hrun', hzero⟩ := exists_of_endsWith htest
  cases hrun.symm.trans hrun'
  have hone := hverdict.mpr hdiffer
  simp [hone] at hzero

end NetworkLabs.Stun
