import NetworkLabs.Foundations.GoBackN
import NetworkLabs.Mrt.ReceiverEffects
import NetworkLabs.Mrt.SenderEffects

/-!
# The messages of a connection

The datagrams of one connection carry the messages of Go-Back-N: a `DATA` with a
payload is a transmitted fragment, numbered from 1, and an `ADAT` is an
acknowledgement. `FromSender` and `FromReceiver` list all datagrams of the two
sides, and the lemmas say what the other side reads from them.
-/

namespace NetworkLabs.Mrt

open Foundations

/-- The fragments of one connection, with what is delivered and in flight. -/
abbrev Transfer := GoBackN.State (List Byte)

/-- The datagrams that a sender sends. What the window size field of a `DATA` holds was left in
the outgoing buffer by earlier transmissions. -/
inductive FromSender (g : Transfer) : Datagram → Prop
  /-- A connection request. -/
  | rcon : FromSender g rconDatagram
  /-- An empty transmission. -/
  | dataEmpty : FromSender g dataEmptyDatagram
  /-- A fragment in flight; its number is one more than its index. -/
  | data {i : ℕ} {payload : List Byte} (stale : List Byte) (hdata : (i, payload) ∈ g.data)
      (hstale : stale.length = 4) (hpayload : payload.length ≤ 488) :
      FromSender g (dataDatagram (i + 1) stale payload)
  /-- A disconnection request. -/
  | rcls : FromSender g rclsDatagram

/-- The datagrams that a receiver sends. An `ACON` can carry any number, as it repeats the one
in the request that it answers. -/
inductive FromReceiver (g : Transfer) : Datagram → Prop
  /-- The acknowledgement of a connection request. -/
  | acon (frag : ℤ) : FromReceiver g (aconDatagram frag)
  /-- An acknowledgement of data in flight. -/
  | adat {n : ℕ} (window : ℤ) (hacks : n ∈ g.acks) : FromReceiver g (adatDatagram n window)
  /-- The acknowledgement of a disconnection request. -/
  | acls : FromReceiver g aclsDatagram

/-- What a sender sent stays in flight when more is sent. -/
theorem FromSender.mono {g g' : Transfer} {dg : Datagram} (h : FromSender g dg)
    (hdata : g.data ⊆ g'.data) : FromSender g' dg := by
  cases h with
  | rcon => exact .rcon
  | dataEmpty => exact .dataEmpty
  | data stale hfragment hstale hpayload => exact .data stale (hdata hfragment) hstale hpayload
  | rcls => exact .rcls

/-- What a receiver sent stays in flight when more is acknowledged. -/
theorem FromReceiver.mono {g g' : Transfer} {dg : Datagram} (h : FromReceiver g dg)
    (hacks : g.acks ⊆ g'.acks) : FromReceiver g' dg := by
  cases h with
  | acon frag => exact .acon frag
  | adat window hack => exact .adat window (hacks hack)
  | acls => exact .acls

/-- The number that `handler` works on is that of an acknowledgement in flight. -/
def Sender.HandlerThread.Acknowledges (g : Transfer) : Sender.HandlerThread → Prop
  | .adatTimeout frag _ | .adatAck frag _ => ∃ n ∈ g.acks, frag = wrapInt n
  | _ => True

/-- Acknowledgements stay in flight, so that what a handler is about to do stays justified when
the network carries more. -/
theorem Sender.HandlerThread.Acknowledges.mono {g g' : Transfer} {thread : Sender.HandlerThread}
    (h : thread.Acknowledges g) (hacks : g.acks ⊆ g'.acks) : thread.Acknowledges g' := by
  cases thread with
  | adatTimeout frag window =>
    obtain ⟨n, hn, hfrag⟩ := h
    exact ⟨n, hacks hn, hfrag⟩
  | adatAck frag window =>
    obtain ⟨n, hn, hfrag⟩ := h
    exact ⟨n, hacks hn, hfrag⟩
  | _ => trivial

/-! ### What `main_handler` reads -/

section MainHandler

variable (s : Receiver.State)

/-- A datagram of admissible length is stored completely. -/
theorem stored_header (type : ℤ) {body : List Byte} (hbody : body.length ≤ 496) :
    Receiver.stored (header type ++ body) = header type ++ body := by
  apply List.take_of_length_le
  simp only [List.length_append, length_header, maxUdpPayloadLength]
  omega

/-- The type of a transmission is what `main_handler` finds in its buffer, provided the datagram
fits and the bytes of the type hold the NUL at which the hash ends. -/
theorem dispatchedType_header {type : ℤ} (hzero : 0 ∈ intBytes type) (htype : wrapInt type = type)
    {body : List Byte} (hbody : body.length ≤ 496) :
    Receiver.dispatchedType s (header type ++ body) = some type := by
  have hread := read_receiveInto_header s.incomingBuffer type body
  have hvalid := validTransmission_of_header hzero
    (show 12 ≤ maxUdpPayloadLength + 1 by decide) hread
  rw [Receiver.dispatchedType, stored_header type hbody, if_pos hvalid,
    typeHolder_of_header htype hread]

/-- The fragment number of a transmission is what `main_handler` finds in its buffer, as an
`int`. -/
theorem dispatchedFrag_header (type frag : ℤ) {rest : List Byte} (hrest : rest.length ≤ 492) :
    Receiver.dispatchedFrag s (header type ++ (intBytes frag ++ rest)) = wrapInt frag := by
  have hbody : (intBytes frag ++ rest).length ≤ 496 := by
    rw [List.length_append, length_intBytes]
    omega
  have hread := read_receiveInto_body s.incomingBuffer type
    (show 0 + 4 ≤ (intBytes frag ++ rest).length by simp)
  rw [List.drop_zero, List.take_left' (length_intBytes frag)] at hread
  rw [Receiver.dispatchedFrag, stored_header type hbody]
  exact (congrArg bytesInt hread).trans (bytesInt_intBytes frag)

/-- `main_handler` takes an `RCON` for one. -/
theorem dispatchedType_rcon : Receiver.dispatchedType s rconDatagram = some mrtRcon :=
  dispatchedType_header s (by decide) rfl (by simp)

/-- The fragment number that `main_handler` reads from an `RCON` is 0, so that the first
fragment expected is 1. -/
theorem dispatchedFrag_rcon : Receiver.dispatchedFrag s rconDatagram = 0 := by
  have h := dispatchedFrag_header s mrtRcon 0 (show ([] : List Byte).length ≤ 492 by simp)
  rw [List.append_nil] at h
  exact h

/-- The fragment number of an empty `DATA`. -/
theorem dispatchedFrag_dataEmpty : Receiver.dispatchedFrag s dataEmptyDatagram = -1 := by
  have h := dispatchedFrag_header s mrtData (-1) (show ([] : List Byte).length ≤ 492 by simp)
  rw [List.append_nil] at h
  exact h

/-- `main_handler` takes an empty transmission for a `DATA`. -/
theorem dispatchedType_dataEmpty : Receiver.dispatchedType s dataEmptyDatagram = some mrtData :=
  dispatchedType_header s (by decide) rfl (by simp)

/-- `main_handler` takes an `RCLS` for one. -/
theorem dispatchedType_rcls : Receiver.dispatchedType s rclsDatagram = some mrtRcls := by
  have h := dispatchedType_header s (show 0 ∈ intBytes mrtRcls by decide) rfl
    (show ([] : List Byte).length ≤ 496 by simp)
  rwa [List.append_nil] at h

/-- `main_handler` takes a `DATA` for one, whatever its window size field holds. -/
theorem dispatchedType_data (frag : ℤ) {stale payload : List Byte} (hstale : stale.length = 4)
    (hpayload : payload.length ≤ 488) :
    Receiver.dispatchedType s (dataDatagram frag stale payload) = some mrtData :=
  dispatchedType_header s (by decide) rfl (by
    simp only [List.length_append, length_intBytes]
    omega)

/-- The fragment number that `main_handler` reads from a `DATA` is the one that the sender
wrote. -/
theorem dispatchedFrag_data (frag : ℤ) {stale payload : List Byte} (hstale : stale.length = 4)
    (hpayload : payload.length ≤ 488) :
    Receiver.dispatchedFrag s (dataDatagram frag stale payload) = wrapInt frag :=
  dispatchedFrag_header s mrtData frag (by rw [List.length_append]; omega)

/-- The payload that `main_handler` copies from a `DATA` is the one that the sender wrote. -/
theorem dispatchedPayload_data (frag : ℤ) {stale payload : List Byte} (hstale : stale.length = 4)
    (hpayload : payload.length ≤ 488) :
    Receiver.dispatchedPayload s (dataDatagram frag stale payload) = payload := by
  have hfields : (intBytes frag ++ stale).length = 8 := by simp [hstale]
  have hbody : (intBytes frag ++ (stale ++ payload)).length = 8 + payload.length := by
    simp [hstale]
    omega
  have hlength : (((header mrtData ++ (intBytes frag ++ (stale ++ payload))).length : ℤ) -
      mrtHeaderLength).toNat = payload.length := by
    rw [List.length_append, length_header, hbody]
    simp only [mrtHeaderLength, mrtHashLength, mrtTypeLength, mrtFragmentLength,
      mrtWindowsizeLength]
    omega
  have hdrop : (intBytes frag ++ (stale ++ payload)).drop 8 = payload := by
    rw [← List.append_assoc]
    exact List.drop_left' hfields
  have hread := read_receiveInto_body s.incomingBuffer mrtData (Nat.le_of_eq hbody.symm)
  rw [hdrop, List.take_length] at hread
  rw [Receiver.dispatchedPayload, Receiver.State.store_incomingBuffer, dataDatagram,
    stored_header mrtData (by omega), hlength]
  exact hread

end MainHandler

/-! ### What `handler` reads -/

section Handler

variable (incoming : Memory Byte)

/-- Where `handler` goes for a transmission of a type, when the bytes of the type hold the NUL
at which the hash ends. -/
theorem dispatch_header {type : ℤ} (hzero : 0 ∈ intBytes type) (htype : wrapInt type = type)
    (body : List Byte) : Sender.dispatch (receiveInto incoming (header type ++ body)) =
      if type = mrtAcon then .acon
      else if type = mrtAdat then
        .adatTimeout (fragHolder (receiveInto incoming (header type ++ body)))
          (winsizeHolder (receiveInto incoming (header type ++ body)))
      else if type = mrtAcls then .acls
      else .recvfrom := by
  have hread := read_receiveInto_header incoming type body
  have hvalid := validTransmission_of_header hzero
    (show 12 ≤ mrtHeaderLength + 1 by decide) hread
  rw [Sender.dispatch, if_pos hvalid, typeHolder_of_header htype hread]

/-- `handler` takes an `ACON` for one, whatever its buffer held before. -/
theorem dispatch_acon (frag : ℤ) :
    Sender.dispatch (receiveInto incoming ((aconDatagram frag).take mrtHeaderLength)) = .acon := by
  have hlength : (aconDatagram frag).take mrtHeaderLength = aconDatagram frag :=
    List.take_of_length_le (by simp [aconDatagram])
  rw [hlength]
  exact (dispatch_header incoming (by decide) rfl _).trans (if_pos rfl)

/-- `handler` reads the fields of an `ADAT`. -/
theorem dispatch_adat (frag window : ℤ) :
    Sender.dispatch (receiveInto incoming ((adatDatagram frag window).take mrtHeaderLength)) =
      .adatTimeout (wrapInt frag) (wrapInt window) := by
  have hlength : (adatDatagram frag window).take mrtHeaderLength = adatDatagram frag window :=
    List.take_of_length_le (by simp [adatDatagram])
  have hbody : (intBytes frag ++ intBytes window).length = 8 := by simp
  have hread := read_receiveInto_body incoming mrtAdat (show 0 + 4 ≤ _ by rw [hbody]; decide)
  have hread' := read_receiveInto_body incoming mrtAdat (show 4 + 4 ≤ _ by rw [hbody])
  rw [List.drop_zero, List.take_left' (length_intBytes frag)] at hread
  rw [List.drop_left' (length_intBytes frag), List.take_of_length_le (by simp)] at hread'
  have hfrag : fragHolder (receiveInto incoming (adatDatagram frag window)) = wrapInt frag :=
    (congrArg bytesInt hread).trans (bytesInt_intBytes frag)
  have hwindow : winsizeHolder (receiveInto incoming (adatDatagram frag window)) =
      wrapInt window := (congrArg bytesInt hread').trans (bytesInt_intBytes window)
  have hdispatch := dispatch_header incoming (show 0 ∈ intBytes mrtAdat by decide) rfl
    (intBytes frag ++ intBytes window)
  rw [if_neg (by decide), if_pos rfl] at hdispatch
  rw [hlength, ← hfrag, ← hwindow]
  exact hdispatch

/-- `handler` takes an `ACLS` for one, although the rest of the header in its buffer
is stale. -/
theorem dispatch_acls :
    Sender.dispatch (receiveInto incoming (aclsDatagram.take mrtHeaderLength)) = .acls := by
  have hlength : aclsDatagram.take mrtHeaderLength = header mrtAcls ++ [] := by
    rw [List.append_nil]
    exact List.take_of_length_le (by simp [aclsDatagram])
  rw [hlength, dispatch_header incoming (by decide) rfl, if_neg (by decide), if_neg (by decide),
    if_pos rfl]

/-- Where `handler` goes for what a receiver sends: an `ADAT` that it works on names a number in
flight. -/
theorem acknowledges_dispatch {g : Transfer} {dg : Datagram} (h : FromReceiver g dg) :
    (Sender.dispatch (receiveInto incoming (dg.take mrtHeaderLength))).Acknowledges g := by
  cases h with
  | acon frag =>
    rw [dispatch_acon]
    trivial
  | @adat n window hack =>
    rw [dispatch_adat]
    exact ⟨n, hack, rfl⟩
  | acls =>
    rw [dispatch_acls]
    trivial

end Handler

end NetworkLabs.Mrt
