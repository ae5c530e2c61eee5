import NetworkLabs.Foundations.Run
import NetworkLabs.Stun.Loop

/-!
# The test for a symmetric NAT on any host

The response handler of `stun_symmetry.c` on a host of either byte order, with
`nat_addr_holder`, which keeps the last decoded address. On a little-endian host it is the
handler without that variable. What it does is receiving datagrams and processing attributes.
-/

namespace NetworkLabs.Stun.Host

open Foundations

/-- The variables of the handler that outlive an iteration, and the globals. -/
structure State extends Stun.State where
  natAddrHolder : SockaddrIn

/-- The state in which the handler starts, with all of its variables zeroed. -/
def initial : State := { Stun.initial with natAddrHolder := ⟨0, 0⟩ }

variable (order : ByteOrder)

/-- Take note of a mapped address; the source has this text once for each kind. -/
def State.found (s : State) (sinPort sAddr : ℕ) : State :=
  let s := { s with
    natAddrHolder := ⟨sinPort, sAddr⟩
    hostnameHolder := getnameinfo order s.hostnameHolder sAddr }
  if s.natIpv4Holder 0 = nul then
    { s with
      natIpv4Holder := s.natIpv4Holder.write 0 (s.hostnameHolder.read 0 inetAddrstrlen)
      natPortHolder := ntohs order sinPort }
  else if ¬sameText nul inetAddrstrlen (s.natIpv4Holder.read 0 inetAddrstrlen)
        (s.hostnameHolder.read 0 inetAddrstrlen) ∨ s.natPortHolder ≠ ntohs order sinPort then
    { s with isBehindSymmetricNat := 1 }
  else s

/-- Process the attribute at a place in the buffer, as a host of either byte order does. -/
def processAttribute (s : State) (location : ℕ) : Except Failure State :=
  let attributeType := word order s.responseBuffer location 2
  if attributeType = htons order 0x0001 then
    if location + 12 ≤ stunBufferSize then
      .ok (s.found order (word order s.responseBuffer (location + 6) 2)
        (word order s.responseBuffer (location + 8) 4))
    else .error .outOfBounds
  else if attributeType = htons order 0x0020 then
    if location + 12 ≤ stunBufferSize then
      let stunMagicCookie := htonl order stunMagicCookie
      .ok (s.found order
        (word order s.responseBuffer (location + 6) 2 ^^^ stunMagicCookie % 2 ^ 16)
        (word order s.responseBuffer (location + 8) 4 ^^^ stunMagicCookie))
    else .error .outOfBounds
  else .ok s

/-- Process what the buffer holds; anything but a success response is only reported. -/
def processResponse (fuel : ℕ) (s : State) : Except Failure State :=
  if word order s.responseBuffer 0 2 = htons order 0x0101 then
    Program.symmetry.walk order s.responseBuffer (processAttribute order)
      (numBytesAttributes order s.responseBuffer) fuel s .start
  else .ok s

/-- `recvfrom`, and the text of the address of the sender goes to the hostname holder. -/
def State.receive (s : State) (arrival : Arrival) : State :=
  let received := (recvfrom s.toState arrival).1
  match received.addrHolder with
  | none => { s with toState := received }
  | some sAddr =>
    { s with toState := { received with
        hostnameHolder := getnameinfo order received.hostnameHolder sAddr } }

/-- `response_handler`, for the number of responses that are still expected. -/
def responseHandler (fuel : ℕ) : ℕ → State → List Arrival → Except Failure State
  | 0, s, _ => .ok s
  | _ + 1, _, [] => .error .waiting
  | expected + 1, s, arrival :: arrivals =>
    let numBytesReceived := (recvfrom s.toState arrival).2
    let s := s.receive order arrival
    if 0 < numBytesReceived then
      match processResponse order fuel s with
      | .ok s => responseHandler fuel expected s arrivals
      | .error e => .error e
    else responseHandler fuel (expected + 1) s arrivals

variable {order} {s t : State} {location fuel : ℕ}

/-- The addresses are noted as on a little-endian host that has the same bytes in memory. -/
theorem found_toState (s : State) (sinPort sAddr : ℕ) :
    (s.found order sinPort sAddr).toState =
      s.toState.found (ofLittleEndian (order.store 2 sinPort))
        (ofLittleEndian (order.store 4 sAddr)) := by
  have hport : ntohs order sinPort = Stun.ntohs (ofLittleEndian (order.store 2 sinPort)) := by
    rw [Stun.ntohs, swapBytes, bigEndian, littleEndian_ofLittleEndian (order.length_store 2 _)]
    rfl
  have hname : getnameinfo order s.hostnameHolder sAddr =
      Stun.getnameinfo s.hostnameHolder (ofLittleEndian (order.store 4 sAddr)) := by
    rw [Stun.getnameinfo, littleEndian_ofLittleEndian (order.length_store 4 _), getnameinfo]
  rw [State.found, Stun.State.found]
  dsimp only
  rw [hport, hname]
  split_ifs <;> rfl

/-- Taking note of an address leaves the buffer alone. -/
theorem found_responseBuffer (s : State) (sinPort sAddr : ℕ) :
    (s.found order sinPort sAddr).responseBuffer = s.responseBuffer := by
  rw [State.found]
  dsimp only
  split_ifs <;> rfl

/-- The last address is kept as it was decoded. -/
theorem found_natAddrHolder (s : State) (sinPort sAddr : ℕ) :
    (s.found order sinPort sAddr).natAddrHolder = ⟨sinPort, sAddr⟩ := by
  rw [State.found]
  dsimp only
  split_ifs <;> rfl

/-- Processing an attribute leaves `response_buffer` alone, so that the next one is read from
the same bytes. -/
theorem processAttribute_responseBuffer (h : processAttribute order s location = .ok t) :
    t.responseBuffer = s.responseBuffer := by
  rw [processAttribute] at h
  split_ifs at h <;> cases h
  · exact found_responseBuffer _ _ _
  · exact found_responseBuffer _ _ _
  · rfl

/-- On a little-endian host a note is taken as without `nat_addr_holder`. -/
theorem found_leastFirst (s : State) {sinPort sAddr : ℕ} (hport : sinPort < 256 ^ 2)
    (haddr : sAddr < 256 ^ 4) :
    (s.found .leastFirst sinPort sAddr).toState = s.toState.found sinPort sAddr := by
  have hport' : ofLittleEndian (ByteOrder.leastFirst.store 2 sinPort) = sinPort :=
    (ofLittleEndian_littleEndian 2 sinPort).trans (Nat.mod_eq_of_lt hport)
  have haddr' : ofLittleEndian (ByteOrder.leastFirst.store 4 sAddr) = sAddr :=
    (ofLittleEndian_littleEndian 4 sAddr).trans (Nat.mod_eq_of_lt haddr)
  rw [found_toState, hport', haddr']

/-- On a little-endian host an attribute is processed as without `nat_addr_holder`. -/
theorem processAttribute_leastFirst (s : State) (location : ℕ) :
    (processAttribute .leastFirst s location).map State.toState =
      Stun.processAttribute s.toState location := by
  have hport := word_lt .leastFirst s.responseBuffer (location + 6) 2
  have haddr := word_lt .leastFirst s.responseBuffer (location + 8) 4
  have hcookie : Stun.htonl stunMagicCookie < 2 ^ 32 := by decide
  have hxor : word .leastFirst s.responseBuffer (location + 6) 2 ^^^
      Stun.htonl stunMagicCookie % 2 ^ 16 < 256 ^ 2 :=
    Nat.xor_lt_two_pow (n := 16) hport (Nat.mod_lt _ (by decide))
  have hxor' : word .leastFirst s.responseBuffer (location + 8) 4 ^^^
      Stun.htonl stunMagicCookie < 256 ^ 4 :=
    Nat.xor_lt_two_pow (n := 32) haddr hcookie
  obtain ⟨hhtons, -, hhtonl, hword, -⟩ := leastFirst_eq
  rw [hword] at hport haddr hxor hxor'
  rw [processAttribute, Stun.processAttribute, hhtons, hhtonl, hword]
  dsimp only
  split_ifs
  · exact congrArg Except.ok (found_leastFirst s hport haddr)
  · rfl
  · exact congrArg Except.ok (found_leastFirst s hxor hxor')
  · rfl
  · rfl

/-- On a little-endian host the attributes are walked through as without `nat_addr_holder`. -/
theorem walk_leastFirst {m : Memory Byte} {numBytesAttributes : ℕ} {c : Cursor}
    (hm : s.responseBuffer = m) :
    (Program.symmetry.walk .leastFirst m (processAttribute .leastFirst) numBytesAttributes fuel s
        c).map State.toState =
      Stun.walk numBytesAttributes fuel s.toState c.location c.index := by
  induction fuel generalizing s c with
  | zero => rfl
  | succ fuel ih =>
    have hsame : Stun.processAttribute s.toState (c.location + c.index) =
        (processAttribute .leastFirst s c.visited).map State.toState :=
      (processAttribute_leastFirst s c.visited).symm
    rw [Program.walk, Stun.walk]
    dsimp only
    by_cases hguard : c.index < numBytesAttributes
    · rw [if_pos hguard, if_pos hguard, hsame]
      by_cases hfits : c.visited + 4 ≤ Program.symmetry.stunBufferSize
      · have hfits' : c.location + c.index + 4 ≤ stunBufferSize := hfits
        rw [if_pos hfits, if_pos hfits']
        cases hprocess : processAttribute .leastFirst s c.visited with
        | error e => rfl
        | ok s₁ =>
          have hm₁ := processAttribute_responseBuffer hprocess
          rw [hm]
          exact ih (c := c.next _) (hm₁.trans hm)
      · have hfits' : ¬c.location + c.index + 4 ≤ stunBufferSize := hfits
        rw [if_neg hfits, if_neg hfits']
        rfl
    · rw [if_neg hguard, if_neg hguard]
      rfl

/-- On a little-endian host a response is processed as without `nat_addr_holder`. -/
theorem processResponse_leastFirst (fuel : ℕ) (s : State) :
    (processResponse .leastFirst fuel s).map State.toState =
      Stun.processResponse fuel s.toState := by
  rw [processResponse, Stun.processResponse]
  by_cases hsuccess : Stun.word s.responseBuffer 0 2 = Stun.htons 0x0101
  · have hsuccess' : word .leastFirst s.responseBuffer 0 2 = htons .leastFirst 0x0101 := hsuccess
    rw [if_pos hsuccess', if_pos hsuccess]
    exact walk_leastFirst rfl
  · have hsuccess' : ¬word .leastFirst s.responseBuffer 0 2 = htons .leastFirst 0x0101 := hsuccess
    rw [if_neg hsuccess', if_neg hsuccess]
    rfl

/-- On a little-endian host a datagram comes in as without `nat_addr_holder`. -/
theorem receive_leastFirst (s : State) (arrival : Arrival) :
    (s.receive .leastFirst arrival).toState = (recvfrom s.toState arrival).1.nameSender := by
  rw [State.receive, State.nameSender]
  cases (recvfrom s.toState arrival).1.addrHolder <;> rfl

/-- On a little-endian host the handler does what it does without `nat_addr_holder`. -/
theorem responseHandler_leastFirst (fuel expected : ℕ) (s : State) (arrivals : List Arrival) :
    (responseHandler .leastFirst fuel expected s arrivals).map State.toState =
      Stun.responseHandler fuel expected s.toState arrivals := by
  induction arrivals generalizing expected s with
  | nil => cases expected <;> rfl
  | cons arrival arrivals ih =>
    cases expected with
    | zero => rfl
    | succ expected =>
      have hprocess := processResponse_leastFirst fuel (s.receive .leastFirst arrival)
      rw [receive_leastFirst] at hprocess
      rw [responseHandler, Stun.responseHandler]
      dsimp only
      by_cases hpos : 0 < (recvfrom s.toState arrival).2
      · rw [if_pos hpos, if_pos hpos, ← hprocess]
        cases processResponse .leastFirst fuel (s.receive .leastFirst arrival) with
        | error e => rfl
        | ok s₁ => exact ih expected s₁
      · rw [if_neg hpos, if_neg hpos, ih, receive_leastFirst]

/-- What the handler does: a datagram comes in, or an attribute is processed. -/
inductive Event where
  | receive (arrival : Arrival)
  | process (location : ℕ)

/-- Do one thing. An attribute can be processed wherever the handler takes one to start. -/
def step (order : ByteOrder) (s : State) : Event → Except Failure State
  | .receive arrival => .ok (s.receive order arrival)
  | .process location => processAttribute order s location

end NetworkLabs.Stun.Host
