import NetworkLabs.Stun.ConeTest
import NetworkLabs.Stun.Held
import NetworkLabs.Stun.Reads

/-!
# The verdict of the test for the level

The server is asked to respond from another port, and from another address. A NAT of some level
admits only some of these responses, so what comes in shows the level. Every report about it is
right, whoever sends datagrams, and no response is left out.
-/

namespace NetworkLabs.Stun.ConeLevel

open Foundations

variable {order : ByteOrder}

/-! ### The requests -/

/-- A `Binding Request` that asks for a change, as it is sent. -/
def request (change : ℕ) : List Byte :=
  bigEndian 2 0x0001 ++ (bigEndian 2 0x0008 ++ (bigEndian 4 stunMagicCookie ++
    (List.replicate 12 0 ++ (bigEndian 4 0x00030004 ++ bigEndian 4 change))))

/-- The transaction ID that the buffer holds is never set. -/
def Unidentified (m : Memory Byte) : Prop := m.read 8 12 = List.replicate 12 0

variable {m : Memory Byte} {change : ℕ}

/-- Building a request leaves the transaction ID as it was. -/
theorem Unidentified.buildSpoof (h : Unidentified m) :
    Unidentified (buildSpoof order m change) := by
  rw [Unidentified, ConeLevel.buildSpoof, Memory.read_write_disjoint _ (by simp),
    Memory.read_write_disjoint _ (by simp), Memory.read_write_disjoint _ (by simp),
    Memory.read_write_disjoint _ (by simp), Memory.read_write_disjoint _ (by simp)]
  exact h

/-- On every host the buffer holds the request that was built. -/
theorem Unidentified.read_buildSpoof (h : Unidentified m) :
    (ConeLevel.buildSpoof order m change).read 0 stunWithChangeSize = request change := by
  have hsplit : ∀ m : Memory Byte, m.read 0 stunWithChangeSize = m.read 0 2 ++ (m.read 2 2 ++
      (m.read 4 4 ++ (m.read 8 12 ++ (m.read 20 4 ++ m.read 24 4)))) := fun m => rfl
  have hword : ∀ n, order.store 2 (Host.htons order n) = bigEndian 2 n := fun n =>
    order.store_load (length_bigEndian 2 n)
  have hlong : ∀ n, order.store 4 (Host.htonl order n) = bigEndian 4 n := fun n =>
    order.store_load (length_bigEndian 4 n)
  have hid : Unidentified (ConeLevel.buildSpoof order m change) := h.buildSpoof
  rw [Unidentified] at hid
  rw [hsplit, hid, ConeLevel.buildSpoof]
  simp (disch := simp) only [hword, hlong, Memory.read_write_disjoint, Memory.read_write]
  rfl

/-- What the statements of `main` send from a buffer that holds some bytes. -/
def demanded : List Statement → List Byte → List (List Byte)
  | [], _ => []
  | .buildPortSpoof :: rest, _ => demanded rest (request changePort)
  | .buildBothSpoof :: rest, _ => demanded rest (request changeBoth)
  | .sendto :: rest, bytes => bytes :: demanded rest bytes

/-- Two requests for another port and two for another address, too. -/
example (bytes : List Byte) : demanded statements bytes =
    [request changePort, request changePort, request changeBoth, request changeBoth] := rfl

/-! ### The reports on one attribute -/

/-- What a response with a mapped address shows about the level, by where it comes from. -/
def judgement (order : ByteOrder) (source : Host.SockaddrIn) (a : Address) : Option Report :=
  if source.sinPort = Host.htons order originalServerPort then none
  else if order.store 4 source.sAddr = originalServer then
    some (.restrictedCone a.text a.port.toNat)
  else some (.fullCone a.text a.port.toNat)

/-- A mapped address is reported, and what it shows by coming from another address or port. -/
def Reported (order : ByteOrder) (source : Host.SockaddrIn) (a : Address)
    (printed : List Report) : Prop :=
  .mappedAddress a.text a.port.toNat ∈ printed ∧
    ∀ report, judgement order source a = some report → report ∈ printed

variable {sources : List Host.SockaddrIn} {source : Host.SockaddrIn} {s t : State} {a : Address}
  {location k : ℕ} {r : Message} {printed printed' : List Report}

/-- What was reported stays reported, as nothing that was printed is taken back. -/
theorem Reported.mono (h : Reported order source a printed) (hgrows : printed <+: printed') :
    Reported order source a printed' :=
  ⟨hgrows.subset h.1, fun report hreport => hgrows.subset (h.2 report hreport)⟩

/-- The text in a holder is the string that was put there. -/
theorem text_of_holdsText {holder : Memory Char} {chars : List Char}
    (h : HoldsText nul holder chars) (hlength : chars.length < hostnameHolderSize) :
    text holder = chars := by
  obtain ⟨rest, hread⟩ := h.read_eq hlength
  rw [text, hread]
  exact takeWhile_append_nul h.nul_notMem rest

/-- Judging a response takes nothing back that was printed. -/
theorem judge_printed (s : State) : s.printed <+: (s.judge order).printed := by
  rw [State.judge]
  split_ifs
  · exact List.prefix_append _ _
  · exact List.prefix_append _ _
  · exact List.prefix_rfl

/-- Processing an attribute only adds reports to what was printed. -/
theorem processAttribute_printed (h : processAttribute order s location = .ok t) :
    s.printed <+: t.printed := by
  rw [processAttribute] at h
  split_ifs at h <;> cases h
  · have hfound : s.printed <+: (s.found order .mappedAddress location).printed :=
      List.prefix_append _ _
    exact hfound.trans (judge_printed _)
  all_goals exact List.prefix_append _ _

/-- A mapped address in the buffer is reported with what it shows. -/
theorem reported_of_named (h : Named order source s)
    (hport : Host.word order s.responseBuffer (location + 6) 2 =
      order.load (bigEndian 2 a.port.toNat))
    (hip : Host.word order s.responseBuffer (location + 8) 4 =
      order.load (bigEndian 4 a.ip.toNat)) :
    Reported order source a ((s.found order .mappedAddress location).judge order).printed := by
  let t := s.found order .mappedAddress location
  have hnamed : Named order source t := ⟨h.sender, h.text⟩
  have htext : text t.attrHostnameHolder = a.text := by
    have hholder : t.attrHostnameHolder = s.attrHostnameHolder.write 0 (a.text ++ [nul]) := by
      simp only [t, State.found, State.print, Host.getnameinfo, hip,
        order.store_load (length_bigEndian 4 _), Address.text]
    have hlength := a.length_text_lt
    have hsize : inetAddrstrlen < hostnameHolderSize := by decide
    rw [hholder]
    exact text_of_holdsText (holdsText_write _ (nul_notMem_dottedDecimal _)) (by omega)
  have hnumber : Host.ntohs order t.attrAddrHolder.sinPort = a.port.toNat := by
    have hword : t.attrAddrHolder.sinPort = order.load (bigEndian 2 a.port.toNat) := hport
    rw [hword, Host.ntohs_load order (length_bigEndian 2 _), Host.mostFirst_load_bigEndian]
    exact Nat.mod_eq_of_lt a.port.isLt
  have hprinted : t.printed = s.printed ++ [.mappedAddress a.text a.port.toNat] := by
    rw [← htext, ← hnumber]
    rfl
  constructor
  · apply (judge_printed t).subset
    rw [hprinted]
    exact List.mem_append_right _ List.mem_cons_self
  · intro report hreport
    have hserver : t.serverPort = source.sinPort := by rw [State.serverPort, hnamed.sender]
    rw [judgement] at hreport
    split_ifs at hreport with hsame haddress
    · cases hreport
      rw [State.judge, hserver, if_pos (Ne.symm hsame),
        if_neg (not_not.mpr (hnamed.sameText_iff.mpr haddress)), htext, hnumber]
      exact List.mem_append_right _ List.mem_cons_self
    · cases hreport
      rw [State.judge, hserver, if_pos (Ne.symm hsame),
        if_pos fun htrue => haddress (hnamed.sameText_iff.mp htrue), htext, hnumber]
      exact List.mem_append_right _ List.mem_cons_self

/-- The mapped address of a message is reported when the loop comes to it. -/
theorem reported_of_processAttribute (h : Named order source s) {m : Memory Byte}
    (hbuffer : s.responseBuffer = Program.coneLevel.receive m r.encode)
    (ha : r.attributes[k]? = some (Program.addressAttribute 0x0001 a))
    (hfits : r.start k + 4 ≤ Program.coneLevel.stunBufferSize)
    (hprocess : processAttribute order s (r.start k) = .ok t) :
    Reported order source a t.printed := by
  have htype : Host.word order s.responseBuffer (r.start k) 2 = Host.htons order 0x0001 := by
    have hfield : Program.coneLevel.field order (Program.coneLevel.receive m r.encode) (fun _ => 0)
        (r.start k) 2 = Host.htons order 0x0001 :=
      (Program.receive_attributeType ha hfits (fun _ => 0) 0x0001).mpr rfl
    rw [Program.field, if_pos (by omega)] at hfield
    rw [hbuffer]
    exact hfield
  rw [processAttribute, if_pos htype] at hprocess
  split_ifs at hprocess with hinside
  cases hprocess
  obtain ⟨before, behind, hencode, hbefore⟩ := r.encode_split ha
  have hread := Program.receive_read (m := m) hencode (by rw [hbefore]; exact hinside)
  rw [hbefore, ← hbuffer] at hread
  have hholds : HoldsAttribute { Stun.initial with responseBuffer := s.responseBuffer } (r.start k)
    (.mappedAddress a) := hread
  obtain ⟨hport, hip⟩ := hholds.value_eq order rfl (length_bigEndian 2 _) (length_bigEndian 4 _)
  exact reported_of_named h hport hip

/-! ### The moves of the handler -/

/-- The mapped addresses among the first two attributes of a datagram are reported. -/
def Detected (order : ByteOrder) (d : Host.SockaddrIn × List Byte) (printed : List Report) :
    Prop :=
  ∀ (r : Message) (rest : List Byte) (k : ℕ) (a : Address), d.2 = r.encode ++ rest → k < 2 →
    r.attributes[k]? = some (Program.addressAttribute 0x0001 a) → Reported order d.1 a printed

/-- At a cursor the loop comes to the first or to the second attribute of a message, or it has
done with both; the earlier ones are reported. -/
def Covered (order : ByteOrder) (source : Host.SockaddrIn) (r : Message) (c : Cursor)
    (printed : List Report) : Prop :=
  ∃ j, (j < 2 → j ≤ r.attributes.length ∧ Program.Located r j c) ∧
    ∀ k < j, k < 2 → ∀ a, r.attributes[k]? = some (Program.addressAttribute 0x0001 a) →
      Reported order source a printed

/-- At the guard of the loop over the attributes of a datagram. -/
structure Walking (order : ByteOrder) (s : State) (d : Host.SockaddrIn × List Byte)
    (numBytesAttributes : ℕ) (c : Cursor) : Prop where
  named : Named order d.1 s
  covered : ∀ (r : Message) (rest : List Byte), d.2 = r.encode ++ rest →
    numBytesAttributes = (encodeRaw r.attributes).length ∧
      (∃ m, s.responseBuffer = Program.coneLevel.receive m r.encode) ∧
      Covered order d.1 r c s.printed

/-- The reports are those that the datagrams show, and no response that was handled is
left out. -/
structure Handler.Right (order : ByteOrder) (received : List (Host.SockaddrIn × List Byte))
    (h : Handler) : Prop where
  shown : ∀ r ∈ h.state.printed, Shown order (received.map Prod.fst) r
  detected : ∀ d ∈ h.handled received, Detected order d h.state.printed
  walking : ∀ numBytesAttributes c, h.position = .walking numBytesAttributes c →
    ∃ earlier d, received = earlier ++ [d] ∧ Walking order h.state d numBytesAttributes c

variable {h h' : Handler} {received : List (Host.SockaddrIn × List Byte)}
  {d : Host.SockaddrIn × List Byte} {numBytesAttributes : ℕ} {c : Cursor}

/-- A handler at `recvfrom` receives the first datagram that waits. -/
theorem Handler.next_datagram (hposition : h.position = .receiving) {bytes : List Byte}
    {socket : List Arrival} : h.next (.datagram source bytes :: socket) = [(source, bytes)] := by
  simp only [Handler.next, hposition]

/-- An error is no datagram, so that nothing is received with it. -/
theorem Handler.next_failed {socket : List Arrival} : h.next (.failed :: socket) = [] := by
  simp [Handler.next]

/-- A handler in the loop over the attributes receives nothing. -/
theorem Handler.next_walking (hposition : h.position = .walking numBytesAttributes c)
    {socket : List Arrival} : h.next socket = [] := by
  simp only [Handler.next, hposition]

/-- What was reported stays reported when more is printed. -/
theorem Detected.mono (hdetected : Detected order d printed) (hgrows : printed <+: printed') :
    Detected order d printed' := fun r rest k a hbytes hk ha =>
  (hdetected r rest k a hbytes hk ha).mono hgrows

/-- More datagrams show no less about the NAT, so that a report that was right stays right. -/
theorem shown_append {report : Report} (more : List Host.SockaddrIn)
    (hshown : Shown order sources report) : Shown order (sources ++ more) report := by
  cases report
  case fullCone =>
    obtain ⟨source, hsource, helsewhere⟩ := hshown
    exact ⟨source, List.mem_append_left more hsource, helsewhere⟩
  case restrictedCone =>
    obtain ⟨source, hsource, helsewhere⟩ := hshown
    exact ⟨source, List.mem_append_left more hsource, helsewhere⟩
  all_goals trivial

/-- The state when a datagram has come in and its sender is named. -/
def State.takeIn (order : ByteOrder) (s : State) (arrival : Arrival) : State :=
  (recvfrom s arrival).1.nameSender order

/-- When a datagram has come in the handler walks through the attributes of a success response,
and reports anything else. -/
theorem Handler.receive_cases (order : ByteOrder) (hposition : h.position = .receiving)
    (arrival : Arrival) :
    (0 < (recvfrom h.state arrival).2 ∧
      h.receive order arrival =
        ⟨h.state.takeIn order arrival,
          .walking (Host.numBytesAttributes order (h.state.takeIn order arrival).responseBuffer)
            .start,
          h.expected⟩) ∨
    (¬(0 < (recvfrom h.state arrival).2 ∧
        Host.word order (h.state.takeIn order arrival).responseBuffer 0 2 =
          Host.htons order 0x0101) ∧
      ∃ report expected, (∀ sources, Shown order sources report) ∧
        h.receive order arrival =
          ⟨(h.state.takeIn order arrival).print report, .receiving, expected⟩) := by
  obtain ⟨s, position, expected⟩ := h
  cases hposition
  rw [Handler.receive]
  dsimp only
  split_ifs with hpos hsuccess herror
  · exact .inl ⟨hpos, rfl⟩
  · exact .inr ⟨fun hboth => hsuccess hboth.2, .bindingError, expected - 1, fun _ => trivial,
      rfl⟩
  · exact .inr ⟨fun hboth => hsuccess hboth.2, .neitherSuccessNorError, expected - 1,
      fun _ => trivial, rfl⟩
  · exact .inr ⟨fun hboth => hpos hboth.1, .nothingReceived, expected, fun _ => trivial, rfl⟩

/-- Receiving only adds a report, that nothing was received. -/
theorem recvfrom_printed (s : State) (arrival : Arrival) :
    s.printed <+: (s.takeIn order arrival).printed := by
  cases arrival with
  | failed => exact List.prefix_append _ _
  | datagram source bytes => exact List.prefix_append _ _

/-- A message is received as one, whatever follows it in its datagram. -/
theorem takeIn_responseBuffer (order : ByteOrder) (s : State) (source : Host.SockaddrIn)
    {bytes rest : List Byte} (hbytes : bytes = r.encode ++ rest) :
    ∃ m, (s.takeIn order (.datagram source bytes)).responseBuffer =
      Program.coneLevel.receive m r.encode := by
  rw [hbytes]
  exact ⟨_, (Program.receive_append _ s.responseBuffer _ _).symm⟩

/-- A message is not taken for anything else. -/
theorem not_message (hnot : ¬(0 < (recvfrom s (.datagram source d.2)).2 ∧
      Host.word order (s.takeIn order (.datagram source d.2)).responseBuffer 0 2 =
        Host.htons order 0x0101)) (rest : List Byte) : d.2 ≠ r.encode ++ rest := by
  intro hbytes
  apply hnot
  constructor
  · have hlength := r.length_encode
    have hheader : stunHeaderSize = 20 := rfl
    have hsize := Program.coneLevel.header_fits
    have htaken : 0 < (d.2.take Program.coneLevel.stunBufferSize).length := by
      rw [List.length_take, hbytes, List.length_append]
      omega
    exact Int.natCast_pos.mpr htaken
  · obtain ⟨m, hbuffer⟩ := takeIn_responseBuffer order s source hbytes
    rw [hbuffer]
    exact Program.receive_type _ order m r

/-- Receiving keeps the reports right: what is received is of a sender that shows something
about the NAT. -/
theorem Handler.Right.receive (hright : h.Right order received)
    (hposition : h.position = .receiving) (arrival : Arrival) (socket : List Arrival) :
    (h.receive order arrival).Right order (received ++ h.next (arrival :: socket)) := by
  have hold : ∀ d ∈ received, Detected order d (h.state.takeIn order arrival).printed := by
    intro d hd
    have hdetected := hright.detected d
    rw [Handler.handled, hposition] at hdetected
    exact (hdetected hd).mono (recvfrom_printed h.state arrival)
  have hshown : ∀ r ∈ (h.state.takeIn order arrival).printed,
      Shown order ((received ++ h.next (arrival :: socket)).map Prod.fst) r := by
    rw [List.map_append]
    exact shown_recvfrom (fun r hr => shown_append _ (hright.shown r hr)) arrival
  obtain ⟨hpos, hreceive⟩ | ⟨hnot, report, expected, hreport, hreceive⟩ :=
    Handler.receive_cases order hposition arrival
  · rw [hreceive]
    cases arrival with
    | failed => exact absurd hpos (by simp [recvfrom])
    | datagram source bytes =>
      rw [h.next_datagram hposition] at hshown ⊢
      refine ⟨hshown, ?_, ?_⟩
      · rw [Handler.handled, List.dropLast_concat]
        exact hold
      · rintro numBytesAttributes c hwalking
        cases hwalking
        refine ⟨received, (source, bytes), rfl, named_recvfrom h.state source bytes, ?_⟩
        intro r rest hbytes
        obtain ⟨m, hbuffer⟩ := takeIn_responseBuffer order h.state source hbytes
        refine ⟨?_, ⟨m, hbuffer⟩, 0, fun _ => ⟨Nat.zero_le _, .start r⟩, ?_⟩
        · rw [hbuffer]
          exact Program.receive_numBytesAttributes _ order m r
        · exact fun k hk => absurd hk (Nat.not_lt_zero k)
  · rw [hreceive]
    refine ⟨shown_print hshown (hreport _), ?_, by simp⟩
    rw [Handler.handled]
    intro d hd
    rcases List.mem_append.mp hd with hd | hd
    · exact (hold d hd).mono (List.prefix_append _ _)
    · cases arrival with
      | failed =>
        rw [h.next_failed] at hd
        cases hd
      | datagram source bytes =>
        rw [h.next_datagram hposition, List.mem_singleton] at hd
        subst hd
        exact fun r rest k a hbytes => absurd hbytes (not_message (d := (source, bytes)) hnot rest)

/-- The loop over the attributes covers one more attribute of a message. -/
theorem Covered.advance (hcovered : Covered order source r c s.printed)
    (hnamed : Named order source s) {m : Memory Byte}
    (hbuffer : s.responseBuffer = Program.coneLevel.receive m r.encode)
    (hguard : c.index < (encodeRaw r.attributes).length)
    (hfits : c.visited + 4 ≤ Program.coneLevel.stunBufferSize)
    (hprocess : processAttribute order s c.visited = .ok t) :
    Covered order source r
      (c.next (Host.ntohs order (Host.word order s.responseBuffer (c.visited + 2) 2)))
      t.printed := by
  have hgrows := processAttribute_printed hprocess
  obtain ⟨j, hlocated, hreported⟩ := hcovered
  rcases Nat.lt_or_ge j 2 with hj | hj
  · obtain ⟨hle, hc⟩ := hlocated hj
    have hlt : j < r.attributes.length := by
      rw [← r.start_lt_iff hle, ← hc.index_eq]
      omega
    have hvisited := hc.visited_eq hlt
    have hbody : (Program.coneLevel.messageLoop order m r).body c (fun _ => 0) =
        c.next (Host.ntohs order (Host.word order s.responseBuffer (c.visited + 2) 2)) := by
      rw [hbuffer]
      exact congrArg (fun n => c.next (Host.ntohs order n)) (if_pos hfits)
    refine ⟨j + 1, fun hone => ?_, fun k hk htwo a ha => ?_⟩
    · obtain rfl : j = 0 := by omega
      rw [← hbody]
      exact ⟨hlt, hc.body hlt (.inl rfl) (hvisited ▸ hfits) _⟩
    · rcases Nat.lt_succ_iff_lt_or_eq.mp hk with hk | rfl
      · exact (hreported k hk htwo a ha).mono hgrows
      · rw [hvisited] at hfits hprocess
        exact reported_of_processAttribute hnamed hbuffer ha hfits hprocess
  · exact ⟨j, fun hlt => absurd hlt (Nat.not_lt_of_le hj), fun k hk htwo a ha =>
      (hreported k hk htwo a ha).mono hgrows⟩

/-- Behind the loop the first two attributes of a message are covered. -/
theorem Covered.reported (hcovered : Covered order source r c printed)
    (hguard : ¬c.index < (encodeRaw r.attributes).length) (htwo : k < 2)
    (ha : r.attributes[k]? = some (Program.addressAttribute 0x0001 a)) :
    Reported order source a printed := by
  obtain ⟨j, hlocated, hreported⟩ := hcovered
  refine hreported k ?_ htwo a ha
  by_contra hk
  obtain ⟨hle, hc⟩ := hlocated (by omega)
  obtain ⟨hlt, -⟩ := List.getElem?_eq_some_iff.mp ha
  have hstart := (r.start_lt_iff hle).mpr (by omega)
  rw [← hc.index_eq] at hstart
  omega

/-- An iteration of the loop over the attributes keeps the reports right. -/
theorem Handler.Right.advance (hright : h.Right order received)
    (hposition : h.position = .walking numBytesAttributes c) (hguard : c.index < numBytesAttributes)
    (hfits : c.visited + 4 ≤ Program.coneLevel.stunBufferSize)
    (hprocess : processAttribute order h.state c.visited = .ok t) :
    (h.advance order numBytesAttributes c t).Right order received := by
  have hgrows := processAttribute_printed hprocess
  obtain ⟨earlier, d, hreceived, hwalking⟩ := hright.walking _ _ hposition
  have hsource : d.1 ∈ received.map Prod.fst := by
    rw [hreceived]
    simp
  obtain ⟨hnamed, hshown⟩ := Named.processAttribute ⟨hwalking.named, hright.shown⟩ hsource hprocess
  have hdetected := hright.detected
  rw [Handler.handled, hposition] at hdetected
  refine ⟨hshown, fun d hd => (hdetected d hd).mono hgrows, ?_⟩
  rintro _ _ hwalks
  cases hwalks
  refine ⟨earlier, d, hreceived, hnamed, fun r rest hbytes => ?_⟩
  obtain ⟨rfl, ⟨m, hbuffer⟩, hcovered⟩ := hwalking.covered r rest hbytes
  exact ⟨rfl, ⟨m, (processAttribute_responseBuffer hprocess).trans hbuffer⟩,
    hcovered.advance hwalking.named hbuffer hguard hfits hprocess⟩

/-- The end of the loop over the attributes keeps the reports right. -/
theorem Handler.Right.finish (hright : h.Right order received)
    (hposition : h.position = .walking numBytesAttributes c)
    (hguard : ¬c.index < numBytesAttributes) :
    (h.finish h.state).Right order received := by
  obtain ⟨earlier, d, hreceived, hwalking⟩ := hright.walking _ _ hposition
  have hdetected := hright.detected
  rw [Handler.handled, hposition] at hdetected
  refine ⟨hright.shown, ?_, by simp [Handler.finish]⟩
  rw [Handler.handled, Handler.finish]
  dsimp only at hdetected ⊢
  rw [hreceived, List.dropLast_concat] at hdetected
  intro d' hd'
  rw [hreceived] at hd'
  rcases List.mem_append.mp hd' with hd' | hd'
  · exact hdetected d' hd'
  · rw [List.mem_singleton.mp hd']
    intro r rest k a hbytes htwo ha
    obtain ⟨rfl, -, hcovered⟩ := hwalking.covered r rest hbytes
    exact hcovered.reported hguard htwo ha

/-- The reports are right after every move of the handler. -/
theorem Handler.Right.step {socket socket' : List Arrival} (hright : h.Right order received)
    (hstep : h.step order socket = .ok (h', socket')) :
    h'.Right order (received ++ h.next socket) := by
  obtain ⟨hposition, -, arrival, rfl, rfl⟩ |
    ⟨-, numBytesAttributes, c, hposition, hguard, hfits, s, hprocess, rfl⟩ |
    ⟨-, numBytesAttributes, c, hposition, hguard, rfl⟩ := Handler.step_cases hstep
  · exact hright.receive hposition arrival socket'
  · rw [h.next_walking hposition, List.append_nil]
    exact hright.advance hposition hguard hfits hprocess
  · rw [h.next_walking hposition, List.append_nil]
    exact hright.finish hposition hguard

/-! ### The test behind a NAT -/

/-- The requests that go to the server, two for another port and two for another address and
port. -/
def requests (order : ByteOrder) : List (Host.SockaddrIn × List Byte) :=
  [request changePort, request changePort, request changeBoth, request changeBoth].map
    fun bytes => (stunServerAddr order, bytes)

/-- What the test sends and reports is right for the level of the NAT. -/
structure VerdictRight (order : ByteOrder) (level : Level) (w : World) : Prop where
  requests : w.sent.Sublist (requests order)
  fullCone : ∀ ip port, .fullCone ip port ∈ w.handler.state.printed → level = .fullCone
  restrictedCone : ∀ ip port, .restrictedCone ip port ∈ w.handler.state.printed →
    level ≠ .portRestrictedCone
  detected : ∀ d ∈ w.handler.handled w.received, Detected order d w.handler.state.printed

/-- In every state the requests are on their way, what came in was admitted, and the reports are
right. -/
structure World.Holds (order : ByteOrder) (level : Level) (w : World) : Prop where
  unidentified : Unidentified w.requestBuffer
  requests : (w.sent ++ (demanded w.main (w.requestBuffer.read 0 stunWithChangeSize)).map
    fun bytes => (stunServerAddr order, bytes)).Sublist (requests order)
  waiting : ∀ source bytes, .datagram source bytes ∈ w.socket →
    level.admits (w.sent.map Prod.fst) source = true
  admitted : ∀ d ∈ w.received, level.admits (w.sent.map Prod.fst) d.1 = true
  right : w.handler.Right order w.received

variable {level : Level} {w w' : World} {destinations more : List Host.SockaddrIn}

/-- A NAT that has seen more destinations admits no less. -/
theorem Level.admits_append (hadmits : level.admits destinations source = true) :
    level.admits (destinations ++ more) source = true := by
  cases level with
  | fullCone =>
    cases destinations with
    | nil => cases hadmits
    | cons d ds => rfl
  | restrictedCone =>
    rw [Level.admits, List.any_append, Bool.or_eq_true]
    exact .inl hadmits
  | portRestrictedCone =>
    rw [Level.admits, decide_eq_true_eq] at hadmits ⊢
    exact List.mem_append_left more hadmits

/-- A port restricted cone NAT admits nothing from elsewhere. -/
theorem not_portRestrictedCone_of_admits (hserver : ∀ d ∈ destinations, d = stunServerAddr order)
    (hadmits : level.admits destinations source = true) {sameAddress : Bool}
    (helsewhere : Elsewhere order source sameAddress) : level ≠ .portRestrictedCone := by
  rintro rfl
  rw [Level.admits, decide_eq_true_eq] at hadmits
  rw [hserver source hadmits] at helsewhere
  exact helsewhere.1 rfl

/-- Only a full cone NAT admits what comes from another address. -/
theorem fullCone_of_admits (hserver : ∀ d ∈ destinations, d = stunServerAddr order)
    (hadmits : level.admits destinations source = true)
    (helsewhere : Elsewhere order source false) : level = .fullCone := by
  cases level with
  | fullCone => rfl
  | restrictedCone =>
    rw [Level.admits, List.any_eq_true] at hadmits
    obtain ⟨d, hd, haddr⟩ := hadmits
    rw [hserver d hd, decide_eq_true_eq] at haddr
    have hbytes : order.store 4 source.sAddr = originalServer := by
      rw [← haddr]
      exact order.store_load rfl
    exact absurd (helsewhere.2.mp hbytes) Bool.false_ne_true
  | portRestrictedCone =>
    exact absurd rfl (not_portRestrictedCone_of_admits hserver hadmits helsewhere)

/-- All requests go to the server, also those for a response from elsewhere. -/
theorem World.Holds.server (h : w.Holds order level) :
    ∀ d ∈ w.sent.map Prod.fst, d = stunServerAddr order := by
  intro d hd
  obtain ⟨packet, hpacket, rfl⟩ := List.mem_map.mp hd
  obtain ⟨bytes, -, rfl⟩ :=
    List.mem_map.mp (h.requests.subset (List.mem_append_left _ hpacket))
  rfl

/-- What the states keep makes the verdicts right. -/
theorem World.Holds.verdictRight (h : w.Holds order level) : VerdictRight order level w := by
  refine ⟨(List.sublist_append_left _ _).trans h.requests, ?_, ?_, h.right.detected⟩
  · intro ip port hreport
    obtain ⟨source, hsource, helsewhere⟩ := h.right.shown _ hreport
    obtain ⟨d, hd, rfl⟩ := List.mem_map.mp hsource
    exact fullCone_of_admits h.server (h.admitted d hd) helsewhere
  · intro ip port hreport
    obtain ⟨source, hsource, helsewhere⟩ := h.right.shown _ hreport
    obtain ⟨d, hd, rfl⟩ := List.mem_map.mp hsource
    exact not_portRestrictedCone_of_admits h.server (h.admitted d hd) helsewhere

/-- A statement of `main` sends what is demanded next, or nothing. -/
theorem World.Holds.perform {statement : Statement} {rest : List Statement}
    (h : w.Holds order level) (hmain : w.main = statement :: rest) (succeeds : Bool) :
    World.Holds order level { w.perform order statement succeeds with main := rest } := by
  have hrequests := h.requests
  rw [hmain] at hrequests
  cases statement with
  | buildPortSpoof =>
    refine ⟨h.unidentified.buildSpoof, ?_, h.waiting, h.admitted, h.right⟩
    rw [demanded] at hrequests
    rw [World.perform, buildPortSpoof, h.unidentified.read_buildSpoof]
    exact hrequests
  | buildBothSpoof =>
    refine ⟨h.unidentified.buildSpoof, ?_, h.waiting, h.admitted, h.right⟩
    rw [demanded] at hrequests
    rw [World.perform, buildBothSpoof, h.unidentified.read_buildSpoof]
    exact hrequests
  | sendto =>
    rw [demanded, List.map_cons] at hrequests
    rw [World.perform]
    cases succeeds with
    | true =>
      refine ⟨h.unidentified, ?_, ?_, ?_, h.right⟩
      · rw [if_pos rfl, List.append_assoc]
        exact hrequests
      · intro source bytes hbytes
        rw [if_pos rfl, List.map_append]
        exact Level.admits_append (h.waiting source bytes hbytes)
      · intro d hd
        rw [if_pos rfl, List.map_append]
        exact Level.admits_append (h.admitted d hd)
    | false =>
      exact ⟨h.unidentified, ((List.sublist_cons_self _ _).append_left _).trans hrequests,
        h.waiting, h.admitted, h.right⟩

/-- What the NAT lets through waits at the socket. -/
theorem World.Holds.arrive (h : w.Holds order level) (arrival : Arrival) :
    World.Holds order level (w.arrive level arrival) := by
  cases arrival with
  | failed =>
    refine ⟨h.unidentified, h.requests, fun source bytes hmem => ?_, h.admitted, h.right⟩
    rcases List.mem_append.mp hmem with hmem | hmem
    · exact h.waiting source bytes hmem
    · cases List.mem_singleton.mp hmem
  | datagram source bytes =>
    rw [World.arrive]
    split_ifs with hadmits
    · refine ⟨h.unidentified, h.requests, fun source' bytes' hmem => ?_, h.admitted, h.right⟩
      rcases List.mem_append.mp hmem with hmem | hmem
      · exact h.waiting source' bytes' hmem
      · cases List.mem_singleton.mp hmem
        exact hadmits
    · exact h

/-- What the handler receives has waited at the socket, and nothing else disappears there. -/
theorem Handler.step_socket {socket socket' : List Arrival}
    (hstep : h.step order socket = .ok (h', socket')) :
    (∀ arrival ∈ socket', arrival ∈ socket) ∧
      ∀ d ∈ h.next socket, .datagram d.1 d.2 ∈ socket := by
  obtain ⟨hposition, -, arrival, rfl, rfl⟩ | ⟨rfl, numBytesAttributes, c, hposition, -⟩ |
    ⟨rfl, numBytesAttributes, c, hposition, -⟩ := Handler.step_cases hstep
  · refine ⟨fun other hother => List.mem_cons_of_mem arrival hother, fun d hd => ?_⟩
    cases arrival with
    | failed =>
      rw [h.next_failed] at hd
      cases hd
    | datagram source bytes =>
      rw [h.next_datagram hposition, List.mem_singleton] at hd
      rw [hd]
      exact List.mem_cons_self
  all_goals
    rw [h.next_walking hposition]
    exact ⟨fun other hother => hother, fun d hd => absurd hd List.not_mem_nil⟩

/-- Every action keeps what holds in every state. -/
theorem World.Holds.step {action : Action} (h : w.Holds order level)
    (hstep : w.step order level action = .ok w') : w'.Holds order level := by
  cases action with
  | main succeeds =>
    cases hmain : w.main with
    | nil =>
      rw [World.step, hmain] at hstep
      cases hstep
    | cons statement rest =>
      rw [World.step, hmain] at hstep
      cases hstep
      exact h.perform hmain succeeds
  | arrive arrival =>
    cases hstep
    exact h.arrive arrival
  | handler =>
    cases hhandler : w.handler.step order w.socket with
    | error e =>
      rw [World.step, hhandler] at hstep
      cases hstep
    | ok result =>
      obtain ⟨handler, socket⟩ := result
      rw [World.step, hhandler] at hstep
      cases hstep
      obtain ⟨hsocket, hnext⟩ := Handler.step_socket hhandler
      refine ⟨h.unidentified, h.requests, fun source bytes hmem =>
        h.waiting source bytes (hsocket _ hmem), fun d hd => ?_, h.right.step hhandler⟩
      rcases List.mem_append.mp hd with hd | hd
      · exact h.admitted d hd
      · exact h.waiting d.1 d.2 (hnext d hd)

/-- The invariant holds when `main` has created the handler. -/
theorem World.holds_initial (order : ByteOrder) (level : Level) :
    World.Holds order level .initial := by
  refine ⟨rfl, List.Sublist.refl _, by simp [World.initial], by simp [World.initial], ?_, ?_, ?_⟩
  · simp [World.initial, Handler.initial, ConeLevel.initial]
  · simp [World.initial, Handler.initial, Handler.handled]
  · simp [World.initial, Handler.initial]

/-- Whatever the level of the NAT and the byte order of the host are, whoever sends datagrams and
however the threads are interleaved: the requests for other ports and addresses go to the server in
order, a full cone is reported only behind a full cone NAT, a restricted cone never behind a port
restricted one, and no response with a mapped address among its first two attributes is left out
of the reports. -/
theorem verdictRight_of_run {as : List Action}
    (hrun : run (World.step order level) World.initial as = .ok w) : VerdictRight order level w :=
  (invariant_of_steps (fun _ _ _ h hstep => h.step hstep) (World.holds_initial order level)
    hrun).verdictRight

/-- Another address and port of the server, from which a full cone lets a response through. -/
def changedSource : Host.SockaddrIn :=
  ⟨Host.htons .leastFirst 3479, ByteOrder.leastFirst.load [77, 72, 169, 211]⟩

/-- A response to the first request that comes in from another address, and is processed. -/
def responded : List Action :=
  [.main true, .main true, .arrive (.datagram changedSource Program.twoAddresses.encode),
    .handler, .handler, .handler, .handler]

/-- A run in which a response from another address is reported as a full cone. -/
theorem verdictRight_responded :
    ∃ w, run (World.step .leastFirst .fullCone) World.initial responded = .ok w ∧
      .fullCone "198.51.100.1".toList 4242 ∈ w.handler.state.printed ∧
      VerdictRight .leastFirst .fullCone w := by
  have hends : endsWith (run (World.step .leastFirst .fullCone) World.initial responded)
      (fun w => .fullCone "198.51.100.1".toList 4242 ∈ w.handler.state.printed) = true := by
    decide +kernel
  obtain ⟨w, hrun, hmem⟩ := exists_of_endsWith hends
  exact ⟨w, hrun, of_decide_eq_true hmem, verdictRight_of_run hrun⟩

end NetworkLabs.Stun.ConeLevel
