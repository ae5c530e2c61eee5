import NetworkLabs.Mrt.Codec
import NetworkLabs.Mrt.Receiver

/-!
# What earlier datagrams leave in the incoming buffer

`main_handler` reads the fields of a transmission at fixed places of its buffer, however
few bytes it received. A short datagram is therefore completed by what earlier ones left
behind its terminating zero.
-/

namespace NetworkLabs.Mrt.Receiver

open Foundations

/-- The types that `main_handler` handles. All others, the ones of its own transmissions among
them, are dropped. -/
def handledTypes : List ℤ := [mrtRcon, mrtData, mrtRcls]

/-- The decision of `main_handler` on a datagram: the type of the case that handles it,
or none when the datagram is dropped. -/
def handledType (s : State) (dg : Datagram) : Option ℤ :=
  if s.shouldClose then none
  else (dispatchedType s dg).filter fun type => decide (type ∈ handledTypes)

/-- The receiver with other bytes left in its incoming buffer. -/
@[simps] def State.withIncoming (s : State) (leftover : Memory Byte) : State :=
  { s with incomingBuffer := leftover }

/-- The outcome of a section without the incoming buffer, in which earlier datagrams leave their
bytes. -/
def withoutIncoming (outcome : Except Fault State) : Except Fault State :=
  outcome.map fun s => s.withIncoming (Memory.fill 0)

/-- A datagram ends before its hash, its type, or (for an `RCON` and a `DATA`) its
fragment number does. -/
def TooShort (dg : Datagram) : Prop :=
  dg.length < mrtFragmentLocation ∨
    dg.length < mrtWindowsizeLocation ∧ (typeField dg = mrtRcon ∨ typeField dg = mrtData)

/-- `main_handler` acts on a datagram from that datagram alone, whatever earlier ones have left
behind it. -/
structure ActsOnDatagramAlone (s : State) (addr : SockaddrIn) (dg : Datagram) : Prop where
  /-- The decision does not depend on the leftovers. -/
  same_decision : ∀ m m', handledType (s.withIncoming m) dg = handledType (s.withIncoming m') dg
  /-- Neither do the queues, the records and the reply. -/
  same_outcome : ∀ m m', withoutIncoming (mainHandler (s.withIncoming m) addr dg) =
    withoutIncoming (mainHandler (s.withIncoming m') addr dg)
  /-- A datagram that is too short is dropped and changes nothing. -/
  short_dropped : s.shouldClose = false → TooShort dg → ∀ m,
    handledType (s.withIncoming m) dg = none ∧
      withoutIncoming (mainHandler (s.withIncoming m) addr dg) = withoutIncoming (.ok s)

/-- No header of a handled type starts with the datagram and its terminating zero, and
the datagram is not an `RCON` or `DATA` header with less than a fragment number. -/
def SelfContained (dg : Datagram) : Prop :=
  (∀ type ∈ handledTypes, ¬(dg ++ [0]) <+: header type) ∧
    ∀ type ∈ [mrtRcon, mrtData], header type <+: dg → mrtWindowsizeLocation ≤ dg.length

instance (dg : Datagram) : Decidable (SelfContained dg) := inferInstanceAs (Decidable (_ ∧ _))

/-! ### The decision -/

/-- A handled type is stored with a zero byte and without loss. -/
theorem handledTypes_spec {type : ℤ} (h : type ∈ handledTypes) :
    0 ∈ intBytes type ∧ wrapInt type = type := by
  have hall : ∀ type ∈ handledTypes, 0 ∈ intBytes type ∧ wrapInt type = type := by decide
  exact hall type h

/-- A buffer passes the validation and holds a handled type exactly when it starts with
the header of that type. -/
theorem valid_iff_header {incoming : Memory Byte} {type : ℤ} {size : ℕ} (hsize : 12 ≤ size)
    (h : type ∈ handledTypes) :
    validTransmission size incoming = true ∧ typeHolder incoming = type ↔
      incoming.read 0 12 = header type := by
  obtain ⟨hzero, hwrap⟩ := handledTypes_spec h
  constructor
  · rintro ⟨hvalid, htype⟩
    have htypeField : incoming.read 8 4 = intBytes type := by
      rw [← htype]
      exact (intBytes_bytesInt (Memory.length_read incoming 8 4)).symm
    have hfront : incoming.read 0 12 = incoming.read 0 8 ++ intBytes type := by
      rw [← htypeField]
      exact Memory.read_add incoming 0 8 4
    have hhash := (validTransmission_iff hsize (Memory.length_read incoming 0 8) hzero
      hfront).mp hvalid
    have hhashField : incoming.read 0 8 = littleEndian 8 (hash (intBytes type)).toNat := by
      apply ofLittleEndian_injective (by simp)
      rw [ofLittleEndian_toNat, hhash]
    rw [hfront, hhashField]
    rfl
  · intro hheader
    exact ⟨validTransmission_of_header hzero hsize hheader, typeHolder_of_header hwrap hheader⟩

/-- The decision is for a type exactly when the buffer then starts with its header. -/
theorem handledType_eq_some_iff {s : State} {dg : Datagram} {type : ℤ}
    (hclose : s.shouldClose = false) : handledType s dg = some type ↔
      type ∈ handledTypes ∧
        (receiveInto s.incomingBuffer (stored dg)).read 0 12 = header type := by
  have hsize : 12 ≤ maxUdpPayloadLength + 1 := by decide
  rw [handledType, if_neg (by simp [hclose])]
  unfold dispatchedType
  dsimp only
  constructor
  · intro h
    obtain ⟨hsome, hmem⟩ := Option.filter_eq_some_iff.mp h
    have hmem' : type ∈ handledTypes := of_decide_eq_true hmem
    split at hsome
    · rename_i hvalid
      exact ⟨hmem', (valid_iff_header hsize hmem').mp ⟨hvalid, Option.some.inj hsome⟩⟩
    · cases hsome
  · rintro ⟨hmem, hheader⟩
    obtain ⟨hvalid, htype⟩ := (valid_iff_header hsize hmem).mpr hheader
    rw [if_pos hvalid, htype]
    exact Option.filter_eq_some_iff.mpr ⟨rfl, decide_eq_true hmem⟩

/-! ### The outcome -/

/-- The `MRT_RCON` case does not use the incoming buffer. -/
theorem handleRcon_withIncoming (s : State) (addr : SockaddrIn) (fragHolder : ℤ)
    (m : Memory Byte) : handleRcon (s.withIncoming m) addr fragHolder =
      (handleRcon s addr fragHolder).withIncoming m := by
  unfold handleRcon
  rw [State.withIncoming_pendingSendersQ]
  cases getItemQ s.pendingSendersQ (senderMatcher addr) with
  | some r => rfl
  | none =>
    have hrecord : (s.withIncoming m).record addr = s.record addr := rfl
    dsimp only
    rw [hrecord]
    cases s.record addr <;> rfl

/-- The `MRT_RCLS` case does not use the incoming buffer. -/
theorem handleRcls_withIncoming (s : State) (addr : SockaddrIn) (m : Memory Byte) :
    handleRcls (s.withIncoming m) addr = (handleRcls s addr).withIncoming m := by
  have hrecord : (s.withIncoming m).record addr = s.record addr := rfl
  unfold handleRcls
  rw [hrecord]
  cases s.record addr <;> rfl

/-- The `MRT_DATA` case uses only the payload in the incoming buffer. -/
theorem handleData_withIncoming (s : State) (addr : SockaddrIn) (numBytesReceived fragHolder : ℤ)
    {m m' : Memory Byte}
    (hpayload : m.read mrtPayloadLocation (numBytesReceived - mrtHeaderLength).toNat =
      m'.read mrtPayloadLocation (numBytesReceived - mrtHeaderLength).toNat) :
    withoutIncoming (handleData (s.withIncoming m) addr numBytesReceived fragHolder) =
      withoutIncoming (handleData (s.withIncoming m') addr numBytesReceived fragHolder) := by
  have hrecord : ∀ n, (s.withIncoming n).record addr = s.record addr := fun _ => rfl
  unfold handleData
  rw [hrecord, hrecord]
  cases s.record addr with
  | none => rfl
  | some r =>
    have hread : ∀ n, (s.withIncoming n).incomingBuffer = n := fun _ => rfl
    simp only [hread, hpayload]
    split
    · split <;> rfl
    · rfl

/-- A datagram that is dropped changes the incoming buffer only. -/
theorem mainHandler_of_none {s : State} {addr : SockaddrIn} {dg : Datagram}
    (hclose : s.shouldClose = false) (h : handledType s dg = none) :
    withoutIncoming (mainHandler s addr dg) = withoutIncoming (.ok s) := by
  have hnot : ∀ type ∈ handledTypes, dispatchedType s dg ≠ some type := by
    intro type hmem hsome
    have hhandled : handledType s dg = some type := by
      rw [handledType, if_neg (by simp [hclose]), hsome]
      exact Option.filter_eq_some_iff.mpr ⟨rfl, decide_eq_true hmem⟩
    rw [h] at hhandled
    cases hhandled
  unfold dispatchedType at hnot
  unfold mainHandler
  rw [if_neg (by simp [hclose])]
  dsimp only at hnot ⊢
  split
  · rename_i hvalid
    rw [if_pos hvalid] at hnot
    rw [if_neg fun htype => hnot mrtRcon (by decide) (congrArg some htype),
      if_neg fun htype => hnot mrtData (by decide) (congrArg some htype),
      if_neg fun htype => hnot mrtRcls (by decide) (congrArg some htype)]
    rfl
  · rfl

/-- A datagram of a handled type is handled by the case of that type. -/
theorem mainHandler_of_some {s : State} {addr : SockaddrIn} {dg : Datagram} {type : ℤ}
    (hclose : s.shouldClose = false) (h : handledType s dg = some type) :
    mainHandler s addr dg =
      let incoming := receiveInto s.incomingBuffer (stored dg)
      if type = mrtRcon then .ok (handleRcon (s.withIncoming incoming) addr (fragHolder incoming))
      else if type = mrtData then
        handleData (s.withIncoming incoming) addr (stored dg).length (fragHolder incoming)
      else .ok (handleRcls (s.withIncoming incoming) addr) := by
  obtain ⟨hmem, hheader⟩ := (handledType_eq_some_iff hclose).mp h
  have hsize : 12 ≤ maxUdpPayloadLength + 1 := by decide
  obtain ⟨hvalid, htype⟩ := (valid_iff_header hsize hmem).mpr hheader
  unfold mainHandler
  rw [if_neg (by simp [hclose])]
  dsimp only
  rw [if_pos hvalid, htype]
  rcases List.mem_cons.mp hmem with rfl | hmem
  · rfl
  · rcases List.mem_cons.mp hmem with rfl | hmem
    · rfl
    · rw [List.mem_singleton.mp hmem]
      rfl

/-- With the same decision, and with the fragment number inside the datagram where it is
used, the outcome is the same. -/
theorem outcome_congr {s : State} {addr : SockaddrIn} {dg : Datagram} {m m' : Memory Byte}
    (hclose : s.shouldClose = false)
    (hdecision : handledType (s.withIncoming m) dg = handledType (s.withIncoming m') dg)
    (hlength : ∀ type ∈ [mrtRcon, mrtData], handledType (s.withIncoming m) dg = some type →
      16 ≤ (stored dg).length) :
    withoutIncoming (mainHandler (s.withIncoming m) addr dg) =
      withoutIncoming (mainHandler (s.withIncoming m') addr dg) := by
  have hopen : ∀ n, (s.withIncoming n).shouldClose = false := fun _ => hclose
  cases hhandled : handledType (s.withIncoming m) dg with
  | none =>
    rw [mainHandler_of_none (hopen m) hhandled,
      mainHandler_of_none (hopen m') (hdecision.symm.trans hhandled)]
    rfl
  | some type =>
    have hframe : ∀ n n', (s.withIncoming n).withIncoming n' = s.withIncoming n' := fun _ _ => rfl
    have hread : ∀ n, (s.withIncoming n).incomingBuffer = n := fun _ => rfl
    have hfrag : 16 ≤ (stored dg).length → ∀ n,
        fragHolder (receiveInto n (stored dg)) = bytesInt (((stored dg).drop 12).take 4) :=
      fun hlong n => congrArg bytesInt (read_receiveInto n hlong)
    rw [mainHandler_of_some (hopen m) hhandled,
      mainHandler_of_some (hopen m') (hdecision.symm.trans hhandled)]
    simp only [hframe, hread]
    by_cases hrcon : type = mrtRcon
    · subst hrcon
      rw [if_pos rfl, if_pos rfl, hfrag (hlength _ (by decide) hhandled),
        hfrag (hlength _ (by decide) hhandled), handleRcon_withIncoming,
        handleRcon_withIncoming]
      rfl
    · rw [if_neg hrcon, if_neg hrcon]
      by_cases hdata : type = mrtData
      · subst hdata
        rw [if_pos rfl, if_pos rfl, hfrag (hlength _ (by decide) hhandled),
          hfrag (hlength _ (by decide) hhandled)]
        apply handleData_withIncoming
        by_cases hpayload : 20 ≤ (stored dg).length
        · have hinside : 20 + ((stored dg).length - 20 : ℤ).toNat ≤ (stored dg).length := by omega
          exact (read_receiveInto m hinside).trans (read_receiveInto m' hinside).symm
        · have hnone : ((stored dg).length - mrtHeaderLength : ℤ).toNat = 0 := by
            have hheader : (mrtHeaderLength : ℤ) = 20 := rfl
            omega
          rw [hnone]
          rfl
      · rw [if_neg hdata, if_neg hdata, handleRcls_withIncoming, handleRcls_withIncoming]
        rfl

/-! ### When the leftovers matter -/

/-- The front of the buffer after a datagram that does not reach the end of the type. -/
theorem read_receiveInto_short (m : Memory Byte) {dg : Datagram} (hshort : dg.length < 12) :
    (receiveInto m (stored dg)).read 0 12 =
      dg ++ [0] ++ m.read (dg.length + 1) (11 - dg.length) := by
  have hstored : stored dg = dg := by
    apply List.take_of_length_le
    have hmax : maxUdpPayloadLength = 508 := rfl
    omega
  have hsplit : 12 = dg.length + 1 + (11 - dg.length) := by omega
  have hdg : (receiveInto m dg).read 0 dg.length = dg := by
    rw [read_receiveInto m (by omega), List.drop_zero, List.take_length]
  have hend : (receiveInto m dg).read dg.length 1 = [0] := Memory.read_write _ _ rfl
  have hrest : (receiveInto m dg).read (dg.length + 1) (11 - dg.length) =
      m.read (dg.length + 1) (11 - dg.length) := by
    rw [receiveInto, Memory.read_write_disjoint _ (Or.inr (by simp)),
      Memory.read_write_disjoint _ (Or.inr (by omega))]
  rw [hstored, hsplit, Memory.read_add, Memory.read_add, Nat.zero_add, Nat.zero_add, hdg, hend,
    hrest]

/-- The front of the buffer after a datagram that contains its type. -/
theorem read_receiveInto_long (m : Memory Byte) {dg : Datagram} (hlong : 12 ≤ dg.length) :
    (receiveInto m (stored dg)).read 0 12 = dg.take 12 := by
  have hmax : maxUdpPayloadLength = 508 := rfl
  have hstored : 12 ≤ (stored dg).length := by
    rw [stored, List.length_take]
    omega
  rw [read_receiveInto m hstored, List.drop_zero, stored, List.take_take, hmax]
  rfl

/-- The decision on a datagram that contains its type: the type is one of the three and the
checksum is right. -/
theorem handledType_long_iff {s : State} {dg : Datagram} {type : ℤ}
    (hclose : s.shouldClose = false) (hlong : 12 ≤ dg.length) :
    handledType s dg = some type ↔ type ∈ handledTypes ∧ header type <+: dg := by
  rw [handledType_eq_some_iff hclose, read_receiveInto_long _ hlong, List.prefix_iff_eq_take,
    length_header, eq_comm]

/-- A self-contained datagram that does not contain its type is dropped. -/
theorem handledType_short {s : State} {dg : Datagram} (hclose : s.shouldClose = false)
    (hself : SelfContained dg) (hshort : dg.length < 12) : handledType s dg = none := by
  apply Option.eq_none_iff_forall_ne_some.mpr
  intro type hsome
  obtain ⟨hmem, hheader⟩ := (handledType_eq_some_iff hclose).mp hsome
  rw [read_receiveInto_short _ hshort] at hheader
  exact hself.1 type hmem ⟨_, hheader⟩

/-- The decision on a self-contained datagram does not depend on the leftovers. -/
theorem handledType_congr {s : State} {dg : Datagram} (hclose : s.shouldClose = false)
    (hself : SelfContained dg) (m m' : Memory Byte) :
    handledType (s.withIncoming m) dg = handledType (s.withIncoming m') dg := by
  have hopen : ∀ n, (s.withIncoming n).shouldClose = false := fun _ => hclose
  by_cases hlong : 12 ≤ dg.length
  · apply Option.ext
    intro type
    rw [handledType_long_iff (hopen m) hlong, handledType_long_iff (hopen m') hlong]
  · have hshort : dg.length < 12 := by omega
    rw [handledType_short (hopen m) hself hshort, handledType_short (hopen m') hself hshort]

/-- A self-contained `RCON` or `DATA` contains its fragment number, which is read from it. -/
theorem length_of_handled {s : State} {dg : Datagram} (hclose : s.shouldClose = false)
    (hself : SelfContained dg) {type : ℤ} (hmem : type ∈ [mrtRcon, mrtData])
    (h : handledType s dg = some type) : 16 ≤ dg.length := by
  by_cases hlong : 12 ≤ dg.length
  · exact hself.2 type hmem ((handledType_long_iff hclose hlong).mp h).2
  · rw [handledType_short hclose hself (by omega)] at h
    cases h

/-- A self-contained datagram that is too short is dropped, whatever is behind it in
the buffer. -/
theorem handledType_tooShort {s : State} {dg : Datagram} (hclose : s.shouldClose = false)
    (hself : SelfContained dg) (htooShort : TooShort dg) : handledType s dg = none := by
  rcases htooShort with hshort | ⟨hshort, htype⟩
  · exact handledType_short hclose hself hshort
  · apply Option.eq_none_iff_forall_ne_some.mpr
    intro type hsome
    have hnot : type ∉ [mrtRcon, mrtData] := fun hmem =>
      Nat.not_lt_of_le (length_of_handled hclose hself hmem hsome) hshort
    by_cases hlong : 12 ≤ dg.length
    · obtain ⟨hmem, body, rfl⟩ := (handledType_long_iff hclose hlong).mp hsome
      rw [typeField_header, (handledTypes_spec hmem).2] at htype
      exact hnot (by simpa using htype)
    · rw [handledType_short hclose hself (by omega)] at hsome
      cases hsome

/-- A self-contained datagram is acted on alone: it is dropped with any buffer, or all its
fields are its own. -/
theorem actsOnDatagramAlone_of_selfContained {s : State} (addr : SockaddrIn) {dg : Datagram}
    (hclose : s.shouldClose = false) (hself : SelfContained dg) :
    ActsOnDatagramAlone s addr dg := by
  have hopen : ∀ n, (s.withIncoming n).shouldClose = false := fun _ => hclose
  constructor
  · exact handledType_congr hclose hself
  · intro m m'
    apply outcome_congr hclose (handledType_congr hclose hself m m')
    intro type hmem hsome
    have hlong := length_of_handled (hopen m) hself hmem hsome
    have hmax : maxUdpPayloadLength = 508 := rfl
    rw [stored, List.length_take]
    omega
  · intro _ htooShort m
    have hnone := handledType_tooShort (hopen m) hself htooShort
    refine ⟨hnone, ?_⟩
    rw [mainHandler_of_none (hopen m) hnone]
    rfl

/-- A datagram that is acted on alone is self-contained: otherwise it is too short, and
suitable leftovers complete it. -/
theorem ActsOnDatagramAlone.selfContained {s : State} {addr : SockaddrIn} {dg : Datagram}
    (h : ActsOnDatagramAlone s addr dg) (hclose : s.shouldClose = false) : SelfContained dg := by
  have hopen : ∀ n, (s.withIncoming n).shouldClose = false := fun _ => hclose
  constructor
  · rintro type hmem ⟨rest, hrest⟩
    have hlength := congrArg List.length hrest
    rw [List.length_append, List.length_append, length_header, List.length_singleton] at hlength
    have hshort : dg.length < 12 := by omega
    -- These leftovers contain the rest of the header.
    let m := (Memory.fill 0).write 0 (header type)
    have hleft : m.read (dg.length + 1) (11 - dg.length) = rest := by
      have hinside : dg.length + 1 + (11 - dg.length) ≤ (header type).length := by
        rw [length_header]
        omega
      have hread := @Memory.read_write_inside _ (Memory.fill (0 : Byte)) 0 (dg.length + 1)
        (11 - dg.length) (header type) hinside
      rw [Nat.zero_add] at hread
      rw [hread, ← hrest, List.drop_left' (by simp)]
      exact List.take_of_length_le (by omega)
    have hsome : handledType (s.withIncoming m) dg = some type := by
      apply (handledType_eq_some_iff (hopen m)).mpr
      refine ⟨hmem, ?_⟩
      rw [read_receiveInto_short _ hshort, State.withIncoming_incomingBuffer, hleft, hrest]
    have hnone := (h.short_dropped hclose (Or.inl hshort) m).1
    rw [hsome] at hnone
    cases hnone
  · intro type hmem hheader
    by_contra hshort
    have hlong : 12 ≤ dg.length := by
      have hle := hheader.length_le
      rwa [length_header] at hle
    have hhandled : type ∈ handledTypes := by
      have hsub : ∀ type ∈ [mrtRcon, mrtData], type ∈ handledTypes := by decide
      exact hsub type hmem
    have htype : typeField dg = type := by
      obtain ⟨body, rfl⟩ := hheader
      rw [typeField_header, (handledTypes_spec hhandled).2]
    have htooShort : TooShort dg := by
      right
      rw [htype]
      exact ⟨Nat.lt_of_not_le hshort, by simpa using hmem⟩
    have hnone := (h.short_dropped hclose htooShort s.incomingBuffer).1
    rw [(handledType_long_iff (hopen _) hlong).mpr ⟨hhandled, hheader⟩] at hnone
    cases hnone

/-- `main_handler` acts on a datagram from that datagram alone exactly when the datagram is
self-contained, or when it only finds the close flag set. -/
theorem actsOnDatagramAlone_iff (s : State) (addr : SockaddrIn) (dg : Datagram) :
    ActsOnDatagramAlone s addr dg ↔ s.shouldClose = true ∨ SelfContained dg := by
  cases hclose : s.shouldClose with
  | true =>
    refine iff_of_true ⟨fun m m' => ?_, fun m m' => ?_, fun hopen => ?_⟩ (Or.inl rfl)
    · have hnone : ∀ n, handledType (s.withIncoming n) dg = none := fun _ => if_pos hclose
      rw [hnone, hnone]
    · have hcleaned : ∀ n, mainHandler (s.withIncoming n) addr dg =
          .ok (cleanUp (s.withIncoming n)) := fun _ => if_pos hclose
      rw [hcleaned, hcleaned]
      rfl
    · rw [hclose] at hopen
      cases hopen
  | false =>
    constructor
    · intro h
      exact Or.inr (h.selfContained hclose)
    · intro h
      rcases h with hset | hself
      · cases hset
      · exact actsOnDatagramAlone_of_selfContained addr hclose hself

/-- The three bytes that an `RCLS` starts with are handled as an `RCLS` when the datagram
before them, of whichever sender, was one, and dropped when it was a `DATA`. -/
theorem actsOnDatagramAlone_fails_for_short_rcls :
    ¬ActsOnDatagramAlone initial (loopback 4242) (rclsDatagram.take 3) := by
  intro h
  have hnone := h.same_decision (receiveInto (Memory.fill 0) rclsDatagram)
    (receiveInto (Memory.fill 0) (dataDatagram 1 [0, 0, 0, 0] [65]))
  revert hnone
  decide +kernel

end NetworkLabs.Mrt.Receiver
