import NetworkLabs.Mrt.ProgramEffects

/-!
# The receiver program

`main` of `receiver.c` gives every accepted connection one turn, in the order in which they
were accepted, and writes exactly what `mrt_receive1` returns. The queue of identifiers
holds one for every turn that is still to come.
-/

namespace NetworkLabs.Mrt.Programs

open Foundations

/-- The first turns and the last ones. -/
theorem outputOf_append (turns turns' : List (SockaddrIn × List Byte)) (addr : SockaddrIn) :
    outputOf (turns ++ turns') addr = outputOf turns addr ++ outputOf turns' addr := by
  simp [outputOf]

/-- One turn, which is output for its own address only. -/
theorem outputOf_singleton (id addr : SockaddrIn) (written : List Byte) :
    outputOf [(id, written)] addr = if id = addr then written else [] := by
  by_cases haddr : id = addr <;> simp [outputOf, haddr]

/-- The counters and the queues while `main` stands at a position. -/
def ReceiverMain.StandsAt (m : ReceiverMain) (r : Receiver.State) : ReceiverPosition → Prop
  | .accepting i =>
    m.finished = [] ∧ r.acceptedIds.length = i ∧ i < m.numConnections ∧ r.accepting = []
  | .registering i =>
    m.finished = [] ∧ r.acceptedIds.length = i ∧ i < m.numConnections ∧ ∃ x, r.accepting = [x]
  | .receiving i _ _ => m.finished.length = i ∧ r.acceptedIds.length = m.numConnections
  | .closing | .returning | .ended => True

/-- The receiver program and what its module has done. Both keep the order of acceptance. -/
structure ReceiverHolds (r : Receiver.State) (m : ReceiverMain) : Prop where
  /-- Connections get their turns in the order in which they were accepted. -/
  served : m.turns.map Prod.fst ++ m.senderIdQ = r.acceptedIds
  /-- What was written is what `mrt_receive1` returned. -/
  output : ∀ addr, m.output addr = r.returnedBytes addr
  /-- The counters and the queues. -/
  stands : m.StandsAt r m.position

/-- No connection is accepted yet, and no turn has begun. -/
theorem receiverHolds_initial (numConnections : ℤ) (readSize : SockaddrIn → ℤ)
    (stdin : SockaddrIn → List Byte) :
    ReceiverHolds Receiver.initial (initial numConnections readSize stdin).receiverMain := by
  unfold initial
  by_cases hsome : 0 < numConnections
  · rw [if_pos hsome]
    exact ⟨rfl, fun _ => rfl, rfl, rfl, hsome, rfl⟩
  · rw [if_neg hsome]
    exact ⟨rfl, fun _ => rfl, trivial⟩

/-! ### The moves of `main` -/

/-- A turn begins when the one before it is over. -/
theorem nextTurn_spec {m : ReceiverMain} {r : Receiver.State} {i : ℕ}
    (hserved : m.finished.map Prod.fst ++ m.senderIdQ = r.acceptedIds)
    (houtput : ∀ addr, outputOf m.finished addr = r.returnedBytes addr)
    (hcount : m.finished.length = i) (hall : r.acceptedIds.length = m.numConnections) :
    ∃ m', m.nextTurn i = .ok m' ∧ ReceiverHolds r m' := by
  unfold ReceiverMain.nextTurn
  split
  · rename_i hmore
    cases hqueue : m.senderIdQ with
    | nil =>
      -- Fewer turns than connections are over, so the queue is not empty.
      have hlength := congrArg List.length hserved
      rw [hqueue, List.append_nil, List.length_map] at hlength
      omega
    | cons id queue =>
      refine ⟨_, rfl, ?_, fun addr => ?_, hcount, hall⟩
      · rw [hqueue] at hserved
        simpa [ReceiverMain.turns, ReceiverPosition.current] using hserved
      · have hturns := outputOf_append m.finished [(id, [])] addr
        rw [outputOf_singleton, ite_self, List.append_nil] at hturns
        exact hturns.trans (houtput addr)
  · refine ⟨_, rfl, ?_, fun addr => ?_, trivial⟩
    · simpa [ReceiverMain.turns, ReceiverPosition.current] using hserved
    · rw [← houtput addr]
      simp [ReceiverMain.output, outputOf, ReceiverMain.turns, ReceiverPosition.current]

/-- The next call of `mrt_accept1` or the first turn, with what holds at the one and at the
other. -/
theorem nextAccept_spec {m : ReceiverMain} {r : Receiver.State} {i : ℕ}
    (hfinished : m.finished = []) (hserved : m.senderIdQ = r.acceptedIds)
    (hreturned : ∀ addr, r.returnedBytes addr = []) (hcount : r.acceptedIds.length = i)
    (hle : i ≤ m.numConnections) (haccepting : r.accepting = []) :
    ∃ m', m.nextAccept i = .ok m' ∧ ReceiverHolds r m' := by
  unfold ReceiverMain.nextAccept
  split
  · rename_i hmore
    refine ⟨_, rfl, ?_, fun addr => ?_, hfinished, hcount, hmore, haccepting⟩
    · simpa [ReceiverMain.turns, ReceiverPosition.current, hfinished] using hserved
    · rw [hreturned addr]
      simp [ReceiverMain.output, outputOf, ReceiverMain.turns, ReceiverPosition.current, hfinished]
  · apply nextTurn_spec
    · rw [hfinished]
      exact hserved
    · intro addr
      rw [hreturned addr, hfinished]
      rfl
    · rw [hfinished]
      rfl
    · omega

/-- What one iteration of `mrt_receive1` changes of what was accepted and returned. -/
theorem mrtReceive1_spec {r r' : Receiver.State} {id : SockaddrIn} {len : ℤ}
    {received : Receiver.Received} (h : Receiver.mrtReceive1 r id len = .ok (r', received)) :
    r'.acceptedIds = r.acceptedIds ∧ ∀ addr, r'.returnedBytes addr = r.returnedBytes addr ++
      match received with
      | .returns bytes => if id = addr then bytes else []
      | .waits | .spurious => [] := by
  unfold Receiver.mrtReceive1 at h
  split at h
  · cases h
    exact ⟨rfl, fun addr => (List.append_nil _).symm⟩
  · split at h
    · split at h
      · cases h
        refine ⟨rfl, fun addr => ?_⟩
        dsimp only
        rw [ite_self, List.append_nil]
      · cases h
        exact ⟨rfl, fun addr => (List.append_nil _).symm⟩
    · split at h
      · cases h
        refine ⟨rfl, fun addr => ?_⟩
        by_cases haddr : id = addr
        · subst haddr
          simp
        · simp [Function.update_of_ne (Ne.symm haddr), haddr]
      · cases h

/-- Without a move of `main` the module must not change what `main` has seen. -/
theorem ReceiverHolds.of_eq {r r' : Receiver.State} {m : ReceiverMain} (h : ReceiverHolds r m)
    (hids : r'.acceptedIds = r.acceptedIds) (hreturned : r'.returnedBytes = r.returnedBytes)
    (haccepting : r'.accepting = r.accepting) : ReceiverHolds r' m := by
  refine ⟨h.served.trans hids.symm, fun addr => ?_, ?_⟩
  · rw [hreturned]
    exact h.output addr
  · have hstands := h.stands
    unfold ReceiverMain.StandsAt at hstands ⊢
    rw [hids, haccepting]
    exact hstands

/-- A section of a thread of the module changes nothing that the program has seen. -/
theorem ReceiverHolds.thread {r r' : Receiver.State} {m : ReceiverMain} (h : ReceiverHolds r m)
    {act : Receiver.Action} (hthread : ReceiverThreadSection act)
    (hstep : Receiver.step r act = .ok r') : ReceiverHolds r' m := by
  cases Receiver.effect_of_step hstep with
  | closing | taken _ | accepted _ _ | consumed _ _ _ => exact hthread.elim
  | _ => exact h.of_eq rfl rfl rfl

/-- `main` can always go on with what `mrt_receive1` returned: it writes, begins the next turn
or closes the module. -/
theorem received_spec {r r' : Receiver.State} {m : ReceiverMain} (h : ReceiverHolds r m) {i : ℕ}
    {id : SockaddrIn} {written : List Byte} {received : Receiver.Received}
    (hposition : m.position = .receiving i id written)
    (hcall : Receiver.mrtReceive1 r id bufferSize = .ok (r', received)) :
    ∃ m', m.received i id written received = .ok m' ∧ ReceiverHolds r' m' := by
  obtain ⟨hids, hreturned⟩ := mrtReceive1_spec hcall
  have hserved := h.served
  have houtput : ∀ addr, outputOf (m.finished ++ [(id, written)]) addr = r.returnedBytes addr := by
    intro addr
    have hturns := h.output addr
    rwa [ReceiverMain.output, ReceiverMain.turns, hposition] at hturns
  obtain ⟨hcount, hall⟩ : m.finished.length = i ∧ r.acceptedIds.length = m.numConnections := by
    have hstands := h.stands
    rwa [hposition] at hstands
  rw [ReceiverMain.turns, hposition, ReceiverPosition.current, ← hids] at hserved
  rw [← hids] at hall
  have hover (hnothing : ∀ addr, r'.returnedBytes addr = r.returnedBytes addr) :
      ∃ m', ReceiverMain.nextTurn { m with finished := m.finished ++ [(id, written)] } (i + 1) =
        .ok m' ∧ ReceiverHolds r' m' := by
    refine nextTurn_spec hserved (fun addr => ?_) ?_ hall
    · rw [hnothing addr]
      exact houtput addr
    · dsimp only
      rw [List.length_append, hcount]
      rfl
  cases received with
  | spurious =>
    refine hover fun addr => ?_
    rw [hreturned addr]
    exact List.append_nil _
  | waits =>
    refine ⟨m, rfl, ?_, fun addr => ?_, ?_⟩
    · rw [ReceiverMain.turns, hposition]
      exact hserved
    · rw [hreturned addr, ReceiverMain.output, ReceiverMain.turns, hposition]
      exact (houtput addr).trans (List.append_nil _).symm
    · rw [hposition]
      exact ⟨hcount, hall⟩
  | returns bytes =>
    cases bytes with
    | nil =>
      refine hover fun addr => ?_
      rw [hreturned addr]
      dsimp only
      rw [ite_self, List.append_nil]
    | cons b bytes =>
      refine ⟨_, rfl, ?_, fun addr => ?_, hcount, hall⟩
      · simpa [ReceiverMain.turns, ReceiverPosition.current] using hserved
      · have hold := houtput addr
        have hnew := hreturned addr
        rw [outputOf_append, outputOf_singleton] at hold
        have hturns := outputOf_append m.finished [(id, written ++ b :: bytes)] addr
        rw [outputOf_singleton] at hturns
        refine hturns.trans ?_
        rw [hnew, ← hold]
        split <;> simp

/-- A call of `mrt_accept1` that holds the only request registers it. -/
theorem mrtAccept1Enqueue_spec {r r' : Receiver.State} {x : Receiver.Sender}
    (haccepting : r.accepting = [x])
    (hstep : Receiver.step r (.mrtAccept1Enqueue 0) = .ok r') :
    r'.acceptedIds = r.acceptedIds ++ [x.addr] ∧ r'.returnedBytes = r.returnedBytes ∧
      r'.accepting = [] := by
  rw [Receiver.step] at hstep
  split at hstep
  · cases hstep
  · rw [Receiver.mrtAccept1Enqueue, haccepting] at hstep
    cases hstep
    exact ⟨rfl, rfl, rfl⟩

/-- `main` can always go on with what `mrt_accept1` returned, the identifier of the next
connection. -/
theorem accepted_spec {r r' : Receiver.State} {m : ReceiverMain} (h : ReceiverHolds r m) {i : ℕ}
    {x : Receiver.Sender} {rest : List Receiver.Sender} (hposition : m.position = .registering i)
    (htaken : r.accepting = x :: rest)
    (hstep : Receiver.step r (.mrtAccept1Enqueue 0) = .ok r') :
    ∃ m', ReceiverMain.nextAccept { m with senderIdQ := enqQ m.senderIdQ x.addr } (i + 1) =
      .ok m' ∧ ReceiverHolds r' m' := by
  have hserved := h.served
  have houtput := h.output
  have hstands := h.stands
  rw [hposition] at hstands
  obtain ⟨hfinished, hcount, hmore, y, haccepting⟩ := hstands
  cases htaken.symm.trans haccepting
  obtain ⟨hids, hreturned, hnone⟩ := mrtAccept1Enqueue_spec haccepting hstep
  rw [ReceiverMain.turns, hposition, hfinished] at hserved
  unfold ReceiverMain.output ReceiverMain.turns at houtput
  rw [hposition, hfinished] at houtput
  refine nextAccept_spec hfinished ?_ (fun addr => ?_) ?_ ?_ hnone
  · rw [hids]
    exact congrArg (· ++ [x.addr]) hserved
  · rw [hreturned, ← houtput addr]
    rfl
  · rw [hids, List.length_append, hcount]
    rfl
  · dsimp only
    omega

/-- A section of the main thread, in which a call returns or a turn begins or ends. -/
theorem ReceiverHolds.move {r r' : Receiver.State} {m m' : ReceiverMain} (h : ReceiverHolds r m)
    {act : Receiver.Action} (hmove : ReceiverMove m r act r' m')
    (hstep : Receiver.step r act = .ok r') : ReceiverHolds r' m' := by
  cases hmove with
  | waiting hposition hnone =>
    cases Receiver.effect_of_step hstep with
    | idle => exact h
    | taken hqueue => simp at hnone
  | taken hposition hsome =>
    have hserved := h.served
    have houtput := h.output
    have hstands := h.stands
    rw [hposition] at hstands
    obtain ⟨hfinished, hcount, hmore, haccepting⟩ := hstands
    rw [ReceiverMain.turns, hposition] at hserved
    unfold ReceiverMain.output ReceiverMain.turns at houtput
    rw [hposition] at houtput
    cases Receiver.effect_of_step hstep with
    | idle => exact absurd haccepting hsome
    | @taken x queue hqueue =>
      refine ⟨hserved, houtput, hfinished, hcount, hmore, x, ?_⟩
      dsimp only
      rw [haccepting]
      rfl
  | accepted hposition htaken hnext =>
    obtain ⟨m'', hm'', hholds⟩ := accepted_spec h hposition htaken hstep
    cases hnext.symm.trans hm''
    exact hholds
  | @received i id written _ outcome _ hposition hcall hnext =>
    obtain ⟨r'', received⟩ := outcome
    obtain ⟨m'', hm'', hholds⟩ := received_spec h hposition hcall
    cases hnext.symm.trans hm''
    rw [Receiver.step, hcall] at hstep
    split at hstep
    · cases hstep
    · cases hstep
      exact hholds
  | closing hposition =>
    cases hstep
    have hserved := h.served
    have houtput := h.output
    rw [ReceiverMain.turns, hposition] at hserved
    unfold ReceiverMain.output ReceiverMain.turns at houtput
    rw [hposition] at houtput
    exact ⟨hserved, houtput, trivial⟩

end NetworkLabs.Mrt.Programs
