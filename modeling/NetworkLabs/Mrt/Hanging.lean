import NetworkLabs.Foundations.Reach
import NetworkLabs.Mrt.EndToEnd

/-!
# Forgotten connections

A `DATA` or `RCLS` that comes in after the `checker` of its connection has ended sets the
counter of the record back, and nothing increments it any more. The connection is forgotten:
when its turn comes `mrt_receive1` never returns 0, so `main` of `receiver.c` never goes on
to the next turn.
-/

namespace NetworkLabs.Mrt

open Foundations

namespace Receiver

variable {s s' : State} {addr : SockaddrIn} {r : Sender} {act : Action}

/-- The connection is dropped, but its counter is not above the threshold. -/
def Sender.Forgotten (r : Sender) : Prop := r.Dropped ∧ r.inactiveTime ≤ timeoutThreshold

/-- The connection of an address is forgotten, so that no call of `mrt_receive1` on it returns 0
any more. -/
def State.Forgets (s : State) (addr : SockaddrIn) : Prop :=
  ∃ r, s.record addr = some r ∧ r.Forgotten

instance (r : Sender) : Decidable r.Forgotten :=
  inferInstanceAs (Decidable (r.checkerThread = .ended ∧ r.inactiveTime ≤ timeoutThreshold))

instance (s : State) (addr : SockaddrIn) : Decidable (s.Forgets addr) :=
  decidable_of_iff ((s.record addr).any fun r => decide r.Forgotten) (by
    simp [State.Forgets, Option.any_eq_true])

/-- Nobody ticks for a forgotten connection, as its checker has ended. -/
theorem Sender.Forgotten.tick (h : r.Forgotten) : r.tick.Forgotten := by
  rw [tick_of_dropped h.1]
  exact h

/-- Reading does not help, as it changes neither the counter nor the checker. -/
theorem Sender.forgotten_consume (n : ℤ) : (r.consume n).Forgotten ↔ r.Forgotten := by
  obtain ⟨htime, hthread⟩ := consume_inactive r n
  rw [Sender.Forgotten, Sender.Dropped, htime, hthread]
  rfl

/-- A `checker` that ends has seen the counter above the threshold. -/
theorem Sender.forgotten_of_tick (h : r.tick.Forgotten) : r.Forgotten := by
  by_contra hnot
  refine absurd h.2 (Int.not_le.mpr (inactive_tick (fun hdropped => ?_) h.1))
  exact Int.not_le.mp fun htime => hnot ⟨hdropped, htime⟩

/-- Until the clean-up a forgotten connection stays forgotten, as nobody counts for it
any more. -/
theorem State.Forgets.step (h : s.Forgets addr) (hopen : s'.closed = false)
    (hstep : Receiver.step s act = .ok s') : s'.Forgets addr := by
  obtain ⟨r, hr, hforgotten⟩ := h
  have heffect := addressEffect_of_step hstep addr
  rw [← State.view_closed s' addr] at hopen
  suffices hview : ∃ r', (s'.view addr).record = some r' ∧ r'.Forgotten from hview
  generalize s'.view addr = v at heffect hopen ⊢
  cases heffect with
  | kept | acknowledged => exact ⟨r, hr, hforgotten⟩
  | ticked hrecord =>
    cases hrecord.symm.trans hr
    exact ⟨_, rfl, hforgotten.tick⟩
  | registered hnew hrecord => cases hrecord.symm.trans hr
  | refused hclose htype hrecord | buffered hclose htype hrecord =>
    cases hrecord.symm.trans hr
    exact ⟨_, rfl, hforgotten.1, show (0 : ℤ) ≤ timeoutThreshold by decide⟩
  | disconnected hclose htype hrecord =>
    cases hrecord.symm.trans hr
    exact ⟨_, rfl, hforgotten.1, Int.le_refl _⟩
  | consumed hrecord =>
    cases hrecord.symm.trans hr
    exact ⟨_, rfl, (Sender.forgotten_consume _).mpr hforgotten⟩
  | cleaned => cases hopen

/-- The sections in which no datagram is handled but a request. -/
def HandlesRequests : Action → Prop
  | .mainHandler _ dg => dg = rconDatagram
  | _ => True

/-- These sections forget no connection. What sets the counter back after the drop is a `DATA`
or an `RCLS`. -/
theorem forgets_of_step (hact : HandlesRequests act) (hstep : step s act = .ok s')
    (h : s'.Forgets addr) : s.Forgets addr := by
  obtain ⟨r', hr', hforgotten⟩ := h
  have hquiet {dg : Datagram} (hdg : HandlesRequests (.mainHandler addr dg)) {type : ℤ}
      (htype : dispatchedType s dg = some type) : type = mrtRcon := by
    rw [show dg = rconDatagram from hdg] at htype
    exact Option.some.inj (htype.symm.trans (dispatchedType_rcon s))
  have heffect := addressEffect_of_step hstep addr
  rw [← State.view_record s' addr] at hr'
  generalize s'.view addr = v at heffect hr'
  cases heffect with
  | kept | acknowledged => exact ⟨r', hr', hforgotten⟩
  | ticked hrecord =>
    cases hr'
    exact ⟨_, hrecord, Sender.forgotten_of_tick hforgotten⟩
  | registered =>
    cases hr'
    cases hforgotten.1
  | refused hclose htype | buffered hclose htype | disconnected hclose htype =>
    cases hquiet hact htype
  | consumed hrecord =>
    cases hr'
    exact ⟨_, hrecord, (Sender.forgotten_consume _).mp hforgotten⟩
  | cleaned => cases hr'

end Receiver

namespace Programs

variable {r r' : Receiver.State} {m m' : ReceiverMain} {stdin : SockaddrIn → List Byte}
  {w w' : World} {addr : SockaddrIn}

/-! ### The turns to come -/

/-- The addresses whose turns are not over, the one that `main` is in among them. -/
def ReceiverMain.toServe (m : ReceiverMain) : List SockaddrIn :=
  match m.position with
  | .accepting _ | .registering _ => m.senderIdQ
  | .receiving _ currSenderId _ => currSenderId :: m.senderIdQ
  | .closing | .returning | .ended => []

/-- While a turn is to come `main` serves, and has not called `mrt_close`. -/
theorem serves_of_mem_toServe (h : addr ∈ m.toServe) : m.Serves := by
  unfold ReceiverMain.toServe at h
  constructor <;> intro hposition <;> rw [hposition] at h <;> cases h

/-- When a turn is over those of the queue are to come. -/
theorem toServe_nextTurn {i : ℕ} (h : m.nextTurn i = .ok m')
    (hserved : m.finished.map Prod.fst ++ m.senderIdQ = r.acceptedIds)
    (hcount : m.finished.length = i) (hall : r.acceptedIds.length = m.numConnections) :
    m'.toServe = m.senderIdQ := by
  unfold ReceiverMain.nextTurn at h
  cases hqueue : m.senderIdQ with
  | nil =>
    rw [hqueue] at h
    split at h <;> cases h
    rfl
  | cons id queue =>
    rw [hqueue] at h
    split at h
    · cases h
      rfl
    · -- As many turns as connections are over, so the queue is empty.
      have hlength := congrArg List.length hserved
      rw [hqueue, List.length_append, List.length_map, List.length_cons] at hlength
      omega

/-- What a section of `main` means for the turns to come. -/
inductive Turns (r : Receiver.State) (m : ReceiverMain) : Receiver.Action → ReceiverMain → Prop
  /-- The same turns are to come. -/
  | kept {act : Receiver.Action} {m' : ReceiverMain} (hturns : m'.toServe = m.toServe) :
      Turns r m act m'
  /-- A connection is accepted. -/
  | accepted {x : Receiver.Sender} {m' : ReceiverMain} (htaken : r.accepting = [x])
      (hturns : m'.toServe = m.toServe ++ [x.addr]) : Turns r m (.mrtAccept1Enqueue 0) m'
  /-- A turn is over. -/
  | ended {id : SockaddrIn} {r' : Receiver.State} {received : Receiver.Received}
      {m' : ReceiverMain} (hcall : Receiver.mrtReceive1 r id bufferSize = .ok (r', received))
      (hover : received = .spurious ∨ received = .returns [])
      (hturns : m.toServe = id :: m'.toServe) : Turns r m (.mrtReceive1 id bufferSize) m'

/-- A connection that is accepted gets a turn, after those that were accepted before it. -/
theorem turns_of_accepted (h : ReceiverHolds r m) {i : ℕ} {x : Receiver.Sender}
    {rest : List Receiver.Sender} (hposition : m.position = .registering i)
    (htaken : r.accepting = x :: rest)
    (hnext : ReceiverMain.nextAccept { m with senderIdQ := enqQ m.senderIdQ x.addr } (i + 1) =
      .ok m') (hstep : Receiver.step r (.mrtAccept1Enqueue 0) = .ok r') :
    Turns r m (.mrtAccept1Enqueue 0) m' := by
  have hserved := h.served
  have hstands := h.stands
  rw [hposition] at hstands
  obtain ⟨hfinished, hcount, hmore, y, haccepting⟩ := hstands
  cases htaken.symm.trans haccepting
  have hturns : m.toServe = m.senderIdQ := by rw [ReceiverMain.toServe, hposition]
  refine .accepted haccepting ?_
  rw [hturns]
  unfold ReceiverMain.nextAccept at hnext
  split at hnext
  · cases hnext
    rfl
  · obtain ⟨hids, -, -⟩ := mrtAccept1Enqueue_spec haccepting hstep
    rw [ReceiverMain.turns, hposition, hfinished] at hserved
    refine toServe_nextTurn (r := r') hnext ?_ (congrArg List.length hfinished) ?_
    · rw [hids, hfinished]
      exact congrArg (· ++ [x.addr]) hserved
    · rename_i hlast
      dsimp only at hlast ⊢
      rw [hids, List.length_append, hcount, List.length_singleton]
      omega

/-- A call of `mrt_receive1` that returns no bytes ends the turn. -/
theorem turns_of_received (h : ReceiverHolds r m) {i : ℕ} {id : SockaddrIn} {written : List Byte}
    {outcome : Receiver.State × Receiver.Received}
    (hposition : m.position = .receiving i id written)
    (hcall : Receiver.mrtReceive1 r id bufferSize = .ok outcome)
    (hnext : m.received i id written outcome.2 = .ok m') :
    Turns r m (.mrtReceive1 id bufferSize) m' := by
  obtain ⟨r', received⟩ := outcome
  have hturns : m.toServe = id :: m.senderIdQ := by rw [ReceiverMain.toServe, hposition]
  have hserved := h.served
  have hstands := h.stands
  rw [hposition] at hstands
  rw [ReceiverMain.turns, hposition, ReceiverPosition.current] at hserved
  have hover (hnone : received = .spurious ∨ received = .returns [])
      (hturn : ReceiverMain.nextTurn { m with finished := m.finished ++ [(id, written)] } (i + 1) =
        .ok m') : Turns r m (.mrtReceive1 id bufferSize) m' := by
    have hcount : (m.finished ++ [(id, written)]).length = i + 1 := by
      rw [List.length_append, hstands.1, List.length_singleton]
    exact .ended hcall hnone
      (hturns.trans (congrArg _ (toServe_nextTurn hturn hserved hcount hstands.2).symm))
  cases received with
  | spurious => exact hover (Or.inl rfl) hnext
  | waits =>
    cases hnext
    exact .kept rfl
  | returns bytes =>
    cases bytes with
    | nil => exact hover (Or.inr rfl) hnext
    | cons b bytes =>
      cases hnext
      exact .kept hturns.symm

/-- Every move of `main` means one of these for the turns that are to come. -/
theorem turns_of_move (h : ReceiverHolds r m) {act : Receiver.Action}
    (hmove : ReceiverMove m r act r' m') (hstep : Receiver.step r act = .ok r') :
    Turns r m act m' := by
  cases hmove with
  | waiting => exact .kept rfl
  | taken hposition =>
    refine .kept ?_
    rw [ReceiverMain.toServe, ReceiverMain.toServe, hposition]
  | accepted hposition htaken hnext => exact turns_of_accepted h hposition htaken hnext hstep
  | received hposition hcall hnext => exact turns_of_received h hposition hcall hnext
  | closing hposition =>
    refine .kept ?_
    rw [ReceiverMain.toServe, ReceiverMain.toServe, hposition]

/-! ### Hanging -/

/-- A connection whose turn is not over is forgotten. Its turn will never be over then. -/
def World.Hangs (w : World) : Prop :=
  ∃ addr ∈ w.receiverMain.toServe, w.network.receiver.Forgets addr

instance (w : World) : Decidable w.Hangs :=
  inferInstanceAs (Decidable (∃ addr ∈ w.receiverMain.toServe, w.network.receiver.Forgets addr))

/-- The turn of a forgotten connection is never over, since `mrt_receive1` neither fails nor
returns 0 on it. -/
theorem hangs_step (h : Holds stdin w) (hnext : Holds stdin w') {act : Action}
    (hstep : step w act = .ok w') (hhangs : w.Hangs) : w'.Hangs := by
  obtain ⟨addr, hserve, hforgets⟩ := hhangs
  have hopen (hserve' : addr ∈ w'.receiverMain.toServe) : w'.network.receiver.closed = false :=
    (hnext.serving (serves_of_mem_toServe hserve')).reliable.isOpen.closed_eq
  cases effect_of_step hstep with
  | idle | senderThread | senderMain => exact ⟨addr, hserve, hforgets⟩
  | receiverThread hthread hdelivers hsub =>
    exact ⟨addr, hserve, hforgets.step (hopen hserve) hsub⟩
  | @receiverMain act r m hmove hdelivers hsub =>
    have hserve' : addr ∈ m.toServe := by
      cases turns_of_move h.receiver hmove hsub with
      | kept hturns =>
        rw [hturns]
        exact hserve
      | accepted htaken hturns =>
        rw [hturns]
        exact List.mem_append_left _ hserve
      | ended hcall hover hturns =>
        rw [hturns] at hserve
        refine (List.mem_cons.mp hserve).resolve_left ?_
        rintro rfl
        obtain ⟨x, hx, hforgotten⟩ := hforgets
        exact Int.not_le.mpr (dropped_of_over (by simp) hcall hover hx).2 hforgotten.2
    exact ⟨addr, hserve', hforgets.step (hopen hserve') hsub⟩
  | returned hposition =>
    rw [ReceiverMain.toServe, hposition] at hserve
    cases hserve

/-- A program that hangs never comes to its end, by induction on the continuation. -/
theorem Holds.not_canReach_ended (hstdin : ∀ addr, (stdin addr).length < 2 ^ 31 - 1)
    (h : Holds stdin w) (hhangs : w.Hangs) :
    ¬CanReach step (fun _ => True) (fun t => t.receiverMain.position = .ended) w := by
  rintro ⟨acts, t, -, hrun, hended⟩
  obtain ⟨-, addr, hserve, -⟩ := invariant_of_steps
    (fun v act v' (hv : Holds stdin v ∧ v.Hangs) hstep =>
      have hnext := holds_step hstdin hv.1 hstep
      ⟨hnext, hangs_step hv.1 hnext hstep hv.2⟩) ⟨h, hhangs⟩ hrun
  exact (serves_of_mem_toServe hserve).2 hended

end Programs

end NetworkLabs.Mrt
