import NetworkLabs.Mrt.ReceiverEffects
import NetworkLabs.Queue.Refinement

/-!
# Probing for a connection with unread bytes

`mrt_probe` gives `iterate_q` the address of its variable `target_id_p`. The callback has a
local variable of the same name, which it sets when it has found a connection; nothing is
stored through the pointer.
-/

namespace NetworkLabs.Mrt.Probe

open Foundations Receiver

/-- What a call of `mrt_probe` can reach: the linked queue of identifiers, the connected
senders and its variable `target_id_p`. A pointer to an identifier is the identifier. -/
structure State where
  heap : Heap SockaddrIn
  probeQ : Option LinkedQueue.Queue
  connectedSendersQ : List Sender
  targetIdP : Option SockaddrIn

/-- `probe_for_one`: the state that it leaves, and its local `target_id_p` at the end. -/
def probeForOne (s : State) (id : SockaddrIn) : State × Option SockaddrIn :=
  match s.targetIdP with
  | none => (s, none)
  | some target =>
    match getItemQ s.connectedSendersQ (senderMatcher id) with
    | some r => if 0 < r.bytesUnread then (s, some id) else (s, some target)
    | none => (s, some target)

/-- `mrt_probe`; the state that it leaves holds what it returns. -/
def mrtProbe (fuel : ℕ) (s : State) : Except HeapFault State :=
  LinkedQueue.iterateQ fuel s.heap s.probeQ (fun s id => (probeForOne s id).1)
    { s with targetIdP := none }

/-- A sender with this address is connected and has unread bytes. -/
def Readable (queue : List Sender) (id : SockaddrIn) : Prop :=
  ∃ r ∈ queue, r.addr = id ∧ 0 < r.bytesUnread

instance (queue : List Sender) (id : SockaddrIn) : Decidable (Readable queue id) :=
  inferInstanceAs (Decidable (∃ r ∈ queue, r.addr = id ∧ 0 < r.bytesUnread))

/-- The call returns the first readable identifier of the queue and changes neither queue. -/
structure FindsFirst (s s' : State) (ids : List SockaddrIn) : Prop where
  returns_first : s'.targetIdP = ids.find? fun id => Readable s.connectedSendersQ id
  null_iff : s'.targetIdP = none ↔ ∀ id ∈ ids, ¬Readable s.connectedSendersQ id
  probeQ_kept : s'.heap = s.heap ∧ s'.probeQ = s.probeQ
  connected_kept : s'.connectedSendersQ = s.connectedSendersQ

/-- The callback leaves everything as it is. -/
theorem probeForOne_fst (s : State) (id : SockaddrIn) : (probeForOne s id).1 = s := by
  unfold probeForOne
  split
  · rfl
  · split
    · split <;> rfl
    · rfl

/-- No fold of the callback sets the variable, since the callback assigns to its
own parameter. -/
theorem foldl_probeForOne (s : State) (ids : List SockaddrIn) :
    ids.foldl (fun s id => (probeForOne s id).1) s = s := by
  induction ids with
  | nil => rfl
  | cons id ids ih => rw [List.foldl_cons, probeForOne_fst, ih]

variable {h₀ : Heap SockaddrIn} {s : State} {ids : List SockaddrIn} {fuel : ℕ}

/-- `mrt_probe` returns `NULL` whatever the queues hold, and changes neither of them. -/
theorem mrtProbe_eq (hholds : LinkedQueue.Holds h₀ s.heap s.probeQ ids)
    (hfuel : ids.length < fuel) : mrtProbe fuel s = .ok { s with targetIdP := none } := by
  unfold mrtProbe
  cases hq : s.probeQ with
  | none => rfl
  | some q =>
    rw [hq] at hholds
    obtain ⟨-, cells, hrep, rfl⟩ := hholds
    rw [LinkedQueue.length_items] at hfuel
    have hloop := LinkedQueue.iterateLoop_eq (fun s id => (probeForOne s id).1) hrep.chain hfuel
      { s with targetIdP := none }
    rw [foldl_probeForOne, hq] at hloop
    exact hloop

/-- `mrt_probe` finds the first readable identifier exactly when there is none, as it never
returns one. -/
theorem findsFirst_iff (hholds : LinkedQueue.Holds h₀ s.heap s.probeQ ids)
    (hfuel : ids.length < fuel) :
    (∃ s', mrtProbe fuel s = .ok s' ∧ FindsFirst s s' ids) ↔
      ∀ id ∈ ids, ¬Readable s.connectedSendersQ id := by
  rw [mrtProbe_eq hholds hfuel]
  constructor
  · rintro ⟨s', hs', hfinds⟩
    cases hs'
    exact hfinds.null_iff.mp rfl
  · intro hnone
    have hfirst : ids.find? (fun id => decide (Readable s.connectedSendersQ id)) = none := by
      rw [List.find?_eq_none]
      intro id hid hreadable
      exact hnone id hid (of_decide_eq_true hreadable)
    exact ⟨_, rfl, ⟨hfirst.symm, iff_of_true rfl hnone, ⟨rfl, rfl⟩, rfl⟩⟩

/-- A queue with one identifier, in a heap with one node. -/
def singleQueue (id : SockaddrIn) : Heap SockaddrIn := Heap.put (fun _ => none) 0 ⟨id, none⟩

/-- The queue holds the identifier and nothing else. -/
theorem holds_singleQueue (id : SockaddrIn) :
    LinkedQueue.Holds (fun _ => none) (singleQueue id) (some ⟨some 0, some 0⟩) [id] := by
  refine ⟨Iff.of_eq rfl, [(0, id)], ⟨?_, rfl, List.nodup_singleton 0, fun _ _ => rfl, ?_⟩, rfl⟩
  · exact ⟨rfl, none, Heap.put_same _ 0 _, rfl⟩
  · intro b hb
    exact Heap.put_of_ne _ _ fun hb0 => hb (List.mem_singleton.mpr hb0)

/-- A sender is accepted and its first fragment is buffered. -/
def readableRun : List Receiver.Action :=
  [.mainHandler (loopback 0x9210) rconDatagram, .mrtAccept1Dequeue, .mrtAccept1Enqueue 0,
    .mainHandler (loopback 0x9210) (dataDatagram 1 [0, 0, 0, 0] [0x61])]

/-- Then a second sender is accepted, which has sent nothing yet. -/
def silentRun : List Receiver.Action :=
  readableRun ++
    [.mainHandler (loopback 0x9211) rconDatagram, .mrtAccept1Dequeue, .mrtAccept1Enqueue 0]

/-- A queue with the identifier of a connected sender without unread bytes: nothing is found,
as it should be, although another sender has an unread byte. -/
theorem findsFirst_silent :
    ∃ s, run Receiver.step Receiver.initial silentRun = .ok s ∧
      loopback 0x9211 ∈ s.connectedSendersQ.map Sender.addr ∧
      Readable s.connectedSendersQ (loopback 0x9210) ∧
      ∃ p', mrtProbe 2 ⟨singleQueue (loopback 0x9211), some ⟨some 0, some 0⟩,
          s.connectedSendersQ, none⟩ = .ok p' ∧
        FindsFirst ⟨singleQueue (loopback 0x9211), some ⟨some 0, some 0⟩,
          s.connectedSendersQ, none⟩ p' [loopback 0x9211] := by
  have hrun : endsWith (run Receiver.step Receiver.initial silentRun) (fun s =>
      decide (loopback 0x9211 ∈ s.connectedSendersQ.map Sender.addr ∧
        Readable s.connectedSendersQ (loopback 0x9210) ∧
        ∀ id ∈ [loopback 0x9211], ¬Readable s.connectedSendersQ id)) = true := by
    decide +kernel
  obtain ⟨s, hs, htest⟩ := exists_of_endsWith hrun
  obtain ⟨hconnected, hreadable, hsilent⟩ := of_decide_eq_true htest
  have hholds := holds_singleQueue (loopback 0x9211)
  exact ⟨s, hs, hconnected, hreadable, (findsFirst_iff hholds (by decide)).mpr hsilent⟩

/-- A connection with an unread byte is not found, although its identifier is in the queue. -/
theorem findsFirst_fails_when_readable :
    ∃ s, run Receiver.step Receiver.initial readableRun = .ok s ∧
      ¬∃ p', mrtProbe 2 ⟨singleQueue (loopback 0x9210), some ⟨some 0, some 0⟩,
          s.connectedSendersQ, none⟩ = .ok p' ∧
        FindsFirst ⟨singleQueue (loopback 0x9210), some ⟨some 0, some 0⟩,
          s.connectedSendersQ, none⟩ p' [loopback 0x9210] := by
  have hrun : endsWith (run Receiver.step Receiver.initial readableRun)
      (fun s => decide (Readable s.connectedSendersQ (loopback 0x9210))) = true := by
    decide +kernel
  obtain ⟨s, hs, hreadable⟩ := exists_of_endsWith hrun
  refine ⟨s, hs, ?_⟩
  rintro ⟨p', hp', hfinds⟩
  rw [mrtProbe_eq (holds_singleQueue _) (by decide)] at hp'
  cases hp'
  exact hfinds.null_iff.mp rfl _ List.mem_cons_self (of_decide_eq_true hreadable)

end NetworkLabs.Mrt.Probe
