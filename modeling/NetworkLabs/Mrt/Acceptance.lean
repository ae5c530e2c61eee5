import Mathlib.Data.List.Perm.Basic
import NetworkLabs.Foundations.Run
import NetworkLabs.Mrt.ReceiverEffects

/-!
# One connection for each sender

A record travels from the pending queue over a call of `mrt_accept1` to the
connected queue. Between the two critical sections of the call it is in neither
queue, and a request that its sender repeats then is taken for that of a new
sender. As long as no request arrives in that window, no address occurs twice.
-/

namespace NetworkLabs.Mrt.Receiver

open Foundations

/-- The addresses of some records, in order. They are the identifiers of the senders. -/
def addresses (rs : List Sender) : List SockaddrIn := rs.map Sender.addr

/-- No address occurs twice in the two queues together, none is returned twice by
`mrt_accept1`, and none that was taken for acceptance is pending again. -/
structure OneConnection (s : State) : Prop where
  /-- The addresses of the two queues are distinct. -/
  queues_nodup : (addresses (s.pendingSendersQ ++ s.connectedSendersQ)).Nodup
  /-- The returned identifiers are distinct. -/
  acceptedIds_nodup : s.acceptedIds.Nodup
  /-- A sender that was taken has no second pending request. -/
  taken_not_pending : ∀ id ∈ addresses (s.accepting ++ s.connectedSendersQ),
    id ∉ addresses s.pendingSendersQ

/-- No `RCON` of a sender is handled while a call of `mrt_accept1` holds its record. -/
def RequestsOutsideAcceptance (s : State) : Action → Prop
  | .mainHandler addr dg => s.shouldClose = false → dispatchedType s dg = some mrtRcon →
    addr ∉ addresses s.accepting
  | _ => True

instance (s : State) (act : Action) : Decidable (RequestsOutsideAcceptance s act) :=
  match act with
  | .mainHandler addr dg =>
    inferInstanceAs (Decidable (s.shouldClose = false → dispatchedType s dg = some mrtRcon →
      addr ∉ addresses s.accepting))
  | .mrtAccept1Dequeue | .mrtAccept1Enqueue _ | .checker _ | .mrtReceive1 _ _ | .mrtClose =>
    isTrue trivial

/-- The addresses of all records: pending, held by `mrt_accept1`, or connected. -/
def State.allAddresses (s : State) : List SockaddrIn :=
  addresses s.pendingSendersQ ++ (addresses s.accepting ++ addresses s.connectedSendersQ)

/-- The invariant behind `OneConnection`: the records held by calls of `mrt_accept1`
count too, and the returned identifiers are those of the connected records. -/
structure DistinctSenders (s : State) : Prop where
  /-- All records have distinct addresses. -/
  nodup : s.allAddresses.Nodup
  /-- The returned identifiers are distinct. -/
  acceptedIds_nodup : s.acceptedIds.Nodup
  /-- Until the clean-up the returned identifiers are the connected addresses. -/
  acceptedIds_eq : s.closed = false → s.acceptedIds = addresses s.connectedSendersQ

/-- Nothing is recorded when the module is opened, so that no two records can have
one address. -/
theorem distinctSenders_initial : DistinctSenders initial :=
  ⟨List.nodup_nil, List.nodup_nil, fun _ => rfl⟩

/-- An address that a search does not find is not in the queue. -/
theorem not_mem_addresses {queue : List Sender} {id : SockaddrIn}
    (h : getItemQ queue (senderMatcher id) = none) : id ∉ addresses queue := by
  intro hmem
  obtain ⟨r, hr, rfl⟩ := List.mem_map.mp hmem
  have hne := List.find?_eq_none.mp h r hr
  simp [senderMatcher] at hne

/-- A change in place keeps the addresses of the queue. -/
theorem addresses_updateRecord (s : State) (id : SockaddrIn) {f : Sender → Sender}
    (hf : ∀ r, (f r).addr = r.addr) :
    addresses (s.updateRecord id f).connectedSendersQ = addresses s.connectedSendersQ :=
  map_updateFirst hf _

/-- A reply keeps the addresses of the queue. -/
theorem addresses_replyAdat (s : State) (addr : SockaddrIn) (r : Sender) :
    addresses (replyAdat s addr r).connectedSendersQ = addresses s.connectedSendersQ :=
  addresses_updateRecord s addr fun _ => rfl

/-- An iteration of a checker keeps the addresses of the queue. -/
theorem addresses_checker (s : State) (i : ℕ) :
    addresses (checker s i).connectedSendersQ = addresses s.connectedSendersQ := by
  unfold checker addresses
  apply List.ext_getElem?
  intro j
  simp only [List.getElem?_map, List.getElem?_modify]
  cases s.connectedSendersQ[j]? with
  | none => rfl
  | some r => by_cases hij : i = j <;> simp [hij]

/-- A step that keeps the addresses of all records and the identifiers preserves the
invariant. -/
theorem DistinctSenders.of_eq {s s' : State} (h : DistinctSenders s)
    (hpending : addresses s'.pendingSendersQ = addresses s.pendingSendersQ)
    (haccepting : s'.accepting = s.accepting)
    (hconnected : addresses s'.connectedSendersQ = addresses s.connectedSendersQ)
    (hids : s'.acceptedIds = s.acceptedIds) (hclosed : s'.closed = s.closed) :
    DistinctSenders s' := by
  refine ⟨?_, hids ▸ h.acceptedIds_nodup, ?_⟩
  · rw [State.allAddresses, hpending, haccepting, hconnected]
    exact h.nodup
  · rw [hids, hconnected, hclosed]
    exact h.acceptedIds_eq

/-- Registering a taken record moves its address behind the connected ones. -/
theorem perm_accept {s : State} {i : ℕ} {r : Sender} (hr : s.accepting[i]? = some r) :
    (addresses (s.accepting.eraseIdx i) ++ (addresses s.connectedSendersQ ++ [r.addr])).Perm
      (addresses s.accepting ++ addresses s.connectedSendersQ) := by
  obtain ⟨hi, rfl⟩ := List.getElem?_eq_some_iff.mp hr
  have herase := (List.getElem_cons_eraseIdx_perm hi).map Sender.addr
  have hmove : (addresses (s.accepting.eraseIdx i) ++
      (addresses s.connectedSendersQ ++ [s.accepting[i].addr])).Perm
      ((s.accepting[i].addr :: addresses (s.accepting.eraseIdx i)) ++
        addresses s.connectedSendersQ) := by
    rw [← List.append_assoc]
    exact List.perm_append_singleton _ _
  exact hmove.trans (herase.append_right _)

/-- A step outside the acceptance window preserves the invariant. Inside of it a request finds
its sender in neither queue. -/
theorem distinctSenders_step {s s' : State} {act : Action} (h : DistinctSenders s)
    (hcondition : RequestsOutsideAcceptance s act) (hstep : step s act = .ok s') :
    DistinctSenders s' := by
  cases effect_of_step hstep with
  | idle => exact h
  | dropped addr dg => exact h.of_eq rfl rfl rfl rfl rfl
  | closing => exact h.of_eq rfl rfl rfl rfl rfl
  | closed hclose =>
    refine ⟨?_, h.acceptedIds_nodup, fun hclosed => by cases hclosed⟩
    have hsub : (addresses s.accepting).Sublist s.allAddresses :=
      (List.sublist_append_left _ _).trans (List.sublist_append_right _ _)
    simpa [State.allAddresses, cleanUp, addresses] using h.nodup.sublist hsub
  | @requested addr dg hclose htype hpending hrecord =>
    have hnew : addr ∉ s.allAddresses := by
      simp only [State.allAddresses, List.mem_append, not_or]
      exact ⟨not_mem_addresses hpending, hcondition hclose htype, not_mem_addresses hrecord⟩
    refine ⟨?_, h.acceptedIds_nodup, h.acceptedIds_eq⟩
    have hperm : (addr :: s.allAddresses).Perm
        (addresses s.pendingSendersQ ++ [addr] ++
          (addresses s.accepting ++ addresses s.connectedSendersQ)) := by
      rw [List.append_assoc]
      exact List.perm_middle.symm
    have hnodup := hperm.nodup_iff.mp (List.nodup_cons.mpr ⟨hnew, h.nodup⟩)
    simpa [State.allAddresses, addresses, enqQ, newSender] using hnodup
  | reacknowledged htype hrecord => exact h.of_eq rfl rfl rfl rfl rfl
  | @refused addr dg r hclose htype hrecord hadmits =>
    exact h.of_eq rfl rfl (addresses_replyAdat _ addr r) rfl rfl
  | @buffered addr dg r hclose htype hrecord hadmits hbounds =>
    have happend := addresses_updateRecord (s.store dg) addr
      (f := fun r => r.append (dispatchedPayload s dg)) fun _ => rfl
    exact h.of_eq rfl rfl ((addresses_replyAdat _ addr _).trans happend) rfl rfl
  | @disconnected addr dg r hclose htype hrecord =>
    exact h.of_eq rfl rfl (addresses_updateRecord (s.store dg) addr fun _ => rfl) rfl rfl
  | @withdrawn addr dg htype hrecord =>
    refine ⟨?_, h.acceptedIds_nodup, h.acceptedIds_eq⟩
    have hsub : (addresses (popItemQ s.pendingSendersQ (senderMatcher addr))).Sublist
        (addresses s.pendingSendersQ) := List.eraseP_sublist.map _
    exact h.nodup.sublist (hsub.append_right _)
  | @taken r queue hqueue =>
    refine ⟨?_, h.acceptedIds_nodup, h.acceptedIds_eq⟩
    have hnodup := h.nodup
    simp only [State.allAddresses, addresses, hqueue, List.map_cons] at hnodup
    have hperm : (r.addr :: (addresses queue ++
          (addresses s.accepting ++ addresses s.connectedSendersQ))).Perm
        (addresses queue ++ (addresses s.accepting ++ [r.addr] ++
          addresses s.connectedSendersQ)) := by
      refine List.perm_middle.symm.trans (List.Perm.append_left _ ?_)
      rw [List.append_assoc]
      exact List.perm_middle.symm
    simpa [State.allAddresses, addresses] using hperm.nodup_iff.mp hnodup
  | @accepted i r hopen hr =>
    have hmem : r.addr ∈ addresses s.accepting :=
      List.mem_map_of_mem (List.mem_of_getElem? hr)
    have hrest := List.nodup_append.mp (List.nodup_append.mp h.nodup).2.1
    have hids := h.acceptedIds_eq hopen
    have hperm := (perm_accept hr).append_left (addresses s.pendingSendersQ)
    refine ⟨?_, ?_, fun _ => ?_⟩
    · simpa [State.allAddresses, State.sendTo, addresses, enqQ] using hperm.nodup_iff.mpr h.nodup
    · refine List.nodup_append.mpr ⟨h.acceptedIds_nodup, by simp, ?_⟩
      intro a ha b hb
      rw [List.mem_singleton.mp hb]
      rw [hids] at ha
      exact (hrest.2.2 r.addr hmem a ha).symm
    · simp [State.sendTo, hids, addresses, enqQ]
  | ticked i => exact h.of_eq rfl rfl (addresses_checker s i) rfl rfl
  | consumed hrecord hunread hbounds =>
    exact h.of_eq rfl rfl (addresses_updateRecord s _ fun r => consume_addr r _) rfl rfl

/-- The invariant contains the claim about the two queues, and says more about the records that
`mrt_accept1` holds. -/
theorem DistinctSenders.oneConnection {s : State} (h : DistinctSenders s) : OneConnection s := by
  obtain ⟨hpending, hrest, hdisjoint⟩ := List.nodup_append.mp h.nodup
  refine ⟨?_, h.acceptedIds_nodup, ?_⟩
  · rw [addresses, List.map_append]
    have hsub : (addresses s.connectedSendersQ).Sublist
        (addresses s.accepting ++ addresses s.connectedSendersQ) :=
      List.sublist_append_right _ _
    exact h.nodup.sublist (hsub.append_left _)
  · intro id htaken hid
    have hmem : id ∈ addresses s.accepting ++ addresses s.connectedSendersQ := by
      simpa [addresses] using htaken
    exact hdisjoint id hid id hmem rfl

/-- In every run in which no request of a sender is handled while `mrt_accept1`
holds its record, there is one connection for each sender. -/
theorem oneConnection_of_run {acts : List Action} {s : State}
    (hmeets : Meets step RequestsOutsideAcceptance initial acts)
    (hrun : run step initial acts = .ok s) : OneConnection s :=
  (invariant_of_run (fun _ _ _ h hc hs => distinctSenders_step h hc hs)
    distinctSenders_initial hmeets hrun).oneConnection

/-- Two senders connect and the first one repeats its request afterwards. -/
theorem oneConnection_two_senders :
    ∃ s, run step initial
        [.mainHandler (loopback 0x9210) rconDatagram, .mainHandler (loopback 0x0f27) rconDatagram,
          .mrtAccept1Dequeue, .mrtAccept1Enqueue 0,
          .mainHandler (loopback 0x9210) rconDatagram] = .ok s ∧
      OneConnection s := by
  have hrun : endsWith (run step initial
      [.mainHandler (loopback 0x9210) rconDatagram, .mainHandler (loopback 0x0f27) rconDatagram,
        .mrtAccept1Dequeue, .mrtAccept1Enqueue 0,
        .mainHandler (loopback 0x9210) rconDatagram]) (fun _ => true) = true := by
    decide +kernel
  obtain ⟨s, hs, _⟩ := exists_of_endsWith hrun
  exact ⟨s, hs, oneConnection_of_run (by decide +kernel) hs⟩

/-- A request repeated between the two critical sections of `mrt_accept1` makes the
receiver accept its sender twice. -/
theorem oneConnection_fails_in_acceptance :
    ∃ s, run step initial
        [.mainHandler (loopback 0x9210) rconDatagram, .mrtAccept1Dequeue,
          .mainHandler (loopback 0x9210) rconDatagram, .mrtAccept1Enqueue 0,
          .mrtAccept1Dequeue, .mrtAccept1Enqueue 0] = .ok s ∧
      ¬OneConnection s := by
  have hrun : endsWith (run step initial
      [.mainHandler (loopback 0x9210) rconDatagram, .mrtAccept1Dequeue,
        .mainHandler (loopback 0x9210) rconDatagram, .mrtAccept1Enqueue 0,
        .mrtAccept1Dequeue, .mrtAccept1Enqueue 0])
      (fun s => decide (¬s.acceptedIds.Nodup)) = true := by decide +kernel
  obtain ⟨s, hs, htwice⟩ := exists_of_endsWith hrun
  exact ⟨s, hs, fun h => of_decide_eq_true htwice h.acceptedIds_nodup⟩

end NetworkLabs.Mrt.Receiver
