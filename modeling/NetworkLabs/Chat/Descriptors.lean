import NetworkLabs.Chat.Server

/-!
# The descriptors that the server allocates

`main` allocates an integer for the descriptor that `accept` returns, the queue takes it over,
and the thread of the client frees it with the queue's entry. If `main` enqueues only fresh
descriptors, each integer is freed once, after its thread has read it for the last time.
-/

namespace NetworkLabs.Chat.Server

open Foundations

/-! ### What one step can do -/

/-- The outcomes of one step, with the place of the thread that takes it. -/
inductive Effect (s : State) : Action → State → Prop
  /-- There is nothing to do. -/
  | idle (act : Action) : Effect s act s
  /-- `accept` returns a descriptor. -/
  | accepted (sockfd : ℕ) (hmain : s.mainThread = .accepting) :
      Effect s (.accept sockfd)
        { s with
          mainThread := .enqueuing s.clients.length
          clients := s.clients ++ [newClient sockfd] }
  /-- `main` enqueues a descriptor. -/
  | enqueued {k : ℕ} (hmain : s.mainThread = .enqueuing k) :
      Effect s .main
        (State.update
          { s with mainThread := .creating k, acceptedSockfdQ := s.acceptedSockfdQ ++ [k] } k
          fun c => { c with enqueued := true, joined := s.broadcasts.length, sent := [] })
  /-- `main` creates a thread. -/
  | created {k : ℕ} (hmain : s.mainThread = .creating k) :
      Effect s .main
        (State.update { s with mainThread := .accepting } k fun c => { c with thread := .starting })
  /-- `recv` returns. -/
  | received {k : ℕ} {c : Client} (chunk : List Byte) (hk : s.clients[k]? = some c)
      (hthread : c.thread = .receiving) : Effect s (.recv k chunk) (s.update k (recv · chunk))
  /-- A thread reads its descriptor. -/
  | started {k : ℕ} {c : Client} (hk : s.clients[k]? = some c) (hthread : c.thread = .starting) :
      Effect s (.serverReceiver k) (s.update k fun c => { c with thread := .receiving })
  /-- A thread broadcasts a chunk. -/
  | broadcast {k : ℕ} {c : Client} {chunk : List Byte} (hk : s.clients[k]? = some c)
      (hthread : c.thread = .broadcasting chunk) :
      Effect s (.serverReceiver k)
        ((Server.broadcast s chunk).update k fun c =>
          { c with thread := if isQuit c.receiverBuffer then .closing else .receiving })
  /-- A thread closes its socket. -/
  | closed {k : ℕ} {c : Client} (hk : s.clients[k]? = some c) (hthread : c.thread = .closing) :
      Effect s (.serverReceiver k) (s.update k fun c => { c with thread := .deleting })
  /-- A thread deletes its descriptor from the queue and ends. -/
  | deleted {k : ℕ} {c : Client} (hk : s.clients[k]? = some c) (hthread : c.thread = .deleting) :
      Effect s (.serverReceiver k)
        ((deleteIntegerTargets s c.sockfd).update k fun c => { c with thread := .ended })

private theorem effect_of_serverReceiver {s s' : State} {k : ℕ} {c : Client}
    (hk : s.clients[k]? = some c) (h : serverReceiver s k c = .ok s') :
    Effect s (.serverReceiver k) s' := by
  unfold serverReceiver at h
  split at h
  · rename_i hthread
    split at h
    · cases h
    · cases h
      exact .started hk hthread
  · rename_i chunk hthread
    cases h
    exact .broadcast hk hthread
  · rename_i hthread
    cases h
    exact .closed hk hthread
  · rename_i hthread
    cases h
    exact .deleted hk hthread
  all_goals
    cases h
    exact .idle _

/-- What a step does is one of the outcomes. -/
theorem effect_of_step {s s' : State} {act : Action} (h : step s act = .ok s') :
    Effect s act s' := by
  cases act with
  | accept sockfd =>
    rw [step] at h
    split at h
    · rename_i hready
      cases h
      exact .accepted sockfd hready.1
    · cases h
      exact .idle _
  | main =>
    cases h
    unfold main
    split
    · exact .idle _
    · rename_i k hmain
      exact .enqueued hmain
    · rename_i k hmain
      exact .created hmain
  | recv k chunk =>
    rw [step] at h
    split at h
    · rename_i c hk
      cases h
      split
      · rename_i hthread
        exact .received chunk hk hthread
      · exact .idle _
    · cases h
      exact .idle _
  | serverReceiver k =>
    rw [step] at h
    split at h
    · rename_i c hk
      exact effect_of_serverReceiver hk h
    · cases h
      exact .idle _

/-! ### Each descriptor is in one place -/

/-- Every integer that was allocated is with `main`, is queued once, or was freed once after
its thread had ended. -/
structure DescriptorsOwned (s : State) : Prop where
  queued_nodup : s.acceptedSockfdQ.Nodup
  freed_nodup : s.freed.Nodup
  freed_ended : ∀ k ∈ s.freed, ∃ c, s.clients[k]? = some c ∧ c.thread = .ended
  disjoint : ∀ k ∈ s.acceptedSockfdQ, k ∉ s.freed
  placed : ∀ k < s.clients.length,
    s.mainThread = .enqueuing k ∨ k ∈ s.acceptedSockfdQ ∨ k ∈ s.freed

/-- The invariant behind `DescriptorsOwned`, which says whose the integer of each client is. -/
structure DescriptorsHold (s : State) : Prop where
  queueMatches : QueueMatches s
  freed_nodup : s.freed.Nodup
  /-- The integers of the threads that have ended are freed. -/
  freed_iff : ∀ k, k ∈ s.freed ↔ ∃ c, s.clients[k]? = some c ∧ c.thread = .ended
  /-- Only the descriptor that `main` is about to enqueue is not enqueued. -/
  enqueuing : ∀ k c, s.clients[k]? = some c → c.enqueued = false → s.mainThread = .enqueuing k

/-- Under the invariant each descriptor is in one place. -/
theorem DescriptorsHold.owned {s : State} (h : DescriptorsHold s) : DescriptorsOwned s := by
  constructor
  · exact .of_map s.sockfdOf h.queueMatches.sockfds_nodup
  · exact h.freed_nodup
  · exact fun k hk => (h.freed_iff k).mp hk
  · intro k hqueued hfreed
    obtain ⟨c, hc, -, hrunning⟩ := (h.queueMatches.queued_iff k).mp hqueued
    obtain ⟨c', hc', hended⟩ := (h.freed_iff k).mp hfreed
    cases hc.symm.trans hc'
    exact hrunning hended
  · intro k hk
    obtain ⟨c, hc⟩ : ∃ c, s.clients[k]? = some c := ⟨_, List.getElem?_eq_getElem hk⟩
    cases henqueued : c.enqueued with
    | false => exact Or.inl (h.enqueuing k c hc henqueued)
    | true =>
      right
      by_cases hended : c.thread = .ended
      · exact Or.inr ((h.freed_iff k).mpr ⟨c, hc, hended⟩)
      · exact Or.inl ((h.queueMatches.queued_iff k).mpr ⟨c, hc, henqueued, hended⟩)

/-- A thread that starts reads an integer that is not freed, so no step fails. -/
theorem DescriptorsHold.step_ok {s : State} (h : DescriptorsHold s) (act : Action) :
    ∃ s', step s act = .ok s' := by
  cases act with
  | accept sockfd =>
    rw [step]
    split <;> exact ⟨_, rfl⟩
  | main => exact ⟨_, rfl⟩
  | recv k chunk =>
    rw [step]
    split <;> exact ⟨_, rfl⟩
  | serverReceiver k =>
    rw [step]
    split
    · rename_i c hk
      unfold serverReceiver
      split
      · rename_i hthread
        rw [if_neg]
        · exact ⟨_, rfl⟩
        · intro hfreed
          obtain ⟨c', hc', hended⟩ := (h.freed_iff k).mp hfreed
          cases hk.symm.trans hc'
          cases hthread.symm.trans hended
      all_goals exact ⟨_, rfl⟩
    · exact ⟨_, rfl⟩

/-- What is freed depends only on which threads have ended. -/
theorem freed_iff_of_modify {s s' : State} {k : ℕ} {c : Client} {f : Client → Client}
    (h : ∀ j, j ∈ s.freed ↔ ∃ c, s.clients[j]? = some c ∧ c.thread = .ended)
    (hk : s.clients[k]? = some c) (hclients : s'.clients = s.clients.modify k f)
    (hother : ∀ j, j ≠ k → (j ∈ s'.freed ↔ j ∈ s.freed))
    (hself : k ∈ s'.freed ↔ (f c).thread = .ended) (j : ℕ) :
    j ∈ s'.freed ↔ ∃ c, s'.clients[j]? = some c ∧ c.thread = .ended := by
  by_cases hjk : j = k
  · subst hjk
    rw [hself, hclients, List.getElem?_modify_eq, hk]
    simp
  · rw [hother j hjk, h j, hclients, List.getElem?_modify_ne _ _ (Ne.symm hjk)]

/-- A change of a client whose thread does not end keeps the invariant on what is freed. -/
theorem DescriptorsHold.of_thread {s : State} (h : DescriptorsHold s)
    {k : ℕ} {c : Client} {f : Client → Client} (hk : s.clients[k]? = some c)
    (hmatches : QueueMatches (s.update k f)) (hended : c.thread ≠ .ended)
    (hended' : (f c).thread ≠ .ended) (henqueued : (f c).enqueued = c.enqueued) :
    DescriptorsHold (s.update k f) := by
  have hself : k ∈ s.freed ↔ (f c).thread = .ended := by
    refine iff_of_false (fun hfreed => ?_) hended'
    obtain ⟨c', hc', hended⟩ := (h.freed_iff k).mp hfreed
    cases hk.symm.trans hc'
    contradiction
  refine ⟨hmatches, h.freed_nodup, ?_, ?_⟩
  · exact freed_iff_of_modify h.freed_iff hk rfl (fun _ _ => Iff.rfl) hself
  · intro j d hj hnew
    simp only [State.update, List.getElem?_modify] at hj
    split at hj
    · rename_i hjk
      subst hjk
      rw [hk] at hj
      cases hj
      exact h.enqueuing k c hk (henqueued.symm.trans hnew)
    · exact h.enqueuing j d (by simpa using hj) hnew

/-- A broadcast frees nothing and moves no thread, so that the ownership stays as it is. -/
theorem DescriptorsHold.broadcast {s : State} (h : DescriptorsHold s) (chunk : List Byte) :
    DescriptorsHold (Server.broadcast s chunk) := by
  refine ⟨h.queueMatches.broadcast chunk, h.freed_nodup, fun k => ?_, fun k c hk hnew => ?_⟩
  · refine (h.freed_iff k).trans ?_
    rw [getElem?_broadcast]
    simp [deliver_eq]
  · rw [getElem?_broadcast] at hk
    obtain ⟨d, hd, rfl⟩ := Option.map_eq_some_iff.mp hk
    exact h.enqueuing k d hd ((deliver_eq _ _ d).2.2.1.symm.trans hnew)

/-- A thread that deletes its descriptor deletes one entry. -/
theorem filter_matching_eq {s : State} (h : QueueMatches s) {k : ℕ} {c : Client}
    (hk : s.clients[k]? = some c) (hqueued : k ∈ s.acceptedSockfdQ) :
    s.acceptedSockfdQ.filter (fun j => s.sockfdOf j == some c.sockfd) = [k] := by
  have hsockfd : s.sockfdOf k = some c.sockfd := by rw [State.sockfdOf, hk, Option.map_some]
  have honly : ∀ j ∈ s.acceptedSockfdQ, (s.sockfdOf j == some c.sockfd) = (j == k) := by
    intro j hj
    rw [Bool.eq_iff_iff, beq_iff_eq, beq_iff_eq]
    constructor
    · intro hsame
      exact List.inj_on_of_nodup_map h.sockfds_nodup hj hqueued (hsame.trans hsockfd.symm)
    · rintro rfl
      exact hsockfd
  have hnodup : s.acceptedSockfdQ.Nodup := .of_map s.sockfdOf h.sockfds_nodup
  rw [List.filter_congr honly, List.filter_beq, hnodup.count, if_pos hqueued]
  rfl

/-- The integer that a thread frees when it ends was not freed before. -/
theorem descriptorsHold_delete {s : State} (h : DescriptorsHold s) {k : ℕ} {c : Client}
    (hk : s.clients[k]? = some c) (hdeleting : c.thread = .deleting) :
    DescriptorsHold ((deleteIntegerTargets s c.sockfd).update k
      fun c => { c with thread := .ended }) := by
  have hdone : c.enqueued = true :=
    h.queueMatches.running c (List.mem_of_getElem? hk) (by simp [hdeleting])
  have hqueued : k ∈ s.acceptedSockfdQ :=
    (h.queueMatches.queued_iff k).mpr ⟨c, hk, hdone, by simp [hdeleting]⟩
  have hfreed : ((deleteIntegerTargets s c.sockfd).update k
      fun c => { c with thread := .ended }).freed = s.freed ++ [k] :=
    congrArg (s.freed ++ ·) (filter_matching_eq h.queueMatches hk hqueued)
  have hnew : k ∉ s.freed := h.owned.disjoint k hqueued
  refine ⟨queueMatches_delete h.queueMatches hk hdeleting, ?_, ?_, ?_⟩
  · rw [hfreed, List.nodup_append]
    refine ⟨h.freed_nodup, List.nodup_singleton k, ?_⟩
    rintro j hj _ hlast rfl
    exact hnew (List.mem_singleton.mp hlast ▸ hj)
  · refine freed_iff_of_modify h.freed_iff hk rfl (fun j hj => ?_) ?_
    · rw [hfreed]
      simp [hj]
    · rw [hfreed]
      simp
  · intro j d hj hnew'
    simp only [State.update, deleteIntegerTargets, List.getElem?_modify] at hj
    split at hj
    · rename_i hjk
      subst hjk
      rw [hk] at hj
      cases hj
      cases hdone.symm.trans hnew'
    · exact h.enqueuing j d (by simpa using hj) hnew'

/-- A descriptor that was just accepted is with `main`. -/
theorem descriptorsHold_accept {s : State} (h : DescriptorsHold s) {sockfd : ℕ}
    (hmain : s.mainThread = .accepting) :
    DescriptorsHold { s with
      mainThread := .enqueuing s.clients.length
      clients := s.clients ++ [newClient sockfd] } := by
  refine ⟨queueMatches_accept h.queueMatches sockfd, h.freed_nodup, fun k => ?_,
    fun k c hk hnew => ?_⟩
  · refine (h.freed_iff k).trans ⟨?_, ?_⟩
    · rintro ⟨c, hc, hended⟩
      exact ⟨c, List.getElem?_append_left (List.getElem?_eq_some_iff.mp hc).1 ▸ hc, hended⟩
    · rintro ⟨c, hc, hended⟩
      rw [List.getElem?_append] at hc
      split at hc
      · exact ⟨c, hc, hended⟩
      · rw [List.mem_singleton.mp (List.mem_of_getElem? hc)] at hended
        cases hended
  · dsimp only at hk ⊢
    rw [List.getElem?_append] at hk
    split at hk
    · cases hmain.symm.trans (h.enqueuing k c hk hnew)
    · have hlast := (List.getElem?_eq_some_iff.mp hk).1
      rw [List.length_singleton] at hlast
      congr 1
      omega

/-- `main` enqueues the descriptor that it has accepted. -/
theorem descriptorsHold_enqueue {s : State} (h : DescriptorsHold s) {k : ℕ}
    (hmain : s.mainThread = .enqueuing k) (hfresh : s.sockfdOf k ∉ s.sockfds) :
    DescriptorsHold (main s) := by
  have hmatches := queueMatches_enqueue h.queueMatches hmain hfresh
  have hready := h.queueMatches.main_ready
  simp only [State.MainReady, hmain] at hready
  obtain ⟨c, hk, hthread, -⟩ := hready
  have hself : k ∈ s.freed ↔ c.thread = .ended := by
    refine (h.freed_iff k).trans ⟨?_, fun hended => ⟨c, hk, hended⟩⟩
    rintro ⟨c', hc', hended⟩
    cases hk.symm.trans hc'
    exact hended
  rw [main, hmain] at hmatches ⊢
  refine ⟨hmatches, h.freed_nodup,
    freed_iff_of_modify h.freed_iff hk rfl (fun _ _ => Iff.rfl) hself, ?_⟩
  intro j d hj hnew
  simp only [State.update, List.getElem?_modify] at hj
  split at hj
  · rename_i hjk
    subst hjk
    rw [hk] at hj
    cases hj
    cases hnew
  · rename_i hjk
    have hother := h.enqueuing j d (by simpa using hj) hnew
    rw [hmain, MainThread.enqueuing.injEq] at hother
    exact absurd hother hjk

/-- `main` creates the thread of a client that it has enqueued. -/
theorem descriptorsHold_create {s : State} (h : DescriptorsHold s) {k : ℕ}
    (hmain : s.mainThread = .creating k) : DescriptorsHold (main s) := by
  have hmatches := queueMatches_create h.queueMatches hmain
  have hready := h.queueMatches.main_ready
  simp only [State.MainReady, hmain] at hready
  obtain ⟨c, hk, hthread, hdone⟩ := hready
  rw [main, hmain] at hmatches ⊢
  have hself : k ∉ s.freed := by
    intro hfreed
    obtain ⟨c', hc', hended⟩ := (h.freed_iff k).mp hfreed
    cases hk.symm.trans hc'
    cases hthread.symm.trans hended
  refine ⟨hmatches, h.freed_nodup,
    freed_iff_of_modify h.freed_iff hk rfl (fun _ _ => Iff.rfl) (iff_of_false hself (by simp)), ?_⟩
  intro j d hj hnew
  simp only [State.update, List.getElem?_modify] at hj
  split at hj
  · rename_i hjk
    subst hjk
    rw [hk] at hj
    cases hj
    cases hdone.symm.trans hnew
  · cases hmain.symm.trans (h.enqueuing j d (by simpa using hj) hnew)

/-- A step that enqueues only fresh descriptors keeps the invariant. -/
theorem descriptorsHold_step {s s' : State} {act : Action} (h : DescriptorsHold s)
    (hfresh : EnqueuesFresh s act) (hstep : step s act = .ok s') : DescriptorsHold s' := by
  have hmatches := queueMatches_step h.queueMatches hfresh hstep
  cases effect_of_step hstep with
  | idle => exact h
  | accepted sockfd hmain => exact descriptorsHold_accept h hmain
  | @enqueued k hmain =>
    simp only [EnqueuesFresh, hmain] at hfresh
    have hnext := descriptorsHold_enqueue h hmain hfresh
    rwa [main, hmain] at hnext
  | created hmain =>
    have hnext := descriptorsHold_create h hmain
    rwa [main, hmain] at hnext
  | received chunk hk hthread =>
    refine h.of_thread hk hmatches (by simp [hthread]) ?_ ?_
    · cases chunk <;> simp [recv]
    · cases chunk <;> rfl
  | started hk hthread =>
    exact h.of_thread hk hmatches (by simp [hthread]) (by simp) rfl
  | @broadcast k c chunk hk hthread =>
    refine (h.broadcast chunk).of_thread (by rw [getElem?_broadcast, hk, Option.map_some])
      hmatches ?_ ?_ rfl
    · simp [(deliver_eq _ _ c).2.1, hthread]
    · dsimp only
      split <;> simp
  | closed hk hthread => exact h.of_thread hk hmatches (by simp [hthread]) (by simp) rfl
  | deleted hk hthread => exact descriptorsHold_delete h hk hthread

/-- At the start nothing is allocated and no thread runs. -/
theorem descriptorsHold_initial : DescriptorsHold initial :=
  ⟨queueMatches_initial, List.nodup_nil, fun _ => iff_of_false nofun (by simp [initial]), nofun⟩

/-- If `main` enqueues only fresh descriptors, no thread reads a freed integer, none is freed
twice and none is lost, whatever the clients send and however the threads are interleaved. -/
theorem descriptorsOwned_of_meets (acts : List Action)
    (hfresh : Meets step EnqueuesFresh initial acts) :
    Safely step (fun _ s' => DescriptorsOwned s') initial acts := by
  refine safely_of_meets DescriptorsHold (fun s act h hcondition => ?_)
    descriptorsHold_initial hfresh
  obtain ⟨s', hs'⟩ := h.step_ok act
  have hnext := descriptorsHold_step h hcondition hs'
  exact ⟨s', hs', hnext.owned, hnext⟩

/-- A client joins, leaves, and its descriptor is returned again when it is no longer queued. -/
def rejoined : List Action :=
  [.accept 4, .main, .main, .serverReceiver 0, .recv 0 [], .serverReceiver 0, .serverReceiver 0,
    .accept 4, .main, .main, .serverReceiver 1]

/-- Its integers are owned all the time. -/
theorem descriptorsOwned_rejoined :
    Safely step (fun _ s' => DescriptorsOwned s') initial rejoined :=
  descriptorsOwned_of_meets rejoined (by decide +kernel)

/-! ### Fresh numbers -/

/-- `accept` returns only numbers that the queue does not hold. -/
def AcceptsFresh (s : State) : Action → Prop
  | .accept sockfd => some sockfd ∉ s.sockfds
  | .main | .recv _ _ | .serverReceiver _ => True

instance (s : State) (act : Action) : Decidable (AcceptsFresh s act) :=
  match act with
  | .accept sockfd => inferInstanceAs (Decidable (some sockfd ∉ s.sockfds))
  | .main | .recv _ _ | .serverReceiver _ => isTrue trivial

/-- The invariant of the runs in which `accept` returns only fresh numbers. -/
structure NumbersFresh (s : State) : Prop where
  descriptorsHold : DescriptorsHold s
  /-- The number of a client that is not enqueued is not queued. -/
  unqueued : ∀ c ∈ s.clients, c.enqueued = false → some c.sockfd ∉ s.sockfds

/-- `main` then enqueues only fresh descriptors, as nothing enters the queue between `accept`
and the enqueuing. -/
theorem NumbersFresh.enqueuesFresh {s : State} (h : NumbersFresh s) (act : Action) :
    EnqueuesFresh s act := by
  cases act with
  | main =>
    unfold EnqueuesFresh
    cases hmain : s.mainThread with
    | accepting | creating k => trivial
    | enqueuing k =>
      have hready := h.descriptorsHold.queueMatches.main_ready
      simp only [State.MainReady, hmain] at hready
      obtain ⟨c, hk, -, hnew⟩ := hready
      have hsockfd : s.sockfdOf k = some c.sockfd := by rw [State.sockfdOf, hk, Option.map_some]
      dsimp only
      rw [hsockfd]
      exact h.unqueued c (List.mem_of_getElem? hk) hnew
  | accept sockfd | recv k chunk | serverReceiver k => trivial

/-- A new client changes no number that is queued. -/
theorem sockfds_accept {s : State} (h : QueueMatches s) (mainThread : MainThread) (c : Client) :
    State.sockfds { s with mainThread := mainThread, clients := s.clients ++ [c] } = s.sockfds := by
  apply List.map_congr_left
  intro k hk
  obtain ⟨d, hd, -⟩ := (h.queued_iff k).mp hk
  exact congrArg _ (List.getElem?_append_left (List.getElem?_eq_some_iff.mp hd).1)

/-- A change of a client that keeps its descriptor, and of the queue to a part of it, queues no
number of a client that is not enqueued. -/
theorem unqueued_of_modify {s s' : State} {k : ℕ} {c : Client} {f : Client → Client}
    (h : ∀ c ∈ s.clients, c.enqueued = false → some c.sockfd ∉ s.sockfds)
    (hk : s.clients[k]? = some c) (hclients : s'.clients = s.clients.modify k f)
    (hkept : (f c).sockfd = c.sockfd ∧ (f c).enqueued = c.enqueued)
    (hqueue : s'.acceptedSockfdQ ⊆ s.acceptedSockfdQ) :
    ∀ c ∈ s'.clients, c.enqueued = false → some c.sockfd ∉ s'.sockfds := by
  have hpart : s'.sockfds ⊆ s.sockfds := by
    rw [State.sockfds, sockfdOf_of_modify hk hclients hkept.1]
    exact List.map_subset _ hqueue
  intro d hd hnew hmem
  obtain ⟨j, hj⟩ := List.getElem?_of_mem hd
  rw [hclients, List.getElem?_modify] at hj
  obtain ⟨e, he, heq⟩ := Option.map_eq_some_iff.mp hj
  have hmem' := List.mem_of_getElem? he
  split at heq
  · rename_i hjk
    subst hjk
    cases hk.symm.trans he
    subst heq
    rw [hkept.2] at hnew
    rw [hkept.1] at hmem
    exact h c hmem' hnew (hpart hmem)
  · subst heq
    exact h e hmem' hnew (hpart hmem)

/-- A broadcast changes no number, as it only sends. -/
theorem sockfds_broadcast (s : State) (chunk : List Byte) :
    (broadcast s chunk).sockfds = s.sockfds := by
  have hsame : (broadcast s chunk).sockfdOf = s.sockfdOf := by
    funext k
    rw [State.sockfdOf, State.sockfdOf, getElem?_broadcast, Option.map_map]
    congr 1
    funext c
    exact (deliver_eq _ _ c).1
  rw [State.sockfds, hsame]
  rfl

/-- A broadcast queues no number, so that what is not enqueued stays so. -/
theorem NumbersFresh.unqueued_broadcast {s : State} (h : NumbersFresh s) (chunk : List Byte) :
    ∀ c ∈ (broadcast s chunk).clients, c.enqueued = false →
      some c.sockfd ∉ (broadcast s chunk).sockfds := by
  intro d hd hnew
  obtain ⟨k, hk⟩ := List.getElem?_of_mem hd
  rw [getElem?_broadcast] at hk
  obtain ⟨c, hc, rfl⟩ := Option.map_eq_some_iff.mp hk
  obtain ⟨hsockfd, -, henqueued, -⟩ := deliver_eq s.broadcasts.length s.sockfds c
  rw [henqueued] at hnew
  rw [sockfds_broadcast, hsockfd]
  exact h.unqueued c (List.mem_of_getElem? hc) hnew

/-- A step that accepts only fresh numbers keeps the numbers fresh. -/
theorem numbersFresh_step {s s' : State} {act : Action} (h : NumbersFresh s)
    (hfresh : AcceptsFresh s act) (hstep : step s act = .ok s') : NumbersFresh s' := by
  have hholds := descriptorsHold_step h.descriptorsHold (h.enqueuesFresh act) hstep
  refine ⟨hholds, ?_⟩
  cases effect_of_step hstep with
  | idle => exact h.unqueued
  | accepted sockfd hmain =>
    intro c hc hnew
    rw [sockfds_accept h.descriptorsHold.queueMatches]
    rcases List.mem_append.mp hc with hc | hc
    · exact h.unqueued c hc hnew
    · rw [List.mem_singleton.mp hc]
      exact hfresh
  | enqueued hmain =>
    -- no client is left that is not enqueued
    intro c hc hnew
    obtain ⟨j, hj⟩ := List.getElem?_of_mem hc
    cases hholds.enqueuing j c hj hnew
  | created hmain =>
    have hready := h.descriptorsHold.queueMatches.main_ready
    simp only [State.MainReady, hmain] at hready
    obtain ⟨c, hk, -⟩ := hready
    exact unqueued_of_modify h.unqueued hk rfl ⟨rfl, rfl⟩ fun _ hj => hj
  | received chunk hk hthread =>
    refine unqueued_of_modify h.unqueued hk rfl ?_ fun _ hj => hj
    cases chunk <;> exact ⟨rfl, rfl⟩
  | started hk hthread | closed hk hthread =>
    exact unqueued_of_modify h.unqueued hk rfl ⟨rfl, rfl⟩ fun _ hj => hj
  | @broadcast k c chunk hk hthread =>
    exact unqueued_of_modify (h.unqueued_broadcast chunk)
      (by rw [getElem?_broadcast, hk, Option.map_some]) rfl ⟨rfl, rfl⟩ fun _ hj => hj
  | deleted hk hthread =>
    exact unqueued_of_modify h.unqueued hk rfl ⟨rfl, rfl⟩ List.filter_sublist.subset

/-- At the start no number is queued, as no client has been accepted yet. -/
theorem numbersFresh_initial : NumbersFresh initial :=
  ⟨descriptorsHold_initial, nofun⟩

end NetworkLabs.Chat.Server
