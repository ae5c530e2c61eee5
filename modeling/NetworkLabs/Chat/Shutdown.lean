import NetworkLabs.Chat.Session
import NetworkLabs.Foundations.Response

/-!
# Waiting and quitting in the client

`client_sender` sleeps only while the join request is not acknowledged and, when the quit flag
is set, only until `main` signals. So neither thread ever waits for the other one for nothing,
and once the quit flag is set both return after a bounded number of sections.
-/

namespace NetworkLabs.Chat.Session

open Foundations

/-- The flags agree with the positions of the threads, which is what keeps a wake-up from being
lost. -/
structure FlagsHold (s : State) : Prop where
  /-- `client_sender` waits for one of the flags. -/
  asleep : s.sender = .waiting ∨ s.sender = .asleep →
    s.joinAcknowledged = false ∧ (s.quitNecessary = true → s.main = .signalling)
  /-- `main` leaves its receiving loop only when the quit flag is set. -/
  flagged : s.main = .signalling ∨ s.main = .joining → s.quitNecessary = true
  /-- When `main` returns the process exits. -/
  exited : s.main = .returned → s.exited = true

/-- Neither flag is set, and nobody waits for one. -/
theorem flagsHold_initial (username : List Byte) : FlagsHold (initial username) :=
  ⟨(fun hwaits => by simp [initial] at hwaits), (fun hmain => by simp [initial] at hmain),
    fun hmain => by cases hmain⟩

/-- A signal does not change the flags, and after it `client_sender` is not asleep. -/
theorem signal_spec (s : State) (hlock : s.sender ≠ .waiting) :
    s.signal.sender ≠ .waiting ∧ s.signal.sender ≠ .asleep ∧
      s.signal.quitNecessary = s.quitNecessary ∧ s.signal.exited = s.exited := by
  unfold State.signal
  split
  · exact ⟨by simp, by simp, rfl, rfl⟩
  · exact ⟨hlock, ‹_›, rfl, rfl⟩

/-- Every section keeps the flags in agreement with the threads. The case that matters is the
waiting under `join_lock`. -/
theorem flagsHold_step {s s' : State} {act : Action} (h : FlagsHold s)
    (hstep : step s act = .ok s') : FlagsHold s' := by
  obtain ⟨hasleep, hflagged, hexited⟩ := h
  -- A waiting thread leaves `main` only one place when the quit flag is set.
  have hkept (hmain : s.main ≠ .signalling) {main : MainThread} :
      s.sender = .waiting ∨ s.sender = .asleep →
        s.joinAcknowledged = false ∧ (s.quitNecessary = true → main = .signalling) :=
    fun hwaits => ⟨(hasleep hwaits).1, fun hquit => absurd ((hasleep hwaits).2 hquit) hmain⟩
  cases effect_of_step hstep with
  | idle => exact ⟨hasleep, hflagged, hexited⟩
  | exited act => exact ⟨hasleep, hflagged, fun _ => rfl⟩
  | terminated hmain =>
    exact ⟨hkept (by simp [hmain]), (fun hnext => by simp at hnext), fun hnext => by cases hnext⟩
  | received hmain _ =>
    exact ⟨hkept (by simp [hmain]), (fun hnext => by simp at hnext), fun hnext => by cases hnext⟩
  | checked hmain _ =>
    exact ⟨hkept (by simp [hmain]), (fun hnext => by simp at hnext), fun hnext => by cases hnext⟩
  | stopped hmain hquit =>
    exact ⟨hkept (by simp [hmain]), fun _ => hquit, fun hnext => by cases hnext⟩
  | flagged hmain =>
    exact ⟨fun hwaits => ⟨(hasleep hwaits).1, fun _ => rfl⟩, fun _ => rfl,
      fun hnext => by cases hnext⟩
  | interpreted buffer hmain _ =>
    refine ⟨hkept (by simp [hmain]), fun hnext => ?_, fun hnext => ?_⟩
    · dsimp only at hnext
      split at hnext <;> simp at hnext
    · dsimp only at hnext
      split at hnext <;> cases hnext
  | signalled hmain hlock =>
    obtain ⟨hwaiting, hsleeping, hquit, -⟩ := signal_spec s hlock
    exact ⟨fun hwaits => absurd hwaits (not_or.mpr ⟨hwaiting, hsleeping⟩),
      fun _ => hquit.trans (hflagged (Or.inl hmain)), fun hnext => by cases hnext⟩
  | acknowledged hmain hlock =>
    obtain ⟨hwaiting, hsleeping, -, -⟩ := signal_spec s hlock
    exact ⟨fun hwaits => absurd hwaits (not_or.mpr ⟨hwaiting, hsleeping⟩),
      (fun hnext => by simp at hnext), fun hnext => by cases hnext⟩
  | returned hmain hended =>
    refine ⟨fun hwaits => ?_, (fun hnext => by simp at hnext), fun _ => rfl⟩
    rw [hended] at hwaits
    simp at hwaits
  | mustWait hsender hjoin hquit =>
    refine ⟨fun _ => ⟨hjoin, fun hset => ?_⟩, hflagged, hexited⟩
    rw [hquit] at hset
    cases hset
  | slept hsender => exact ⟨fun _ => hasleep (Or.inl hsender), hflagged, hexited⟩
  | quit hsender => exact ⟨(fun hwaits => by simp at hwaits), fun _ => rfl, hexited⟩
  | _ => exact ⟨(fun hwaits => by simp at hwaits), hflagged, hexited⟩

/-! ### No wake-up is lost -/

/-- The threads wait only for what will come, and not for each other. -/
structure NobodyForgotten (s : State) : Prop where
  /-- `client_sender` sleeps only until a flag is set and `main` has signalled. -/
  asleep : s.sender = .asleep →
    s.joinAcknowledged = false ∧ (s.quitNecessary = true → s.main = .signalling)
  /-- When neither thread can go on, `main` waits for the server, or it waits for
  `client_sender` and that waits for the user. -/
  stuck : s.exited = false → step s .main = .ok s → step s .sender = .ok s →
    s.main = .recv ∨ s.main = .joining ∧ s.sender = .reading

/-- A process that has not exited runs, so that a step is a section of one of its threads. -/
theorem step_of_running {s : State} (hexited : s.exited = false) (act : Action) :
    step s act = runningStep s act := by
  rw [step, if_neg (by rw [hexited]; exact Bool.false_ne_true)]

/-- A thread that holds `join_lock` or has an effect to make goes on; `client_sender` is stuck
only where it waits. -/
theorem sender_of_stuck {s : State} (hstuck : senderSection s = .ok s) :
    s.sender = .asleep ∨ s.sender = .reading ∨ s.sender = .ended := by
  unfold senderSection at hstuck
  split at hstuck
  · rename_i hsender
    split at hstuck
    · have hsame := congrArg State.sender (Except.ok.inj hstuck)
      cases hsame.trans hsender
    · cases hstuck
  · rename_i hsender
    have hsame := congrArg State.sender (Except.ok.inj hstuck)
    rw [hsender] at hsame
    dsimp only at hsame
    split at hsame <;> cases hsame
  · rename_i hsender
    have hsame := congrArg State.sender (Except.ok.inj hstuck)
    cases hsame.trans hsender
  · rename_i hsender
    have hsame := congrArg State.sender (Except.ok.inj hstuck)
    rw [hsender] at hsame
    dsimp only at hsame
    split at hsame <;> cases hsame
  · rename_i hsender
    unfold State.build at hstuck
    split at hstuck
    · have hsame := congrArg State.sender (Except.ok.inj hstuck)
      cases hsame.trans hsender
    · cases hstuck
  · rename_i transmission hsender
    have hsame := congrArg State.sender (Except.ok.inj hstuck)
    cases hsame.trans hsender
  · exact Or.inl ‹_›
  · exact Or.inr (Or.inl ‹_›)
  · exact Or.inr (Or.inr ‹_›)

/-- `main` is stuck only where it waits for the server, for `client_sender`, or for
`join_lock`. -/
theorem main_of_stuck {s : State} (hstuck : mainSection s = .ok s) :
    s.main = .recv ∨ s.main = .joining ∧ s.sender ≠ .ended ∨ s.main = .returned ∨
      s.sender = .waiting := by
  unfold mainSection at hstuck
  split at hstuck
  · exact Or.inl ‹_›
  · exact Or.inr (Or.inr (Or.inl ‹_›))
  · rename_i hmain
    have hsame := congrArg State.main (Except.ok.inj hstuck)
    cases hsame.trans hmain
  · rename_i hmain
    unfold State.lockJoin at hstuck
    split at hstuck
    · exact Or.inr (Or.inr (Or.inr ‹_›))
    · have hsame := congrArg State.main (Except.ok.inj hstuck)
      cases hsame.trans hmain
  · rename_i chunk hmain
    have hsame := congrArg State.main (Except.ok.inj hstuck)
    rw [hmain] at hsame
    dsimp only at hsame
    split at hsame <;> cases hsame
  · rename_i chunk hmain
    obtain ⟨parsed, -, hrest⟩ := of_bind_eq_ok hstuck
    obtain ⟨transmission, -, hnext⟩ := of_map_eq_ok hrest
    have hsame := congrArg State.main hnext
    rw [hmain] at hsame
    dsimp only at hsame
    split at hsame <;> cases hsame
  · rename_i hmain
    unfold State.lockJoin at hstuck
    split at hstuck
    · exact Or.inr (Or.inr (Or.inr ‹_›))
    · have hsame := congrArg State.main (Except.ok.inj hstuck)
      cases hsame.trans hmain
  · rename_i hmain
    refine Or.inr (Or.inl ⟨hmain, fun hended => ?_⟩)
    rw [if_pos hended] at hstuck
    have hsame := congrArg State.main (Except.ok.inj hstuck)
    cases hsame.trans hmain

/-- When the flags agree with the positions nobody is forgotten. -/
theorem FlagsHold.nobodyForgotten {s : State} (h : FlagsHold s) : NobodyForgotten s := by
  refine ⟨fun hsleeping => h.asleep (Or.inr hsleeping), fun hexited hmain hsender => ?_⟩
  rw [step_of_running hexited] at hmain hsender
  rcases main_of_stuck hmain with hrecv | ⟨hjoining, hended⟩ | hreturned | hwaiting
  · exact Or.inl hrecv
  · rcases sender_of_stuck hsender with hsleeping | hreading | hnot
    · have hquit := h.flagged (Or.inr hjoining)
      cases hjoining.symm.trans ((h.asleep (Or.inr hsleeping)).2 hquit)
    · exact Or.inr ⟨hjoining, hreading⟩
    · exact absurd hnot hended
  · cases (h.exited hreturned).symm.trans hexited
  · rcases sender_of_stuck hsender with hother | hother | hother <;>
      cases hwaiting.symm.trans hother

/-- In every run of the client no wake-up is lost and the threads do not block each other,
whatever calls fail and however the threads are interleaved. -/
theorem nobodyForgotten_of_run (username : List Byte) (acts : List Action) :
    Always step (fun _ s' => NobodyForgotten s') (initial username) acts :=
  always_of_steps (fun _ _ _ h hstep =>
    have hnext := flagsHold_step h hstep
    ⟨hnext.nobodyForgotten, hnext⟩) (flagsHold_initial username)

/-! ### Quitting -/

/-- The sections that are left to `main` when the quit flag is set. -/
def MainThread.rank : MainThread → ℕ
  | .interpreting _ => 6
  | .acknowledging => 5
  | .recv => 4
  | .terminated => 3
  | .signalling | .quitCheck _ => 2
  | .joining => 1
  | .returned => 0

/-- The sections that are left to `client_sender` when the quit flag is set. -/
def ClientSender.rank : ClientSender → ℕ
  | .waiting | .reading => 4
  | .requesting | .asleep | .quitting => 3
  | .waitCheck | .sending _ => 2
  | .quitCheck => 1
  | .ended => 0

/-- The transmissions that `client_sender` may still send when the quit flag is set. -/
def ClientSender.unsent : ClientSender → ℕ
  | .requesting | .reading | .quitting | .sending _ => 1
  | .waiting | .asleep | .waitCheck | .quitCheck | .ended => 0

/-- A section that moves one of the threads, as opposed to one that waits. -/
def moves (s : State) (act : Action) : Bool :=
  match step s act with
  | .ok s' => decide (s'.main ≠ s.main ∨ s'.sender ≠ s.sender)
  | .error _ => false

/-- When the quit flag is set, at most ten sections move a thread, and at most one more
transmission is sent. -/
structure QuitsSoon (s : State) : Prop where
  sections : s.quitNecessary = true → ∀ acts, countSteps step moves s acts ≤ 10
  transmissions : s.quitNecessary = true → ∀ acts t, run step s acts = .ok t →
    t.sent.length ≤ s.sent.length + 1

/-- What is left to both threads until they have returned. -/
def State.rank (s : State) : ℕ := s.main.rank + s.sender.rank

/-- A signal moves `client_sender` only forward, from its sleep back to the test of
the flags. -/
theorem signal_rank (s : State) :
    s.signal.sender.rank ≤ s.sender.rank ∧ s.signal.sender.unsent = s.sender.unsent ∧
      s.signal.sent = s.sent := by
  unfold State.signal
  split
  · rename_i hsender
    rw [hsender]
    exact ⟨Nat.le_succ 2, rfl, rfl⟩
  · exact ⟨Nat.le_refl _, rfl, rfl⟩

/-- The quit flag is never reset, by no section of any thread. -/
theorem quitNecessary_step {s s' : State} {act : Action} (hstep : step s act = .ok s')
    (hquit : s.quitNecessary = true) : s'.quitNecessary = true := by
  cases effect_of_step hstep with
  | flagged _ | quit _ => rfl
  | signalled hmain hlock | acknowledged hmain hlock =>
    exact (signal_spec s hlock).2.2.1.trans hquit
  | _ => exact hquit

/-- When the quit flag is set every section that moves a thread moves it forward. -/
theorem rank_step {s s' : State} {act : Action} (hquit : s.quitNecessary = true)
    (hstep : step s act = .ok s') :
    s'.rank ≤ s.rank ∧ (s'.main ≠ s.main ∨ s'.sender ≠ s.sender → s'.rank < s.rank) := by
  have hless {n m : ℕ} {p : Prop} (hnm : n < m) : n ≤ m ∧ (p → n < m) :=
    ⟨Nat.le_of_lt hnm, fun _ => hnm⟩
  obtain ⟨hsignal, -, -⟩ := signal_rank s
  unfold State.rank
  cases effect_of_step hstep with
  | idle | exited _ => simp
  | terminated hmain | received hmain _ | flagged hmain | stopped hmain _ =>
    apply hless
    simp only [hmain, MainThread.rank]
    omega
  | checked hmain hfalse => cases hfalse.symm.trans hquit
  | signalled hmain _ | acknowledged hmain _ =>
    apply hless
    simp only [hmain, MainThread.rank]
    omega
  | interpreted buffer hmain _ =>
    apply hless
    rw [hmain]
    dsimp only
    split <;> simp only [MainThread.rank] <;> omega
  | returned hmain hended =>
    apply hless
    simp only [hmain, MainThread.rank]
    omega
  | mustWait hsender hjoin hfalse => cases hfalse.symm.trans hquit
  | reads hsender hfalse => cases hfalse.symm.trans hquit
  | requested hsender | mayChat hsender _ | slept hsender | woken hsender | ended hsender _
  | line hsender _ | null hsender | quit hsender | sent hsender =>
    apply hless
    simp only [hsender, ClientSender.rank]
    omega

/-- When the quit flag is set every transmission uses up what may still be sent. -/
theorem unsent_step {s s' : State} {act : Action} (hquit : s.quitNecessary = true)
    (hstep : step s act = .ok s') :
    s'.sent.length + s'.sender.unsent ≤ s.sent.length + s.sender.unsent := by
  obtain ⟨-, hsignal, hsent⟩ := signal_rank s
  cases effect_of_step hstep with
  | signalled _ _ | acknowledged _ _ =>
    dsimp only
    rw [hsignal, hsent]
  | mustWait hsender hjoin hfalse => cases hfalse.symm.trans hquit
  | reads hsender hfalse => cases hfalse.symm.trans hquit
  | requested hsender | mayChat hsender _ | slept hsender | woken hsender | ended hsender _
  | line hsender _ | null hsender | quit hsender | sent hsender =>
    simp [hsender, ClientSender.unsent]
  | _ => exact Nat.le_refl _

/-- A section that moves a thread lowers the rank, and no section raises it. -/
theorem moves_rank {s s' : State} {act : Action} (hquit : s.quitNecessary = true)
    (hstep : step s act = .ok s') : (if moves s act then 1 else 0) + s'.rank ≤ s.rank := by
  obtain ⟨hle, hlt⟩ := rank_step hquit hstep
  rw [moves, hstep]
  dsimp only
  split
  · have hmoved := hlt (of_decide_eq_true ‹_›)
    omega
  · omega

/-- The quit flag is set, and what was sent and is still to be sent is bounded. -/
def QuitsWithin (n : ℕ) (s : State) : Prop :=
  s.quitNecessary = true ∧ s.sent.length + s.sender.unsent ≤ n

/-- The bound on what is sent stays, since a section that sends only uses up what is still to be
sent. -/
theorem quitsWithin_step {n : ℕ} {s s' : State} {act : Action} (h : QuitsWithin n s)
    (hstep : step s act = .ok s') : QuitsWithin n s' :=
  ⟨quitNecessary_step hstep h.1, (unsent_step h.1 hstep).trans h.2⟩

/-- Once the quit flag is set both threads return after few sections, whatever the server, the
user and the scheduler do, and hardly anything more is sent. -/
theorem quitsSoon (s : State) : QuitsSoon s := by
  constructor
  · intro hquit acts
    have hbound : countSteps step moves s acts ≤ s.rank :=
      countSteps_le (fun s => s.quitNecessary = true) State.rank
        (fun _ _ _ hset hstep => ⟨quitNecessary_step hstep hset, moves_rank hset hstep⟩)
        (fun s act e he => by rw [moves, he]) hquit
    have hmain : s.main.rank ≤ 6 := by cases s.main <;> simp [MainThread.rank]
    have hsender : s.sender.rank ≤ 4 := by cases s.sender <;> simp [ClientSender.rank]
    unfold State.rank at hbound
    omega
  · intro hquit acts t hrun
    have hinit : QuitsWithin (s.sent.length + s.sender.unsent) s := ⟨hquit, Nat.le_refl _⟩
    have hbound : QuitsWithin (s.sent.length + s.sender.unsent) t :=
      invariant_of_steps (fun _ _ _ h hstep => quitsWithin_step h hstep) hinit hrun
    have hle := hbound.2
    have hsender : s.sender.unsent ≤ 1 := by cases s.sender <;> simp [ClientSender.unsent]
    omega

end NetworkLabs.Chat.Session
