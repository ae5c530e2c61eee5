import NetworkLabs.Chat.Session

/-!
# What the client sends

`client_sender` sends a join request, then a message for every line that it reads, and at the
end of its input a quit request. It reads nothing before the server has acknowledged the join
request or the connection was terminated.
-/

namespace NetworkLabs.Chat.Session

open Foundations

/-- The join request and a message for every line, which is all that is sent before a request to
quit. -/
def spoken (username : List Byte) (lines : List (List Byte)) : List (List Byte) :=
  buildJoin username :: lines.map fun line => buildMessage username (cString line)

/-- One more line is one more message, behind those of the lines before it. -/
theorem spoken_append (username : List Byte) (lines : List (List Byte)) (line : List Byte) :
    spoken username (lines ++ [line]) =
      spoken username lines ++ [buildMessage username (cString line)] := by
  simp [spoken]

/-- What was sent while `client_sender` stands at a position, as far as the lines
determine it. -/
def SentAt (s : State) : ClientSender → Prop
  | .requesting => s.sent = [] ∧ s.lines = []
  | .waitCheck | .waiting | .asleep => s.sent = spoken s.username [] ∧ s.lines = []
  | .reading | .quitting => s.sent = spoken s.username s.lines
  | .sending transmission =>
    s.sent ++ [transmission] = spoken s.username s.lines ∨
      s.quitNecessary = true ∧
        s.sent ++ [transmission] = spoken s.username s.lines ++ [buildQuit s.username]
  | .quitCheck | .ended =>
    s.sent = spoken s.username s.lines ∨
      s.quitNecessary = true ∧ s.sent = spoken s.username s.lines ++ [buildQuit s.username]

/-- `client_sender` has not yet tested the flags successfully, so that it has read no line. -/
def ClientSender.Waits : ClientSender → Prop
  | .requesting | .waitCheck | .waiting | .asleep => True
  | .quitCheck | .reading | .quitting | .sending _ | .ended => False

/-- What was sent depends only on `client_sender`, and the quit flag stays. -/
theorem SentAt.of_eq {s s' : State} {sender : ClientSender} (h : SentAt s sender)
    (husername : s'.username = s.username) (hsent : s'.sent = s.sent) (hlines : s'.lines = s.lines)
    (hquit : s.quitNecessary = true → s'.quitNecessary = true) : SentAt s' sender := by
  unfold SentAt at h ⊢
  rw [husername, hsent, hlines]
  cases sender with
  | sending transmission => exact h.imp id fun hboth => ⟨hquit hboth.1, hboth.2⟩
  | quitCheck => exact h.imp id fun hboth => ⟨hquit hboth.1, hboth.2⟩
  | ended => exact h.imp id fun hboth => ⟨hquit hboth.1, hboth.2⟩
  | _ => exact h

/-- A signal changes nothing that was sent. -/
theorem sentAt_signal {s : State} (h : SentAt s s.sender) : SentAt s.signal s.signal.sender := by
  unfold State.signal
  split
  · rename_i hsender
    rw [hsender] at h
    exact h
  · exact h

/-- A signal is no test of the flags, so that a thread that waits still waits. -/
theorem waits_signal (s : State) : s.signal.sender.Waits ↔ s.sender.Waits := by
  unfold State.signal
  split
  · rename_i hsender
    rw [hsender]
    exact Iff.rfl
  · exact Iff.rfl

/-- A signal leaves everything but `client_sender` alone. -/
theorem signal_parts (s : State) : s.signal.username = s.username ∧
    s.signal.joinAcknowledged = s.joinAcknowledged ∧
      s.signal.quitNecessary = s.quitNecessary ∧ s.signal.interpreted = s.interpreted := by
  unfold State.signal
  split <;> exact ⟨rfl, rfl, rfl, rfl⟩

/-- Every section keeps what was sent in its order. -/
theorem sentAt_step {s s' : State} {act : Action} (h : SentAt s s.sender)
    (hstep : step s act = .ok s') : SentAt s' s'.sender := by
  cases effect_of_step hstep with
  | signalled _ _ => exact (sentAt_signal h).of_eq rfl rfl rfl id
  | acknowledged _ _ => exact (sentAt_signal h).of_eq rfl rfl rfl id
  | flagged _ => exact h.of_eq rfl rfl rfl fun _ => rfl
  | requested hsender =>
    rw [hsender] at h
    obtain ⟨hnothing, hunread⟩ := h
    refine ⟨?_, hunread⟩
    dsimp only
    rw [hnothing]
    rfl
  | mustWait hsender _ _ | slept hsender | woken hsender =>
    rw [hsender] at h
    exact h
  | mayChat hsender _ =>
    rw [hsender] at h
    obtain ⟨hrequest, hunread⟩ := h
    left
    dsimp only
    rw [hunread]
    exact hrequest
  | ended hsender _ | null hsender =>
    rw [hsender] at h
    exact h
  | reads hsender hquit =>
    rw [hsender] at h
    refine h.resolve_right fun hboth => ?_
    cases hquit.symm.trans hboth.1
  | line hsender _ =>
    rw [hsender] at h
    left
    dsimp only
    rw [spoken_append]
    exact congrArg (· ++ _) h
  | quit hsender =>
    rw [hsender] at h
    right
    exact ⟨rfl, congrArg (· ++ _) h⟩
  | sent hsender =>
    rw [hsender] at h
    exact h
  | _ => exact h

/-- `client_sender` passes its test only with a flag, and the flags stay. -/
theorem admitted_step {s s' : State} {act : Action}
    (h : ¬s.sender.Waits → s.joinAcknowledged = true ∨ s.quitNecessary = true)
    (hstep : step s act = .ok s') :
    ¬s'.sender.Waits → s'.joinAcknowledged = true ∨ s'.quitNecessary = true := by
  obtain ⟨-, hjoin, hquit, -⟩ := signal_parts s
  cases effect_of_step hstep with
  | flagged _ | quit _ => exact fun _ => Or.inr rfl
  | signalled _ _ =>
    dsimp only
    rw [waits_signal, hjoin, hquit]
    exact h
  | acknowledged _ _ => exact fun _ => Or.inl rfl
  | requested _ | mustWait _ _ _ | slept _ | woken _ => exact fun hwaits => absurd trivial hwaits
  | mayChat _ hflags => exact fun _ => hflags
  | ended hsender _ | reads hsender _ | line hsender _ | null hsender | sent hsender =>
    rw [hsender] at h
    exact fun _ => h id
  | _ => exact h

/-- The join flag is set only for a join notice with the own name. -/
theorem acknowledged_step {s s' : State} {act : Action}
    (h : s.joinAcknowledged = true ∨ s.main = .acknowledging →
      some (.join s.username) ∈ s.interpreted) (hstep : step s act = .ok s') :
    s'.joinAcknowledged = true ∨ s'.main = .acknowledging →
      some (.join s'.username) ∈ s'.interpreted := by
  obtain ⟨husername, hjoin, -, hinterpreted⟩ := signal_parts s
  cases effect_of_step hstep with
  | terminated _ | received _ _ | stopped _ _ | checked _ _ | flagged _ | returned _ _ =>
    exact fun hflag => h (Or.inl (by simpa using hflag))
  | signalled _ _ =>
    dsimp only
    rw [husername, hjoin, hinterpreted]
    exact fun hflag => h (Or.inl (by simpa using hflag))
  | acknowledged hmain _ =>
    dsimp only
    rw [husername, hinterpreted]
    exact fun _ => h (Or.inr hmain)
  | @interpreted chunk buffer transmission hmain hreceive =>
    intro hflag
    rcases hflag with hflag | hflag
    · exact List.mem_append_left _ (h (Or.inl hflag))
    · dsimp only at hflag
      split at hflag
      · rename_i hown
        rw [hown]
        exact List.mem_append_right _ (List.mem_singleton.mpr rfl)
      · cases hflag
  | _ => exact h

/-- What a client sends, reads and waits for, as one who knows only the protocol would
see it. -/
structure SpeaksProtocol (s : State) : Prop where
  /-- The client sends a join request, a message for every line, and a quit request. -/
  in_order : s.sent <+: spoken s.username s.lines ++ [buildQuit s.username]
  /-- When it is not about to send something, every line that it has read was sent. -/
  complete : s.sender = .quitCheck ∨ s.sender = .reading ∨ s.sender = .ended →
    spoken s.username s.lines <+: s.sent
  /-- It reads only when it may chat or has to quit. -/
  admitted : s.lines ≠ [] → s.joinAcknowledged = true ∨ s.quitNecessary = true
  /-- It may chat when the server has announced it. -/
  acknowledged : s.joinAcknowledged = true → some (.join s.username) ∈ s.interpreted

/-- The invariants are about what is sent, read and waited for. -/
theorem SentAt.speaksProtocol {s : State} (h : SentAt s s.sender)
    (hadmitted : ¬s.sender.Waits → s.joinAcknowledged = true ∨ s.quitNecessary = true)
    (hacknowledged : s.joinAcknowledged = true ∨ s.main = .acknowledging →
      some (.join s.username) ∈ s.interpreted) : SpeaksProtocol s := by
  refine ⟨?_, fun hposition => ?_, fun hread => hadmitted fun hwaits => hread ?_,
    fun hflag => hacknowledged (Or.inl hflag)⟩
  · have hall : spoken s.username s.lines <+: spoken s.username s.lines ++ [buildQuit s.username] :=
      List.prefix_append _ _
    cases hsender : s.sender with
    | requesting =>
      rw [hsender] at h
      rw [h.1]
      exact List.nil_prefix
    | waitCheck | waiting | asleep =>
      rw [hsender] at h
      rw [h.1, h.2]
      exact List.prefix_append _ _
    | reading | quitting =>
      rw [hsender] at h
      have hsent : s.sent = spoken s.username s.lines := h
      rw [hsent]
      exact hall
    | quitCheck | ended =>
      rw [hsender] at h
      rcases h with hsent | ⟨-, hsent⟩
      · rw [hsent]
        exact hall
      · rw [hsent]
    | sending transmission =>
      rw [hsender] at h
      rcases h with hsent | ⟨-, hsent⟩
      · rw [← hsent, List.append_assoc]
        exact List.prefix_append _ _
      · rw [← hsent]
        exact List.prefix_append _ _
  · rcases hposition with hsender | hsender | hsender <;> rw [hsender] at h
    · rcases h with hsent | ⟨-, hsent⟩
      · rw [hsent]
      · rw [hsent]
        exact List.prefix_append _ _
    · have hsent : s.sent = spoken s.username s.lines := h
      rw [hsent]
    · rcases h with hsent | ⟨-, hsent⟩
      · rw [hsent]
      · rw [hsent]
        exact List.prefix_append _ _
  · cases hsender : s.sender <;> rw [hsender] at h hwaits <;>
      first | exact h.2 | exact hwaits.elim

/-- What keeps the client to the protocol, after every section. -/
structure Keeps (s : State) : Prop where
  sentAt : SentAt s s.sender
  admitted : ¬s.sender.Waits → s.joinAcknowledged = true ∨ s.quitNecessary = true
  acknowledged : s.joinAcknowledged = true ∨ s.main = .acknowledging →
    some (.join s.username) ∈ s.interpreted

/-- A section keeps the client to the protocol. -/
theorem keeps_step {s s' : State} {act : Action} (h : Keeps s) (hstep : step s act = .ok s') :
    Keeps s' where
  sentAt := sentAt_step h.sentAt hstep
  admitted := admitted_step h.admitted hstep
  acknowledged := acknowledged_step h.acknowledged hstep

/-- The client starts by keeping to the protocol. -/
theorem keeps_initial (username : List Byte) : Keeps (initial username) where
  sentAt := ⟨rfl, rfl⟩
  admitted hwaits := absurd trivial hwaits
  acknowledged hflag := by simp [initial] at hflag

/-- In every run the client keeps to the protocol, whatever it receives and the user types. -/
theorem speaksProtocol_of_run (username : List Byte) (acts : List Action) :
    Always step (fun _ s' => SpeaksProtocol s') (initial username) acts :=
  always_of_steps (fun _ _ _ h hstep =>
    have h' := keeps_step h hstep
    ⟨h'.sentAt.speaksProtocol h'.admitted h'.acknowledged, h'⟩) (keeps_initial username)

end NetworkLabs.Chat.Session
