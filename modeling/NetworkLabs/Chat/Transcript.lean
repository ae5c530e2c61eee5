import NetworkLabs.Chat.Relay
import NetworkLabs.Chat.Segmentation
import NetworkLabs.Chat.Utterances

/-!
# The transcript of the room

If TCP returns one transmission to each `recv`, the room works as it is meant to: there is one
transcript of what was said, each user's part of it is what the user has typed, in order, and
every client displays a contiguous part of the transcript. No thread fails.
-/

namespace NetworkLabs.Chat.Session

open Foundations

/-- What the user of a client can say: the join, a message for every line, and the quit. -/
def utterances (s : State) : List Transmission :=
  .join s.username :: s.lines.map (fun line => .message s.username (cString line)) ++
    [.quit s.username]

/-- The transmissions of what the user can say. -/
theorem map_build_utterances (s : State) :
    (utterances s).map Transmission.build =
      spoken s.username s.lines ++ [buildQuit s.username] := by
  simp [utterances, spoken, Transmission.build, Function.comp_def]

/-- What a client has displayed of the chunks that it received. -/
def Displayed (s : State) (chunks : List (List Byte)) : Prop :=
  match s.main with
  | .recv | .acknowledging => chunks.map Chat.parseTransmission = s.interpreted.map .ok
  | .quitCheck chunk | .interpreting chunk =>
    chunks.map Chat.parseTransmission = s.interpreted.map .ok ++ [Chat.parseTransmission chunk]
  | .terminated | .signalling | .joining | .returned =>
    s.interpreted.map .ok <+: chunks.map Chat.parseTransmission

/-- A client displays a first part of what it received. -/
theorem Displayed.part {s : State} {chunks : List (List Byte)} (h : Displayed s chunks) :
    s.interpreted.map .ok <+: chunks.map Chat.parseTransmission := by
  unfold Displayed at h
  split at h
  · rw [h]
  · rw [h]
  · rw [h]
    exact List.prefix_append _ _
  · rw [h]
    exact List.prefix_append _ _
  all_goals exact h

/-- A section that receives nothing displays at most the pending chunk. -/
theorem displayed_step {s s' : State} {act : Action} {chunks : List (List Byte)}
    (h : Displayed s chunks) (hnothing : ∀ chunk, act = .recv chunk → chunk = [])
    (hstep : step s act = .ok s') : Displayed s' chunks := by
  have hpart := h.part
  have hsignal : s.signal.interpreted = s.interpreted := (signal_parts s).2.2.2
  unfold Displayed at h
  cases effect_of_step hstep with
  | received hmain hsome => exact absurd (hnothing _ rfl) hsome
  | terminated hmain | flagged hmain | stopped hmain _ | returned hmain _ => exact hpart
  | signalled hmain _ =>
    dsimp only [Displayed]
    rw [hsignal]
    exact hpart
  | acknowledged hmain _ =>
    rw [hmain] at h
    dsimp only [Displayed]
    rw [hsignal]
    exact h
  | checked hmain _ =>
    rw [hmain] at h
    exact h
  | @interpreted chunk buffer transmission hmain hreceive =>
    rw [hmain] at h
    rw [Client.receive_eq] at hreceive
    have hnow : chunks.map Chat.parseTransmission =
        (s.interpreted ++ [transmission]).map .ok := by
      rw [List.map_append, List.map_singleton, ← hreceive]
      exact h
    unfold Displayed
    dsimp only
    by_cases hjoin : transmission = some (.join s.username)
    · rw [if_pos hjoin]
      exact hnow
    · rw [if_neg hjoin]
      exact hnow
  | _ => exact h

/-- A chunk that is received is pending: it counts as received, and its display is still to
come. -/
theorem displayed_recv {s s' : State} {chunk : List Byte} {chunks : List (List Byte)}
    (h : Displayed s chunks) (hrunning : s.exited = false) (hmain : s.main = .recv)
    (hsome : chunk ≠ []) (hsize : chunk.length ≤ bufferSize)
    (hstep : step s (.recv chunk) = .ok s') : Displayed s' (chunks ++ [chunk]) := by
  have hnow : s' = { s with main := .quitCheck chunk } := by
    rw [step, hrunning, if_neg Bool.false_ne_true, runningStep, recv, hmain] at hstep
    dsimp only at hstep
    rw [if_neg hsome, if_pos hsize] at hstep
    cases hstep
    rfl
  unfold Displayed at h
  rw [hmain] at h
  rw [hnow]
  dsimp only [Displayed]
  rw [List.map_append, h]
  rfl

/-- A client keeps its username, and reads only lines. -/
theorem lines_step {s s' : State} {act : Action} (h : ∀ line ∈ s.lines, IsLine line)
    (hstep : step s act = .ok s') :
    s'.username = s.username ∧ ∀ line ∈ s'.lines, IsLine line := by
  cases effect_of_step hstep with
  | signalled _ _ | acknowledged _ _ =>
    dsimp only [State.signal]
    split <;> exact ⟨rfl, h⟩
  | line _ hline =>
    exact ⟨rfl, List.forall_mem_append.mpr ⟨h, List.forall_mem_singleton.mpr hline⟩⟩
  | _ => exact ⟨rfl, h⟩

/-! ### A client does not fail -/

/-- What lets a client go on: a username that it admits, and a chunk that can be parsed without
undefined behaviour. -/
structure Ready (s : State) : Prop where
  username : AdmittedUsername s.username
  chunk : ∀ chunk, s.main = .interpreting chunk → ∃ t, Chat.parseTransmission chunk = .ok t

/-- `main` of a client goes on, also where it interprets a chunk. -/
theorem Ready.main_ok {s : State} (h : Ready s) : ∃ s', mainSection s = .ok s' := by
  unfold mainSection
  split
  case h_6 chunk hmain =>
    obtain ⟨t, ht⟩ := h.chunk chunk hmain
    have hreceive := (Client.receive_eq s.receiverBuffer chunk).trans ht
    rw [Client.receive] at hreceive
    obtain ⟨parsed, hparsed, htransmission⟩ := of_bind_eq_ok hreceive
    rw [interpretChunk, hparsed]
    dsimp only [Except.bind]
    rw [htransmission]
    exact ⟨_, rfl⟩
  all_goals exact ⟨_, rfl⟩

/-- A transmission that can be sent fits `sender_buffer`, so that building it never fails. -/
theorem build_ok {s : State} {t : Transmission} (h : t.Sendable) :
    ∃ s', s.build t.build = .ok s' := by
  rw [State.build, if_pos (Transmission.length_build_lt h)]
  exact ⟨_, rfl⟩

/-- A line is a text that fits a message, up to its first NUL. -/
theorem IsLine.sendable {username line : List Byte} (husername : AdmittedUsername username)
    (h : IsLine line) : Transmission.Sendable (.message username (cString line)) := by
  refine ⟨husername, ?_, fun hnul => ?_⟩
  · exact (List.takeWhile_prefix _).length_le.trans h.1
  · simpa using List.mem_takeWhile_imp hnul

/-- A client goes on, whatever happens to it next. -/
theorem Ready.step_ok {s : State} (h : Ready s) (act : Action) : ∃ s', step s act = .ok s' := by
  rw [step]
  split
  · exact ⟨_, rfl⟩
  · cases act with
    | main => exact h.main_ok
    | fgets line =>
      rw [runningStep, fgets]
      split
      · split
        · rename_i hline
          exact build_ok (hline.sendable h.username)
        · exact ⟨_, rfl⟩
      · exact ⟨_, rfl⟩
    | sender =>
      rw [runningStep, senderSection]
      split
      · have hjoin : Transmission.Sendable (.join s.username) := h.username
        have hsize : (buildJoin s.username).length < bufferSize :=
          Transmission.length_build_lt hjoin
        rw [if_pos hsize]
        exact ⟨_, rfl⟩
      case h_5 =>
        have hquit : Transmission.Sendable (.quit s.username) := h.username
        exact build_ok hquit
      all_goals exact ⟨_, rfl⟩
    | _ => exact ⟨_, rfl⟩

end NetworkLabs.Chat.Session

namespace NetworkLabs.Chat.Room

open Foundations

/-- What the room sees of a chunk, which is nothing when it cannot be parsed. -/
def parsed (chunk : List Byte) : Option Transmission :=
  match parseTransmission chunk with
  | .ok t => t
  | .error _ => none

/-- What was said in the room, with who said it. -/
def State.transcript (w : State) : List (ℕ × Option Transmission) :=
  w.log.map fun entry => (entry.1, parsed entry.2)

/-- The room has one transcript: each user's part of it is a first part of what the user said,
and every client displays a contiguous part of it. -/
structure Transcribed (w : State) : Prop where
  genuine : ∀ entry ∈ w.transcript, entry.1 < w.connections.length
  said : ∀ k c, w.connections[k]? = some c →
    (w.transcript.filter fun entry => entry.1 == k).map Prod.snd <+:
      (Session.utterances c.session).map some
  displayed : ∀ c ∈ w.connections, ∃ i,
    c.session.interpreted <+: (w.transcript.drop i).map Prod.snd

/-- `recv` returns one transmission, `accept` only numbers that the queue does not hold, and no
username ends with a colon. -/
def OneByOne (w : State) : Action → Prop
  | .connect username => username.getLast? ≠ some 0x3a
  | .accept sockfd => some sockfd ∉ w.server.sockfds
  | .serverRecv k n => ∀ c ∈ w.connections[k]?, ReadsPiece c.session.sent c.atServer n
  | .clientRecv k n => ∀ c ∈ w.connections[k]?, ReadsPiece c.sentBack c.atClient n
  | .serverMain | .serverRecvEnds _ | .serverReceiver _ | .clientRecvEnds _ | .client _ _ => True

instance (w : State) (act : Action) : Decidable (OneByOne w act) :=
  match act with
  | .connect username => inferInstanceAs (Decidable (username.getLast? ≠ some 0x3a))
  | .accept sockfd => inferInstanceAs (Decidable (some sockfd ∉ w.server.sockfds))
  | .serverRecv k n =>
    inferInstanceAs
      (Decidable (∀ c ∈ w.connections[k]?, ReadsPiece c.session.sent c.atServer n))
  | .clientRecv k n =>
    inferInstanceAs (Decidable (∀ c ∈ w.connections[k]?, ReadsPiece c.sentBack c.atClient n))
  | .serverMain | .serverRecvEnds _ | .serverReceiver _ | .clientRecvEnds _ | .client _ _ =>
    isTrue trivial

/-- Such runs accept only fresh numbers, so that all that is known of those runs holds. -/
theorem OneByOne.acceptsFresh {w : State} {act : Action} (h : OneByOne w act) :
    AcceptsFresh w act := by
  cases act with
  | accept sockfd => exact h
  | _ => trivial

/-! ### The invariant -/

/-- A client keeps to the protocol, and its connection keeps the transmissions apart. -/
structure ConnectionSpeaks (c : Connection) : Prop where
  keeps : Session.Keeps c.session
  username : AdmittedUsername c.session.username
  separated : c.session.username.getLast? ≠ some 0x3a
  lines : ∀ line ∈ c.session.lines, Session.IsLine line
  atServer : c.atServer <+: c.session.sent
  atClient : c.atClient <+: c.sentBack
  displayed : Session.Displayed c.session c.atClient

/-- The invariant of the room in such runs, in which nobody receives parts of a transmission. -/
structure Speaks (w : State) : Prop where
  holds : Holds w
  connections : ∀ c ∈ w.connections, ConnectionSpeaks c

/-- What a client can say is parsed as it was said. -/
theorem ConnectionSpeaks.parse {c : Connection} (h : ConnectionSpeaks c) {t : Transmission}
    (ht : t ∈ Session.utterances c.session) : parseTransmission t.build = .ok (some t) := by
  simp only [Session.utterances, List.cons_append, List.mem_cons, List.mem_append, List.mem_map,
    List.not_mem_nil, or_false] at ht
  rcases ht with rfl | ⟨line, hline, rfl⟩ | rfl
  · exact parseTransmission_build h.username trivial
  · exact parseTransmission_build ((h.lines line hline).sendable h.username) h.separated
  · exact parseTransmission_build h.username trivial

/-- What a client has sent is a first part of what its user can say. -/
theorem ConnectionSpeaks.sent {c : Connection} (h : ConnectionSpeaks c) :
    c.session.sent <+: (Session.utterances c.session).map Transmission.build := by
  rw [Session.map_build_utterances]
  exact (h.keeps.sentAt.speaksProtocol h.keeps.admitted h.keeps.acknowledged).in_order

/-- The broadcasts of an author are a first part of what its user can say. -/
theorem Speaks.authored {w : State} (h : Speaks w) {k : ℕ} {c : Connection}
    (hk : w.connections[k]? = some c) :
    authored k w.log <+: (Session.utterances c.session).map Transmission.build := by
  have hspeaks := h.connections c (List.mem_of_getElem? hk)
  refine List.IsPrefix.trans ?_ (hspeaks.atServer.trans hspeaks.sent)
  rw [← (h.holds.connections k c hk).authored]
  exact List.prefix_append _ _

/-- Every chunk in the history is a transmission. -/
theorem Speaks.parse {w : State} (h : Speaks w) {entry : ℕ × List Byte}
    (hentry : entry ∈ w.log) : ∃ t, parseTransmission entry.2 = .ok (some t) := by
  obtain ⟨k, chunk⟩ := entry
  have hauthor : k < w.connections.length := h.holds.genuine _ hentry
  have hk : w.connections[k]? = some (w.connections[k]) := List.getElem?_eq_getElem hauthor
  have hmem : chunk ∈ Room.authored k w.log :=
    List.mem_map.mpr ⟨(k, chunk), List.mem_filter.mpr ⟨hentry, by simp⟩, rfl⟩
  obtain ⟨t, ht, hbuild⟩ := List.mem_map.mp ((h.authored hk).subset hmem)
  have hparse := (h.connections _ (List.mem_of_getElem? hk)).parse ht
  rw [hbuild] at hparse
  exact ⟨t, hparse⟩

/-- A client receives chunks of the history from some place on. -/
theorem Speaks.heard {w : State} (h : Speaks w) {c : Connection} (hc : c ∈ w.connections) :
    ∃ i, c.atClient <+: (w.log.drop i).map Prod.snd := by
  obtain ⟨k, hk⟩ := List.getElem?_of_mem hc
  obtain ⟨i, hsent⟩ := (h.holds.connections k c hk).sentBack.suffix
  exact ⟨i, (h.connections c hc).atClient.trans hsent⟩

/-- What is parsed is seen as the transmission that it is. -/
theorem parsed_eq {chunk : List Byte} {t : Option Transmission}
    (h : parseTransmission chunk = .ok t) : parsed chunk = t := by
  rw [parsed, h]

/-- Under the invariant the room has its transcript, part by part. -/
theorem Speaks.transcribed {w : State} (h : Speaks w) : Transcribed w := by
  refine ⟨?_, fun k c hk => ?_, fun c hc => ?_⟩
  · intro entry hentry
    obtain ⟨logged, hlogged, rfl⟩ := List.mem_map.mp hentry
    exact h.holds.genuine logged hlogged
  · have hspeaks := h.connections c (List.mem_of_getElem? hk)
    have hseen : ((Session.utterances c.session).map Transmission.build).map parsed =
        (Session.utterances c.session).map some := by
      rw [List.map_map]
      exact List.map_congr_left fun t ht => parsed_eq (hspeaks.parse ht)
    have hpart := (h.authored hk).map parsed
    rw [hseen] at hpart
    have hfilter : (w.transcript.filter fun entry => entry.1 == k).map Prod.snd =
        (Room.authored k w.log).map parsed := by
      rw [State.transcript, List.filter_map, List.map_map, Room.authored, List.map_map]
      rfl
    rw [hfilter]
    exact hpart
  · obtain ⟨i, hheard⟩ := h.heard hc
    refine ⟨i, ?_⟩
    have hdisplayed := (h.connections c hc).displayed.part.trans (hheard.map parseTransmission)
    have hparsed : ((w.log.drop i).map Prod.snd).map parseTransmission =
        ((w.transcript.drop i).map Prod.snd).map .ok := by
      rw [State.transcript, ← List.map_drop, List.map_map, List.map_map, List.map_map]
      refine List.map_congr_left fun entry hentry => ?_
      obtain ⟨t, ht⟩ := h.parse (List.mem_of_mem_drop hentry)
      dsimp only [Function.comp_apply]
      rw [parsed_eq ht, ht]
    rw [hparsed] at hdisplayed
    exact (List.prefix_map_iff_of_injective fun _ _ h => Except.ok.inj h).mp hdisplayed

/-! ### One step -/

/-- A section of a client keeps its connection in order, with what it then has displayed. -/
theorem ConnectionSpeaks.session {c : Connection} (h : ConnectionSpeaks c)
    {session : Session.State} {act : Session.Action} {chunks : List (List Byte)}
    (hstep : Session.step c.session act = .ok session) (hchunks : chunks <+: c.sentBack)
    (hdisplayed : Session.Displayed session chunks) :
    ConnectionSpeaks { c with session := session, atClient := chunks } := by
  obtain ⟨husername, hlines⟩ := Session.lines_step h.lines hstep
  constructor
  · exact Session.keeps_step h.keeps hstep
  · exact husername ▸ h.username
  · exact husername ▸ h.separated
  · exact hlines
  · exact h.atServer.trans (sent_prefix_step hstep)
  · exact hchunks
  · exact hdisplayed

/-- Nothing that was received holds up the client. -/
theorem Speaks.ready {w : State} (h : Speaks w) {c : Connection} (hc : c ∈ w.connections) :
    Session.Ready c.session := by
  have hspeaks := h.connections c hc
  refine ⟨hspeaks.username, fun chunk hmain => ?_⟩
  have hdisplayed := hspeaks.displayed
  unfold Session.Displayed at hdisplayed
  rw [hmain] at hdisplayed
  have hmem : parseTransmission chunk ∈ c.atClient.map parseTransmission := by
    rw [hdisplayed]
    exact List.mem_append_right _ List.mem_cons_self
  obtain ⟨received, hreceived, hparse⟩ := List.mem_map.mp hmem
  obtain ⟨i, hheard⟩ := h.heard hc
  obtain ⟨entry, hentry, rfl⟩ := List.mem_map.mp (hheard.subset hreceived)
  obtain ⟨t, ht⟩ := h.parse (List.mem_of_mem_drop hentry)
  exact ⟨some t, hparse ▸ ht⟩

/-- A section of a client succeeds, with whatever it has received. -/
theorem Speaks.clientStep_ok {w : State} (h : Speaks w) {k : ℕ} {c : Connection}
    (hk : w.connections[k]? = some c) (chunks : List (List Byte)) (act : Session.Action) :
    ∃ w', w.clientStep k { c with atClient := chunks } act = .ok w' := by
  obtain ⟨session, hstep⟩ := (h.ready (List.mem_of_getElem? hk)).step_ok act
  rw [State.clientStep, hstep]
  exact ⟨_, rfl⟩

/-- A step of the server succeeds, and the room takes it over. -/
theorem Speaks.serverStep_ok {w : State} (h : Speaks w) (act : Server.Action) :
    ∃ server, Server.step w.server act = .ok server ∧
      w.serverStep act = .ok { w with server := server } := by
  obtain ⟨server, hserver⟩ := h.holds.numbersFresh.descriptorsHold.step_ok act
  refine ⟨server, hserver, ?_⟩
  rw [State.serverStep, hserver]
  rfl

/-- No step of the room fails, whoever takes it. -/
theorem Speaks.step_ok {w : State} (h : Speaks w) (act : Action) : ∃ w', step w act = .ok w' := by
  cases act with
  | connect username => exact ⟨_, rfl⟩
  | accept sockfd =>
    obtain ⟨server, -, hserver⟩ := h.serverStep_ok (.accept sockfd)
    rw [step]
    split
    · exact ⟨_, hserver⟩
    · exact ⟨_, rfl⟩
  | serverMain =>
    obtain ⟨server, -, hserver⟩ := h.serverStep_ok .main
    exact ⟨_, hserver⟩
  | serverRecv k n =>
    rw [step, serverRecv]
    split
    · split
      · obtain ⟨server, -, hserver⟩ := h.serverStep_ok (.recv k (nextRead _ _ n))
        dsimp only
        rw [hserver]
        exact ⟨_, rfl⟩
      · exact ⟨_, rfl⟩
    · exact ⟨_, rfl⟩
  | serverRecvEnds k =>
    obtain ⟨server, -, hserver⟩ := h.serverStep_ok (.recv k [])
    exact ⟨_, hserver⟩
  | serverReceiver k =>
    obtain ⟨server, hserver, -⟩ := h.serverStep_ok (.serverReceiver k)
    rw [step, serverReceiver, hserver]
    exact ⟨_, rfl⟩
  | clientRecv k n =>
    rw [step, clientRecv]
    split
    · rename_i c hc
      split
      · exact h.clientStep_ok hc _ _
      · exact ⟨_, rfl⟩
    · exact ⟨_, rfl⟩
  | clientRecvEnds k =>
    rw [step, clientRecvEnds]
    split
    · rename_i c d hc hd
      split
      · exact h.clientStep_ok hc c.atClient _
      · exact ⟨_, rfl⟩
    · exact ⟨_, rfl⟩
  | client k act =>
    rw [step]
    unfold client
    split
    · exact ⟨_, rfl⟩
    · exact ⟨_, rfl⟩
    · rename_i c hrecv hc
      exact h.clientStep_ok hc c.atClient _

/-- The connections stay in order when one of them is replaced by one in order. -/
theorem speaks_setConnection {connections : List Connection} {k : ℕ} {c' : Connection}
    (h : ∀ c ∈ connections, ConnectionSpeaks c) (hconnection : ConnectionSpeaks c') :
    ∀ c ∈ connections.set k c', ConnectionSpeaks c := by
  intro c hc
  rcases List.mem_or_eq_of_mem_set hc with hc | rfl
  · exact h c hc
  · exact hconnection

/-- What a section of a client leaves, with what it then has received and displayed. -/
theorem Speaks.clientStep {w w' : State} (h : Speaks w) {k : ℕ} {c : Connection}
    {act : Session.Action} {chunks : List (List Byte)} (hk : w.connections[k]? = some c)
    (hchunks : chunks <+: c.sentBack)
    (hdisplayed : ∀ session, Session.step c.session act = .ok session →
      Session.Displayed session chunks)
    (hstep : w.clientStep k { c with atClient := chunks } act = .ok w') :
    ∀ c ∈ w'.connections, ConnectionSpeaks c := by
  obtain ⟨session, hsession, rfl⟩ := of_map_eq_ok hstep
  have hspeaks := h.connections c (List.mem_of_getElem? hk)
  exact speaks_setConnection h.connections
    (hspeaks.session hsession hchunks (hdisplayed session hsession))

/-- The transmission that the client receives is pending. -/
theorem speaks_clientRecv {w w' : State} {k n : ℕ} (h : Speaks w)
    (hpiece : ∀ c ∈ w.connections[k]?, ReadsPiece c.sentBack c.atClient n)
    (hstep : clientRecv w k n = .ok w') : ∀ c ∈ w'.connections, ConnectionSpeaks c := by
  unfold clientRecv at hstep
  split at hstep
  · rename_i c hc
    have hspeaks := h.connections c (List.mem_of_getElem? hc)
    split at hstep
    · rename_i hready
      obtain ⟨hrunning, hmain, hsize, hpos, hlength⟩ := hready
      have hnext : (nextRead c.sentBack c.atClient n).length = n := by
        rw [nextRead, List.length_take, Nat.min_eq_left hlength]
      have hsome : nextRead c.sentBack c.atClient n ≠ [] :=
        List.ne_nil_of_length_pos (hpos.trans_eq hnext.symm)
      refine h.clientStep hc (append_nextRead hspeaks.atClient (hpiece c hc))
        (fun session hsession => ?_) hstep
      exact Session.displayed_recv hspeaks.displayed hrunning hmain hsome
        (hnext.trans_le hsize) hsession
    · cases hstep
      exact h.connections
  · cases hstep
    exact h.connections

/-- A section of a client that receives nothing. -/
theorem Speaks.quietStep {w w' : State} (h : Speaks w) {k : ℕ} {c : Connection}
    {act : Session.Action} (hk : w.connections[k]? = some c)
    (hnothing : ∀ chunk, act = .recv chunk → chunk = [])
    (hstep : w.clientStep k c act = .ok w') : ∀ c ∈ w'.connections, ConnectionSpeaks c := by
  have hspeaks := h.connections c (List.mem_of_getElem? hk)
  exact h.clientStep hk hspeaks.atClient
    (fun _ hsession => Session.displayed_step hspeaks.displayed hnothing hsession) hstep

/-- A client that connects has said nothing and heard nothing. -/
theorem connectionSpeaks_new {username : List Byte} (hadmitted : AdmittedUsername username)
    (hseparated : username.getLast? ≠ some 0x3a) : ConnectionSpeaks (newConnection username) where
  keeps := Session.keeps_initial username
  username := hadmitted
  separated := hseparated
  lines := nofun
  atServer := List.prefix_rfl
  atClient := List.prefix_rfl
  displayed := rfl

/-- The transmission that the server receives is the next one. -/
theorem speaks_serverRecv {w w' : State} {k n : ℕ} (h : Speaks w)
    (hpiece : ∀ c ∈ w.connections[k]?, ReadsPiece c.session.sent c.atServer n)
    (hstep : serverRecv w k n = .ok w') : ∀ c ∈ w'.connections, ConnectionSpeaks c := by
  unfold serverRecv at hstep
  split at hstep
  · rename_i c d hc hd
    have hspeaks := h.connections c (List.mem_of_getElem? hc)
    split at hstep
    · obtain ⟨w₁, hserver, rfl⟩ := of_map_eq_ok hstep
      obtain ⟨server, -, rfl⟩ := of_map_eq_ok hserver
      refine speaks_setConnection h.connections ?_
      exact { hspeaks with atServer := append_nextRead hspeaks.atServer (hpiece c hc) }
    · cases hstep
      exact h.connections
  · cases hstep
    exact h.connections

/-- What the server broadcasts is more to receive. -/
theorem speaks_serverReceiver {w w' : State} {k : ℕ} (h : Speaks w)
    (hstep : serverReceiver w k = .ok w') : ∀ c ∈ w'.connections, ConnectionSpeaks c := by
  obtain ⟨server, -, rfl⟩ := of_map_eq_ok hstep
  split
  · rename_i chunk _
    intro c hc
    obtain ⟨j, hj⟩ := List.getElem?_of_mem hc
    rw [getElem?_foldl_broadcastCallback] at hj
    obtain ⟨c', hc', rfl⟩ := Option.map_eq_some_iff.mp hj
    have hspeaks := h.connections c' (List.mem_of_getElem? hc')
    exact { hspeaks with atClient := hspeaks.atClient.trans (List.prefix_append _ _) }
  · exact h.connections

/-- A step of such a run keeps the room in order. -/
theorem speaks_step {w w' : State} {act : Action} (h : Speaks w) (hone : OneByOne w act)
    (hstep : step w act = .ok w') : Speaks w' := by
  refine ⟨holds_step h.holds hone.acceptsFresh hstep, ?_⟩
  cases act with
  | connect username =>
    cases hstep
    split
    · rename_i hadmitted
      exact List.forall_mem_append.mpr ⟨h.connections,
        List.forall_mem_singleton.mpr (connectionSpeaks_new hadmitted hone)⟩
    · exact h.connections
  | accept sockfd =>
    rw [step] at hstep
    split at hstep
    · obtain ⟨server, -, rfl⟩ := of_map_eq_ok hstep
      exact h.connections
    · cases hstep
      exact h.connections
  | serverMain | serverRecvEnds k =>
    rw [step, State.serverStep] at hstep
    obtain ⟨server, -, rfl⟩ := of_map_eq_ok hstep
    exact h.connections
  | serverRecv k n => exact speaks_serverRecv h hone hstep
  | serverReceiver k => exact speaks_serverReceiver h hstep
  | clientRecv k n => exact speaks_clientRecv h hone hstep
  | clientRecvEnds k =>
    rw [step, clientRecvEnds] at hstep
    split at hstep
    · rename_i c d hc hd
      split at hstep
      · exact h.quietStep hc (fun chunk hchunk => (Session.Action.recv.inj hchunk).symm) hstep
      · cases hstep
        exact h.connections
    · cases hstep
      exact h.connections
  | client k act =>
    rw [step] at hstep
    unfold client at hstep
    split at hstep
    · cases hstep
      exact h.connections
    · cases hstep
      exact h.connections
    · rename_i c hrecv hc
      exact h.quietStep hc (fun chunk hchunk => absurd hchunk (hrecv chunk)) hstep

/-- At the start nothing was said and nobody is connected. -/
theorem speaks_initial : Speaks initial := ⟨holds_initial, nofun⟩

/-- In every run in which each `recv` returns one transmission nothing fails, and the room has
one transcript. Like the room it is about calls of `send` that send everything. -/
theorem transcribed_of_meets (acts : List Action) (hone : Meets step OneByOne initial acts) :
    Safely step (fun _ w' => Transcribed w') initial acts := by
  refine safely_of_meets Speaks (fun w act h hcondition => ?_) speaks_initial hone
  obtain ⟨w', hw'⟩ := h.step_ok act
  have hnext := speaks_step h hcondition hw'
  exact ⟨w', hw', hnext.transcribed, hnext⟩

/-- A user `a` joins, then a user `b`, and `a` says hi. -/
def greeting : List Action :=
  [.connect [0x61], .accept 4, .serverMain, .serverMain, .serverReceiver 0, .client 0 .sender,
    .serverRecv 0 7, .serverReceiver 0, .clientRecv 0 7, .client 0 .main, .client 0 .main,
    .client 0 .main, .connect [0x62], .accept 5, .serverMain, .serverMain, .serverReceiver 1,
    .client 0 .sender, .client 0 .sender, .client 0 (.fgets [0x68, 0x69, 0x0a]),
    .client 0 .sender, .serverRecv 0 11, .serverReceiver 0, .clientRecv 1 11, .client 1 .main,
    .client 1 .main]

/-- Everything is transcribed, and what `a` says reaches `b`. -/
theorem transcribed_greeting : Safely step (fun _ w' => Transcribed w') initial greeting :=
  transcribed_of_meets greeting (by decide +kernel)

end NetworkLabs.Chat.Room
