import NetworkLabs.Chat.Session
import NetworkLabs.Chat.Descriptors
import NetworkLabs.Foundations.ByteStream

/-!
# The chat room

The server, the clients connected to it and the two byte streams of each connection. TCP
keeps the order of the bytes, but the calls of `recv` may return them cut in any way. A
connection has the number of the `accept` that returns it.
-/

namespace NetworkLabs.Chat.Room

open Foundations

/-- A client with the streams of its connection: what the calls of `recv` in `server_receiver`
returned, what `broadcast_callback` sent and what the calls of `recv` in the client returned.
The client itself records what it sent. -/
structure Connection where
  session : Session.State
  atServer : List (List Byte)
  sentBack : List (List Byte)
  atClient : List (List Byte)

/-- A connection that was just established, with nothing sent in either direction. -/
def newConnection (username : List Byte) : Connection :=
  { session := Session.initial username, atServer := [], sentBack := [], atClient := [] }

/-- The server, the connections and the history of the broadcasts with their authors. -/
structure State where
  server : Server.State
  connections : List Connection
  log : List (ℕ × List Byte)

/-- The server waits for its first client, and nobody is connected. -/
def initial : State := { server := Server.initial, connections := [], log := [] }

/-- `broadcast_callback` for one entry of the queue: `send` reaches the connection whose
descriptor it is. -/
def broadcastCallback (server : Server.State) (chunk : List Byte) (connections : List Connection)
    (sockfd : Option ℕ) : List Connection :=
  connections.mapIdx fun k c =>
    if (server.clients[k]?).any fun d => d.isOpen && sockfd == some d.sockfd then
      { c with sentBack := c.sentBack ++ [chunk] }
    else c

/-- A step of the server that sends nothing, so that no stream of the room changes. -/
def State.serverStep (w : State) (act : Server.Action) : Except Fault State :=
  (Server.step w.server act).map fun server => { w with server := server }

/-- Replace a connection, and leave the others and the server as they are. -/
def State.setConnection (w : State) (k : ℕ) (c : Connection) : State :=
  { w with connections := w.connections.set k c }

/-- A section of a client, which changes nothing but its own session. -/
def State.clientStep (w : State) (k : ℕ) (c : Connection) (act : Session.Action) :
    Except Fault State :=
  (Session.step c.session act).map fun session => w.setConnection k { c with session := session }

/-- `server_receiver` of a client continues, and possibly broadcasts what it has received. -/
def serverReceiver (w : State) (k : ℕ) : Except Fault State :=
  (Server.step w.server (.serverReceiver k)).map fun server =>
    match (w.server.clients[k]?).map Server.Client.thread with
    | some (.broadcasting chunk) =>
      { server := server
        connections := w.server.sockfds.foldl (broadcastCallback w.server chunk) w.connections
        log := w.log ++ [(k, chunk)] }
    | _ => { w with server := server }

/-- `recv` in `server_receiver` returns bytes of the stream, some of those that were sent and
not yet received. -/
def serverRecv (w : State) (k n : ℕ) : Except Fault State :=
  match w.connections[k]?, w.server.clients[k]? with
  | some c, some d =>
    if d.thread = .receiving ∧ n ≤ bufferSize ∧ Readable c.session.sent c.atServer n then
      let chunk := nextRead c.session.sent c.atServer n
      (w.serverStep (.recv k chunk)).map fun w' =>
        w'.setConnection k { c with atServer := c.atServer ++ [chunk] }
    else .ok w
  | _, _ => .ok w

/-- `recv` in the client returns bytes of the stream, some of those that were sent and not yet
received. -/
def clientRecv (w : State) (k n : ℕ) : Except Fault State :=
  match w.connections[k]? with
  | some c =>
    if c.session.exited = false ∧ c.session.main = .recv ∧ n ≤ bufferSize ∧
        Readable c.sentBack c.atClient n then
      let chunk := nextRead c.sentBack c.atClient n
      w.clientStep k { c with atClient := c.atClient ++ [chunk] } (.recv chunk)
    else .ok w
  | none => .ok w

/-- `recv` in the client returns 0 when the server has closed the connection and everything
was read. -/
def clientRecvEnds (w : State) (k : ℕ) : Except Fault State :=
  match w.connections[k]?, w.server.clients[k]? with
  | some c, some d =>
    if d.isOpen = false ∧ unread c.sentBack c.atClient = [] then w.clientStep k c (.recv [])
    else .ok w
  | _, _ => .ok w

/-- What happens in the room. How TCP cuts a stream is up to the number of bytes that `recv`
returns. -/
inductive Action
  /-- A client is started with a username and connects. -/
  | connect (username : List Byte)
  /-- `accept` returns the oldest connection that was not accepted yet. -/
  | accept (sockfd : ℕ)
  /-- `main` of the server continues. -/
  | serverMain
  /-- `recv` in a `server_receiver` returns so many bytes. -/
  | serverRecv (k n : ℕ)
  /-- `recv` in a `server_receiver` returns 0 or -1. -/
  | serverRecvEnds (k : ℕ)
  /-- A `server_receiver` continues. -/
  | serverReceiver (k : ℕ)
  /-- `recv` in a client returns so many bytes. -/
  | clientRecv (k n : ℕ)
  /-- `recv` in a client returns 0. -/
  | clientRecvEnds (k : ℕ)
  /-- A client continues otherwise. -/
  | client (k : ℕ) (act : Session.Action)
  deriving DecidableEq

instance (username : List Byte) : Decidable (AdmittedUsername username) :=
  decidable_of_iff
    (username.length ≤ maxUsernameLength ∧ 0 ∉ username ∧ splitDelimiter username = none)
    ⟨fun h => ⟨h.1, h.2.1, h.2.2⟩, fun h => ⟨h.length_le, h.no_nul, h.no_delimiter⟩⟩

/-- A section of a client other than `recv` when it returns bytes or 0. -/
def client (w : State) (k : ℕ) (act : Session.Action) : Except Fault State :=
  match act, w.connections[k]? with
  | .recv _, _ | _, none => .ok w
  | act, some c => w.clientStep k c act

/-- One step of the room, of the server or of one of the clients. -/
def step (w : State) : Action → Except Fault State
  | .connect username =>
    .ok (if AdmittedUsername username then
        { w with connections := w.connections ++ [newConnection username] }
      else w)
  | .accept sockfd =>
    if w.server.clients.length < w.connections.length then w.serverStep (.accept sockfd)
    else .ok w
  | .serverMain => w.serverStep .main
  | .serverRecv k n => serverRecv w k n
  | .serverRecvEnds k => w.serverStep (.recv k [])
  | .serverReceiver k => serverReceiver w k
  | .clientRecv k n => clientRecv w k n
  | .clientRecvEnds k => clientRecvEnds w k
  | .client k act => client w k act

end NetworkLabs.Chat.Room
