import NetworkLabs.Foundations.LockOrder

/-!
# The mutexes of the sender module

The functions of `mrt_sender.c` as programs over their mutexes. The tests on the data of a
connection are left open, and so is the connection that a look-up in `connections_q` finds.
-/

namespace NetworkLabs.Mrt.Locks

open Foundations Foundations.Cmd

/-- `q_lock` and the mutexes of a connection, which is known by a number. -/
inductive Mutex where
  | qLock
  | receiverLock (conn : ℕ)
  | bufferLock (conn : ℕ)
  | outgoingLock (conn : ℕ)
  | timeoutLock (conn : ℕ)
  | closeLock (conn : ℕ)
  deriving DecidableEq, Repr

open Mutex

/-- A part of the sender module, over its mutexes and with a connection as what a
look-up gives. -/
abbrev Part : Type := Cmd Mutex ℕ

/-- `if (test) { unlock; exit }` in the middle of a critical section. -/
def leaveIf (m : Mutex) (exit : Part) : Part := branch (block [unlock m, exit]) skip

/-- `mrt_connect`. If `make_q` fails it returns with `q_lock` held, so that it is not ordered
then. -/
def mrtConnect (makeQFails : Bool) : Part :=
  block [
    lock qLock,
    branch (if makeQFails then returnNow else skip) skip,
    unlock qLock,
    -- connection_t_init fails
    branch returnNow skip,
    choose fun conn => block [
      lock qLock, unlock qLock,
      -- pthread_create fails
      branch returnNow skip,
      loop (block [
        lock (receiverLock conn), leaveIf (receiverLock conn) breakLoop,
        unlock (receiverLock conn),
        lock (outgoingLock conn), unlock (outgoingLock conn)]),
      returnNow]]

/-- The look-up of `mrt_send` and `mrt_disconnect`, with what they do with the connection
it finds; they return when it finds none. -/
def lookup (found : ℕ → Part) : Part :=
  block [lock qLock, choose fun conn => block [leaveIf qLock returnNow, unlock qLock, found conn]]

/-- `mrt_send`, which takes `buffer_lock` within `receiver_lock` for the number of the last
buffered fragment. -/
def mrtSend : Part :=
  block [
    lookup fun conn => block [
      lock (receiverLock conn), lock (bufferLock conn),
      unlock (bufferLock conn), unlock (receiverLock conn)],
    loop (lookup fun conn => block [
      lock (receiverLock conn), leaveIf (receiverLock conn) breakLoop,
      unlock (receiverLock conn),
      -- everything is copied, or another payload is
      branch (block [lock (bufferLock conn), unlock (bufferLock conn)]) continueLoop]),
    returnNow]

/-- `mrt_disconnect`; after its loop it uses the connection that the last look-up found. -/
def mrtDisconnect : Part :=
  block [
    lookup fun _ => skip,
    loop (lookup fun conn => block [
      lock (bufferLock conn), leaveIf (bufferLock conn) breakLoop, unlock (bufferLock conn)]),
    choose fun conn => block [
      lock (outgoingLock conn), unlock (outgoingLock conn),
      lock (timeoutLock conn), unlock (timeoutLock conn)]]

/-- `case MRT_ADAT` of `handler`, which keeps `receiver_lock` while it takes `buffer_lock`, if
it does. -/
def adat (conn : ℕ) : Part :=
  block [
    lock (timeoutLock conn), unlock (timeoutLock conn),
    lock (receiverLock conn),
    branch (block [lock (bufferLock conn), unlock (bufferLock conn)]) skip,
    unlock (receiverLock conn)]

/-- `handler`, with the removal of the connection behind its loop. It holds no lock while it
joins the other two threads. -/
def handler (conn : ℕ) : Part :=
  block [
    loop (block [
      lock (closeLock conn), leaveIf (closeLock conn) breakLoop, unlock (closeLock conn),
      -- the checksum does not match
      branch continueLoop skip,
      branch (block [lock (receiverLock conn), unlock (receiverLock conn)])
        (branch (adat conn)
          (branch (block [lock (timeoutLock conn), unlock (timeoutLock conn)])
            continueLoop))]),
    -- both threads are joined
    lock qLock, unlock qLock,
    returnNow]

/-- `sender`, which holds three locks at once while it sends a payload. -/
def sender (conn : ℕ) : Part :=
  block [
    loop (block [
      lock (closeLock conn), leaveIf (closeLock conn) breakLoop, unlock (closeLock conn),
      lock (receiverLock conn), lock (bufferLock conn),
      branch
        (block [
          unlock (bufferLock conn), unlock (receiverLock conn),
          lock (outgoingLock conn), unlock (outgoingLock conn),
          continueLoop])
        (block [
          lock (outgoingLock conn), unlock (outgoingLock conn),
          unlock (bufferLock conn), unlock (receiverLock conn)])]),
    returnNow]

/-- `checker`, which lets go of `timeout_lock` before it takes `close_lock`. -/
def checker (conn : ℕ) : Part :=
  block [
    loop (block [
      lock (timeoutLock conn),
      branch
        (block [
          unlock (timeoutLock conn),
          lock (closeLock conn), unlock (closeLock conn),
          breakLoop])
        skip,
      unlock (timeoutLock conn),
      continueLoop]),
    returnNow]

/-- The threads of the module: user calls, and the three threads of each connection. -/
inductive Program where
  | mrtConnect
  | mrtSend
  | mrtDisconnect
  | handler (conn : ℕ)
  | sender (conn : ℕ)
  | checker (conn : ℕ)
  deriving DecidableEq, Repr

/-- What each thread runs, with `make_q` not failing. The calls of a user look their connection
up, and the threads are given one. -/
def Program.code : Program → Part
  | .mrtConnect => Locks.mrtConnect false
  | .mrtSend => Locks.mrtSend
  | .mrtDisconnect => Locks.mrtDisconnect
  | .handler conn => Locks.handler conn
  | .sender conn => Locks.sender conn
  | .checker conn => Locks.checker conn

/-- The order of the nested mutexes; the others are never nested. -/
def rank : Mutex → ℕ
  | .receiverLock _ => 0
  | .bufferLock _ => 1
  | .outgoingLock _ => 2
  | .qLock | .timeoutLock _ | .closeLock _ => 0

attribute [local simp] Cmd.Ordered Cmd.Pre Cmd.block leaveIf lookup rank

/-- `mrt_connect` takes one lock at a time, and holds none where it returns unless
`make_q` fails. -/
theorem ordered_mrtConnect : (mrtConnect false).Ordered rank := by
  simp [mrtConnect]

/-- `mrt_send` takes `buffer_lock` inside `receiver_lock`, and looks for its connection with
nothing else held. -/
theorem ordered_mrtSend : mrtSend.Ordered rank := by
  simp [mrtSend]

/-- `mrt_disconnect` takes one lock at a time, in its loop and behind it. -/
theorem ordered_mrtDisconnect : mrtDisconnect.Ordered rank := by
  simp [mrtDisconnect]

/-- `handler` takes `buffer_lock` inside `receiver_lock` for an `ADAT`, and otherwise one lock at
a time. -/
theorem ordered_handler (conn : ℕ) : (handler conn).Ordered rank := by
  simp [handler, adat]

/-- `sender` takes the locks of its connection from `receiver_lock` to `outgoing_lock`. -/
theorem ordered_sender (conn : ℕ) : (sender conn).Ordered rank := by
  simp [sender]

/-- `checker` takes one lock at a time, and none where it leaves its loop. -/
theorem ordered_checker (conn : ℕ) : (checker conn).Ordered rank := by
  simp [checker]

/-- Every path of the module's functions takes the mutexes in order. -/
theorem ordered_code (p : Program) : p.code.Ordered rank := by
  cases p with
  | mrtConnect => exact ordered_mrtConnect
  | mrtSend => exact ordered_mrtSend
  | mrtDisconnect => exact ordered_mrtDisconnect
  | handler conn => exact ordered_handler conn
  | sender conn => exact ordered_sender conn
  | checker conn => exact ordered_checker conn

/-- However many threads run, no set of them waits for mutexes that it holds itself, and
none holds a mutex where an iteration or the thread ends. -/
theorem locksSafe (actions : List (ThreadAction Program ℕ)) :
    Safely (threadStep Program.code) (fun _ threads => LocksSafe threads) [] actions :=
  safely_of_ordered ordered_code actions

end NetworkLabs.Mrt.Locks
