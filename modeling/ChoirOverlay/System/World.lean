-- SUMMARY: The host's server and any number of game processes, joined by sockets.
import ChoirOverlay.Host.StateServer
import ChoirOverlay.Ipc.Stream
import ChoirOverlay.Machine.Run
import ChoirOverlay.Overlay.StateClient

/-!
# Server and clients

Events come in any order. A socket is a lossless queue of bytes each way, and
every read takes as much of it as the event says. Sockets are numbered in the
order the processes open them.
-/

namespace Choir

structure World where
  server : StateServer
  /-- An exception nobody catches has ended the host, and every connection with it. -/
  crashed : Bool := false
  procs : Nat → StateClient
  /-- The socket a process is connected by. -/
  link : Nat → Option Sock := fun _ => none
  /-- What a process wrote and the server has not read. -/
  up : Sock → Bytes := fun _ => []
  /-- Connections the server has not taken yet. -/
  pending : List Sock := []
  nextSock : Sock := 0

namespace World

/-- The host at its start, with the snapshot `main` sets, and the processes. -/
def init (isBlocked : Option (Bytes → Bool)) (snap : Snapshot) (procs : Nat → ProcSelf) :
    World where
  server := { isBlocked, current := snap }
  procs p := { self := procs p }

inductive Event where
  /-- `on_change`: the snapshot is set and broadcast. -/
  | snapshot (snap : Snapshot)
  /-- `avatars.ready`. -/
  | announce (hash path : Bytes) (w h : UInt32)
  /-- A process connects; `written` tells whether its Hello goes out. -/
  | connect (p : Nat) (written : Bool)
  /-- The server takes the next pending connection. -/
  | accept
  /-- The server reads up to `n` bytes off a socket. -/
  | arrive (sock : Sock) (n : Nat)
  /-- The server learns that a socket is gone. -/
  | disconnected (sock : Sock)
  /-- A process reads up to `n` bytes. -/
  | receive (p : Nat) (n : Nat)
  /-- What else may happen to a process: the end of its connection, an
      interrupted read, a stop. -/
  | other (p : Nat) (e : StateClient.Event)

/-- The latest announcement of a hash, with the one before. -/
def Event.announces (hash : Bytes) (before : Option StateServer.AvatarEntry) :
    Event → Option StateServer.AvatarEntry
  | .announce key path w h => if key = hash then some { path, w, h } else before
  | .snapshot _ | .connect .. | .accept | .arrive .. | .disconnected _ | .receive .. | .other .. =>
    before

/-- The latest announcement of a hash in a run. -/
def lastAnnounced (hash : Bytes) (es : List Event) : Option StateServer.AvatarEntry :=
  es.foldl (Event.announces hash) none

/-! ## Steps -/

/-- An operation of the host returns, or takes the host down. -/
def host (r : Except Fault StateServer) (w : World) : World :=
  match r with
  | .ok server => { w with server }
  | .error _ =>
    { w with
      crashed := true
      procs := fun p => (w.procs p).hangUp
      link := fun _ => none }

/-- A process takes a step; what it writes is on its way to the server. -/
def client (lib : JsonLib) (p : Nat) (e : StateClient.Event) (w : World) : World :=
  let c := (w.procs p).step lib e
  { w with
    procs := Function.update w.procs p { c with out := [] }
    link := if c.conn.isSome then w.link else Function.update w.link p none
    up := match w.link p with
      | some sock => Function.update w.up sock (w.up sock ++ c.out)
      | none => w.up }

/-- `connect_once` and the start of `serve`. -/
def connect (lib : JsonLib) (p : Nat) (written : Bool) (w : World) : World :=
  if (w.link p).isSome || (w.procs p).ended then w
  else
    let sock := w.nextSock
    ({ w with
       link := Function.update w.link p (some sock)
       pending := w.pending ++ [sock]
       nextSock := sock + 1 }).client lib p (.connected written)

/-- `on_new_connection`. -/
def accept (w : World) : World :=
  match w.pending with
  | [] => w
  | sock :: rest => { w with server := w.server.onNewConnection sock, pending := rest }

/-- `on_ready_read`, once the connection is taken. -/
def arrive (lib : JsonLib) (sock : Sock) (n : Nat) (w : World) : World :=
  if sock ∈ w.server.clients then
    ({ w with up := Function.update w.up sock ((w.up sock).drop n) }).host
      (w.server.onReadyRead lib sock ((w.up sock).take n))
  else w

/-- `feed`, when the socket has data. -/
def receive (lib : JsonLib) (p : Nat) (n : Nat) (w : World) : World :=
  match w.link p with
  | none => w
  | some sock =>
    let wire := w.server.out sock
    let n := min n kReadLen
    if wire.take n = [] then w
    else
      ({ w with
         server := { w.server with out := Function.update w.server.out sock (wire.drop n) }
       }).client lib p (.readable (.data (wire.take n)))

def step (lib : JsonLib) (w : World) (e : Event) : World :=
  if w.crashed then w
  else match e with
    | .snapshot snap => w.host ((w.server.setSnapshot snap).broadcast lib snap)
    | .announce hash path width height =>
      w.host (w.server.broadcastAvatar lib hash path width height)
    | .connect p written => w.connect lib p written
    | .accept => w.accept
    | .arrive sock n => w.arrive lib sock n
    | .disconnected sock => { w with server := w.server.onDisconnected sock }
    | .receive p n => w.receive lib p n
    | .other p e =>
      match e with
      | .connected _ | .readable (.data (_ :: _)) => w
      | _ => w.client lib p e

end World

end Choir
