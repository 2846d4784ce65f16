-- SUMMARY: The server of the host: its clients, the frames it takes from them and the ones it sends.
import ChoirOverlay.Ipc.Protocol
import ChoirOverlay.Ipc.State
import ChoirOverlay.Machine.Run
import Mathlib.Data.List.AList
import Mathlib.Logic.Function.Basic

/-!
# StateServer

The sockets are inputs: `life` says at which write one of them fails. A write
that fails emits `disconnected` before it returns, and the handler erases the
entry of the client. An operation that goes on to use the entry is undefined
in C++ and a `Fault` here.
-/

namespace Choir

/-- A `QLocalSocket*`. -/
abbrev Sock := Nat

structure StateServer.Client where
  rbuf : Bytes := []
  /-- Sent Hello, not denylisted. -/
  active : Bool := false
  /-- Denylisted: ignored forever. -/
  inert : Bool := false
  deriving DecidableEq, Repr

structure StateServer.AvatarEntry where
  path : Bytes := []
  w : UInt32 := 0
  h : UInt32 := 0
  deriving DecidableEq, Repr

structure StateServer where
  isBlocked : Option (Bytes → Bool) := none
  clients : AList fun _ : Sock => StateServer.Client := ∅
  current : Snapshot := {}
  avatars : AList fun _ : Bytes => StateServer.AvatarEntry := ∅
  /-- How many writes a socket takes before one fails; `none` if none does. -/
  life : Sock → Option Nat := fun _ => none
  /-- What was written to a socket and is still on its way. -/
  out : Sock → Bytes := fun _ => []

/-- Why an operation does not return. -/
inductive Fault where
  /-- The entry of the client is used after `on_disconnected` erased it. -/
  | dangling (sock : Sock)
  /-- A dump throws and nothing catches it. -/
  | uncaught
  deriving DecidableEq, Repr

/-- The text of a dump that may throw. -/
def orThrow (text : Option Bytes) : Except Fault Bytes :=
  match text with
  | some text => .ok text
  | none => .error .uncaught

namespace StateServer

/-! ## Connections -/

/-- A use of the entry behind a `Client&` or an iterator. -/
def client (sock : Sock) (s : StateServer) : Except Fault Client :=
  match s.clients.lookup sock with
  | some c => .ok c
  | none => .error (.dangling sock)

/-- An assignment through a `Client&`. -/
def setClient (sock : Sock) (c : Client) (s : StateServer) : StateServer :=
  { s with clients := s.clients.insert sock c }

/-- `on_new_connection`, for one pending connection. -/
def onNewConnection (sock : Sock) (s : StateServer) : StateServer :=
  if sock ∈ s.clients then s else s.setClient sock {}

def onDisconnected (sock : Sock) (s : StateServer) : StateServer :=
  { s with clients := s.clients.erase sock }

def sendFrame (sock : Sock) (f : Frame) (s : StateServer) : StateServer :=
  match s.life sock with
  | some 0 => s.onDisconnected sock
  | life =>
    { s with
      life := Function.update s.life sock (life.map (· - 1))
      out := Function.update s.out sock (s.out sock ++ encodeFrame f) }

/-! ## Seeding -/

def avatarPayload (lib : JsonLib) (hash path : Bytes) (w h : UInt32) : Option Bytes :=
  lib.dump (.obj [
    (ascii "h", .int h.toNat),
    (ascii "hash", .str hash),
    (ascii "path", .str path),
    (ascii "w", .int w.toNat)])

/-- The loop of `seed_client`. -/
def seedAvatars (lib : JsonLib) (sock : Sock) :
    List (Sigma fun _ : Bytes => AvatarEntry) → StateServer → Except Fault StateServer
  | [], s => .ok s
  | ⟨hash, entry⟩ :: rest, s => do
    let _ ← s.client sock
    let payload ← orThrow (avatarPayload lib hash entry.path entry.w entry.h)
    seedAvatars lib sock rest (s.sendFrame sock ⟨.avatarReady, payload⟩)

def seedClient (lib : JsonLib) (sock : Sock) (s : StateServer) : Except Fault StateServer := do
  let snapJson ← orThrow (s.current.toJsonStr lib)
  let _ ← s.client sock
  seedAvatars lib sock s.avatars.entries (s.sendFrame sock ⟨.snapshot, snapJson⟩)

/-! ## Hello -/

/-- The string elements of an array field. -/
def argvOf (j : Json) : List Bytes :=
  match j.find? "argv" with
  | some (.arr xs) => xs.filterMap Json.getString?
  | _ => []

/-- `is_blocked_`; without a function nothing is blocked. -/
def blocks (name : Bytes) (s : StateServer) : Bool :=
  s.isBlocked.any fun isBlocked => isBlocked name

/-- `blocked` of `handle_hello`. A malformed Hello has no exe and no arguments. -/
def blocksHello (lib : JsonLib) (payload : Bytes) (s : StateServer) : Bool :=
  match lib.parse payload with
  | some j => s.blocks (j.strOr "exe") || (argvOf j).any fun arg => s.blocks arg
  | none => s.blocks []

/-- The flags `handle_hello` leaves: a client is classified once. -/
def classify (lib : JsonLib) (c : Client) (payload : Bytes) (s : StateServer) : Client :=
  if c.active || c.inert then c
  else if s.blocksHello lib payload then { c with inert := true }
  else { c with active := true }

def handleHello (lib : JsonLib) (sock : Sock) (payload : Bytes) (s : StateServer) :
    Except Fault StateServer := do
  let c ← s.client sock
  if c.active || c.inert then .ok s
  else
    let c := s.classify lib c payload
    let s := s.setClient sock c
    if c.inert then .ok (s.sendFrame sock ⟨.disabled, []⟩) else s.seedClient lib sock

/-! ## Inbound frames -/

/-- One frame taken off the buffer. -/
def onFrame (lib : JsonLib) (sock : Sock) (f : Frame) (s : StateServer) :
    Except Fault StateServer :=
  match f.type with
  | .hello => s.handleHello lib sock f.payload
  | .ping => .ok (s.sendFrame sock ⟨.pong, []⟩)
  | .snapshot | .avatarReady | .disabled | .pong | .unknown _ => .ok s

/-- `drain_frames`; `false` asks to drop the connection. Each frame takes bytes
    off the buffer. -/
def drainFrames (lib : JsonLib) (sock : Sock) :
    Nat → StateServer → Except Fault (StateServer × Bool)
  | 0, s => .ok (s, true)
  | fuel + 1, s => do
    let c ← s.client sock
    match tryDecodeFrame c.rbuf with
    | .corrupt => .ok (s, false)
    | .incomplete => .ok (s, decide (c.rbuf.length ≤ kMaxFrameLen))
    | .frame f rest =>
      let s ← (s.setClient sock { c with rbuf := rest }).onFrame lib sock f
      drainFrames lib sock fuel s

/-- `on_ready_read`, with what is read. -/
def onReadyRead (lib : JsonLib) (sock : Sock) (data : Bytes) (s : StateServer) :
    Except Fault StateServer :=
  match s.clients.lookup sock with
  | none => .ok s
  | some c => do
    let rbuf := c.rbuf ++ data
    let (s, keep) ← (s.setClient sock { c with rbuf }).drainFrames lib sock (rbuf.length + 1)
    if keep then .ok s else .ok (s.onDisconnected sock)

/-! ## Broadcasts -/

def setSnapshot (snap : Snapshot) (s : StateServer) : StateServer := { s with current := snap }

/-- The loop over `clients_`. -/
def sendActive (f : Frame) : List Sock → StateServer → Except Fault StateServer
  | [], s => .ok s
  | sock :: rest, s => do
    let c ← s.client sock
    let s := if c.active then s.sendFrame sock f else s
    -- The loop advances from the entry it stands at.
    let _ ← s.client sock
    sendActive f rest s

def broadcast (lib : JsonLib) (snap : Snapshot) (s : StateServer) : Except Fault StateServer := do
  let s := s.setSnapshot snap
  let snapJson ← orThrow (snap.toJsonStr lib)
  s.sendActive ⟨.snapshot, snapJson⟩ s.clients.keys

def broadcastAvatar (lib : JsonLib) (hash path : Bytes) (w h : UInt32) (s : StateServer) :
    Except Fault StateServer := do
  let s := { s with avatars := s.avatars.insert hash { path, w, h } }
  let payload ← orThrow (avatarPayload lib hash path w h)
  s.sendActive ⟨.avatarReady, payload⟩ s.clients.keys

/-! ## What a send changes -/

variable {sock other : Sock} {f : Frame} {s : StateServer}

theorem mem_of_lookup {c : Client} (h : s.clients.lookup sock = some c) : sock ∈ s.clients :=
  AList.lookup_isSome.mp (Option.isSome_iff_exists.mpr ⟨c, h⟩)

theorem client_of_lookup {c : Client} (h : s.clients.lookup sock = some c) :
    s.client sock = .ok c := by
  rw [client, h]

theorem client_of_gone (h : s.clients.lookup sock = none) :
    s.client sock = .error (.dangling sock) := by
  rw [client, h]

theorem sendFrame_dead (h : s.life sock = some 0) :
    s.sendFrame sock f = s.onDisconnected sock := by
  simp only [sendFrame, h]

theorem sendFrame_live (h : s.life sock ≠ some 0) :
    s.sendFrame sock f =
      { s with
        life := Function.update s.life sock ((s.life sock).map (· - 1))
        out := Function.update s.out sock (s.out sock ++ encodeFrame f) } := by
  unfold sendFrame
  split
  · contradiction
  · rfl

theorem sendFrame_clients (h : s.life sock ≠ some 0) :
    (s.sendFrame sock f).clients = s.clients := by
  rw [sendFrame_live h]

/-- Only its own frames move a socket. -/
theorem sendFrame_life_ne (h : other ≠ sock) :
    (s.sendFrame sock f).life other = s.life other := by
  by_cases hlife : s.life sock = some 0
  · rw [sendFrame_dead hlife]
    rfl
  · rw [sendFrame_live hlife]
    exact Function.update_of_ne h _ _

theorem lookup_setClient {c : Client} : (s.setClient sock c).clients.lookup sock = some c :=
  AList.lookup_insert _

theorem lookup_setClient_ne {c : Client} (h : other ≠ sock) :
    (s.setClient sock c).clients.lookup other = s.clients.lookup other :=
  AList.lookup_insert_ne h

/-! ## What returns -/

variable {lib : JsonLib} {s' : StateServer}

theorem orThrow_eq_ok {text : Option Bytes} {payload : Bytes} :
    orThrow text = .ok payload ↔ text = some payload := by
  cases text <;> simp [orThrow]

theorem client_eq_ok {c : Client} : s.client sock = .ok c ↔ s.clients.lookup sock = some c := by
  unfold client
  cases s.clients.lookup sock <;> simp

theorem seedAvatars_cons_ok {hash : Bytes} {entry : AvatarEntry}
    {rest : List (Sigma fun _ : Bytes => AvatarEntry)}
    (hok : s.seedAvatars lib sock (⟨hash, entry⟩ :: rest) = .ok s') :
    ∃ payload, avatarPayload lib hash entry.path entry.w entry.h = some payload ∧
      (s.sendFrame sock ⟨.avatarReady, payload⟩).seedAvatars lib sock rest = .ok s' := by
  rw [seedAvatars] at hok
  obtain ⟨-, -, hok⟩ := Machine.bind_eq_ok.mp hok
  obtain ⟨payload, hpayload, hok⟩ := Machine.bind_eq_ok.mp hok
  exact ⟨payload, orThrow_eq_ok.mp hpayload, hok⟩

theorem seedClient_ok (hok : s.seedClient lib sock = .ok s') :
    ∃ snapJson, s.current.toJsonStr lib = some snapJson ∧
      (s.sendFrame sock ⟨.snapshot, snapJson⟩).seedAvatars lib sock s.avatars.entries =
        .ok s' := by
  rw [seedClient] at hok
  obtain ⟨snapJson, htext, hok⟩ := Machine.bind_eq_ok.mp hok
  obtain ⟨-, -, hok⟩ := Machine.bind_eq_ok.mp hok
  exact ⟨snapJson, orThrow_eq_ok.mp htext, hok⟩

/-- The entry is there before and after the frame is sent. -/
theorem sendActive_cons_ok {rest : List Sock} (hok : s.sendActive f (sock :: rest) = .ok s') :
    ∃ c s₁, s.clients.lookup sock = some c ∧ s₁ = (if c.active then s.sendFrame sock f else s) ∧
      (∃ c', s₁.clients.lookup sock = some c') ∧ s₁.sendActive f rest = .ok s' := by
  rw [sendActive] at hok
  obtain ⟨c, hc, hok⟩ := Machine.bind_eq_ok.mp hok
  obtain ⟨c', hc', hok⟩ := Machine.bind_eq_ok.mp hok
  exact ⟨c, _, client_eq_ok.mp hc, rfl, ⟨c', client_eq_ok.mp hc'⟩, hok⟩

theorem broadcast_ok {snap : Snapshot} (hok : s.broadcast lib snap = .ok s') :
    ∃ snapJson, snap.toJsonStr lib = some snapJson ∧
      (s.setSnapshot snap).sendActive ⟨.snapshot, snapJson⟩ s.clients.keys = .ok s' := by
  rw [broadcast] at hok
  obtain ⟨snapJson, htext, hok⟩ := Machine.bind_eq_ok.mp hok
  exact ⟨snapJson, orThrow_eq_ok.mp htext, hok⟩

theorem broadcastAvatar_ok {hash path : Bytes} {w h : UInt32}
    (hok : s.broadcastAvatar lib hash path w h = .ok s') :
    ∃ payload, avatarPayload lib hash path w h = some payload ∧
      ({ s with avatars := s.avatars.insert hash { path, w, h } } : StateServer).sendActive
        ⟨.avatarReady, payload⟩ s.clients.keys = .ok s' := by
  rw [broadcastAvatar] at hok
  obtain ⟨payload, hpayload, hok⟩ := Machine.bind_eq_ok.mp hok
  exact ⟨payload, orThrow_eq_ok.mp hpayload, hok⟩

end StateServer

end Choir
