-- SUMMARY: The overlay's client in a game process: its Hello, the frames it takes and the snapshot it publishes.
import ChoirOverlay.Ipc.Protocol
import ChoirOverlay.Ipc.State

/-!
# StateClient

One thread connects to the host, says Hello and reads frames until the
connection ends. What the kernel does is an input. The client publishes to the
render thread what it last received.
-/

namespace Choir

/-! ## Hello -/

/-- What `/proc/self` says of the process; a file may be missing. -/
structure ProcSelf where
  pid : Int32 := 1
  comm : Option Bytes := none
  cmdline : Bytes := []

/-- `self_exe_name`: the first line of `comm`. -/
def selfExeName (self : ProcSelf) : Bytes :=
  match self.comm with
  | none => ascii "unknown"
  | some bytes =>
    let name := bytes.takeWhile (· ≠ 0x0A)
    if name = [] then ascii "unknown" else name

/-- The loop of `self_argv`, with the argument it is in. -/
def argvFrom (arg : Bytes) : Bytes → List Bytes
  | [] => if arg = [] then [] else [arg]
  | b :: rest =>
    if b = 0 then (if arg = [] then argvFrom [] rest else arg :: argvFrom [] rest)
    else argvFrom (arg ++ [b]) rest

def selfArgv (self : ProcSelf) : List Bytes := argvFrom [] self.cmdline

def hello (self : ProcSelf) : Json :=
  .obj [
    (ascii "argv", .arr ((selfArgv self).map .str)),
    (ascii "exe", .str (selfExeName self)),
    (ascii "pid", .int self.pid.toInt),
    (ascii "proto", .int 1)]

/-- `hello_payload`; `none` when the dump throws. -/
def helloPayload (lib : JsonLib) (self : ProcSelf) : Option Bytes := lib.dump (hello self)

/-! ## State -/

structure AvatarReq where
  hash : Bytes := []
  path : Bytes := []
  w : UInt32 := 0
  h : UInt32 := 0
  deriving DecidableEq, Repr

structure StateClient where
  self : ProcSelf := {}
  latest : Option Snapshot := none
  disabled : Bool := false
  avatars : Bytes → Option AvatarReq := fun _ => none
  /-- The reader of the live connection, if there is one. -/
  conn : Option FrameReader := none
  /-- What was written to the live connection and is still on its way. -/
  out : Bytes := []
  /-- The thread has ended, or taken the process down with it. -/
  ended : Bool := false

/-- `value(key, "")`: throws (`none`) off an object and on another type. -/
def Json.valueString? (j : Json) (key : String) : Option Bytes :=
  if j.isObject then
    match j.find? key with
    | none => some []
    | some v => v.getString?
  else none

/-- `value(key, 0u)`. -/
def Json.valueUInt32? (j : Json) (key : String) : Option UInt32 :=
  if j.isObject then
    match j.find? key with
    | none => some 0
    | some v => v.getUInt32?
  else none

/-- The request in an `AvatarReady` payload. -/
def AvatarReq.fromJsonStr (lib : JsonLib) (payload : Bytes) : Option AvatarReq := do
  let j ← lib.parse payload
  let hash ← j.valueString? "hash"
  let path ← j.valueString? "path"
  let w ← j.valueUInt32? "w"
  let h ← j.valueUInt32? "h"
  return { hash, path, w, h }

namespace StateClient

def avatarFor (hash : Bytes) (c : StateClient) : Option AvatarReq := c.avatars hash

def publish (s : Snapshot) (c : StateClient) : StateClient := { c with latest := some s }

def enqueueAvatar (req : AvatarReq) (c : StateClient) : StateClient :=
  { c with avatars := fun hash => if hash = req.hash then some req else c.avatars hash }

/-! ## Frames -/

/-- One frame. -/
def dispatch (lib : JsonLib) (c : StateClient) (f : Frame) : StateClient :=
  match f.type with
  | .snapshot =>
    match Snapshot.fromJsonStr lib f.payload with
    | some s => c.publish s
    | none => c
  | .avatarReady =>
    match AvatarReq.fromJsonStr lib f.payload with
    | some req => if req.hash ≠ [] ∧ req.path ≠ [] then c.enqueueAvatar req else c
    | none => c
  | .disabled => { c with disabled := true }
  | .ping => { c with out := c.out ++ encodeFrame ⟨.pong, f.payload⟩ }
  | .hello | .pong | .unknown _ => c

/-- The connection ends: `serve` closes it and returns. -/
def hangUp (c : StateClient) : StateClient := { c with conn := none, out := [] }

/-- Take the frames a reader holds; a reader that fails ends the connection. -/
def takeFrames (lib : JsonLib) (r : FrameReader) (c : StateClient) : StateClient :=
  let (frames, r) := r.drain (r.buf.length + 1)
  let c := frames.foldl (dispatch lib) c
  if r.failed then c.hangUp else { c with conn := some r }

/-! ## Events -/

inductive Event where
  /-- `connect_once` fails. -/
  | refused
  /-- `connect_once` succeeds; `written` tells whether the Hello goes out. -/
  | connected (written : Bool)
  /-- `poll` reports the socket, and this is what is read from it. -/
  | readable (read : ReadResult)
  /-- `poll` fails. -/
  | pollError
  /-- The destructor stops the thread. -/
  | stop

def step (lib : JsonLib) (c : StateClient) (e : Event) : StateClient :=
  if c.ended then c
  else match e, c.conn with
    | .connected written, none =>
      match helloPayload lib c.self with
      | none => { c with ended := true }
      | some payload =>
        if written then { c with conn := some {}, out := encodeFrame ⟨.hello, payload⟩ } else c
    | .readable read, some r =>
      let (r, alive) := r.feed read
      if alive then c.takeFrames lib r else c.hangUp
    | .pollError, some _ => c.hangUp
    | .stop, _ => { c.hangUp with ended := true }
    | .refused, _ | .connected _, some _ | .readable _, none | .pollError, none => c

/-- The gate of the renderers, `record_one` and `draw_overlay_for`: a snapshot
    that is in voice. -/
def gate (c : StateClient) : Bool :=
  match c.latest with
  | some s => s.inVoice
  | none => false

end StateClient

/-! ## The arguments of the Hello -/

/-- The pieces between NUL bytes. -/
def splitNul (arg : Bytes) : Bytes → List Bytes
  | [] => [arg]
  | b :: rest => if b = 0 then arg :: splitNul [] rest else splitNul (arg ++ [b]) rest

private theorem argvFrom_eq (arg bytes : Bytes) :
    argvFrom arg bytes = (splitNul arg bytes).filter (· ≠ []) := by
  induction bytes generalizing arg with
  | nil => by_cases h : arg = [] <;> simp [argvFrom, splitNul, h]
  | cons b rest ih =>
    by_cases hb : b = 0
    · by_cases h : arg = [] <;> simp [argvFrom, splitNul, hb, h, ih]
    · simp [argvFrom, splitNul, hb, ih]

/-- `self_argv` lists the non-empty NUL-separated pieces, in order. -/
theorem selfArgv_eq (self : ProcSelf) :
    selfArgv self = (splitNul [] self.cmdline).filter (· ≠ []) := argvFrom_eq [] self.cmdline

end Choir
