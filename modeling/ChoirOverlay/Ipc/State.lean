-- SUMMARY: The snapshot the host serves to the overlay, and its JSON form.
import ChoirOverlay.Json.Value

/-! # Snapshots -/

namespace Choir

/-- `CenterLeft` and `CenterRight` hug the edge, vertically centred. -/
inductive Anchor where
  | topLeft | topRight | bottomLeft | bottomRight | centerLeft | centerRight
  deriving DecidableEq, Repr

structure Participant where
  userId : Bytes := []
  displayName : Bytes := []
  avatarHash : Bytes := []
  speaking : Bool := false
  mute : Bool := false
  deaf : Bool := false
  selfMute : Bool := false
  selfDeaf : Bool := false
  deriving DecidableEq, Repr

structure Notification where
  id : Bytes := []
  title : Bytes := []
  body : Bytes := []
  iconHash : Bytes := []
  createdMs : Int := 0
  deriving DecidableEq, Repr

structure AppearanceConfig where
  anchor : Anchor := .centerLeft
  scale : JsonFloat := .finite 1 0
  hdrNits : JsonFloat := .finite 200 0
  showAllMembers : Bool := true
  toastAnchor : Anchor := .topRight
  toastDurationMs : Int := 5000
  deriving DecidableEq, Repr

structure Snapshot where
  inVoice : Bool := false
  channelName : Bytes := []
  participants : List Participant := []
  notifications : List Notification := []
  config : AppearanceConfig := {}
  revision : UInt64 := 0
  deriving DecidableEq, Repr

/-! ## Reading numbers

`get` on a number converts by `static_cast`: a float is cut off, an integer is
taken modulo the width of the target, a `float` target rounds. A Boolean counts as 0 or 1 for the
narrow types and is refused for the library's own 64-bit ones. -/

/-- The integer a float is cut off to. -/
def JsonFloat.truncate : JsonFloat → Int
  | .finite m (.ofNat e) => m * 10 ^ e
  | .finite m (.negSucc e) => m.tdiv (10 ^ (e + 1))
  | .nonFinite => 0

/-- The wide integer `get` starts from. -/
def Json.getInt? : Json → Option Int
  | .int n => some n
  | .float x => some x.truncate
  | _ => none

/-- The same for a type narrower than the library's own. -/
def Json.getArithmetic? : Json → Option Int
  | .bool b => some (if b then 1 else 0)
  | j => j.getInt?

def Json.getUInt8? (j : Json) : Option Nat := j.getArithmetic?.map fun n => (n % 2 ^ 8).toNat
def Json.getInt32? (j : Json) : Option Int := j.getArithmetic?.map (Int.bmod · (2 ^ 32))
def Json.getUInt32? (j : Json) : Option UInt32 :=
  j.getArithmetic?.map fun n => UInt32.ofNat (n % 2 ^ 32).toNat
def Json.getInt64? (j : Json) : Option Int := j.getInt?.map (Int.bmod · (2 ^ 64))
def Json.getUInt64? (j : Json) : Option UInt64 :=
  j.getInt?.map fun n => UInt64.ofNat (n % 2 ^ 64).toNat

/-- `get<float>`. -/
def Json.getFloat? : Json → Option JsonFloat
  | .int n => some (JsonFloat.finite n 0).narrow
  | .float x => some x.narrow
  | .bool b => some (.finite (if b then 1 else 0) 0)
  | _ => none

def Json.getBool? : Json → Option Bool
  | .bool b => some b
  | _ => none

def Json.getString? : Json → Option Bytes
  | .str s => some s
  | _ => none

def Json.getArray? : Json → Option (List Json)
  | .arr xs => some xs
  | _ => none

/-- `at(key)`: throws (`none`) without the key. -/
def Json.at? (j : Json) (key : String) : Option Json := j.find? key

/-! ## The JSON form

A decoder that throws is `none`. Entries are written in key order, the order of
the library's `std::map`. -/

def Anchor.toNat : Anchor → Nat
  | .topLeft => 0 | .topRight => 1 | .bottomLeft => 2 | .bottomRight => 3
  | .centerLeft => 4 | .centerRight => 5

/-- The anchor of a byte; out of range it is `TopRight`. -/
def Anchor.ofByte : Nat → Anchor
  | 0 => .topLeft | 1 => .topRight | 2 => .bottomLeft | 3 => .bottomRight
  | 4 => .centerLeft | 5 => .centerRight | _ => .topRight

def Anchor.toJson (a : Anchor) : Json := .int a.toNat

def Anchor.fromJson (j : Json) : Option Anchor := j.getUInt8?.map Anchor.ofByte

def Participant.toJson (p : Participant) : Json :=
  .obj [
    (ascii "avatar_hash", .str p.avatarHash),
    (ascii "deaf", .bool p.deaf),
    (ascii "display_name", .str p.displayName),
    (ascii "mute", .bool p.mute),
    (ascii "self_deaf", .bool p.selfDeaf),
    (ascii "self_mute", .bool p.selfMute),
    (ascii "speaking", .bool p.speaking),
    (ascii "user_id", .str p.userId)]

def Participant.fromJson (j : Json) : Option Participant := do
  let userId ← (← j.at? "user_id").getString?
  let displayName ← (← j.at? "display_name").getString?
  let avatarHash ← (← j.at? "avatar_hash").getString?
  let speaking ← (← j.at? "speaking").getBool?
  let mute ← (← j.at? "mute").getBool?
  let deaf ← (← j.at? "deaf").getBool?
  let selfMute ← (← j.at? "self_mute").getBool?
  let selfDeaf ← (← j.at? "self_deaf").getBool?
  return { userId, displayName, avatarHash, speaking, mute, deaf, selfMute, selfDeaf }

def Notification.toJson (n : Notification) : Json :=
  .obj [
    (ascii "body", .str n.body),
    (ascii "created_ms", .int n.createdMs),
    (ascii "icon_hash", .str n.iconHash),
    (ascii "id", .str n.id),
    (ascii "title", .str n.title)]

def Notification.fromJson (j : Json) : Option Notification := do
  let id ← (← j.at? "id").getString?
  let title ← (← j.at? "title").getString?
  let body ← (← j.at? "body").getString?
  let iconHash ← (← j.at? "icon_hash").getString?
  let createdMs ← (← j.at? "created_ms").getInt64?
  return { id, title, body, iconHash, createdMs }

def AppearanceConfig.toJson (c : AppearanceConfig) : Json :=
  .obj [
    (ascii "anchor", c.anchor.toJson),
    (ascii "hdr_nits", .float c.hdrNits),
    (ascii "scale", .float c.scale),
    (ascii "show_all_members", .bool c.showAllMembers),
    (ascii "toast_anchor", c.toastAnchor.toJson),
    (ascii "toast_duration_ms", .int c.toastDurationMs)]

def AppearanceConfig.fromJson (j : Json) : Option AppearanceConfig := do
  let anchor ← Anchor.fromJson (← j.at? "anchor")
  let scale ← (← j.at? "scale").getFloat?
  -- Added after v1: absent in older configs and snapshots, but an ill-typed value throws.
  let hdrNits ← match j.find? "hdr_nits" with
    | none => some (JsonFloat.finite 200 0)
    | some v => v.getFloat?
  let showAllMembers ← (← j.at? "show_all_members").getBool?
  let toastAnchor ← Anchor.fromJson (← j.at? "toast_anchor")
  let toastDurationMs ← (← j.at? "toast_duration_ms").getInt32?
  return { anchor, scale, hdrNits, showAllMembers, toastAnchor, toastDurationMs }

def Snapshot.toJson (s : Snapshot) : Json :=
  .obj [
    (ascii "channel_name", .str s.channelName),
    (ascii "config", s.config.toJson),
    (ascii "in_voice", .bool s.inVoice),
    (ascii "notifications", .arr (s.notifications.map Notification.toJson)),
    (ascii "participants", .arr (s.participants.map Participant.toJson)),
    (ascii "revision", .int s.revision.toNat)]

def Snapshot.fromJson (j : Json) : Option Snapshot := do
  let inVoice ← (← j.at? "in_voice").getBool?
  let channelName ← (← j.at? "channel_name").getString?
  let participants ← (← (← j.at? "participants").getArray?).mapM Participant.fromJson
  let notifications ← (← (← j.at? "notifications").getArray?).mapM Notification.fromJson
  let config ← AppearanceConfig.fromJson (← j.at? "config")
  let revision ← (← j.at? "revision").getUInt64?
  return { inVoice, channelName, participants, notifications, config, revision }

/-- `to_json_str`; `none` when the dump throws. -/
def Snapshot.toJsonStr (lib : JsonLib) (s : Snapshot) : Option Bytes := lib.dump s.toJson

/-- `from_json_str`; `none` where it returns false. -/
def Snapshot.fromJsonStr (lib : JsonLib) (text : Bytes) : Option Snapshot :=
  (lib.parse text).bind Snapshot.fromJson

/-- The snapshot comes back from its JSON text as it was. -/
def Snapshot.RoundTrips (lib : JsonLib) (s : Snapshot) : Prop :=
  ∃ text, s.toJsonStr lib = some text ∧ Snapshot.fromJsonStr lib text = some s

end Choir
