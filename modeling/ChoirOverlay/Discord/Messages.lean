-- SUMMARY: The Discord RPC messages the host builds, and the parsers of the ones it receives.
import ChoirOverlay.Ipc.State
import ChoirOverlay.Ipc.Emoji

/-! # RPC messages -/

namespace Choir

/-- A participant's voice state, as `VOICE_STATE_*` events carry it. -/
structure VoiceState where
  userId : Bytes := []
  nick : Bytes := []
  avatarHash : Bytes := []
  mute : Bool := false
  deaf : Bool := false
  selfMute : Bool := false
  selfDeaf : Bool := false
  deriving DecidableEq, Repr

inductive RpcEvent.Kind where
  | voiceCreate | voiceUpdate | voiceDelete
  | speakingStart | speakingStop
  | channelSelect
  | notification
  deriving DecidableEq, Repr

/-- A parsed inbound event. -/
structure RpcEvent where
  kind : RpcEvent.Kind
  channelId : Bytes := []
  voice : VoiceState := {}
  userId : Bytes := []
  notif : Notification := {}
  deriving DecidableEq, Repr

/-! ## Builders

`nonce` is what `next_nonce` returns at that point. Entries are in key order. -/

def buildAuthorize (scopes : List Bytes) (clientId nonce : Bytes) : Json :=
  .obj [
    (ascii "args", .obj [
      (ascii "client_id", .str clientId),
      (ascii "prompt", .str (ascii "none")),
      (ascii "scopes", .arr (scopes.map .str))]),
    (ascii "cmd", .str (ascii "AUTHORIZE")),
    (ascii "nonce", .str nonce)]

def buildAuthenticate (accessToken nonce : Bytes) : Json :=
  .obj [
    (ascii "args", .obj [(ascii "access_token", .str accessToken)]),
    (ascii "cmd", .str (ascii "AUTHENTICATE")),
    (ascii "nonce", .str nonce)]

def buildSubscribe (evt : String) (args : Json) (nonce : Bytes) : Json :=
  .obj [
    (ascii "args", args),
    (ascii "cmd", .str (ascii "SUBSCRIBE")),
    (ascii "evt", .str (ascii evt)),
    (ascii "nonce", .str nonce)]

def buildUnsubscribe (evt : String) (args : Json) (nonce : Bytes) : Json :=
  .obj [
    (ascii "args", args),
    (ascii "cmd", .str (ascii "UNSUBSCRIBE")),
    (ascii "evt", .str (ascii evt)),
    (ascii "nonce", .str nonce)]

def buildGetSelectedVoiceChannel (nonce : Bytes) : Json :=
  .obj [
    (ascii "args", .obj []),
    (ascii "cmd", .str (ascii "GET_SELECTED_VOICE_CHANNEL")),
    (ascii "nonce", .str nonce)]

private theorem cmd_second (args : Json) (cmd : String) (rest : List (Bytes × Json)) :
    Json.strOr (.obj ((ascii "args", args) :: (ascii "cmd", .str (ascii cmd)) :: rest)) "cmd" =
      ascii cmd := by
  have hargs : (ascii "cmd" == ascii "args") = false := by decide
  simp only [Json.strOr, Json.find?, List.lookup_cons, hargs, beq_self_eq_true]

@[simp] theorem buildAuthorize_cmd (scopes : List Bytes) (clientId nonce : Bytes) :
    (buildAuthorize scopes clientId nonce).strOr "cmd" = ascii "AUTHORIZE" := cmd_second ..

@[simp] theorem buildAuthenticate_cmd (token nonce : Bytes) :
    (buildAuthenticate token nonce).strOr "cmd" = ascii "AUTHENTICATE" := cmd_second ..

@[simp] theorem buildSubscribe_cmd (evt : String) (args : Json) (nonce : Bytes) :
    (buildSubscribe evt args nonce).strOr "cmd" = ascii "SUBSCRIBE" := cmd_second ..

@[simp] theorem buildUnsubscribe_cmd (evt : String) (args : Json) (nonce : Bytes) :
    (buildUnsubscribe evt args nonce).strOr "cmd" = ascii "UNSUBSCRIBE" := cmd_second ..

@[simp] theorem buildGetSelectedVoiceChannel_cmd (nonce : Bytes) :
    (buildGetSelectedVoiceChannel nonce).strOr "cmd" = ascii "GET_SELECTED_VOICE_CHANNEL" :=
  cmd_second ..

/-! ## Parsers -/

/-- The last two bytes of a bidirectional control, all of which start with
    `E2`: U+200E/F, U+202A to U+202E, U+2066 to U+2069. -/
def isBidi (b₁ b₂ : UInt8) : Bool :=
  (b₁ == 0x80 && (b₂ == 0x8E || b₂ == 0x8F || (0xAA ≤ b₂ && b₂ ≤ 0xAE))) ||
    (b₁ == 0x81 && (0xA6 ≤ b₂ && b₂ ≤ 0xA9))

def stripBidiControls : Bytes → Bytes
  | b₀ :: b₁ :: b₂ :: rest =>
    if b₀ = 0xE2 ∧ isBidi b₁ b₂ then stripBidiControls rest
    else b₀ :: stripBidiControls (b₁ :: b₂ :: rest)
  | s => s

def parseVoice (kind : RpcEvent.Kind) (data : Json) : RpcEvent :=
  let user := data.objOrEmpty "user"
  let vs := data.objOrEmpty "voice_state"
  let nick := data.strOr "nick"
  { kind
    voice := {
      userId := user.strOr "id"
      nick := if nick = [] then user.strOr "username" else nick
      avatarHash := user.strOr "avatar"
      mute := vs.boolOr "mute"
      deaf := vs.boolOr "deaf"
      selfMute := vs.boolOr "self_mute"
      selfDeaf := vs.boolOr "self_deaf" } }

def parseSpeaking (kind : RpcEvent.Kind) (data : Json) : RpcEvent :=
  { kind, channelId := data.strOr "channel_id", userId := data.strOr "user_id" }

def parseChannelSelect (data : Json) : RpcEvent :=
  { kind := .channelSelect, channelId := data.strOr "channel_id" }

def parseNotification (data : Json) : RpcEvent :=
  let message := data.objOrEmpty "message"
  let id := message.strOr "id"
  let author := message.objOrEmpty "author"
  { kind := .notification
    userId := author.strOr "id"
    notif := {
      id := if id = [] then data.strOr "channel_id" else id
      title := stripBidiControls (data.strOr "title")
      body := stripBidiControls
        (Emoji.restoreCustomMarkup (data.strOr "body") (message.strOr "content"))
      iconHash := author.strOr "avatar" } }

def parseEvent (frame : Json) : Option RpcEvent :=
  let evt := frame.strOr "evt"
  let data := frame.objOrEmpty "data"
  if frame.strOr "cmd" ≠ ascii "DISPATCH" then none
  else if evt = [] then none
  else if evt = ascii "VOICE_STATE_CREATE" then some (parseVoice .voiceCreate data)
  else if evt = ascii "VOICE_STATE_UPDATE" then some (parseVoice .voiceUpdate data)
  else if evt = ascii "VOICE_STATE_DELETE" then some (parseVoice .voiceDelete data)
  else if evt = ascii "SPEAKING_START" then some (parseSpeaking .speakingStart data)
  else if evt = ascii "SPEAKING_STOP" then some (parseSpeaking .speakingStop data)
  else if evt = ascii "VOICE_CHANNEL_SELECT" then some (parseChannelSelect data)
  else if evt = ascii "NOTIFICATION_CREATE" then some (parseNotification data)
  else none

/-- The result of a `GET_SELECTED_VOICE_CHANNEL` reply. -/
structure SelectedChannel where
  inChannel : Bool := false
  channelId : Bytes := []
  states : List VoiceState := []
  deriving DecidableEq, Repr

def parseSelectedVoiceChannel (frame : Json) : SelectedChannel :=
  let data := frame.objOrEmpty "data"
  let id := data.strOr "id"
  if id = [] then {}
  else
    { inChannel := true
      channelId := id
      states := match data.find? "voice_states" with
        | some (.arr xs) => xs.map fun vs => (parseVoice .voiceCreate vs).voice
        | _ => [] }

theorem parseSelectedVoiceChannel_inChannel (frame : Json) :
    (parseSelectedVoiceChannel frame).inChannel = true ↔
      (parseSelectedVoiceChannel frame).channelId ≠ [] := by
  unfold parseSelectedVoiceChannel
  by_cases h : (frame.objOrEmpty "data").strOr "id" = [] <;> simp [h]

end Choir
