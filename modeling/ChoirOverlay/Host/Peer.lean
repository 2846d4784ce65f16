-- SUMMARY: The messages of the peer, and what the client makes of them.
import ChoirOverlay.Host.Run
import ChoirOverlay.Json.Text

/-! # The peer's side -/

namespace Choir

/-- An event, and the reply to a command. -/
def peerDispatch (evt : String) (data : Json) : Json :=
  .obj [(ascii "cmd", .str (ascii "DISPATCH")), (ascii "data", data),
    (ascii "evt", .str (ascii evt))]

def peerReply (cmd : String) (data : Json) : Json :=
  .obj [(ascii "cmd", .str (ascii cmd)), (ascii "data", data)]

def peerReady : Json := peerDispatch "READY" (.obj [])

def peerChannelSelect (id : Bytes) : Json :=
  peerDispatch "VOICE_CHANNEL_SELECT" (.obj [(ascii "channel_id", .str id)])

def peerAuthorize (code : Bytes) : Json := peerReply "AUTHORIZE" (.obj [(ascii "code", .str code)])

def peerAuthenticate : Json := peerReply "AUTHENTICATE" (.obj [])

/-- A user as `voice_states` lists it. -/
def peerUser (id : Bytes) : Json := .obj [(ascii "user", .obj [(ascii "id", .str id)])]

/-- The reply that names a channel and the users in it. -/
def peerSelected (id : Bytes) (users : List Bytes) : Json :=
  peerReply "GET_SELECTED_VOICE_CHANNEL"
    (.obj [(ascii "id", .str id), (ascii "voice_states", .arr (users.map peerUser))])

/-- A message that the library writes is understood as the value it was written
    from. -/
theorem arrival_dump (lib : JsonLib) {j : Json} {text : Bytes} (hj : j.storable)
    (htext : lib.dump j = some text) : arrival lib kOpFrame text = .ofJson kOpFrame j := by
  unfold arrival
  rw [if_neg (by decide +kernel), lib.parse_dump j text hj htext]

private theorem cmd_dispatch (evt : String) (data : Json) :
    (peerDispatch evt data).strOr "cmd" = ascii "DISPATCH" := by
  simp [peerDispatch, Json.strOr, Json.find?]

private theorem evt_dispatch (evt : String) (data : Json) :
    (peerDispatch evt data).strOr "evt" = ascii evt := by
  have hcmd : (ascii "evt" == ascii "cmd") = false := by decide +kernel
  have hdata : (ascii "evt" == ascii "data") = false := by decide +kernel
  simp [peerDispatch, Json.strOr, Json.find?, List.lookup_cons, hcmd, hdata]

private theorem data_dispatch (evt : String) (entries : List (Bytes × Json)) :
    (peerDispatch evt (.obj entries)).objOrEmpty "data" = .obj entries := by
  have hcmd : (ascii "data" == ascii "cmd") = false := by decide +kernel
  simp [peerDispatch, Json.objOrEmpty, Json.find?, List.lookup_cons, hcmd]

/-- Only `DISPATCH` messages are told apart by their event. -/
private theorem ofJson_dispatch (evt : String) (data : Json) :
    Arrival.ofJson kOpFrame (peerDispatch evt data) =
      if ascii evt = ascii "READY" then .ready
      else (parseEvent (peerDispatch evt data)).elim .ignored .event := by
  have hobj : (peerDispatch evt data).isObject = true := rfl
  have h₁ : ascii "DISPATCH" ≠ ascii "AUTHORIZE" := by decide +kernel
  have h₂ : ascii "DISPATCH" ≠ ascii "AUTHENTICATE" := by decide +kernel
  have h₃ : ascii "DISPATCH" ≠ ascii "GET_SELECTED_VOICE_CHANNEL" := by decide +kernel
  rw [Arrival.ofJson, if_neg (not_not.mpr rfl), if_neg (not_not.mpr hobj), cmd_dispatch, if_neg h₁,
    if_neg h₂, if_neg h₃, if_pos rfl, evt_dispatch]
  cases parseEvent (peerDispatch evt data) <;> rfl

theorem ofJson_channelSelect (id : Bytes) :
    Arrival.ofJson kOpFrame (peerChannelSelect id) =
      .event { kind := .channelSelect, channelId := id } := by
  have hready : ascii "VOICE_CHANNEL_SELECT" ≠ ascii "READY" := by decide +kernel
  have hid : Json.strOr (.obj [(ascii "channel_id", .str id)]) "channel_id" = id := by
    simp [Json.strOr, Json.find?]
  rw [peerChannelSelect, ofJson_dispatch, if_neg hready]
  simp only [parseEvent, cmd_dispatch, evt_dispatch, data_dispatch, parseChannelSelect, hid]
  rw [if_neg (not_not.mpr rfl), if_neg (by decide +kernel), if_neg (by decide +kernel),
    if_neg (by decide +kernel), if_neg (by decide +kernel), if_neg (by decide +kernel),
    if_neg (by decide +kernel)]
  rfl

theorem ofJson_selected (id : Bytes) (users : List Bytes) :
    Arrival.ofJson kOpFrame (peerSelected id users) = .selectedReply (peerSelected id users) := by
  have hcmd : (peerSelected id users).strOr "cmd" = ascii "GET_SELECTED_VOICE_CHANNEL" := by
    simp [peerSelected, peerReply, Json.strOr, Json.find?]
  have hobj : (peerSelected id users).isObject = true := rfl
  rw [Arrival.ofJson, if_neg (not_not.mpr rfl), if_neg (not_not.mpr hobj), hcmd,
    if_neg (by decide +kernel), if_neg (by decide +kernel), if_pos rfl]

namespace Host

/-- A `poll` that reads one message. -/
def deliver (j : Json) (env : MsgEnv) : Call :=
  .poll { reads := [.data (IpcTransport.frame kOpFrame (JsonText.text j))], msgs := [env] }

/-- The token endpoint's answer. -/
def tokenReply (token : Bytes) : HttpResponse where
  status := 200
  body := JsonText.text (.obj [(ascii "access_token", .str token)])

/-- A start and the three messages of a login. -/
def login : List Call :=
  [.start {}, deliver peerReady {},
   deliver (peerAuthorize (ascii "code")) { response := tokenReply (ascii "token") },
   deliver peerAuthenticate {}]

end Host

end Choir
