-- SUMMARY: The snapshots the host can hold, and which of them come back from their JSON text as they were.
import ChoirOverlay.Discord.Texts
import ChoirOverlay.Host.Config
import ChoirOverlay.Host.History

/-!
# Snapshots the host holds

The events come from the parsers, the appearance from config files of any
content. The one thing such a snapshot can hold that its text cannot is an
infinity, which a number too large for a `float` becomes.
-/

namespace Choir

variable {lib : JsonLib}

/-- An event read off a text: the dispatched one, or one that a
`GET_SELECTED_VOICE_CHANNEL` reply stands for. -/
inductive ParsedFrom (lib : JsonLib) (text : Bytes) : RpcEvent → Prop where
  | dispatch {frame : Json} {ev : RpcEvent} (htext : lib.parse text = some frame)
      (hev : parseEvent frame = some ev) : ParsedFrom lib text ev
  | channel {frame : Json} (htext : lib.parse text = some frame) :
      ParsedFrom lib text { kind := .channelSelect,
                            channelId := (parseSelectedVoiceChannel frame).channelId }
  | user {frame : Json} {v : VoiceState} (htext : lib.parse text = some frame)
      (hv : v ∈ (parseSelectedVoiceChannel frame).states) :
      ParsedFrom lib text { kind := .voiceCreate, voice := v }

/-- What the host feeds its reducer with. -/
inductive HeldInput (lib : JsonLib) where
  /-- An event of a text, and the wall clock it is applied at. -/
  | event (now : Int64) (text : Bytes) (ev : RpcEvent) (hev : ParsedFrom lib text ev)
  /-- The config is loaded from a file with this content. -/
  | config (file : Option Bytes)

def HeldInput.toOverlay : HeldInput lib → OverlayInput
  | .event now _ ev _ => .event now.toInt ev
  | .config file => .setConfig (Config.load lib file).appearance

/-- The snapshot the host holds after these inputs. -/
def held (h : List (HeldInput lib)) : Snapshot :=
  (OverlayState.after (h.map HeldInput.toOverlay)).snap

/-- The file loaded last. -/
def lastFile (h : List (HeldInput lib)) : Option Bytes :=
  (h.filterMap fun
    | .event .. => none
    | .config file => some file).getLast?.join

/-- The number of a field is no larger than a `float`. -/
def Json.fitsSingle : Json → Bool
  | .int n => (JsonFloat.finite n 0).fitsSingle
  | .float x => x.fitsSingle
  | _ => true

/-- The numbers that become the `float` fields of a decoded appearance fit. -/
def AppearanceConfig.sourceFits (j : Json) : Bool :=
  (j.find? "scale").all Json.fitsSingle && (j.find? "hdr_nits").all Json.fitsSingle

/-- A file that leaves the default appearance, or whose `float` fields fit. -/
def Config.fits (lib : JsonLib) (file : Option Bytes) : Bool :=
  (Config.decoded lib file).isNone ||
    ((Config.document lib file).bind Config.appearanceObject).all AppearanceConfig.sourceFits

/-! ## A decoded appearance -/

theorem Json.getFloat?_spec {v : Json} {x : JsonFloat} (h : v.getFloat? = some x) :
    x.narrow = x ∧ (x = .nonFinite ↔ v.fitsSingle = false) := by
  cases v with
  | int n =>
    obtain rfl := Option.some.inj h
    exact ⟨JsonFloat.narrow_narrow _, JsonFloat.narrow_eq_nonFinite _⟩
  | float y =>
    obtain rfl := Option.some.inj h
    exact ⟨JsonFloat.narrow_narrow _, JsonFloat.narrow_eq_nonFinite _⟩
  | bool b =>
    obtain rfl := Option.some.inj h
    refine ⟨?_, by simp [fitsSingle]⟩
    cases b <;> decide +kernel
  | null | str | arr | obj => cases h

theorem Json.getInt32?_range {v : Json} {n : Int} (h : v.getInt32? = some n) :
    -2 ^ 31 ≤ n ∧ n < 2 ^ 31 := by
  obtain ⟨m, -, rfl⟩ := Option.map_eq_some_iff.mp h
  have hle := Int.le_bmod (x := m) (m := 2 ^ 32) (by decide)
  have hlt := Int.bmod_lt (x := m) (m := 2 ^ 32) (by decide)
  omega

/-- What a decoded appearance got its numbers from. -/
theorem AppearanceConfig.fromJson_spec {j : Json} {c : AppearanceConfig}
    (h : AppearanceConfig.fromJson j = some c) :
    (∃ v, j.find? "scale" = some v ∧ v.getFloat? = some c.scale) ∧
      (j.find? "hdr_nits" = none ∧ c.hdrNits = .finite 200 0 ∨
        ∃ v, j.find? "hdr_nits" = some v ∧ v.getFloat? = some c.hdrNits) ∧
      -2 ^ 31 ≤ c.toastDurationMs ∧ c.toastDurationMs < 2 ^ 31 := by
  unfold AppearanceConfig.fromJson at h
  simp only [bind, Option.bind_eq_some_iff, Json.at?, pure] at h
  obtain ⟨-, -, anchor, -, v, hv, scale, hscale, h⟩ := h
  cases hfind : j.find? "hdr_nits" with
  | none =>
    simp only [hfind, Option.bind_eq_some_iff, Option.some.injEq] at h
    obtain ⟨hdrNits, rfl, -, -, members, -, -, -, toast, -, t, -, ms, hms, rfl⟩ := h
    exact ⟨⟨v, hv, hscale⟩, .inl ⟨rfl, rfl⟩, Json.getInt32?_range hms⟩
  | some w =>
    simp only [hfind, Option.bind_eq_some_iff, Option.some.injEq] at h
    obtain ⟨hdrNits, hhdr, -, -, members, -, -, -, toast, -, t, -, ms, hms, rfl⟩ := h
    exact ⟨⟨v, hv, hscale⟩, .inr ⟨w, rfl, hhdr⟩, Json.getInt32?_range hms⟩

theorem AppearanceConfig.narrow_of_fromJson {j : Json} {c : AppearanceConfig}
    (h : AppearanceConfig.fromJson j = some c) : c.Narrow := by
  obtain ⟨⟨v, -, hscale⟩, hhdr, hms⟩ := fromJson_spec h
  refine ⟨(Json.getFloat?_spec hscale).1, ?_, hms⟩
  rcases hhdr with ⟨-, hhdr⟩ | ⟨w, -, hhdr⟩
  · rw [hhdr]
    decide +kernel
  · exact (Json.getFloat?_spec hhdr).1

theorem AppearanceConfig.finite_of_fromJson {j : Json} {c : AppearanceConfig}
    (h : AppearanceConfig.fromJson j = some c) : c.finite = sourceFits j := by
  obtain ⟨⟨v, hv, hscale⟩, hhdr, -⟩ := fromJson_spec h
  have hnum {w : Json} {x : JsonFloat} (hx : w.getFloat? = some x) :
      decide (x ≠ .nonFinite) = w.fitsSingle := by
    rw [Bool.eq_iff_iff, decide_eq_true_iff, ne_eq, (Json.getFloat?_spec hx).2, Bool.not_eq_false]
  rw [finite, sourceFits, hnum hscale, hv]
  rcases hhdr with ⟨hnone, hhdr⟩ | ⟨w, hw, hhdr⟩
  · rw [hhdr, hnone]
    rfl
  · rw [hnum hhdr, hw]
    rfl

theorem AppearanceConfig.narrow_default : AppearanceConfig.Narrow {} where
  scale := by decide +kernel
  hdrNits := by decide +kernel
  toastDurationMs := by decide

namespace Config

variable (lib : JsonLib) (file : Option Bytes)

theorem load_narrow : (load lib file).appearance.Narrow := by
  rw [load_appearance]
  cases h : decoded lib file with
  | none => exact AppearanceConfig.narrow_default
  | some c =>
    obtain ⟨j, -, hj⟩ := Option.bind_eq_some_iff.mp h
    exact AppearanceConfig.narrow_of_fromJson hj

/-- The loaded appearance is finite exactly when the file fits. -/
theorem load_finite : (load lib file).appearance.finite = fits lib file := by
  rw [load_appearance, fits]
  cases h : decoded lib file with
  | none => rfl
  | some c =>
    obtain ⟨j, hdoc, hj⟩ := Option.bind_eq_some_iff.mp h
    rw [hdoc]
    exact AppearanceConfig.finite_of_fromJson hj

end Config

/-! ## What the reducer holds -/

theorem ParsedFrom.utf8 (hlib : lib.Documented) {text : Bytes} {ev : RpcEvent}
    (h : ParsedFrom lib text ev) : ev.Utf8 := by
  cases h with
  | dispatch htext hev => exact utf8_of_parseEvent (hlib.utf8_of_parse _ _ htext) hev
  | channel htext =>
    exact ⟨(utf8_parseSelectedVoiceChannel (hlib.utf8_of_parse _ _ htext)).1,
      VoiceState.utf8_default, Notification.utf8_default⟩
  | user htext hv =>
    exact ⟨rfl, (utf8_parseSelectedVoiceChannel (hlib.utf8_of_parse _ _ htext)).2 _ hv,
      Notification.utf8_default⟩

theorem OverlayState.updateVoice_utf8 {p : Participant} {v : VoiceState} (hp : validUtf8 p.userId)
    (hv : v.Utf8) : (updateVoice p v).Utf8 := ⟨hp, hv.nick, hv.avatarHash⟩

theorem forall_mem_modify {α : Type} {P : α → Prop} {f : α → α} {l : List α} (hl : ∀ a ∈ l, P a)
    (hf : ∀ a ∈ l, P (f a)) (i : Nat) : ∀ a ∈ l.modify i f, P a := by
  intro a ha
  obtain ⟨j, hj⟩ := List.mem_iff_getElem?.mp ha
  rw [List.getElem?_modify] at hj
  obtain ⟨b, hb, rfl⟩ := Option.map_eq_some_iff.mp hj
  have hmem := List.mem_of_getElem? hb
  by_cases hij : i = j
  · simpa [hij] using hf b hmem
  · simpa [hij] using hl b hmem

/-- An event of well-formed texts keeps the texts of the snapshot so. -/
theorem Snapshot.Utf8.apply {s : OverlayState} (hs : s.snap.Utf8) (now : Int) {ev : RpcEvent}
    (hev : ev.Utf8) : (OverlayState.apply now ev s).snap.Utf8 := by
  unfold OverlayState.apply
  cases ev.kind with
  | channelSelect => exact { hs with channelName := hev.channelId, participants := by simp }
  | voiceCreate | voiceUpdate =>
    cases s.index ev.voice.userId with
    | none =>
      refine { hs with participants := fun p hp => ?_ }
      rcases List.mem_append.mp hp with hp | hp
      · exact hs.participants p hp
      · rw [List.mem_singleton.mp hp]
        exact OverlayState.updateVoice_utf8 hev.voice.userId hev.voice
    | some i =>
      refine { hs with participants := forall_mem_modify hs.participants (fun p hp => ?_) i }
      exact OverlayState.updateVoice_utf8 (hs.participants p hp).userId hev.voice
  | voiceDelete =>
    cases s.index ev.voice.userId with
    | none => exact hs
    | some i =>
      exact { hs with participants := fun p hp => hs.participants p (List.mem_of_mem_eraseIdx hp) }
  | speakingStart | speakingStop =>
    cases s.index ev.userId with
    | none => exact hs
    | some i =>
      refine { hs with participants := forall_mem_modify hs.participants (fun p hp => ?_) i }
      exact ⟨(hs.participants p hp).userId, (hs.participants p hp).displayName,
        (hs.participants p hp).avatarHash⟩
  | notification =>
    refine { hs with notifications := fun n hn => ?_ }
    rcases List.mem_cons.mp (List.mem_of_mem_take hn) with rfl | hn
    · exact ⟨hev.notif.id, hev.notif.title, hev.notif.body, hev.notif.iconHash⟩
    · exact hs.notifications n hn

theorem Snapshot.WellFormed.apply {s : OverlayState} (hs : s.snap.WellFormed) (now : Int64)
    {ev : RpcEvent} (hev : ev.Utf8) : (OverlayState.apply now.toInt ev s).snap.WellFormed := by
  obtain ⟨hnotifications, hconfig⟩ := apply_notification now.toInt ev s
  have hlo := now.le_toInt
  have hhi := now.toInt_lt
  refine { hs.toUtf8.apply now.toInt hev with
    created := ?_, config := by rw [hconfig]; exact hs.config }
  rw [hnotifications]
  split
  · intro n hn
    rcases List.mem_cons.mp (List.mem_of_mem_take hn) with rfl | hn
    · exact ⟨hlo, hhi⟩
    · exact hs.created n hn
  · exact hs.created

theorem Snapshot.utf8_default : Snapshot.Utf8 {} :=
  ⟨rfl, List.forall_mem_nil _, List.forall_mem_nil _⟩

/-- Whatever the host holds is well-formed. -/
theorem held_wellFormed (hlib : lib.Documented) (h : List (HeldInput lib)) :
    (held h).WellFormed := by
  induction h using List.reverseRecOn with
  | nil =>
    exact ⟨Snapshot.utf8_default, List.forall_mem_nil _, AppearanceConfig.narrow_default⟩
  | append_singleton h a ih =>
    unfold held at ih ⊢
    rw [List.map_append, List.map_singleton, after_concat]
    cases a with
    | event now text ev hev => exact ih.apply now (hev.utf8 hlib)
    | config file => exact { ih with config := Config.load_narrow lib file }

/-- The appearance is that of the last file. -/
theorem held_config (h : List (HeldInput lib)) :
    (held h).config = (Config.load lib (lastFile h)).appearance := by
  induction h using List.reverseRecOn with
  | nil => rfl
  | append_singleton h a ih =>
    unfold held at ih ⊢
    rw [List.map_append, List.map_singleton, after_concat]
    cases a with
    | event now text ev hev =>
      have hfile : lastFile (h ++ [.event now text ev hev]) = lastFile h := by simp [lastFile]
      rw [hfile, ← ih]
      exact (apply_notification now.toInt ev _).2
    | config file =>
      have hfile : lastFile (h ++ [.config file]) = file := by simp [lastFile]
      rw [hfile]
      rfl

/-- A snapshot the host holds comes back from its text as it was exactly when
the `float` fields of the config file loaded last fit. -/
theorem held_roundTrips_iff (hlib : lib.Documented) (h : List (HeldInput lib)) :
    (held h).RoundTrips lib ↔ Config.fits lib (lastFile h) = true := by
  rw [Snapshot.roundTrips_iff hlib (held_wellFormed hlib h), held_config, Config.load_finite]

/-- A config file with this `scale`. -/
def fileWithScale (scale : String) : Bytes :=
  ascii "\x7b\"appearance\":\x7b\"anchor\":4,\"scale\":" ++ ascii scale ++
    ascii ",\"show_all_members\":true,\"toast_anchor\":1,\"toast_duration_ms\":5000\x7d\x7d"

/-- A member of the channel. -/
def memberEvent : RpcEvent :=
  { kind := .voiceCreate, voice := { userId := ascii "7", nick := ascii "ann" } }

def memberFrame : Json := .obj [(ascii "cmd", .str (ascii "DISPATCH")),
  (ascii "data", .obj [(ascii "nick", .str (ascii "ann")),
    (ascii "user", .obj [(ascii "id", .str (ascii "7"))])]),
  (ascii "evt", .str (ascii "VOICE_STATE_CREATE"))]

theorem parsed_memberEvent : ParsedFrom compactJson (JsonText.text memberFrame) memberEvent :=
  .dispatch (compactJson.parse_dump memberFrame _ (by decide) rfl) (by decide +kernel)

/-- A member under a config file that asks for a smaller overlay. -/
theorem held_roundTrips_session :
    ∃ h : List (HeldInput compactJson), lastFile h = some (fileWithScale "8e-1") ∧
      (held h).config.scale = .finite 800000011920928955078125 (-24) ∧
      (held h).participants.map (·.displayName) = [ascii "ann"] ∧
      (held h).RoundTrips compactJson := by
  let h : List (HeldInput compactJson) :=
    [.config (some (fileWithScale "8e-1")), .event 1000 _ memberEvent parsed_memberEvent]
  have hfits : Config.fits compactJson (lastFile h) = true := by decide +kernel
  exact ⟨h, rfl, by decide +kernel, by decide +kernel,
    (held_roundTrips_iff compactJson_documented h).mpr hfits⟩

/-- A scale that no `float` holds: the snapshot is written with a `null`, which
every overlay refuses. -/
theorem hugeScale_not_roundTrips :
    ¬ ∀ (lib : JsonLib), lib.Documented → ∀ h : List (HeldInput lib), (held h).RoundTrips lib := by
  intro hall
  have hround := hall compactJson compactJson_documented [.config (some (fileWithScale "1e39"))]
  rw [Snapshot.roundTrips_iff compactJson_documented
    (held_wellFormed compactJson_documented _)] at hround
  exact absurd hround (by decide +kernel)

end Choir
