-- SUMMARY: When a snapshot comes back from its JSON text as it was.
import ChoirOverlay.Ipc.State

/-!
# Snapshots through their text

Everything in a snapshot is written as it can be read back, except a `float`
that is no number: it is written as `null`, which no `float` field accepts.
-/

namespace Choir

/-! ## Well-formed snapshots -/

structure Participant.Utf8 (p : Participant) : Prop where
  userId : validUtf8 p.userId = true
  displayName : validUtf8 p.displayName = true
  avatarHash : validUtf8 p.avatarHash = true

/-- The texts of a notification. -/
structure Notification.Utf8 (n : Notification) : Prop where
  id : validUtf8 n.id = true
  title : validUtf8 n.title = true
  body : validUtf8 n.body = true
  iconHash : validUtf8 n.iconHash = true

/-- The fields hold values of their types. -/
structure AppearanceConfig.Narrow (c : AppearanceConfig) : Prop where
  scale : c.scale.narrow = c.scale
  hdrNits : c.hdrNits.narrow = c.hdrNits
  toastDurationMs : -2 ^ 31 ≤ c.toastDurationMs ∧ c.toastDurationMs < 2 ^ 31

/-- The texts of a snapshot. -/
structure Snapshot.Utf8 (s : Snapshot) : Prop where
  channelName : validUtf8 s.channelName = true
  participants : ∀ p ∈ s.participants, p.Utf8
  notifications : ∀ n ∈ s.notifications, n.Utf8

structure Snapshot.WellFormed (s : Snapshot) : Prop extends s.Utf8 where
  created : ∀ n ∈ s.notifications, -2 ^ 63 ≤ n.createdMs ∧ n.createdMs < 2 ^ 63
  config : s.config.Narrow

def AppearanceConfig.finite (c : AppearanceConfig) : Bool :=
  c.scale ≠ .nonFinite && c.hdrNits ≠ .nonFinite

/-! ## Decoding what was encoded -/

@[simp] theorem Anchor.fromJson_toJson (a : Anchor) : Anchor.fromJson a.toJson = some a := by
  cases a <;> rfl

theorem Participant.fromJson_toJson (p : Participant) : Participant.fromJson p.toJson = some p := by
  rfl

theorem Notification.fromJson_toJson {n : Notification}
    (h : -2 ^ 63 ≤ n.createdMs ∧ n.createdMs < 2 ^ 63) :
    Notification.fromJson n.toJson = some n := by
  have hms : Json.getInt64? (.int n.createdMs) = some n.createdMs :=
    congrArg some (Int.bmod_eq_of_le (by omega) (by omega))
  have hfrom : Notification.fromJson n.toJson =
      (Json.getInt64? (.int n.createdMs)).bind fun createdMs =>
        some { id := n.id, title := n.title, body := n.body, iconHash := n.iconHash, createdMs } :=
    rfl
  rw [hfrom, hms]
  rfl

theorem Json.getFloat?_nullNonFinite {x : JsonFloat} (h : x.narrow = x) :
    Json.getFloat? (Json.float x).nullNonFinite = if x = .nonFinite then none else some x := by
  cases x with
  | nonFinite => rfl
  | finite m e =>
    rw [if_neg (by simp)]
    exact congrArg some h

theorem AppearanceConfig.fromJson_nullNonFinite {c : AppearanceConfig} (h : c.Narrow) :
    AppearanceConfig.fromJson c.toJson.nullNonFinite = if c.finite then some c else none := by
  have hrange := h.toastDurationMs
  have hms : Json.getInt32? (.int c.toastDurationMs) = some c.toastDurationMs :=
    congrArg some (Int.bmod_eq_of_le (by omega) (by omega))
  have hfrom : AppearanceConfig.fromJson c.toJson.nullNonFinite =
      (Anchor.fromJson c.anchor.toJson).bind fun anchor =>
        (Json.getFloat? (Json.float c.scale).nullNonFinite).bind fun scale =>
          (Json.getFloat? (Json.float c.hdrNits).nullNonFinite).bind fun hdrNits =>
            (Anchor.fromJson c.toastAnchor.toJson).bind fun toastAnchor =>
              (Json.getInt32? (.int c.toastDurationMs)).bind fun toastDurationMs =>
                some { anchor, scale, hdrNits, showAllMembers := c.showAllMembers, toastAnchor,
                       toastDurationMs } := rfl
  rw [hfrom, hms, Json.getFloat?_nullNonFinite h.scale, Json.getFloat?_nullNonFinite h.hdrNits]
  simp only [Anchor.fromJson_toJson, AppearanceConfig.finite]
  by_cases hscale : c.scale = .nonFinite
  · simp [hscale]
  · by_cases hhdr : c.hdrNits = .nonFinite
    · simp [hhdr]
    · simp [hscale, hhdr]

theorem mapM_decode {α : Type} {encode : α → Json} {decode : Json → Option α} {xs : List α}
    (h : ∀ x ∈ xs, decode (encode x) = some x) : (xs.map encode).mapM decode = some xs := by
  induction xs with
  | nil => rfl
  | cons x xs ih =>
    obtain ⟨hx, hxs⟩ := List.forall_mem_cons.mp h
    simp [List.mapM_cons, hx, ih hxs]

namespace Snapshot

variable {s : Snapshot}

/-- Only the config has numbers that may be none. -/
theorem toJson_nullNonFinite (s : Snapshot) : s.toJson.nullNonFinite =
    .obj [
      (ascii "channel_name", .str s.channelName),
      (ascii "config", s.config.toJson.nullNonFinite),
      (ascii "in_voice", .bool s.inVoice),
      (ascii "notifications", .arr (s.notifications.map Notification.toJson)),
      (ascii "participants", .arr (s.participants.map Participant.toJson)),
      (ascii "revision", .int s.revision.toNat)] := by
  have hns : Json.nullNonFiniteList (s.notifications.map Notification.toJson) =
      s.notifications.map Notification.toJson := by
    rw [Json.nullNonFiniteList_eq_map, List.map_map]
    rfl
  have hps : Json.nullNonFiniteList (s.participants.map Participant.toJson) =
      s.participants.map Participant.toJson := by
    rw [Json.nullNonFiniteList_eq_map, List.map_map]
    rfl
  simp only [toJson, Json.nullNonFinite, Json.nullNonFiniteEntries, hns, hps]

theorem fromJson_nullNonFinite (h : s.WellFormed) :
    Snapshot.fromJson s.toJson.nullNonFinite = if s.config.finite then some s else none := by
  have hps : (s.participants.map Participant.toJson).mapM Participant.fromJson =
      some s.participants := mapM_decode fun p _ => p.fromJson_toJson
  have hns : (s.notifications.map Notification.toJson).mapM Notification.fromJson =
      some s.notifications :=
    mapM_decode fun n hn => Notification.fromJson_toJson (h.created n hn)
  have hrev : Json.getUInt64? (.int s.revision.toNat) = some s.revision := by
    have hlt : s.revision.toNat < 2 ^ 64 := s.revision.toNat_lt
    have hmod : ((s.revision.toNat : Int) % 2 ^ 64).toNat = s.revision.toNat := by omega
    simp only [Json.getUInt64?, Json.getInt?, Option.map_some, hmod, UInt64.ofNat_toNat]
  rw [toJson_nullNonFinite]
  have hfrom : Snapshot.fromJson (.obj [
      (ascii "channel_name", .str s.channelName),
      (ascii "config", s.config.toJson.nullNonFinite),
      (ascii "in_voice", .bool s.inVoice),
      (ascii "notifications", .arr (s.notifications.map Notification.toJson)),
      (ascii "participants", .arr (s.participants.map Participant.toJson)),
      (ascii "revision", .int s.revision.toNat)]) =
      ((s.participants.map Participant.toJson).mapM Participant.fromJson).bind fun participants =>
        ((s.notifications.map Notification.toJson).mapM Notification.fromJson).bind
          fun notifications =>
            (AppearanceConfig.fromJson s.config.toJson.nullNonFinite).bind fun config =>
              (Json.getUInt64? (.int s.revision.toNat)).bind fun revision =>
                some { inVoice := s.inVoice, channelName := s.channelName, participants,
                       notifications, config, revision } := rfl
  rw [hfrom, hps, hns, AppearanceConfig.fromJson_nullNonFinite h.config, hrev]
  cases s.config.finite <;> rfl

end Snapshot

/-! ## What the text can carry -/

theorem Participant.utf8_toJson {p : Participant} (h : p.Utf8) : p.toJson.utf8 = true := by
  simp only [Participant.toJson, Json.utf8, Json.utf8Entries, h.userId, h.displayName,
    h.avatarHash]
  decide

theorem Notification.utf8_toJson {n : Notification} (h : n.Utf8) : n.toJson.utf8 = true := by
  simp only [Notification.toJson, Json.utf8, Json.utf8Entries, h.id, h.title, h.body, h.iconHash]
  decide

theorem Notification.storable_toJson {n : Notification}
    (h : -2 ^ 63 ≤ n.createdMs ∧ n.createdMs < 2 ^ 63) : n.toJson.storable = true := by
  have hms : decide (-2 ^ 63 ≤ n.createdMs ∧ n.createdMs < 2 ^ 64) = true := by
    simp only [decide_eq_true_eq]
    omega
  simp only [Notification.toJson, Json.storable, Json.storableEntries, hms]
  rfl

theorem AppearanceConfig.storable_nullNonFinite {c : AppearanceConfig} (h : c.Narrow) :
    c.toJson.nullNonFinite.storable = true := by
  have hrange := h.toastDurationMs
  have hms : decide (-2 ^ 63 ≤ c.toastDurationMs ∧ c.toastDurationMs < 2 ^ 64) = true := by
    simp only [decide_eq_true_eq]
    omega
  have hanchor (a : Anchor) : a.toJson.storable = true := by cases a <;> rfl
  have hfloat (x : JsonFloat) (hx : x.narrow = x) :
      (Json.float x).nullNonFinite.storable = true := by
    cases x with
    | nonFinite => rfl
    | finite m e => exact decide_eq_true ⟨fun h => (by cases h), hx⟩
  have hnull : c.toJson.nullNonFinite = .obj [
      (ascii "anchor", c.anchor.toJson),
      (ascii "hdr_nits", (Json.float c.hdrNits).nullNonFinite),
      (ascii "scale", (Json.float c.scale).nullNonFinite),
      (ascii "show_all_members", .bool c.showAllMembers),
      (ascii "toast_anchor", c.toastAnchor.toJson),
      (ascii "toast_duration_ms", .int c.toastDurationMs)] := rfl
  simp only [hnull, Json.storable, Json.storableEntries, hanchor, hfloat _ h.scale,
    hfloat _ h.hdrNits, hms]
  rfl

namespace Snapshot

variable {s : Snapshot}

theorem utf8_nullNonFinite (h : s.Utf8) : s.toJson.nullNonFinite.utf8 = true := by
  have hps : Json.utf8List (s.participants.map Participant.toJson) = true := by
    rw [Json.utf8List_eq_all, List.all_map]
    exact List.all_eq_true.mpr fun p hp => Participant.utf8_toJson (h.participants p hp)
  have hns : Json.utf8List (s.notifications.map Notification.toJson) = true := by
    rw [Json.utf8List_eq_all, List.all_map]
    exact List.all_eq_true.mpr fun n hn => Notification.utf8_toJson (h.notifications n hn)
  have hconfig : s.config.toJson.nullNonFinite.utf8 = true := by
    cases hscale : s.config.scale <;> cases hhdr : s.config.hdrNits <;>
      simp only [AppearanceConfig.toJson, Json.nullNonFinite, hscale, hhdr] <;> rfl
  simp only [toJson_nullNonFinite, Json.utf8, Json.utf8Entries, h.channelName, hps, hns, hconfig]
  rfl

theorem storable_nullNonFinite (h : s.WellFormed) : s.toJson.nullNonFinite.storable = true := by
  have hps : Json.storableList (s.participants.map Participant.toJson) = true := by
    rw [Json.storableList_eq_all, List.all_map]
    exact List.all_eq_true.mpr fun _ _ => rfl
  have hns : Json.storableList (s.notifications.map Notification.toJson) = true := by
    rw [Json.storableList_eq_all, List.all_map]
    exact List.all_eq_true.mpr fun n hn => Notification.storable_toJson (h.created n hn)
  have hlt : s.revision.toNat < 2 ^ 64 := s.revision.toNat_lt
  have hrev : decide (-2 ^ 63 ≤ (s.revision.toNat : Int) ∧ (s.revision.toNat : Int) < 2 ^ 64) =
      true := by
    simp only [decide_eq_true_eq]
    omega
  simp only [toJson_nullNonFinite, Json.storable, Json.storableEntries, hps, hns, hrev,
    AppearanceConfig.storable_nullNonFinite h.config]
  rfl

/-- A well-formed snapshot comes back exactly when its `float` fields are
finite. -/
theorem roundTrips_iff {lib : JsonLib} (hlib : lib.Documented) (h : s.WellFormed) :
    s.RoundTrips lib ↔ s.config.finite = true := by
  obtain ⟨text, htext⟩ := lib.exists_dump (utf8_nullNonFinite h.toUtf8)
  have hback : Snapshot.fromJsonStr lib text = if s.config.finite then some s else none := by
    rw [Snapshot.fromJsonStr, lib.parse_dump _ _ (storable_nullNonFinite h) htext]
    exact fromJson_nullNonFinite h
  have hdump : s.toJsonStr lib = some text := by
    rw [toJsonStr, ← hlib.dump_nullNonFinite, htext]
  constructor
  · rintro ⟨text', htext', hfrom⟩
    obtain rfl : text = text' := Option.some.inj (hdump.symm.trans htext')
    rw [hback] at hfrom
    by_contra hinf
    rw [if_neg hinf] at hfrom
    cases hfrom
  · intro hfinite
    exact ⟨text, hdump, by rw [hback, if_pos hfinite]⟩

end Snapshot

end Choir
