-- SUMMARY: How long the text of a snapshot is, told from the history behind it.
import ChoirOverlay.Host.History
import ChoirOverlay.Json.Size
import Mathlib.Data.List.Dedup

/-!
# The size of a snapshot

What each part of a snapshot takes in its text, and from that the size of the
snapshot a history leads to. The constants are the keys and the punctuation.
-/

namespace Choir

def boolSize (b : Bool) : Nat := if b then 4 else 5

namespace WireSize

def participant (p : Participant) : Nat :=
  97 + stringSize p.userId + stringSize p.displayName + stringSize p.avatarHash +
    boolSize p.speaking + boolSize p.mute + boolSize p.deaf + boolSize p.selfMute +
    boolSize p.selfDeaf

def notification (n : Notification) : Nat :=
  51 + stringSize n.id + stringSize n.title + stringSize n.body + stringSize n.iconHash +
    decimalSize n.createdMs

variable (floatSize : JsonFloat → Nat)

/-- An anchor is one digit. -/
def config (c : AppearanceConfig) : Nat :=
  91 + floatSize c.scale + floatSize c.hdrNits + boolSize c.showAllMembers +
    decimalSize c.toastDurationMs

/-- The users on the call, each once. -/
def usersOnCall (evs : List RpcEvent) : List Bytes :=
  (evs.map fun ev => ev.voice.userId).dedup.filter fun user => History.onCall user evs

/-- The text of the snapshot after a history. -/
def snapshot (h : List OverlayInput) : Nat :=
  let evs := History.sinceSelect h
  84 + stringSize (History.channel h) + boolSize (!(History.channel h).isEmpty) +
    config floatSize (History.config h) +
    sequenceSize (((History.notifications h).reverse.take kMaxNotifications).map notification) +
    sequenceSize ((usersOnCall evs).map fun user => participant (History.participant user evs)) +
    decimalSize (UInt64.ofNat (History.changing h).length).toNat

/-! ## The parts -/

theorem size_participant (p : Participant) : p.toJson.size floatSize = participant p := by
  have hsize : p.toJson.size floatSize = sequenceSize [14 + stringSize p.avatarHash,
      7 + boolSize p.deaf, 15 + stringSize p.displayName, 7 + boolSize p.mute,
      12 + boolSize p.selfDeaf, 12 + boolSize p.selfMute, 11 + boolSize p.speaking,
      10 + stringSize p.userId] := rfl
  rw [hsize]
  simp only [sequenceSize, participant, List.map_cons, List.map_nil, List.sum_cons, List.sum_nil]
  omega

theorem size_notification (n : Notification) : n.toJson.size floatSize = notification n := by
  have hsize : n.toJson.size floatSize = sequenceSize [7 + stringSize n.body,
      13 + decimalSize n.createdMs, 12 + stringSize n.iconHash, 5 + stringSize n.id,
      8 + stringSize n.title] := rfl
  rw [hsize]
  simp only [sequenceSize, notification, List.map_cons, List.map_nil, List.sum_cons, List.sum_nil]
  omega

theorem size_config (c : AppearanceConfig) : c.toJson.size floatSize = config floatSize c := by
  have hanchor (a : Anchor) : a.toJson.size floatSize = 1 := by cases a <;> rfl
  have hsize : c.toJson.size floatSize = sequenceSize [9 + c.anchor.toJson.size floatSize,
      11 + floatSize c.hdrNits, 8 + floatSize c.scale, 19 + boolSize c.showAllMembers,
      15 + c.toastAnchor.toJson.size floatSize, 20 + decimalSize c.toastDurationMs] := rfl
  rw [hsize, hanchor, hanchor]
  simp only [sequenceSize, config, List.map_cons, List.map_nil, List.sum_cons, List.sum_nil]
  omega

theorem size_snapshot (s : Snapshot) : s.toJson.size floatSize =
    84 + stringSize s.channelName + boolSize s.inVoice + config floatSize s.config +
      sequenceSize (s.notifications.map notification) +
      sequenceSize (s.participants.map participant) + decimalSize s.revision.toNat := by
  have hns : Json.sizes floatSize (s.notifications.map Notification.toJson) =
      s.notifications.map notification := by
    rw [Json.sizes_eq_map, List.map_map]
    exact List.map_congr_left fun n _ => size_notification floatSize n
  have hps : Json.sizes floatSize (s.participants.map Participant.toJson) =
      s.participants.map participant := by
    rw [Json.sizes_eq_map, List.map_map]
    exact List.map_congr_left fun p _ => size_participant floatSize p
  have hsize : s.toJson.size floatSize = sequenceSize [15 + stringSize s.channelName,
      9 + s.config.toJson.size floatSize, 11 + boolSize s.inVoice,
      16 + sequenceSize (Json.sizes floatSize (s.notifications.map Notification.toJson)),
      15 + sequenceSize (Json.sizes floatSize (s.participants.map Participant.toJson)),
      11 + decimalSize s.revision.toNat] := rfl
  rw [hsize, hns, hps, size_config]
  -- Only the sum over the six members is taken apart.
  generalize sequenceSize (s.notifications.map notification) = notifications
  generalize sequenceSize (s.participants.map participant) = participants
  simp only [sequenceSize, List.map_cons, List.map_nil, List.sum_cons, List.sum_nil]
  omega

/-! ## The roster of a history -/

theorem sequenceSize_perm {items items' : List Nat} (h : items.Perm items') :
    sequenceSize items = sequenceSize items' := by
  unfold sequenceSize
  rw [(h.map (· + 1)).sum_nat]

theorem mem_usersOnCall {evs : List RpcEvent} {user : Bytes} :
    user ∈ usersOnCall evs ↔ History.onCall user evs = true := by
  simp only [usersOnCall, List.mem_filter, List.mem_dedup, List.mem_map]
  refine and_iff_right_of_imp fun hon => ?_
  obtain ⟨ev, hev, hjoins⟩ := (Presence.present_iff (RpcEvent.joins_not_leaves user)).mp hon
  refine ⟨ev, (List.rtakeWhile_suffix _ _).subset hev, ?_⟩
  unfold RpcEvent.joins at hjoins
  grind

/-- A roster that shows the users on the call takes what they take. -/
theorem size_roster {evs : List RpcEvent} {ps : List Participant} (h : History.Shows evs ps) :
    sequenceSize (ps.map participant) =
      sequenceSize
        ((usersOnCall evs).map fun user => participant (History.participant user evs)) := by
  have hmap : ps.map participant =
      (ps.map (·.userId)).map fun user => participant (History.participant user evs) := by
    rw [List.map_map]
    exact List.map_congr_left fun p hp => congrArg participant (h.fields p hp)
  have hnodup : (ps.map (·.userId)).Nodup :=
    h.ordered.imp fun hlt heq => by rw [heq] at hlt; exact Nat.lt_irrefl _ hlt
  have hperm : (ps.map (·.userId)).Perm (usersOnCall evs) :=
    (List.perm_ext_iff_of_nodup hnodup ((List.nodup_dedup _).filter _)).mpr fun user =>
      (h.mem user).trans mem_usersOnCall.symm
  rw [hmap]
  exact sequenceSize_perm (hperm.map _)

/-- The text of the snapshot after a history is as long as the history says. -/
theorem size_after (h : List OverlayInput) :
    (OverlayState.after h).snap.toJson.size floatSize = snapshot floatSize h := by
  have hd := after_describes h
  rw [size_snapshot, hd.channelName, hd.inVoice, hd.config, hd.notifications, hd.revision,
    size_roster hd.participants]
  rfl

end WireSize

end Choir
