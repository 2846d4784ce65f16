-- SUMMARY: The snapshot told from the whole history of events, and that the reducer computes it.
import ChoirOverlay.Host.OverlayState
import ChoirOverlay.Machine.Presence
import ChoirOverlay.Machine.Run
import Mathlib.Data.List.Infix

/-!
# The history behind a snapshot

What a snapshot should show, said of the history of events and config changes,
oldest first. Nothing here is incremental: who is in the roster, in which
order, with which fields and who speaks is read off the events since the last
channel select.
-/

namespace Choir

/-- What an `OverlayState` is given. -/
inductive OverlayInput where
  /-- An event, and what the clock reads when it is applied. -/
  | event (now : Int) (ev : RpcEvent)
  | setConfig (cfg : AppearanceConfig)

def OverlayState.step (s : OverlayState) : OverlayInput → OverlayState
  | .event now ev => apply now ev s
  | .setConfig cfg => setConfig cfg s

/-! ## Reading the history -/

namespace RpcEvent

/-- Puts `user` on the roster, or changes its entry. -/
def joins (user : Bytes) (ev : RpcEvent) : Bool :=
  (ev.kind = .voiceCreate || ev.kind = .voiceUpdate) && ev.voice.userId = user

def leaves (user : Bytes) (ev : RpcEvent) : Bool :=
  ev.kind = .voiceDelete && ev.voice.userId = user

def speaks (user : Bytes) (ev : RpcEvent) : Bool :=
  (ev.kind = .speakingStart || ev.kind = .speakingStop) && ev.userId = user

theorem joins_not_leaves (user : Bytes) (ev : RpcEvent) (h : ev.joins user) : ¬ev.leaves user := by
  unfold joins at h
  unfold leaves
  cases hkind : ev.kind <;> simp [hkind] at h ⊢

end RpcEvent

namespace History

/-- The last voice event of the user is a Create or an Update. -/
def onCall (user : Bytes) (evs : List RpcEvent) : Bool :=
  Presence.present (RpcEvent.joins user) (RpcEvent.leaves user) evs

/-- When the user appeared, or reappeared last. -/
def appearedAt (user : Bytes) (evs : List RpcEvent) : Nat :=
  Presence.start (RpcEvent.joins user) (RpcEvent.leaves user) evs

/-- The last speaking event of the user since then is a start. -/
def speaking (user : Bytes) (evs : List RpcEvent) : Bool :=
  ((Presence.since (RpcEvent.joins user) (RpcEvent.leaves user) evs).filter
    (RpcEvent.speaks user)).getLast?.any fun ev => ev.kind = .speakingStart

/-- What the last Create or Update of the user says. -/
def lastVoice (user : Bytes) (evs : List RpcEvent) : VoiceState :=
  (evs.filter (RpcEvent.joins user)).getLast?.elim {} (·.voice)

def participant (user : Bytes) (evs : List RpcEvent) : Participant :=
  let v := lastVoice user evs
  { userId := user, displayName := v.nick, avatarHash := v.avatarHash,
    speaking := speaking user evs, mute := v.mute, deaf := v.deaf,
    selfMute := v.selfMute, selfDeaf := v.selfDeaf }

/-- A roster that shows the users on the call, in the order they appeared. -/
structure Shows (evs : List RpcEvent) (ps : List Participant) : Prop where
  mem : ∀ user, user ∈ ps.map (·.userId) ↔ onCall user evs = true
  ordered : (ps.map (·.userId)).Pairwise fun u v => appearedAt u evs < appearedAt v evs
  fields : ∀ p ∈ ps, p = participant p.userId evs

def events (h : List OverlayInput) : List RpcEvent :=
  h.filterMap fun
    | .event _ ev => some ev
    | .setConfig _ => none

/-- The channel of the last select. -/
def channel (h : List OverlayInput) : Bytes :=
  ((events h).filter fun ev => ev.kind = .channelSelect).getLast?.elim [] (·.channelId)

/-- The events since the last channel select. -/
def sinceSelect (h : List OverlayInput) : List RpcEvent :=
  (events h).rtakeWhile fun ev => ev.kind ≠ .channelSelect

/-- The notifications, stamped with the clock at receipt. -/
def notifications (h : List OverlayInput) : List Notification :=
  h.filterMap fun
    | .event now ev =>
      if ev.kind = .notification then some { ev.notif with createdMs := now } else none
    | .setConfig _ => none

def config (h : List OverlayInput) : AppearanceConfig :=
  (h.filterMap fun
    | .event _ _ => none
    | .setConfig cfg => some cfg).getLast?.getD {}

/-- The input changes nothing: it takes a user off the roster, or says that one
    speaks, who is not on it. -/
def isNoOp (h : List OverlayInput) : OverlayInput → Bool
  | .event _ ev =>
    match ev.kind with
    | .voiceDelete => !onCall ev.voice.userId (sinceSelect h)
    | .speakingStart | .speakingStop => !onCall ev.userId (sinceSelect h)
    | _ => false
  | .setConfig _ => false

/-- The beginnings of the history that end with an input that changes
    something. -/
def changing (h : List OverlayInput) : List (List OverlayInput) :=
  h.inits.filter fun pre => pre.getLast?.any fun a => !isNoOp pre.dropLast a

/-! ## One more event -/

variable {evs : List RpcEvent} {ev : RpcEvent} {user : Bytes} {ps : List Participant}

theorem onCall_concat (evs : List RpcEvent) (ev : RpcEvent) (user : Bytes) :
    onCall user (evs ++ [ev]) = (ev.joins user || !ev.leaves user && onCall user evs) :=
  Presence.present_concat

theorem appearedAt_lt (h : onCall user evs = true) : appearedAt user evs < evs.length :=
  Presence.start_lt (RpcEvent.joins_not_leaves user) h

theorem appearedAt_concat (h : onCall user evs = true) (hleaves : ev.leaves user = false) :
    appearedAt user (evs ++ [ev]) = appearedAt user evs :=
  Presence.start_concat (RpcEvent.joins_not_leaves user) h hleaves

theorem appearedAt_concat_of_joins (h : onCall user evs = false) (hjoins : ev.joins user = true) :
    appearedAt user (evs ++ [ev]) = evs.length :=
  Presence.start_concat_of_joins (RpcEvent.joins_not_leaves user) h hjoins

theorem speaking_concat (h : onCall user evs = true) (hleaves : ev.leaves user = false) :
    speaking user (evs ++ [ev]) =
      if ev.speaks user then decide (ev.kind = .speakingStart) else speaking user evs := by
  unfold speaking
  rw [Presence.since_concat (RpcEvent.joins_not_leaves user) h hleaves, List.filter_append,
    List.filter_singleton]
  cases ev.speaks user with
  | true => simp
  | false => simp

/-- Who appears does not speak yet. -/
theorem speaking_concat_of_joins (h : onCall user evs = false) (hjoins : ev.joins user = true) :
    speaking user (evs ++ [ev]) = false := by
  unfold speaking
  rw [Presence.since_concat_of_joins (RpcEvent.joins_not_leaves user) h hjoins]
  rfl

theorem lastVoice_concat (evs : List RpcEvent) (ev : RpcEvent) (user : Bytes) :
    lastVoice user (evs ++ [ev]) = if ev.joins user then ev.voice else lastVoice user evs := by
  unfold lastVoice
  rw [List.filter_append, List.filter_singleton]
  cases ev.joins user with
  | true => simp
  | false => simp

/-- An event about others. -/
theorem participant_concat (h : onCall user evs = true) (hjoins : ev.joins user = false)
    (hleaves : ev.leaves user = false) (hspeaks : ev.speaks user = false) :
    participant user (evs ++ [ev]) = participant user evs := by
  simp only [participant, lastVoice_concat, speaking_concat h hleaves, hjoins, hspeaks,
    Bool.false_eq_true, if_false]

namespace Shows

theorem nodup (h : Shows evs ps) : (ps.map (·.userId)).Nodup :=
  h.ordered.imp fun hlt => by
    rintro rfl
    exact absurd hlt (lt_irrefl _)

theorem onCall_of_mem (h : Shows evs ps) {p : Participant} (hp : p ∈ ps) :
    onCall p.userId evs = true := (h.mem _).mp (List.mem_map_of_mem hp)

/-- Who stays keeps the order. -/
theorem ordered_concat (h : Shows evs ps) {users : List Bytes}
    (hsub : users.Sublist (ps.map (·.userId))) (hleaves : ∀ u ∈ users, ev.leaves u = false) :
    users.Pairwise fun u v => appearedAt u (evs ++ [ev]) < appearedAt v (evs ++ [ev]) := by
  refine (h.ordered.sublist hsub).imp_of_mem fun {u v} hu hv hlt => ?_
  rw [appearedAt_concat ((h.mem u).mp (hsub.subset hu)) (hleaves u hu),
    appearedAt_concat ((h.mem v).mp (hsub.subset hv)) (hleaves v hv)]
  exact hlt

/-- An event that is about nobody on the call. -/
theorem other (h : Shows evs ps) (hjoins : ∀ u, ev.joins u = false)
    (hleaves : ∀ u, onCall u evs = true → ev.leaves u = false)
    (hspeaks : ∀ u, onCall u evs = true → ev.speaks u = false) : Shows (evs ++ [ev]) ps := by
  refine ⟨fun u => ?_, ?_, fun p hp => ?_⟩
  · rw [h.mem, onCall_concat, hjoins]
    cases hon : onCall u evs with
    | true => simp [hleaves u hon]
    | false => simp
  · exact h.ordered_concat (List.Sublist.refl _) fun u hu => hleaves u ((h.mem u).mp hu)
  · have hon := h.onCall_of_mem hp
    rw [participant_concat hon (hjoins _) (hleaves _ hon) (hspeaks _ hon)]
    exact h.fields p hp

/-- A user appears. -/
theorem append (h : Shows evs ps) (hon : onCall user evs = false) (hjoins : ev.joins user = true)
    (hothers : ∀ u, u ≠ user → ev.joins u = false) (hleaves : ∀ u, ev.leaves u = false)
    (hspeaks : ∀ u, ev.speaks u = false) :
    Shows (evs ++ [ev]) (ps ++ [participant user (evs ++ [ev])]) := by
  have hmap : (ps ++ [participant user (evs ++ [ev])]).map (·.userId) =
      ps.map (·.userId) ++ [user] := by simp [participant]
  have hne (u : Bytes) (hu : onCall u evs = true) : u ≠ user := by
    rintro rfl
    rw [hon] at hu
    cases hu
  refine ⟨fun u => ?_, ?_, fun p hp => ?_⟩
  · rw [hmap, List.mem_append, h.mem, List.mem_singleton, onCall_concat, hleaves]
    by_cases hu : u = user
    · simp [hu, hjoins]
    · simp [hu, hothers u hu]
  · rw [hmap, List.pairwise_append]
    refine ⟨h.ordered_concat (List.Sublist.refl _) fun u _ => hleaves u, by simp, ?_⟩
    intro u hu v hv
    have honu := (h.mem u).mp hu
    obtain rfl := List.mem_singleton.mp hv
    rw [appearedAt_concat honu (hleaves u), appearedAt_concat_of_joins hon hjoins]
    exact appearedAt_lt honu
  · rcases List.mem_append.mp hp with hp | hp
    · have honp := h.onCall_of_mem hp
      rw [participant_concat honp (hothers _ (hne _ honp)) (hleaves _) (hspeaks _)]
      exact h.fields p hp
    · obtain rfl := List.mem_singleton.mp hp
      rfl

/-- A user leaves. -/
theorem erase (h : Shows evs ps) {i : Nat} (hi : (ps.map (·.userId))[i]? = some user)
    (hjoins : ∀ u, ev.joins u = false) (hleaves : ∀ u, ev.leaves u = decide (u = user))
    (hspeaks : ∀ u, ev.speaks u = false) : Shows (evs ++ [ev]) (ps.eraseIdx i) := by
  have hmap : (ps.eraseIdx i).map (·.userId) = (ps.map (·.userId)).erase user := by
    obtain ⟨hlt, rfl⟩ := List.getElem?_eq_some_iff.mp hi
    rw [h.nodup.erase_getElem i hlt, List.eraseIdx_map]
  have hmem (u : Bytes) :
      u ∈ (ps.eraseIdx i).map (·.userId) ↔ u ≠ user ∧ onCall u evs = true := by
    rw [hmap, h.nodup.mem_erase_iff, h.mem]
  have hstays (u : Bytes) (hu : u ∈ (ps.eraseIdx i).map (·.userId)) : ev.leaves u = false := by
    rw [hleaves, decide_eq_false ((hmem u).mp hu).1]
  refine ⟨fun u => ?_, ?_, fun p hp => ?_⟩
  · rw [hmem, onCall_concat, hjoins, hleaves]
    simp
  · exact h.ordered_concat (hmap ▸ List.erase_sublist) hstays
  · have hpmem : p.userId ∈ (ps.eraseIdx i).map (·.userId) := List.mem_map_of_mem hp
    rw [participant_concat ((hmem _).mp hpmem).2 (hjoins _) (hstays _ hpmem) (hspeaks _)]
    exact h.fields p (List.mem_of_mem_eraseIdx hp)

/-- An event about one user of the roster. -/
theorem modify (h : Shows evs ps) {i : Nat} {f : Participant → Participant}
    (hi : (ps.map (·.userId))[i]? = some user) (hf : ∀ p, (f p).userId = p.userId)
    (hfield : f (participant user evs) = participant user (evs ++ [ev]))
    (hjoins : ∀ u, u ≠ user → ev.joins u = false) (hleaves : ∀ u, ev.leaves u = false)
    (hspeaks : ∀ u, u ≠ user → ev.speaks u = false) : Shows (evs ++ [ev]) (ps.modify i f) := by
  have hmap : (ps.modify i f).map (·.userId) = ps.map (·.userId) := OverlayState.map_modify hf ps i
  have hon : onCall user evs = true := (h.mem user).mp (List.mem_of_getElem? hi)
  refine ⟨fun u => ?_, ?_, fun p hp => ?_⟩
  · rw [hmap, h.mem, onCall_concat, hleaves]
    by_cases hu : u = user
    · simp [hu, hon]
    · simp [hjoins u hu]
  · rw [hmap]
    exact h.ordered_concat (List.Sublist.refl _) fun u _ => hleaves u
  · obtain ⟨j, hj⟩ := List.mem_iff_getElem?.mp hp
    rw [List.getElem?_modify] at hj
    obtain ⟨q, hq, rfl⟩ := Option.map_eq_some_iff.mp hj
    have hqmem : q ∈ ps := List.mem_of_getElem? hq
    have hquser : (ps.map (·.userId))[j]? = some q.userId := by rw [List.getElem?_map, hq]; rfl
    by_cases hij : i = j
    · -- The entry of the user itself.
      obtain rfl : user = q.userId := by
        rw [hij, hquser] at hi
        exact (Option.some.inj hi).symm
      rw [if_pos hij, hf, ← hfield, ← h.fields q hqmem]
    · have hne : q.userId ≠ user := by
        intro heq
        obtain ⟨hlt, -⟩ := List.getElem?_eq_some_iff.mp hi
        rw [heq, ← hi] at hquser
        exact hij ((List.getElem?_inj hlt h.nodup).mp hquser.symm)
      rw [if_neg hij, participant_concat (h.onCall_of_mem hqmem) (hjoins _ hne) (hleaves _)
        (hspeaks _ hne)]
      exact h.fields q hqmem

/-- What the reducer does with an event shows the history with that event. -/
theorem apply {s : OverlayState} (h : Shows evs s.snap.participants) (hindex : s.Indexed)
    (now : Int) (hselect : ev.kind ≠ .channelSelect) :
    Shows (evs ++ [ev]) (OverlayState.apply now ev s).snap.participants := by
  have hunknown {u : Bytes} (hu : s.index u = none) : onCall u evs = false := by
    rw [← Bool.not_eq_true, ← h.mem]
    exact hindex.eq_none.mp hu
  have hne {u v : Bytes} (hu : s.index u = none) (hv : onCall v evs = true) : u ≠ v := by
    rintro rfl
    rw [hunknown hu] at hv
    cases hv
  unfold OverlayState.apply
  cases hkind : ev.kind with
  | channelSelect => exact absurd hkind hselect
  | voiceCreate | voiceUpdate =>
    have hjoins (u : Bytes) : ev.joins u = decide (ev.voice.userId = u) := by
      simp [RpcEvent.joins, hkind]
    have hleaves (u : Bytes) : ev.leaves u = false := by simp [RpcEvent.leaves, hkind]
    have hspeaks (u : Bytes) : ev.speaks u = false := by simp [RpcEvent.speaks, hkind]
    cases hi : s.index ev.voice.userId with
    | none =>
      have happend := h.append (hunknown hi) (by simp [hjoins])
        (fun u hu => by simp [hjoins, Ne.symm hu]) hleaves hspeaks
      have hp : participant ev.voice.userId (evs ++ [ev]) =
          OverlayState.updateVoice { userId := ev.voice.userId } ev.voice := by
        simp [participant, lastVoice_concat, hjoins, OverlayState.updateVoice,
          speaking_concat_of_joins (hunknown hi)]
      rwa [hp] at happend
    | some i =>
      have hget := (hindex _ i).mp hi
      have hon : onCall ev.voice.userId evs = true := (h.mem _).mp (List.mem_of_getElem? hget)
      refine h.modify hget (fun _ => rfl) ?_ (fun u hu => by simp [hjoins, Ne.symm hu]) hleaves
        fun u _ => hspeaks u
      simp [participant, lastVoice_concat, hjoins, OverlayState.updateVoice,
        speaking_concat hon (hleaves _), hspeaks]
  | voiceDelete =>
    have hjoins (u : Bytes) : ev.joins u = false := by simp [RpcEvent.joins, hkind]
    have hleaves (u : Bytes) : ev.leaves u = decide (u = ev.voice.userId) := by
      simp [RpcEvent.leaves, hkind, eq_comm]
    have hspeaks (u : Bytes) : ev.speaks u = false := by simp [RpcEvent.speaks, hkind]
    cases hi : s.index ev.voice.userId with
    | none =>
      refine h.other hjoins (fun u hu => ?_) fun u _ => hspeaks u
      rw [hleaves, decide_eq_false (hne hi hu).symm]
    | some i => exact h.erase ((hindex _ i).mp hi) hjoins hleaves hspeaks
  | speakingStart | speakingStop =>
    have hjoins (u : Bytes) : ev.joins u = false := by simp [RpcEvent.joins, hkind]
    have hleaves (u : Bytes) : ev.leaves u = false := by simp [RpcEvent.leaves, hkind]
    have hspeaks (u : Bytes) : ev.speaks u = decide (ev.userId = u) := by
      simp [RpcEvent.speaks, hkind]
    cases hi : s.index ev.userId with
    | none =>
      refine h.other hjoins (fun u _ => hleaves u) fun u hu => ?_
      rw [hspeaks, decide_eq_false (hne hi hu)]
    | some i =>
      have hget := (hindex _ i).mp hi
      have hon : onCall ev.userId evs = true := (h.mem _).mp (List.mem_of_getElem? hget)
      refine h.modify hget (fun _ => rfl) ?_ (fun u _ => hjoins u) hleaves
        fun u hu => by simp [hspeaks, Ne.symm hu]
      simp [participant, lastVoice_concat, hjoins, OverlayState.setSpeaking,
        speaking_concat hon (hleaves _), hspeaks, hkind]
  | notification =>
    exact h.other (fun u => by simp [RpcEvent.joins, hkind])
      (fun u _ => by simp [RpcEvent.leaves, hkind]) fun u _ => by simp [RpcEvent.speaks, hkind]

end Shows

end History

/-! ## The whole history -/

open History

/-- The state after a history. -/
def OverlayState.after (h : List OverlayInput) : OverlayState := Machine.run step {} h

/-- The state is what the history says. -/
structure Describes (h : List OverlayInput) (s : OverlayState) : Prop where
  inVoice : s.snap.inVoice = !(channel h).isEmpty
  channelName : s.snap.channelName = channel h
  participants : Shows (sinceSelect h) s.snap.participants
  distinct : s.roster.Nodup
  index : s.Indexed
  notifications : s.snap.notifications = (notifications h).reverse.take kMaxNotifications
  config : s.snap.config = config h
  revision : s.snap.revision = UInt64.ofNat (changing h).length
  /-- `on_change` was fired once for every change, with the snapshot after it. -/
  changes : s.changes.reverse = (changing h).map fun pre => (OverlayState.after pre).snap

variable {h : List OverlayInput} {s : OverlayState}

section
variable (h : List OverlayInput) (now : Int) (ev : RpcEvent) (cfg : AppearanceConfig)

theorem events_event : events (h ++ [.event now ev]) = events h ++ [ev] := by simp [events]

theorem events_setConfig : events (h ++ [.setConfig cfg]) = events h := by simp [events]

theorem channel_event :
    channel (h ++ [.event now ev]) =
      if ev.kind = .channelSelect then ev.channelId else channel h := by
  unfold channel
  rw [events_event, List.filter_append, List.filter_singleton]
  by_cases hselect : ev.kind = .channelSelect
  · simp [hselect]
  · simp [hselect]

theorem channel_setConfig : channel (h ++ [.setConfig cfg]) = channel h := by
  rw [channel, events_setConfig, channel]

theorem sinceSelect_event :
    sinceSelect (h ++ [.event now ev]) =
      if ev.kind = .channelSelect then [] else sinceSelect h ++ [ev] := by
  unfold sinceSelect
  rw [events_event, List.rtakeWhile_concat]
  by_cases hselect : ev.kind = .channelSelect
  · simp [hselect]
  · simp [hselect]

theorem sinceSelect_setConfig : sinceSelect (h ++ [.setConfig cfg]) = sinceSelect h := by
  rw [sinceSelect, events_setConfig, sinceSelect]

theorem notifications_event :
    notifications (h ++ [.event now ev]) =
      notifications h ++
        if ev.kind = .notification then [{ ev.notif with createdMs := now }] else [] := by
  unfold notifications
  rw [List.filterMap_append]
  by_cases hnotif : ev.kind = .notification
  · simp [hnotif]
  · simp [hnotif]

theorem notifications_setConfig : notifications (h ++ [.setConfig cfg]) = notifications h := by
  simp [notifications]

theorem config_event : config (h ++ [.event now ev]) = config h := by simp [config]

theorem config_setConfig : config (h ++ [.setConfig cfg]) = cfg := by simp [config]

end

theorem changing_concat (h : List OverlayInput) (a : OverlayInput) :
    changing (h ++ [a]) = changing h ++ if isNoOp h a then [] else [h ++ [a]] := by
  unfold changing
  rw [List.inits_append, List.filter_append]
  cases hnoop : isNoOp h a with
  | true => simp [hnoop]
  | false => simp [hnoop]

/-- An input that changes nothing leaves the state as it is; any other commits
    once. -/
theorem Describes.step_eq (hs : Describes h s) (a : OverlayInput) :
    if isNoOp h a then s.step a = s
    else (s.step a).snap.revision = s.snap.revision + 1 ∧
      (s.step a).changes = (s.step a).snap :: s.changes := by
  have hon (u : Bytes) : onCall u (sinceSelect h) = decide (s.index u ≠ none) := by
    rw [Bool.eq_iff_iff, ← hs.participants.mem, decide_eq_true_iff, ne_eq, hs.index.eq_none,
      not_not]
    rfl
  cases a with
  | setConfig cfg => exact ⟨rfl, rfl⟩
  | event now ev =>
    simp only [isNoOp, OverlayState.step, OverlayState.apply, hon]
    cases ev.kind with
    | channelSelect => exact ⟨rfl, rfl⟩
    | voiceCreate | voiceUpdate => cases s.index ev.voice.userId <;> exact ⟨rfl, rfl⟩
    | voiceDelete => cases hi : s.index ev.voice.userId <;> simp [OverlayState.commit]
    | speakingStart | speakingStop =>
      cases hi : s.index ev.userId <;> simp [OverlayState.commit]
    | notification => exact ⟨rfl, rfl⟩

theorem after_concat (h : List OverlayInput) (a : OverlayInput) :
    OverlayState.after (h ++ [a]) = (OverlayState.after h).step a := Machine.run_append ..

/-- The parts that no event of the session touches. -/
theorem apply_notification (now : Int) (ev : RpcEvent) (s : OverlayState) :
    (OverlayState.apply now ev s).snap.notifications =
        (if ev.kind = .notification then
          ({ ev.notif with createdMs := now } :: s.snap.notifications).take kMaxNotifications
        else s.snap.notifications) ∧
      (OverlayState.apply now ev s).snap.config = s.snap.config := by
  unfold OverlayState.apply
  cases ev.kind with
  | channelSelect => exact ⟨rfl, rfl⟩
  | voiceCreate | voiceUpdate | voiceDelete =>
    cases s.index ev.voice.userId <;> exact ⟨rfl, rfl⟩
  | speakingStart | speakingStop => cases s.index ev.userId <;> exact ⟨rfl, rfl⟩
  | notification => exact ⟨rfl, rfl⟩

theorem shows_nil : Shows [] [] := ⟨by simp [onCall, Presence.present], .nil, nofun⟩

theorem describes_nil : Describes [] {} where
  inVoice := rfl
  channelName := rfl
  participants := shows_nil
  distinct := .nil
  index := OverlayState.indexed_init
  notifications := rfl
  config := rfl
  revision := rfl
  changes := rfl

/-- The revision and the calls of `on_change` count the changes. -/
theorem Describes.changes_step (hs : Describes h (OverlayState.after h)) (a : OverlayInput) :
    (OverlayState.after (h ++ [a])).snap.revision = UInt64.ofNat (changing (h ++ [a])).length ∧
      (OverlayState.after (h ++ [a])).changes.reverse =
        (changing (h ++ [a])).map fun pre => (OverlayState.after pre).snap := by
  have hstep := hs.step_eq a
  rw [changing_concat]
  cases hnoop : isNoOp h a with
  | true =>
    rw [hnoop, if_pos rfl] at hstep
    rw [after_concat, hstep]
    simpa using ⟨hs.revision, hs.changes⟩
  | false =>
    rw [hnoop, if_neg (by simp)] at hstep
    rw [← after_concat] at hstep
    rw [hstep.1, hstep.2, List.reverse_cons, hs.revision, hs.changes]
    simp [UInt64.ofNat_add]

theorem Describes.concat_setConfig (hs : Describes h (OverlayState.after h))
    (cfg : AppearanceConfig) :
    Describes (h ++ [.setConfig cfg]) (OverlayState.after (h ++ [.setConfig cfg])) := by
  have hchanges := hs.changes_step (.setConfig cfg)
  rw [after_concat] at hchanges ⊢
  exact
    { inVoice := hs.inVoice.trans (by rw [channel_setConfig])
      channelName := hs.channelName.trans (channel_setConfig h cfg).symm
      participants := (sinceSelect_setConfig h cfg).symm ▸ hs.participants
      distinct := hs.distinct
      index := hs.index
      notifications := hs.notifications.trans (by rw [notifications_setConfig])
      config := (config_setConfig h cfg).symm
      revision := hchanges.1
      changes := hchanges.2 }

theorem Describes.concat_event (hs : Describes h (OverlayState.after h)) (now : Int)
    (ev : RpcEvent) :
    Describes (h ++ [.event now ev]) (OverlayState.after (h ++ [.event now ev])) := by
  have hchanges := hs.changes_step (.event now ev)
  rw [after_concat] at hchanges ⊢
  have hindex := hs.index.apply now ev
  obtain ⟨hnotifs, hconfig⟩ := apply_notification now ev (OverlayState.after h)
  have hnotifications : (OverlayState.apply now ev (OverlayState.after h)).snap.notifications =
      (History.notifications (h ++ [.event now ev])).reverse.take kMaxNotifications := by
    rw [hnotifs, notifications_event]
    split
    · rw [List.reverse_append, hs.notifications]
      simp [kMaxNotifications, List.take_take]
    · rw [hs.notifications, List.append_nil]
  have hsession : (OverlayState.apply now ev (OverlayState.after h)).snap.inVoice =
        !(channel (h ++ [.event now ev])).isEmpty ∧
      (OverlayState.apply now ev (OverlayState.after h)).snap.channelName =
        channel (h ++ [.event now ev]) ∧
      Shows (sinceSelect (h ++ [.event now ev]))
        (OverlayState.apply now ev (OverlayState.after h)).snap.participants := by
    rw [channel_event, sinceSelect_event]
    by_cases hselect : ev.kind = .channelSelect
    · rw [if_pos hselect, if_pos hselect, OverlayState.apply, hselect]
      exact ⟨rfl, rfl, shows_nil⟩
    · obtain ⟨hin, hname⟩ := OverlayState.apply_channel now (OverlayState.after h) hselect
      rw [if_neg hselect, if_neg hselect, hin, hname]
      exact ⟨hs.inVoice, hs.channelName, hs.participants.apply hs.index now hselect⟩
  exact
    { inVoice := hsession.1
      channelName := hsession.2.1
      participants := hsession.2.2
      distinct := hindex.nodup
      index := hindex
      notifications := hnotifications
      config := hconfig.trans (hs.config.trans (config_event h now ev).symm)
      revision := hchanges.1
      changes := hchanges.2 }

/-- After every history the reducer shows what the history says. -/
theorem after_describes (h : List OverlayInput) : Describes h (OverlayState.after h) := by
  induction h using List.reverseRecOn with
  | nil => exact describes_nil
  | append_singleton h a ih =>
    cases a with
    | event now ev => exact ih.concat_event now ev
    | setConfig cfg => exact ih.concat_setConfig cfg

end Choir
