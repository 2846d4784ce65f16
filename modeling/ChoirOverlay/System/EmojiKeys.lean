-- SUMMARY: The images the host requests for a notification are those an overlay asks for when it draws the toast.
import ChoirOverlay.Host.AvatarCache
import ChoirOverlay.Host.Held
import ChoirOverlay.Ipc.RoundTrip
import ChoirOverlay.Overlay.ToastText

/-!
# The keys of a notification's emoji

The host reads the keys off the event, an overlay off the snapshot it decodes.
-/

namespace Choir

/-- What `main` requests for the emoji of an event: keys and URLs. -/
def RpcEvent.emojiRequests (ev : RpcEvent) : List (Bytes × Bytes) :=
  if ev.kind = .notification then requestNotificationEmoji ev.notif.title ev.notif.body else []

variable {lib : JsonLib}

/-- A snapshot of the host that is decoded is the one that was written. -/
theorem eq_held_of_decoded (hlib : lib.Documented) {h : List (HeldInput lib)} {wire : Bytes}
    {snap : Snapshot} (hwire : (held h).toJsonStr lib = some wire)
    (hsnap : Snapshot.fromJsonStr lib wire = some snap) : snap = held h := by
  have hformed := held_wellFormed hlib h
  rw [Snapshot.toJsonStr, ← hlib.dump_nullNonFinite] at hwire
  rw [Snapshot.fromJsonStr, lib.parse_dump _ _ (Snapshot.storable_nullNonFinite hformed) hwire,
    Option.bind_some, Snapshot.fromJson_nullNonFinite hformed] at hsnap
  split at hsnap
  · exact (Option.some.inj hsnap).symm
  · cases hsnap

/-- A notification comes first in the snapshot after it. -/
theorem head_held_notification (h : List (HeldInput lib)) {now : Int64} {text : Bytes}
    {ev : RpcEvent} (hev : ParsedFrom lib text ev) (hkind : ev.kind = .notification) :
    (held (h ++ [.event now text ev hev])).notifications.head? =
      some { ev.notif with createdMs := now.toInt } := by
  unfold held
  rw [List.map_append, List.map_singleton, after_concat]
  have hnotifications := (apply_notification now.toInt ev
    (OverlayState.after (h.map HeldInput.toOverlay))).1
  rw [if_pos hkind] at hnotifications
  simp only [HeldInput.toOverlay, OverlayState.step, hnotifications, kMaxNotifications,
    List.take_succ_cons, List.head?_cons]

/-- For a notification the host requests the first 16 distinct keys of its title
and its body, under URLs that are not empty. They are the first 16 an overlay
asks for when it lays the toast out from the snapshot it decoded, while none of
the images is loaded; a toast is wide enough for that (`one_lt_textWidth`). -/
theorem emojiRequests_asked (hlib : lib.Documented) (h : List (HeldInput lib)) (now : Int64)
    (text : Bytes) (ev : RpcEvent) (hev : ParsedFrom lib text ev) (hkind : ev.kind = .notification)
    {α σ Tex : Type} [NatCast α] [Add α] [Sub α] [Mul α] [Div α] [LT α] [DecidableLT α] [LE α]
    [DecidableLE α] [Std.Irrefl (fun a b : α => a < b)] (v : ToastView α) (font : Font α)
    (hwide : ∀ cfg n, ¬ v.textWidth cfg n ≤ ((1 : Nat) : α)) (textures : IAvatarTextures σ Tex)
    (self : ProcSelf) (es : List StateClient.Event) (s : σ) :
    ev.emojiRequests.map Prod.fst = ((Emoji.emojiKeys (Emoji.splitRuns ev.notif.title) ++
        Emoji.emojiKeys (Emoji.splitRuns ev.notif.body)).eraseDups).take 16 ∧
      (∀ r ∈ ev.emojiRequests, r.2 = Emoji.urlFor r.1 ∧ r.2 ≠ []) ∧
      ∀ wire snap, (held (h ++ [.event now text ev hev])).toJsonStr lib = some wire →
        Snapshot.fromJsonStr lib wire = some snap →
        ∃ n, snap.notifications.head? = some n ∧
          n.title = ev.notif.title ∧ n.body = ev.notif.body ∧
          ((∀ key ∈ Emoji.emojiKeys (Emoji.splitRuns n.title ++ Emoji.splitRuns n.body),
              textures.lookup s key = none) →
            ((v.asked font textures (Machine.run (StateClient.step lib) { self } es) snap.config n
              s).eraseDups).take 16 = ev.emojiRequests.map Prod.fst) := by
  have hkeys : Emoji.emojiKeys ([ev.notif.title, ev.notif.body].flatMap Emoji.splitRuns) =
      Emoji.emojiKeys (Emoji.splitRuns ev.notif.title) ++
        Emoji.emojiKeys (Emoji.splitRuns ev.notif.body) := by simp
  have hrequests : ev.emojiRequests = ((Emoji.emojiKeys
      ([ev.notif.title, ev.notif.body].flatMap Emoji.splitRuns)).eraseDups.take 16).map
        fun key => (key, Emoji.urlFor key) := by
    rw [RpcEvent.emojiRequests, if_pos hkind, requestNotificationEmoji,
      requestRuns_eq [] (Nat.zero_le _), Firsts.firsts_of_nothing_seen]
    rfl
  have hfst : ev.emojiRequests.map Prod.fst = (Emoji.emojiKeys
      ([ev.notif.title, ev.notif.body].flatMap Emoji.splitRuns)).eraseDups.take 16 := by
    rw [hrequests, List.map_map]
    exact List.map_id _
  refine ⟨by rw [hfst, hkeys], fun r hr => ?_, fun wire snap hwire hsnap => ?_⟩
  · rw [hrequests] at hr
    obtain ⟨key, hkey, rfl⟩ := List.mem_map.mp hr
    have hmem := List.mem_eraseDups.mp (List.mem_of_mem_take hkey)
    rw [hkeys] at hmem
    refine ⟨rfl, ?_⟩
    rcases List.mem_append.mp hmem with hmem | hmem
    · exact urlFor_ne_nil hmem
    · exact urlFor_ne_nil hmem
  · obtain rfl := eq_held_of_decoded hlib hwire hsnap
    refine ⟨_, head_held_notification h hev hkind, rfl, rfl, fun hs => ?_⟩
    rw [hfst, ToastView.asked_eraseDups font textures (StateClient.keyed_run self es) _ _ s
      (hwide _ _)]
    intro key hkey
    exact hs key (by simpa using hkey)

/-! ## One toast -/

def pogFrame : Json := .obj [(ascii "cmd", .str (ascii "DISPATCH")),
  (ascii "data", .obj [(ascii "body", .str (ascii "<:pog:1>")),
    (ascii "title", .str (ascii "ann"))]),
  (ascii "evt", .str (ascii "NOTIFICATION_CREATE"))]

def pogEvent : RpcEvent :=
  { kind := .notification, notif := { title := ascii "ann", body := ascii "<:pog:1>" } }

theorem parsed_pogEvent : ParsedFrom compactJson (JsonText.text pogFrame) pogEvent :=
  .dispatch (compactJson.parse_dump pogFrame _ (by decide) rfl) (by decide +kernel)

/-- Every text fits on a line. -/
def oneLineFont : Font ℚ where
  wordWrap _ text _ := text.length
  textWidth _ text := text.length
  wordWrap_le _ _ _ := le_rfl

/-- One emoji, requested and asked for. -/
theorem emojiRequests_pog :
    pogEvent.emojiRequests.map Prod.fst = [ascii "emoji.c.1"] ∧
      ∃ wire snap n, (held [.event 1000 _ pogEvent parsed_pogEvent]).toJsonStr compactJson =
          some wire ∧ Snapshot.fromJsonStr compactJson wire = some snap ∧
        snap.notifications.head? = some n ∧
        (((ToastView.oneView 1000).asked oneLineFont noTextures {} snap.config n
          ()).eraseDups).take 16 = [ascii "emoji.c.1"] := by
  obtain ⟨hkeys, -, hasked⟩ := emojiRequests_asked compactJson_documented [] 1000 _ pogEvent
    parsed_pogEvent rfl (ToastView.oneView 1000) oneLineFont
    (ToastView.one_lt_textWidth (ToastView.oneView 1000)) noTextures {} [] ()
  have hpog : pogEvent.emojiRequests.map Prod.fst = [ascii "emoji.c.1"] :=
    hkeys.trans (by decide +kernel)
  obtain ⟨wire, hwire, hsnap⟩ := (Snapshot.roundTrips_iff compactJson_documented
    (held_wellFormed compactJson_documented [.event 1000 _ pogEvent parsed_pogEvent])).mpr
      (by decide +kernel)
  obtain ⟨n, hn, -, -, hlookups⟩ := hasked wire _ hwire hsnap
  exact ⟨hpog, wire, _, n, hwire, hsnap, hn, (hlookups fun _ _ => rfl).trans hpog⟩

end Choir
