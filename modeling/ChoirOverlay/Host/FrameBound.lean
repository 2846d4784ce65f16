-- SUMMARY: When the frames the host hands to `encode_frame` keep its precondition.
import ChoirOverlay.Host.Hosting

/-!
# The bound on frames

`encode_frame` asserts that a frame is within `kMaxFrameLen`. Everything but a
snapshot is short. How long a snapshot is depends on the messages behind it.
-/

namespace Choir

variable {lib : JsonLib} {floatSize : JsonFloat → Nat}

/-! ## Announcements -/

namespace AvatarCache

theorem length_key_le (dir key : Bytes) : key.length ≤ (pathFor dir key).length := by
  simp only [pathFor]
  split_ifs <;> simp only [List.length_append, List.length_cons] <;> omega

/-- What is announced has a path the system takes, so it is short. -/
theorem Ready.payload_fits (hsize : lib.Compact floatSize) (r : Ready) {text : Bytes}
    (htext : StateServer.avatarPayload lib r.key r.path r.w r.h = some text) :
    1 + text.length ≤ kMaxFrameLen := by
  have hlen : text.length = sequenceSize [4 + decimalSize r.h.toNat, 7 + stringSize r.key,
      7 + stringSize r.path, 4 + decimalSize r.w.toNat] := hsize.length_dump _ _ htext
  have hdigits (n : UInt32) : decimalSize n.toNat ≤ 10 :=
    decimalSize_le (by decide) (Nat.lt_trans n.toNat_lt (by decide))
  have hh := hdigits r.h
  have hw := hdigits r.w
  have hkey := stringSize_le r.key
  have hpath := stringSize_le r.path
  have hshort : r.path.length < 4096 := r.taken
  have hle : r.key.length ≤ r.path.length := length_key_le r.dir r.key
  rw [hlen]
  simp only [sequenceSize, List.map_cons, List.map_nil, List.sum_cons, List.sum_nil, kMaxFrameLen]
  omega

end AvatarCache

namespace Hosting

variable {s : Hosting} {e : Event} {f : Frame} {sock : Sock} {hist h : List OverlayInput}

/-! ## Frames within the bound -/

theorem length_text (hsize : lib.Compact floatSize) {text : Bytes}
    (htext : (OverlayState.after hist).snap.toJsonStr lib = some text) :
    text.length = WireSize.snapshot floatSize hist :=
  (hsize.length_dump _ _ htext).trans (WireSize.size_after floatSize hist)

/-- A frame is within the bound when the snapshots before and after the event
are. -/
theorem fits_of_hands (hsize : lib.Compact floatSize) (hs : Follows hist s)
    (hhands : s.Hands lib e f) (hbefore : 1 + WireSize.snapshot floatSize hist ≤ kMaxFrameLen)
    (hafter : 1 + WireSize.snapshot floatSize (hist ++ inputs [e]) ≤ kMaxFrameLen) :
    1 + f.payload.length ≤ kMaxFrameLen := by
  cases hhands with
  | snapshot hchange hactive htext =>
    rw [hs.overlay, ← after_concat] at htext
    rw [length_text hsize htext]
    exact hafter
  | avatar hactive htext => exact AvatarCache.Ready.payload_fits hsize _ htext
  | reply hc hf =>
    obtain ⟨type, payload⟩ := f
    cases StateServer.source_of_mem_replies ((List.takeWhile_prefix _).subset hf) with
    | empty => exact (by decide : 1 ≤ kMaxFrameLen)
    | current htext =>
      rw [hs.current, hs.overlay] at htext
      rw [length_text hsize htext]
      exact hbefore
    | avatar he htext =>
      obtain ⟨r, rfl, rfl⟩ := hs.avatars _ _ he
      exact r.payload_fits hsize htext

/-! ## A client that connects -/

theorem utf8_after (hlib : lib.Documented) (hacc : ∀ a ∈ hist, Accepted lib a) :
    (OverlayState.after hist).snap.Utf8 := by
  induction hist using List.reverseRecOn with
  | nil => exact Snapshot.utf8_default
  | append_singleton hist a ih =>
    rw [List.forall_mem_append, List.forall_mem_singleton] at hacc
    have hsnap := ih hacc.1
    rw [after_concat]
    cases a with
    | event now ev =>
      obtain ⟨text, -, hparsed⟩ := hacc.2
      exact hsnap.apply now (hparsed.utf8 hlib)
    | setConfig cfg => exact ⟨hsnap.channelName, hsnap.participants, hsnap.notifications⟩

theorem exists_text (hlib : lib.Documented) (hacc : ∀ a ∈ hist, Accepted lib a) :
    ∃ text, (OverlayState.after hist).snap.toJsonStr lib = some text := by
  obtain ⟨text, htext⟩ := lib.exists_dump (Snapshot.utf8_nullNonFinite (utf8_after hlib hacc))
  exact ⟨text, by rw [Snapshot.toJsonStr, ← hlib.dump_nullNonFinite, htext]⟩

/-- Nobody is connected, and nothing is denied. -/
structure Idle (s : Hosting) : Prop where
  clients : s.watched.server.clients = ∅
  isBlocked : s.watched.server.isBlocked = none

theorem idle_input (hlib : lib.Documented) (hs : Follows hist s) (hidle : s.Idle)
    {a : OverlayInput} (hacc : ∀ b ∈ hist ++ [a], Accepted lib b) :
    ∃ t, s.step lib (.input a) = .ok t ∧ t.Idle := by
  have hstep := step_input lib hs a
  cases hnoop : History.isNoOp hist a with
  | true =>
    simp only [hnoop, if_true] at hstep
    exact ⟨s, hstep.1, hidle⟩
  | false =>
    simp only [hnoop, Bool.false_eq_true, if_false] at hstep
    obtain ⟨text, htext⟩ := exists_text hlib hacc
    rw [after_concat, ← hs.overlay] at htext
    have hkeys : (s.watched.server.setSnapshot (s.overlay.step a).snap).clients.keys = [] := by
      rw [StateServer.setSnapshot, hidle.clients, AList.keys_empty]
    rw [hstep]
    simp only [serve, Watched.step, StateServer.broadcast, htext, orThrow, bind, Except.bind]
    have hkeys' : ((s.watched.server.setSnapshot (s.overlay.step a).snap).setSnapshot
      (s.overlay.step a).snap).clients.keys = [] := hkeys
    rw [hkeys', StateServer.sendActive]
    exact ⟨_, rfl, hidle.clients, hidle.isBlocked⟩

theorem idle_inputs (hlib : lib.Documented) (hs : Follows hist s) (hidle : s.Idle)
    (hacc : ∀ b ∈ hist ++ h, Accepted lib b) :
    ∃ t, Machine.runM (step lib) s (h.map .input) = .ok t ∧ t.Idle := by
  induction h generalizing hist s with
  | nil => exact ⟨s, rfl, hidle⟩
  | cons a h ih =>
    have hassoc : hist ++ a :: h = (hist ++ [a]) ++ h := by simp
    rw [hassoc] at hacc
    obtain ⟨s', hs', hidle'⟩ := idle_input hlib hs hidle (List.forall_mem_append.mp hacc).1
    obtain ⟨t, hrun, ht⟩ := ih (follows_step hs hs') hidle' hacc
    exact ⟨t, Machine.runM_cons_eq_ok.mpr ⟨s', hs', hrun⟩, ht⟩

/-- A Hello without an object, from which a client is no less served. -/
def bareHello : Bytes := encodeFrame ⟨.hello, []⟩

theorem decode_bareHello : tryDecodeFrame bareHello = .frame ⟨.hello, []⟩ [] := by decide

/-- The first reply to a client that is not denied is the snapshot. -/
theorem hands_seed (hc : s.watched.server.clients.lookup sock = some {})
    (hblocked : s.watched.server.isBlocked = none) {text : Bytes}
    (htext : s.watched.server.current.toJsonStr lib = some text) :
    s.Hands lib (.readable sock bareHello) ⟨.snapshot, text⟩ := by
  refine .reply hc ?_
  have hblocks (payload : Bytes) : s.watched.server.blocksHello lib payload = false := by
    unfold StateServer.blocksHello StateServer.blocks
    split <;> simp [hblocked]
  rw [repliesTo, StateServer.replies]
  simp only [List.nil_append, decode_bareHello, StateServer.answers, StateServer.classify, hblocks]
  simp [StateServer.greeting, htext]

theorem inputs_map_input (h : List OverlayInput) : inputs (h.map .input) = h := by
  rw [inputs, List.filterMap_map]
  exact List.filterMap_some

/-- After any messages there is a run in which a client connects next, and is
handed the snapshot. -/
theorem exists_seeded (hlib : lib.Documented) (cfg : AppearanceConfig) {pre : List OverlayInput}
    (hacc : ∀ a ∈ pre, Accepted lib a) (post : List OverlayInput) :
    ∃ es text, inputs es = pre ++ post ∧
      (OverlayState.after (.setConfig cfg :: pre)).snap.toJsonStr lib = some text ∧
      HandsAlong lib (init none cfg) es ⟨.snapshot, text⟩ := by
  have hacc' : ∀ a ∈ [.setConfig cfg] ++ pre, Accepted lib a :=
    List.forall_mem_cons.mpr ⟨trivial, hacc⟩
  obtain ⟨s, hrun, hidle⟩ := idle_inputs hlib (follows_init none cfg) ⟨rfl, rfl⟩ hacc'
  have hfollows := follows_run (follows_init none cfg) hrun
  rw [inputs_map_input] at hfollows
  obtain ⟨text, htext⟩ := exists_text hlib hacc'
  -- The client that connects once the messages are there.
  have hfree : (0 : Sock) ∉ s.watched.server.clients := by
    rw [hidle.clients]
    exact AList.notMem_empty 0
  let served : StateServer := { s.watched.server with
    life := Function.update s.watched.server.life 0 none
    out := Function.update s.watched.server.out 0 [] }
  obtain ⟨t, ht, hserver⟩ : ∃ t, s.step lib (.connect 0 none) = .ok t ∧
      t.watched.server = served.setClient 0 {} := by
    simp only [step, serve, Watched.step, if_neg hfree, bind, Except.bind]
    refine ⟨_, rfl, ?_⟩
    simp only [StateServer.onNewConnection, if_neg hfree]
    rfl
  have hhands : t.Hands lib (.readable 0 bareHello) ⟨.snapshot, text⟩ := by
    refine hands_seed ?_ ?_ ?_
    · rw [hserver]
      exact StateServer.lookup_setClient
    · rw [hserver]
      exact hidle.isBlocked
    · rw [hserver]
      show s.watched.server.current.toJsonStr lib = some text
      rw [hfollows.current, hfollows.overlay]
      exact htext
  refine ⟨pre.map .input ++ .connect 0 none :: .readable 0 bareHello :: post.map .input, text, ?_,
    htext, pre.map .input ++ [.connect 0 none], .readable 0 bareHello, post.map .input, t, ?_, ?_,
    hhands⟩
  · rw [inputs_append, inputs_map_input]
    exact congrArg (pre ++ ·) (inputs_map_input post)
  · simp
  · rw [Machine.runM, List.foldlM_append]
    show (Machine.runM (step lib) (init none cfg) (pre.map .input) >>= _) = _
    rw [hrun]
    exact Machine.runM_cons_eq_ok.mpr ⟨t, ht, rfl⟩

/-! ## The bound -/

/-- With these messages and settings the host keeps the precondition of
`encode_frame`, whoever connects and whatever is announced in between, exactly
when the snapshot after each beginning of them is short enough. No bytes but those of
frames that are handed over so are put on the way to a socket. -/
theorem frames_fit_iff (hlib : lib.Documented) (hsize : lib.Compact floatSize)
    (cfg : AppearanceConfig) (h : List OverlayInput) (hacc : ∀ a ∈ h, Accepted lib a) :
    ((∀ isBlocked es, inputs es = h → ∀ f, HandsAlong lib (init isBlocked cfg) es f →
        1 + f.payload.length ≤ kMaxFrameLen) ↔
      ∀ pre, pre <+: h →
        1 + WireSize.snapshot floatSize (.setConfig cfg :: pre) ≤ kMaxFrameLen) ∧
      ∀ isBlocked es e s t, Machine.runM (step lib) (init isBlocked cfg) es = .ok s →
        s.step lib e = .ok t → ∀ sock, t.watched.server.out sock = [] ∨ Writes lib e sock s t := by
  refine ⟨?_, fun isBlocked es e s t _ hok sock => writes_step hok sock⟩
  constructor
  · rintro hall pre ⟨post, rfl⟩
    obtain ⟨es, text, hes, htext, hhands⟩ :=
      exists_seeded hlib cfg (List.forall_mem_append.mp hacc).1 post
    have hfits := hall none es hes _ hhands
    rwa [length_text hsize htext] at hfits
  · rintro hall isBlocked _ rfl f ⟨pre, e, post, t, rfl, hrun, hhands⟩
    have hfollows := follows_run (follows_init isBlocked cfg) hrun
    have hafter : inputs pre ++ inputs [e] <+: inputs (pre ++ e :: post) := by
      refine ⟨inputs post, ?_⟩
      rw [← inputs_append, ← inputs_append, List.append_assoc, List.singleton_append]
    refine fits_of_hands hsize hfollows hhands (hall _ ((List.prefix_append _ _).trans hafter)) ?_
    rw [List.append_assoc]
    exact hall _ hafter

/-- Someone joins: everything fits, the snapshot a client is served too. -/
theorem frames_fit_session :
    (∃ es text, inputs es = [.event 1000 memberEvent] ∧
        HandsAlong compactJson (init none {}) es ⟨.snapshot, text⟩) ∧
      ∀ isBlocked es, inputs es = [.event 1000 memberEvent] →
        ∀ f, HandsAlong compactJson (init isBlocked {}) es f →
          1 + f.payload.length ≤ kMaxFrameLen := by
  have hacc : ∀ a ∈ [OverlayInput.event 1000 memberEvent], Accepted compactJson a :=
    List.forall_mem_singleton.mpr ⟨_, by decide +kernel, parsed_memberEvent⟩
  have hshort : ∀ pre ∈ [OverlayInput.event 1000 memberEvent].inits,
      1 + WireSize.snapshot JsonText.floatSize (.setConfig {} :: pre) ≤ kMaxFrameLen := by
    decide +kernel
  obtain ⟨es, text, hes, -, hhands⟩ := exists_seeded compactJson_documented {} hacc []
  exact ⟨⟨es, text, hes, hhands⟩,
    (frames_fit_iff compactJson_documented compactJson_compact {} _ hacc).1.mpr fun pre hpre =>
      hshort pre ((List.mem_inits pre _).mpr hpre)⟩

/-! ## A message that breaks it -/

/-- The message that says which channel was selected. -/
def selectFrame (id : Bytes) : Json := .obj [(ascii "cmd", .str (ascii "DISPATCH")),
  (ascii "data", .obj [(ascii "channel_id", .str id)]),
  (ascii "evt", .str (ascii "VOICE_CHANNEL_SELECT"))]

def selectEvent (id : Bytes) : RpcEvent := { kind := .channelSelect, channelId := id }

theorem length_selectFrame (id : Bytes) :
    (JsonText.text (selectFrame id)).length = 70 + stringSize id := by
  have hsize : (selectFrame id).size JsonText.floatSize =
      sequenceSize [16, 7 + sequenceSize [13 + stringSize id], 28] := rfl
  rw [JsonText.length_text, hsize]
  simp only [sequenceSize, List.map_cons, List.map_nil, List.sum_cons, List.sum_nil]
  omega

theorem parsed_selectEvent {id : Bytes} (hid : validUtf8 id = true) :
    ParsedFrom compactJson (JsonText.text (selectFrame id)) (selectEvent id) := by
  have hutf8 : (selectFrame id).utf8 = true := by
    simp only [selectFrame, Json.utf8, Json.utf8Entries, hid]
    rfl
  have hdump : compactJson.dump (selectFrame id) = some (JsonText.text (selectFrame id)) := by
    show JsonText.dump _ = _
    rw [JsonText.dump, if_pos hutf8]
  exact .dispatch (compactJson.parse_dump _ _ rfl hdump) rfl

theorem accepted_selectEvent {id : Bytes} (hid : ∀ b ∈ id, b = 0x31)
    (hlen : 72 + id.length ≤ kMaxPayloadLen) (now : Int) :
    Accepted compactJson (.event now (selectEvent id)) := by
  have hutf8 : validUtf8 id = true :=
    (validUtf8_iff id).mpr (Utf8State.run_ascii fun b hb => by rw [hid b hb]; decide)
  have hplain : stringSize id = 2 + id.length :=
    stringSize_plain fun b hb => by rw [hid b hb]; rfl
  refine ⟨_, ?_, parsed_selectEvent hutf8⟩
  rw [length_selectFrame, hplain]
  omega

theorem snapshot_selectEvent (cfg : AppearanceConfig) (now : Int) (id : Bytes) :
    177 + id.length ≤
      WireSize.snapshot floatSize [.setConfig cfg, .event now (selectEvent id)] := by
  have hchannel : History.channel [.setConfig cfg, .event now (selectEvent id)] = id := rfl
  have hid := le_stringSize id
  simp only [WireSize.snapshot, hchannel, WireSize.config]
  omega

/-- The rest of the message takes 72 bytes, its header eight. -/
def longId : Bytes := List.replicate (kMaxPayloadLen - 80) 0x31

theorem length_longId : longId.length = kMaxPayloadLen - 80 := by
  rw [longId, List.length_replicate]

/-- A channel id that is a whole message: the snapshot around it is too long. -/
theorem longId_overflows :
    ¬ ∀ (lib : JsonLib) (floatSize : JsonFloat → Nat), lib.Documented → lib.Compact floatSize →
      ∀ (cfg : AppearanceConfig) (h : List OverlayInput), (∀ a ∈ h, Accepted lib a) →
        ∀ isBlocked es, inputs es = h → ∀ f, HandsAlong lib (init isBlocked cfg) es f →
          1 + f.payload.length ≤ kMaxFrameLen := by
  intro hall
  have hlen := length_longId
  have hones : ∀ b ∈ longId, b = 0x31 := by
    intro b hb
    rw [longId] at hb
    exact List.eq_of_mem_replicate hb
  generalize longId = id at hlen hones
  simp only [kMaxPayloadLen] at hlen
  have hacc : ∀ a ∈ [OverlayInput.event 0 (selectEvent id)], Accepted compactJson a :=
    List.forall_mem_singleton.mpr
      (accepted_selectEvent hones (by simp only [kMaxPayloadLen]; omega) 0)
  obtain ⟨es, text, hes, htext, hhands⟩ := exists_seeded compactJson_documented {} hacc []
  have hfits := hall compactJson JsonText.floatSize compactJson_documented compactJson_compact {} _
    hacc none es hes _ hhands
  have hlong := @snapshot_selectEvent JsonText.floatSize {} 0 id
  rw [length_text compactJson_compact htext] at hfits
  simp only [kMaxFrameLen] at hfits
  omega

end Hosting

end Choir
