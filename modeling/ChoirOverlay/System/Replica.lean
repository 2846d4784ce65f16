-- SUMMARY: What a client shows of the server's state, and how each operation of the server keeps it in step.
import ChoirOverlay.Host.Broadcast
import ChoirOverlay.Ipc.Stream
import ChoirOverlay.Overlay.StateClient

/-!
# Replicas

To the frames it takes, a game process is a replica of the server's snapshot
and avatars. Every operation of the server appends frames that bring a replica
in step with the new state, if it was in step with the old one (`Serves`); a
client that becomes active is brought in step from any state.
-/

namespace Choir

/-! ## Replicas -/

structure Replica where
  latest : Option Snapshot
  avatars : Bytes → Option AvatarReq

namespace Replica

/-- What a frame tells. -/
def see (lib : JsonLib) (rep : Replica) (f : Frame) : Replica :=
  match f.type with
  | .snapshot =>
    match Snapshot.fromJsonStr lib f.payload with
    | some snap => { rep with latest := some snap }
    | none => rep
  | .avatarReady =>
    match AvatarReq.fromJsonStr lib f.payload with
    | some req =>
      if req.hash ≠ [] ∧ req.path ≠ [] then
        { rep with avatars := Function.update rep.avatars req.hash (some req) }
      else rep
    | none => rep
  | .hello | .disabled | .ping | .pong | .unknown _ => rep

/-- The replica shows what the server serves; an avatar without hash or path is
    not shown. -/
structure Shows (s : StateServer) (rep : Replica) : Prop where
  latest : rep.latest = some s.current
  avatars : ∀ hash entry, s.avatars.lookup hash = some entry → hash ≠ [] → entry.path ≠ [] →
    rep.avatars hash = some ⟨hash, entry.path, entry.w, entry.h⟩

end Replica

namespace StateClient

def replica (c : StateClient) : Replica := ⟨c.latest, c.avatars⟩

theorem dispatch_replica (lib : JsonLib) (c : StateClient) (f : Frame) :
    (dispatch lib c f).replica = c.replica.see lib f := by
  unfold dispatch Replica.see
  cases f.type with
  | snapshot => cases Snapshot.fromJsonStr lib f.payload <;> rfl
  | avatarReady =>
    cases AvatarReq.fromJsonStr lib f.payload with
    | none => rfl
    | some req =>
      simp only
      split
      · simp only [replica, enqueueAvatar, Replica.mk.injEq, true_and]
        funext hash
        by_cases h : hash = req.hash <;> simp [h]
      · rfl
  | _ => rfl

theorem foldl_dispatch_replica (lib : JsonLib) (c : StateClient) (frames : List Frame) :
    (frames.foldl (dispatch lib) c).replica = frames.foldl (Replica.see lib) c.replica := by
  induction frames generalizing c with
  | nil => rfl
  | cons f frames ih => rw [List.foldl_cons, ih, dispatch_replica, List.foldl_cons]

end StateClient

/-! ## The frames of the server -/

/-- A snapshot as the server may be given it: it survives the text, and its
    frame is well below the bound. -/
structure Snapshot.Servable (lib : JsonLib) (snap : Snapshot) : Prop where
  roundTrips : snap.RoundTrips lib
  small : ∀ text, snap.toJsonStr lib = some text → Frame.Small ⟨.snapshot, text⟩

namespace Replica

variable {lib : JsonLib} {rep : Replica} {text : Bytes}

theorem see_snapshot {snap : Snapshot} (h : snap.RoundTrips lib)
    (htext : snap.toJsonStr lib = some text) :
    rep.see lib ⟨.snapshot, text⟩ = { rep with latest := some snap } := by
  obtain ⟨text', htext', hback⟩ := h
  obtain rfl : text = text' := by simpa [htext] using htext'
  simp only [see, hback]

theorem fromJsonStr_avatarPayload {hash path : Bytes} {w h : UInt32}
    (htext : StateServer.avatarPayload lib hash path w h = some text) :
    AvatarReq.fromJsonStr lib text = some ⟨hash, path, w, h⟩ := by
  have hw := w.toNat_lt
  have hh := h.toNat_lt
  have hstorable : (Json.obj [
      (ascii "h", .int h.toNat),
      (ascii "hash", .str hash),
      (ascii "path", .str path),
      (ascii "w", .int w.toNat)]).storable = true := by
    have hwide : ∀ n : Nat, n < 2 ^ 32 → -2 ^ 63 ≤ (n : Int) ∧ (n : Int) < 2 ^ 64 := by omega
    simp only [Json.storable, Json.storableEntries, hwide _ hw, hwide _ hh, List.head?_cons,
      List.head?_nil, Option.all_some, Option.all_none, and_self, decide_true]
    rfl
  have hback : ∀ n : UInt32, (Json.int n.toNat).getUInt32? = some n := by
    intro n
    have hn := n.toNat_lt
    simp only [Json.getUInt32?, Json.getArithmetic?, Json.getInt?, Option.map_some,
      Option.some.injEq]
    rw [Int.emod_eq_of_lt (by omega) (by omega), Int.toNat_natCast, UInt32.ofNat_toNat]
  have hread := lib.parse_dump _ _ hstorable htext
  generalize hj : Json.obj _ = j at hread
  have hhash : j.valueString? "hash" = some hash := by rw [← hj]; rfl
  have hpath : j.valueString? "path" = some path := by rw [← hj]; rfl
  have hwidth : j.valueUInt32? "w" = some w := by rw [← hj]; exact hback w
  have hheight : j.valueUInt32? "h" = some h := by rw [← hj]; exact hback h
  simp only [AvatarReq.fromJsonStr, hread, bind, Option.bind, hhash, hpath, hwidth, hheight, pure]

theorem see_avatar {hash path : Bytes} {w h : UInt32}
    (htext : StateServer.avatarPayload lib hash path w h = some text) :
    rep.see lib ⟨.avatarReady, text⟩ =
      if hash ≠ [] ∧ path ≠ [] then
        { rep with avatars := Function.update rep.avatars hash (some ⟨hash, path, w, h⟩) }
      else rep := by
  simp only [see, fromJsonStr_avatarPayload htext]

/-- Replayed avatars are shown, and hide none that is shown. -/
theorem foldl_avatars (rep : Replica) {avatars : AList fun _ : Bytes => StateServer.AvatarEntry}
    {entries : List (Sigma fun _ : Bytes => StateServer.AvatarEntry)}
    (hsub : ∀ e ∈ entries, avatars.lookup e.1 = some e.2)
    (hpay : ∀ e ∈ entries, (StateServer.avatarReply lib e).isSome = true) :
    ((entries.filterMap (StateServer.avatarReply lib)).foldl (see lib) rep).latest = rep.latest ∧
      ∀ hash entry, avatars.lookup hash = some entry → hash ≠ [] → entry.path ≠ [] →
        rep.avatars hash = some ⟨hash, entry.path, entry.w, entry.h⟩ ∨ ⟨hash, entry⟩ ∈ entries →
        ((entries.filterMap (StateServer.avatarReply lib)).foldl (see lib) rep).avatars hash =
          some ⟨hash, entry.path, entry.w, entry.h⟩ := by
  induction entries generalizing rep with
  | nil => exact ⟨rfl, fun hash entry _ _ _ h => h.resolve_right (by simp)⟩
  | cons e rest ih =>
    obtain ⟨key, here⟩ := e
    obtain ⟨f, hf⟩ := Option.isSome_iff_exists.mp (hpay _ List.mem_cons_self)
    obtain ⟨text, htext, rfl⟩ := Option.map_eq_some_iff.mp hf
    have hkey : avatars.lookup key = some here := hsub _ List.mem_cons_self
    obtain ⟨hlatest, havatars⟩ := ih (rep.see lib ⟨.avatarReady, text⟩)
      (fun e he => hsub e (List.mem_cons_of_mem _ he))
      (fun e he => hpay e (List.mem_cons_of_mem _ he))
    rw [List.filterMap_cons_some hf, List.foldl_cons]
    refine ⟨hlatest.trans ?_, fun hash entry hentry hhash hpath h => ?_⟩
    · rw [see_avatar htext]
      split <;> rfl
    refine havatars hash entry hentry hhash hpath ?_
    rw [see_avatar htext]
    by_cases hsame : hash = key
    · subst hsame
      obtain rfl : here = entry := Option.some.inj (hkey.symm.trans hentry)
      left
      rw [if_pos ⟨hhash, hpath⟩]
      exact Function.update_self ..
    · refine h.imp (fun hrep => ?_) fun hmem => ?_
      · split
        · exact (Function.update_of_ne hsame _ _).trans hrep
        · exact hrep
      · refine (List.mem_cons.mp hmem).resolve_left fun heq => hsame ?_
        exact congrArg Sigma.fst heq

end Replica

/-! ## Operations of the server -/

namespace StateServer

variable {lib : JsonLib} {sock : Sock} {frames : List Frame} {s s' s'' : StateServer}

/-- No send fails, and all that is served fits its frame. -/
structure Sound (lib : JsonLib) (s : StateServer) : Prop where
  life : ∀ sock, s.life sock = none
  current : s.current.Servable lib
  avatars : ∀ hash entry, s.avatars.lookup hash = some entry →
    ∃ text, avatarPayload lib hash entry.path entry.w entry.h = some text ∧
      Frame.Small ⟨.avatarReady, text⟩

theorem Sound.congr (h : s.Sound lib) (hlife : ∀ sock, s'.life sock = none)
    (hcur : s'.current = s.current) (havatars : s'.avatars = s.avatars) : s'.Sound lib where
  life := hlife
  current := hcur ▸ h.current
  avatars := havatars ▸ h.avatars

/-- The frames a connection is sent from `s` to `s'`: they bring the replica of
    an active client in step. -/
structure Feeds (lib : JsonLib) (sock : Sock) (frames : List Frame) (s s' : StateServer) :
    Prop where
  small : ∀ f ∈ frames, f.Small
  out : s'.out sock = s.out sock ++ frames.flatMap encodeFrame
  known : sock ∉ s.clients → frames = []
  shows : s'.isActive sock = true → ∀ rep : Replica, (s.isActive sock = true → rep.Shows s) →
    (frames.foldl (Replica.see lib) rep).Shows s'

structure Serves (lib : JsonLib) (s s' : StateServer) : Prop where
  keys : ∀ sock ∈ s'.clients, sock ∈ s.clients
  feeds : ∀ sock, ∃ frames, Feeds lib sock frames s s'

theorem Serves.trans (h : Serves lib s s') (h' : Serves lib s' s'') : Serves lib s s'' where
  keys sock hsock := h.keys sock (h'.keys sock hsock)
  feeds sock := by
    obtain ⟨frames, hf⟩ := h.feeds sock
    obtain ⟨frames', hf'⟩ := h'.feeds sock
    refine ⟨frames ++ frames', ⟨?_, ?_, fun hno => ?_, fun hact rep hrep => ?_⟩⟩
    · exact fun f hmem => (List.mem_append.mp hmem).elim (hf.small f) (hf'.small f)
    · rw [hf'.out, hf.out, List.append_assoc, List.flatMap_append]
    · rw [hf.known hno, hf'.known fun hmem => hno (h.keys sock hmem), List.append_nil]
    · rw [List.foldl_append]
      exact hf'.shows hact _ fun hact' => hf.shows hact' rep hrep

/-- An operation on one connection. -/
theorem Serves.of_sock (sock : Sock) (frames : List Frame) (hcur : s'.current = s.current)
    (havatars : s'.avatars = s.avatars)
    (hother : ∀ other, other ≠ sock → s'.clients.lookup other = s.clients.lookup other)
    (hmem : sock ∈ s'.clients ∨ frames ≠ [] → sock ∈ s.clients)
    (hout : s'.out = Function.update s.out sock (s.out sock ++ frames.flatMap encodeFrame))
    (hsmall : ∀ f ∈ frames, f.Small)
    (hshows : s'.isActive sock = true → ∀ rep : Replica, (s.isActive sock = true → rep.Shows s) →
      (frames.foldl (Replica.see lib) rep).Shows s) : Serves lib s s' where
  keys other ho := by
    by_cases hsock : other = sock
    · exact hsock ▸ hmem (.inl (hsock ▸ ho))
    · rw [← AList.lookup_isSome, ← hother other hsock]
      exact AList.lookup_isSome.mpr ho
  feeds other := by
    have hview : ∀ rep : Replica, rep.Shows s → rep.Shows s' := fun rep h =>
      ⟨hcur ▸ h.latest, havatars ▸ h.avatars⟩
    by_cases hsock : other = sock
    · subst hsock
      refine ⟨frames, hsmall, ?_, fun hno => ?_, fun hact rep hrep => ?_⟩
      · rw [hout, Function.update_self]
      · by_contra hne
        exact hno (hmem (.inr hne))
      · exact hview _ (hshows hact rep hrep)
    · refine ⟨[], by simp, ?_, fun _ => rfl, fun hact rep hrep => hview _ (hrep ?_)⟩
      · rw [hout, Function.update_of_ne hsock]
        simp
      · rwa [isActive, hother other hsock] at hact

/-- Server and connections after an operation that announces nothing new. -/
structure Turn (lib : JsonLib) (s s' : StateServer) : Prop where
  sound : s'.Sound lib
  serves : Serves lib s s'
  avatars : s'.avatars = s.avatars

theorem Turn.trans (h : Turn lib s s') (h' : Turn lib s' s'') : Turn lib s s'' :=
  ⟨h'.sound, h.serves.trans h'.serves, h'.avatars.trans h.avatars⟩

theorem update_self_append (out : Sock → Bytes) (sock : Sock) :
    out = Function.update out sock (out sock ++ ([] : List Frame).flatMap encodeFrame) := by
  simp

theorem turn_setClient {c c' : Client} (h : s.Sound lib) (hc : s.clients.lookup sock = some c)
    (hact : c'.active = c.active) : Turn lib s (s.setClient sock c') := by
  refine ⟨h.congr h.life rfl rfl, .of_sock sock [] rfl rfl (fun other ho => lookup_setClient_ne ho)
    (fun _ => ?_) (update_self_append ..) (by simp) fun hact' rep hrep => hrep ?_, rfl⟩
  · exact mem_of_lookup hc
  · rw [isActive, hc]
    rw [isActive, lookup_setClient] at hact'
    exact hact.symm.trans hact'

theorem turn_refl (h : s.Sound lib) : Turn lib s s :=
  ⟨h, .of_sock 0 [] rfl rfl (fun _ _ => rfl) (fun hmem => hmem.resolve_right (by simp))
    (update_self_append ..) (by simp) (fun hact rep hrep => hrep hact), rfl⟩

theorem turn_onDisconnected (sock : Sock) (h : s.Sound lib) :
    Turn lib s (s.onDisconnected sock) := by
  have hgone : (s.onDisconnected sock).clients.lookup sock = none := AList.lookup_erase sock _
  refine ⟨h.congr h.life rfl rfl, .of_sock sock [] rfl rfl
    (fun other ho => AList.lookup_erase_ne ho) (fun hmem => ?_) (update_self_append ..) (by simp)
    fun hact => ?_, rfl⟩
  · rcases hmem with hmem | hmem
    · rw [← AList.lookup_isSome, hgone] at hmem
      cases hmem
    · exact absurd rfl hmem
  · rw [isActive, hgone] at hact
    cases hact

theorem sendFrame_eq {f : Frame} (h : s.life sock = none) :
    s.sendFrame sock f =
      { s with out := Function.update s.out sock (s.out sock ++ encodeFrame f) } := by
  rw [sendFrame_live (by simp [h]), h, Option.map_none, ← h, Function.update_eq_self]

theorem turn_sendFrame {f : Frame} (h : s.Sound lib) (hmem : sock ∈ s.clients) (hsmall : f.Small)
    (hblank : ∀ rep : Replica, rep.see lib f = rep) : Turn lib s (s.sendFrame sock f) := by
  rw [sendFrame_eq (h.life sock)]
  refine ⟨h.congr h.life rfl rfl, .of_sock sock [f] rfl rfl (fun _ _ => rfl) (fun _ => hmem)
    (by simp) (by simpa using hsmall) fun hact rep hrep => ?_, rfl⟩
  rw [List.foldl_cons, List.foldl_nil, hblank]
  exact hrep hact

theorem seedAvatars_eq {c : Client} {entries : List (Sigma fun _ : Bytes => AvatarEntry)}
    (hlife : s.life sock = none) (hc : s.clients.lookup sock = some c)
    (hpay : ∀ e ∈ entries, (avatarReply lib e).isSome = true) :
    s.seedAvatars lib sock entries = .ok { s with
      out := Function.update s.out sock
        (s.out sock ++ (entries.filterMap (avatarReply lib)).flatMap encodeFrame) } := by
  induction entries generalizing s with
  | nil => simp [seedAvatars]
  | cons e rest ih =>
    obtain ⟨hash, entry⟩ := e
    obtain ⟨f, hf⟩ := Option.isSome_iff_exists.mp (hpay _ List.mem_cons_self)
    obtain ⟨text, htext, rfl⟩ := Option.map_eq_some_iff.mp hf
    simp only [seedAvatars, client_of_lookup hc, htext, orThrow, bind, Except.bind,
      sendFrame_eq hlife]
    refine (ih (s := { s with out := Function.update s.out sock (s.out sock ++ encodeFrame _) })
      hlife hc fun e he => hpay e (List.mem_cons_of_mem _ he)).trans ?_
    rw [List.filterMap_cons_some hf]
    simp

theorem Sound.avatarReply (h : s.Sound lib) {e : Sigma fun _ : Bytes => AvatarEntry}
    (he : e ∈ s.avatars.entries) :
    ∃ f, StateServer.avatarReply lib e = some f ∧ f.Small := by
  obtain ⟨text, htext, hsmall⟩ := h.avatars e.1 e.2 (AList.mem_lookup_iff.mpr he)
  exact ⟨⟨.avatarReady, text⟩, by rw [StateServer.avatarReply, htext]; rfl, hsmall⟩

/-- A client that becomes active is brought in step from any state. -/
theorem turn_seedClient {c : Client} (h : s.Sound lib) (hc : s.clients.lookup sock = some c) :
    ∃ s', (s.setClient sock { c with active := true }).seedClient lib sock = .ok s' ∧
      Turn lib s s' ∧ s'.clients.lookup sock = some { c with active := true } := by
  obtain ⟨text, htext, -⟩ := h.current.roundTrips
  have hsmall := h.current.small text htext
  have hentry : (s.setClient sock { c with active := true }).clients.lookup sock =
    some { c with active := true } := lookup_setClient
  have hpay : ∀ e ∈ s.avatars.entries, (StateServer.avatarReply lib e).isSome = true := by
    intro e he
    obtain ⟨f, hf, -⟩ := h.avatarReply he
    rw [hf]
    rfl
  have hseed : (s.setClient sock { c with active := true }).seedClient lib sock =
      .ok { s.setClient sock { c with active := true } with
        out := Function.update s.out sock (s.out sock ++ ((⟨.snapshot, text⟩ : Frame) ::
          s.avatars.entries.filterMap (StateServer.avatarReply lib)).flatMap encodeFrame) } := by
    have htext' : (s.setClient sock { c with active := true }).current.toJsonStr lib = some text :=
      htext
    have hlife : (s.setClient sock { c with active := true }).life sock = none := h.life sock
    simp only [seedClient, htext', client_of_lookup hentry, orThrow, bind, Except.bind,
      sendFrame_eq hlife]
    refine (seedAvatars_eq (s := { s.setClient sock { c with active := true } with
      out := Function.update s.out sock (s.out sock ++ encodeFrame ⟨.snapshot, text⟩) })
      hlife hentry hpay).trans ?_
    simp [setClient]
  refine ⟨_, hseed, ⟨h.congr h.life rfl rfl, ?_, rfl⟩, hentry⟩
  refine .of_sock sock _ rfl rfl (fun other ho => lookup_setClient_ne ho) (fun _ => ?_) rfl
    ?_ ?_
  · exact mem_of_lookup hc
  · intro f hf
    rcases List.mem_cons.mp hf with rfl | hf
    · exact hsmall
    · obtain ⟨e, he, hreply⟩ := List.mem_filterMap.mp hf
      obtain ⟨g, hg, hgsmall⟩ := h.avatarReply he
      rw [hreply] at hg
      exact Option.some.inj hg ▸ hgsmall
  · intro _ rep _
    rw [List.foldl_cons, Replica.see_snapshot h.current.roundTrips htext]
    obtain ⟨hlatest, havatars⟩ := Replica.foldl_avatars { rep with latest := some s.current }
      (fun e he => AList.mem_lookup_iff.mpr he) hpay
    refine ⟨hlatest, fun hash entry hentry hhash hpath => ?_⟩
    exact havatars hash entry hentry hhash hpath (.inr (AList.mem_lookup_iff.mp hentry))

/-! ## Reading -/

private theorem small_of_short {type : MsgType} (h : MsgType.ofByte type.toByte = type) :
    Frame.Small ⟨type, []⟩ where
  known := h
  short := by
    rw [length_encodeFrame]
    show 5 + 0 + kReadLen ≤ kMaxFrameLen
    decide

/-- A Hello is answered by Disabled, or makes the client active; the rest is
    answered by Pong or not at all. -/
theorem onFrame_turn {c : Client} (h : s.Sound lib) (f : Frame)
    (hc : s.clients.lookup sock = some c) :
    ∃ s', s.onFrame lib sock f = .ok s' ∧ Turn lib s s' ∧
      s'.clients.lookup sock = some (s.heard lib c f) := by
  have hmem : sock ∈ s.clients := mem_of_lookup hc
  rw [onFrame, heard]
  cases f.type with
  | ping =>
    refine ⟨_, rfl, turn_sendFrame h hmem (small_of_short rfl) fun rep => rfl, ?_⟩
    rw [sendFrame_eq (h.life sock)]
    exact hc
  | hello =>
    rw [handleHello, client_of_lookup hc]
    simp only [bind, Except.bind]
    by_cases hclassified : (c.active || c.inert) = true
    · rw [if_pos hclassified, classify, if_pos hclassified]
      exact ⟨s, rfl, turn_refl h, hc⟩
    rw [if_neg hclassified, classify, if_neg hclassified]
    simp only [Bool.or_eq_true, not_or, Bool.not_eq_true] at hclassified
    cases s.blocksHello lib f.payload with
    | true =>
      have hset : Turn lib s (s.setClient sock { c with inert := true }) :=
        turn_setClient h hc rfl
      have hentry : (s.setClient sock { c with inert := true }).clients.lookup sock =
        some { c with inert := true } := lookup_setClient
      refine ⟨_, rfl,
        hset.trans (turn_sendFrame hset.sound ?_ (small_of_short rfl) fun rep => rfl), ?_⟩
      · exact mem_of_lookup hentry
      · exact (congrArg (AList.lookup sock) (sendFrame_clients (by simp [hset.sound.life]))).trans
          hentry
    | false =>
      simp only [Bool.false_eq_true, if_false]
      rw [if_neg (by simp [hclassified.2])]
      exact turn_seedClient h hc
  | snapshot | avatarReady | disabled | pong | unknown => exact ⟨s, rfl, turn_refl h, hc⟩

/-- By induction on the fuel. -/
theorem drainFrames_turn (fuel : Nat) {c : Client} (h : s.Sound lib)
    (hc : s.clients.lookup sock = some c) :
    ∃ s' keep, s.drainFrames lib sock fuel = .ok (s', keep) ∧ Turn lib s s' := by
  induction fuel generalizing s c with
  | zero => exact ⟨s, true, rfl, turn_refl h⟩
  | succ fuel ih =>
    rw [drainFrames, client_of_lookup hc]
    simp only [bind, Except.bind]
    cases tryDecodeFrame c.rbuf with
    | corrupt => exact ⟨s, _, rfl, turn_refl h⟩
    | incomplete => exact ⟨s, _, rfl, turn_refl h⟩
    | frame f rest =>
      have hread : Turn lib s (s.setClient sock { c with rbuf := rest }) := turn_setClient h hc rfl
      obtain ⟨s₁, hok, hturn, hheard⟩ := onFrame_turn hread.sound f lookup_setClient
      obtain ⟨s₂, keep, hrest, hturn'⟩ := ih hturn.sound hheard
      simp only [hok]
      exact ⟨s₂, keep, hrest, hread.trans (hturn.trans hturn')⟩

theorem onReadyRead_turn (sock : Sock) (data : Bytes) (h : s.Sound lib) :
    ∃ s', s.onReadyRead lib sock data = .ok s' ∧ Turn lib s s' := by
  rw [onReadyRead]
  cases hc : s.clients.lookup sock with
  | none => exact ⟨s, rfl, turn_refl h⟩
  | some c =>
    have hread : Turn lib s (s.setClient sock { c with rbuf := c.rbuf ++ data }) :=
      turn_setClient h hc rfl
    obtain ⟨s', keep, hok, hturn⟩ :=
      drainFrames_turn ((c.rbuf ++ data).length + 1) hread.sound lookup_setClient
    simp only [hok, bind, Except.bind]
    cases keep with
    | true => exact ⟨s', rfl, hread.trans hturn⟩
    | false =>
      exact ⟨_, rfl, hread.trans (hturn.trans (turn_onDisconnected sock hturn.sound))⟩

/-! ## Broadcasts -/

/-- One frame to every active client. -/
theorem sendActive_serves {f : Frame} (s' : StateServer) (h : s.Sound lib) (hsmall : f.Small)
    (hshows : ∀ rep : Replica, rep.Shows s' → (rep.see lib f).Shows s)
    (hclients : s'.clients = s.clients) (hout : s'.out = s.out) :
    ∃ s'', s.sendActive f s.clients.keys = .ok s'' ∧ Serves lib s' s'' ∧
      (∀ sock, s''.life sock = none) ∧ s''.current = s.current ∧ s''.avatars = s.avatars := by
  obtain ⟨life, hlife, hok⟩ := sendActive_ok (s := s) f s.clients.keys_nodup (fun _ hmem => hmem)
    fun sock _ _ k hk => by simp [h.life sock] at hk
  refine ⟨_, hok, ⟨fun sock hsock => hclients ▸ hsock, fun sock => ?_⟩, fun sock =>
    hlife sock (h.life sock), rfl, rfl⟩
  have hactive : s'.isActive sock = s.isActive sock := by rw [isActive, hclients, isActive]
  by_cases hact : s.isActive sock = true
  · refine ⟨[f], by simpa using hsmall, ?_, fun hno => ?_, fun _ rep hrep => ?_⟩
    · simp [hout, mem_keys_of_isActive hact, hact]
    · exact absurd (hclients ▸ mem_keys_of_isActive hact) hno
    · have hview := hshows rep (hrep (hactive.trans hact))
      exact ⟨hview.latest, hview.avatars⟩
  · refine ⟨[], by simp, ?_, fun _ => rfl, fun hact' => ?_⟩
    · simp [hout, hact]
    · exact absurd hact' hact

theorem broadcast_serves {snap : Snapshot} (h : s.Sound lib) (hsnap : snap.Servable lib) :
    ∃ s', s.broadcast lib snap = .ok s' ∧ s'.Sound lib ∧ Serves lib s s' ∧
      s'.current = snap ∧ s'.avatars = s.avatars := by
  obtain ⟨text, htext, -⟩ := hsnap.roundTrips
  have hset : (s.setSnapshot snap).Sound lib := ⟨h.life, hsnap, h.avatars⟩
  obtain ⟨s', hok, hserves, hlife, hcur, havatars⟩ :=
    sendActive_serves s hset (hsnap.small text htext)
      (fun rep hrep => by
        rw [Replica.see_snapshot hsnap.roundTrips htext]
        exact ⟨rfl, hrep.avatars⟩) rfl rfl
  refine ⟨s', ?_, hset.congr hlife hcur havatars, hserves, hcur, havatars⟩
  simpa only [broadcast, htext, orThrow, bind, Except.bind] using hok

theorem broadcastAvatar_serves {hash path : Bytes} {w h : UInt32} (hs : s.Sound lib)
    (hsmall : ∀ text, avatarPayload lib hash path w h = some text →
      Frame.Small ⟨.avatarReady, text⟩)
    (hok : s.broadcastAvatar lib hash path w h = .ok s') :
    s'.Sound lib ∧ Serves lib s s' ∧ s'.avatars = s.avatars.insert hash { path, w, h } := by
  obtain ⟨text, htext, hsend⟩ := broadcastAvatar_ok hok
  have hset : ({ s with avatars := s.avatars.insert hash { path, w, h } } : StateServer).Sound
      lib := by
    refine ⟨hs.life, hs.current, fun key entry hentry => ?_⟩
    by_cases hkey : key = hash
    · subst hkey
      obtain rfl := Option.some.inj ((AList.lookup_insert _).symm.trans hentry)
      exact ⟨text, htext, hsmall text htext⟩
    · exact hs.avatars key entry ((AList.lookup_insert_ne hkey).symm.trans hentry)
  obtain ⟨s'', hok', hserves, hlife, hcur, havatars⟩ :=
    sendActive_serves s hset (hsmall text htext)
      (fun rep hrep => by
        rw [Replica.see_avatar htext]
        refine ⟨?_, fun key entry hentry hne hpath => ?_⟩
        · split
          · exact hrep.latest
          · exact hrep.latest
        by_cases hkey : key = hash
        · subst hkey
          obtain rfl := Option.some.inj ((AList.lookup_insert _).symm.trans hentry)
          rw [if_pos ⟨hne, hpath⟩]
          exact Function.update_self ..
        · have hold := hrep.avatars key entry ((AList.lookup_insert_ne hkey).symm.trans hentry)
            hne hpath
          split
          · exact (Function.update_of_ne hkey _ _).trans hold
          · exact hold) rfl rfl
  obtain rfl : s' = s'' := Except.ok.inj (hsend.symm.trans hok')
  exact ⟨hset.congr hlife hcur havatars, hserves, havatars⟩

end StateServer

end Choir
