-- SUMMARY: When the sends of the server survive clients whose sockets die under them.
import ChoirOverlay.Host.StateServer
import ChoirOverlay.Json.Text
import Mathlib.Tactic.SplitIfs

/-!
# Dying sockets

The entry of a client is erased in the middle of the loop that stands on it.
A broadcast reaches every active client exactly when no send fails; the frames
of one client are handled without touching an erased entry exactly when its
socket takes all the replies that are due (`replies`).
-/

namespace Choir

namespace StateServer

variable {lib : JsonLib} {sock other : Sock} {f : Frame} {s s' : StateServer}

def isActive (sock : Sock) (s : StateServer) : Bool := (s.clients.lookup sock).any Client.active

/-- The socket takes this many more writes. -/
def Takes (sock : Sock) (n : Nat) (s : StateServer) : Prop := ∀ k ∈ s.life sock, n ≤ k

/-! ## Broadcasts -/

/-- The frame goes once to every active client whose socket does not die of it,
    and to no one else. -/
def SentOnce (f : Frame) (s s' : StateServer) : Prop :=
  ∀ sock, s'.out sock =
    s.out sock ++ if s.isActive sock = true ∧ s.life sock ≠ some 0 then encodeFrame f else []

theorem takes_one : s.Takes sock 1 ↔ s.life sock ≠ some 0 := by
  unfold Takes
  cases s.life sock with
  | none => simp
  | some k =>
    simp only [Option.mem_def, Option.some.injEq, forall_eq', ne_eq]
    omega

theorem sendFrame_life_none (h : s.life other = none) : (s.sendFrame sock f).life other = none := by
  by_cases hsock : other = sock
  · subst hsock
    rw [sendFrame_live (by simp [h]), h]
    exact Function.update_self ..
  · rw [sendFrame_life_ne hsock, h]

/-- The loop is done when every active client it meets takes the frame. -/
theorem sendActive_ok (f : Frame) {socks : List Sock} (hnodup : socks.Nodup)
    (hmem : ∀ sock ∈ socks, sock ∈ s.clients)
    (htakes : ∀ sock ∈ socks, s.isActive sock = true → s.Takes sock 1) :
    ∃ life, (∀ sock, s.life sock = none → life sock = none) ∧
      s.sendActive f socks = .ok { s with
        life
        out := fun sock => s.out sock ++
          if sock ∈ socks ∧ s.isActive sock = true then encodeFrame f else [] } := by
  induction socks generalizing s with
  | nil => exact ⟨s.life, fun _ h => h, by simp [sendActive]⟩
  | cons sock rest ih =>
    obtain ⟨hnot, hnodup⟩ := List.nodup_cons.mp hnodup
    obtain ⟨c, hc⟩ := Option.isSome_iff_exists.mp
      (AList.lookup_isSome.mpr (hmem sock List.mem_cons_self))
    have hactive : s.isActive sock = c.active := by simp [isActive, hc]
    cases hca : c.active with
    | false =>
      obtain ⟨life, hlife, hs'⟩ := ih hnodup
        (fun other ho => hmem other (List.mem_cons_of_mem _ ho))
        (fun other ho => htakes other (List.mem_cons_of_mem _ ho))
      refine ⟨life, hlife, ?_⟩
      simp only [sendActive, client_of_lookup hc, hca, bind, Except.bind, hs', Bool.false_eq_true,
        if_false]
      congr 2
      funext other
      by_cases ho : other = sock
      · simp [ho, hactive, hca]
      · simp [ho]
    | true =>
      have hsock : s.life sock ≠ some 0 :=
        takes_one.mp (htakes sock List.mem_cons_self (hactive.trans hca))
      have hclients : (s.sendFrame sock f).clients = s.clients := sendFrame_clients hsock
      have hactives : ∀ other, (s.sendFrame sock f).isActive other = s.isActive other := by
        intro other
        rw [isActive, hclients, isActive]
      obtain ⟨life, hlife, hs'⟩ := ih hnodup
        (fun other ho => hclients ▸ hmem other (List.mem_cons_of_mem _ ho))
        (fun other ho hact => by
          have hne : other ≠ sock := fun heq => hnot (heq ▸ ho)
          intro k hk
          rw [sendFrame_life_ne hne] at hk
          exact htakes other (List.mem_cons_of_mem _ ho) ((hactives other).symm.trans hact) k hk)
      refine ⟨life, fun other ho => hlife other (sendFrame_life_none ho), ?_⟩
      have hc' : (s.sendFrame sock f).clients.lookup sock = some c := by rw [hclients, hc]
      simp only [sendActive, client_of_lookup hc, client_of_lookup hc', hca, bind, Except.bind, hs',
        if_true, hactives]
      rw [sendFrame_live hsock]
      congr 2
      funext other
      by_cases ho : other = sock
      · subst ho
        simp [hnot, hactive, hca]
      · simp [ho]

/-- The loop meets an active client whose socket dies: it advances from the
    erased entry. -/
theorem sendActive_dangling (f : Frame) {socks : List Sock} (hnodup : socks.Nodup)
    (hmem : ∀ sock ∈ socks, sock ∈ s.clients)
    (hdies : ∃ sock ∈ socks, s.isActive sock = true ∧ s.life sock = some 0) :
    ∃ sock, s.sendActive f socks = .error (.dangling sock) := by
  induction socks generalizing s with
  | nil => simp at hdies
  | cons sock rest ih =>
    obtain ⟨hnot, hnodup⟩ := List.nodup_cons.mp hnodup
    obtain ⟨c, hc⟩ := Option.isSome_iff_exists.mp
      (AList.lookup_isSome.mpr (hmem sock List.mem_cons_self))
    have hactive : s.isActive sock = c.active := by simp [isActive, hc]
    by_cases hhere : c.active = true ∧ s.life sock = some 0
    · have hgone : (s.sendFrame sock f).clients.lookup sock = none := by
        rw [sendFrame_dead hhere.2]
        exact AList.lookup_erase sock _
      exact ⟨sock, by simp [sendActive, client_of_lookup hc, hhere.1, client_of_gone hgone, bind,
        Except.bind]⟩
    · -- The client at the front survives; the one that dies comes later.
      obtain ⟨dying, hd, hact, hlife⟩ := hdies
      have hne : dying ≠ sock := by
        rintro rfl
        exact hhere ⟨hactive ▸ hact, hlife⟩
      have hrest : dying ∈ rest := (List.mem_cons.mp hd).resolve_left hne
      cases hca : c.active with
      | false =>
        obtain ⟨at', herr⟩ := ih hnodup
          (fun other ho => hmem other (List.mem_cons_of_mem _ ho)) ⟨dying, hrest, hact, hlife⟩
        exact ⟨at', by simpa [sendActive, client_of_lookup hc, hca, bind, Except.bind] using herr⟩
      | true =>
        have hclients : (s.sendFrame sock f).clients = s.clients :=
          sendFrame_clients fun h => hhere ⟨hca, h⟩
        obtain ⟨at', herr⟩ := ih hnodup
          (fun other ho => hclients ▸ hmem other (List.mem_cons_of_mem _ ho))
          ⟨dying, hrest, by rw [isActive, hclients, ← isActive, hact],
            (sendFrame_life_ne hne).trans hlife⟩
        have hc' : (s.sendFrame sock f).clients.lookup sock = some c := by rw [hclients, hc]
        exact ⟨at', by
          simpa [sendActive, client_of_lookup hc, client_of_lookup hc', hca, bind, Except.bind]
            using herr⟩

/-- Every active client's socket takes one more write. -/
def SocketsHold (s : StateServer) : Prop := ∀ sock, s.isActive sock = true → s.Takes sock 1

theorem mem_keys_of_isActive (h : s.isActive sock = true) : sock ∈ s.clients.keys := by
  rw [isActive, Option.any_eq_true] at h
  obtain ⟨c, hc, -⟩ := h
  exact mem_of_lookup hc

/-- A socket that dies ends the loop. -/
theorem socketsHold_of_ok (hok : s.sendActive f s.clients.keys = .ok s') : s.SocketsHold := by
  intro sock hact
  rw [takes_one]
  intro hlife
  obtain ⟨at', herr⟩ := sendActive_dangling f s.clients.keys_nodup (fun _ h => h)
    ⟨sock, mem_keys_of_isActive hact, hact, hlife⟩
  rw [hok] at herr
  cases herr

/-- The loop over all clients: it returns, with the frame sent, exactly when
    the sockets hold. -/
theorem sendActive_keys (f : Frame) :
    (∃ s', s.sendActive f s.clients.keys = .ok s' ∧ SentOnce f s s') ↔ s.SocketsHold := by
  have hmem : ∀ sock ∈ s.clients.keys, sock ∈ s.clients := fun _ h => h
  constructor
  · rintro ⟨s', hok, -⟩
    exact socketsHold_of_ok hok
  · intro hhold
    obtain ⟨life, -, hok⟩ := sendActive_ok f s.clients.keys_nodup hmem fun sock _ => hhold sock
    refine ⟨_, hok, fun sock => ?_⟩
    simp only
    by_cases hact : s.isActive sock = true
    · rw [if_pos ⟨mem_keys_of_isActive hact, hact⟩,
        if_pos ⟨hact, takes_one.mp (hhold sock hact)⟩]
    · rw [if_neg (fun h => hact h.2), if_neg (fun h => hact h.1)]

theorem sentOnce_of_ok (hok : s.sendActive f s.clients.keys = .ok s') : SentOnce f s s' := by
  obtain ⟨s'', hok', honce⟩ := (sendActive_keys f).mpr (socketsHold_of_ok hok)
  obtain rfl : s' = s'' := Except.ok.inj (hok.symm.trans hok')
  exact honce

/-! ## Replies -/

/-- A replayed avatar; `none` when the dump throws. -/
def avatarReply (lib : JsonLib) (e : Sigma fun _ : Bytes => AvatarEntry) : Option Frame :=
  (avatarPayload lib e.1 e.2.path e.2.w e.2.h).map (Frame.mk .avatarReady)

/-- What a client is due once it is classified. -/
def greeting (lib : JsonLib) (c : Client) (s : StateServer) : List (Option Frame) :=
  if c.inert then [some ⟨.disabled, []⟩]
  else (s.current.toJsonStr lib).map (Frame.mk .snapshot) ::
    s.avatars.entries.map (avatarReply lib)

/-- The replies due to one frame of a client. -/
def answers (lib : JsonLib) (c : Client) (f : Frame) (s : StateServer) : List (Option Frame) :=
  match f.type with
  | .hello => if c.active || c.inert then [] else s.greeting lib (s.classify lib c f.payload)
  | .ping => [some ⟨.pong, []⟩]
  | .snapshot | .avatarReady | .disabled | .pong | .unknown _ => []

/-- The client after its frame. -/
def heard (lib : JsonLib) (c : Client) (f : Frame) (s : StateServer) : Client :=
  match f.type with
  | .hello => s.classify lib c f.payload
  | .snapshot | .avatarReady | .disabled | .ping | .pong | .unknown _ => c

/-- The replies due to the frames in the buffer of a client. -/
def replies (lib : JsonLib) (s : StateServer) : Nat → Client → List (Option Frame)
  | 0, _ => []
  | fuel + 1, c =>
    match tryDecodeFrame c.rbuf with
    | .corrupt | .incomplete => []
    | .frame f rest =>
      let c := { c with rbuf := rest }
      s.answers lib c f ++ replies lib s fuel (s.heard lib c f)

/-- How many of them are written: up to the dump that throws. -/
def writes (rs : List (Option Frame)) : Nat := (rs.takeWhile Option.isSome).length

@[simp] theorem writes_nil : writes [] = 0 := rfl

@[simp] theorem writes_none (rs : List (Option Frame)) : writes (none :: rs) = 0 := rfl

@[simp] theorem writes_some (rs : List (Option Frame)) :
    writes (some f :: rs) = writes rs + 1 := rfl

theorem writes_append (rs rs' : List (Option Frame)) :
    writes (rs ++ rs') =
      if ∀ r ∈ rs, r.isSome = true then rs.length + writes rs' else writes rs := by
  induction rs with
  | nil => simp
  | cons r rs ih =>
    cases r with
    | none => simp
    | some f =>
      rw [List.cons_append, writes_some, ih, writes_some]
      simp only [List.forall_mem_cons, Option.isSome_some, true_and, List.length_cons]
      split_ifs
      · omega
      · rfl

theorem takes_zero : s.Takes sock 0 := fun _ _ => Nat.zero_le _

theorem Takes.mono {m n : Nat} (h : s.Takes sock n) (hmn : m ≤ n) : s.Takes sock m :=
  fun k hk => Nat.le_trans hmn (h k hk)

/-- The server after `n` writes on the socket, as far as later replies go. -/
structure Wrote (sock : Sock) (n : Nat) (s s' : StateServer) : Prop where
  current : s'.current = s.current
  avatars : s'.avatars = s.avatars
  isBlocked : s'.isBlocked = s.isBlocked
  takes : ∀ m, s'.Takes sock m ↔ s.Takes sock (n + m)

theorem Wrote.refl : Wrote sock 0 s s := ⟨rfl, rfl, rfl, fun m => by rw [Nat.zero_add]⟩

theorem setClient_wrote {c : Client} : Wrote sock 0 s (s.setClient sock c) :=
  ⟨rfl, rfl, rfl, fun m => by rw [Nat.zero_add]; rfl⟩

theorem Wrote.trans {s'' : StateServer} {m n : Nat} (h : Wrote sock m s s')
    (h' : Wrote sock n s' s'') : Wrote sock (m + n) s s'' where
  current := h'.current.trans h.current
  avatars := h'.avatars.trans h.avatars
  isBlocked := h'.isBlocked.trans h.isBlocked
  takes k := by rw [h'.takes, h.takes, Nat.add_assoc]

theorem sendFrame_wrote (h : s.life sock ≠ some 0) : Wrote sock 1 s (s.sendFrame sock f) := by
  rw [sendFrame_live h]
  refine ⟨rfl, rfl, rfl, fun m => ?_⟩
  simp only [Takes, Function.update_self]
  cases hk : s.life sock with
  | none => simp
  | some k =>
    have hpos : k ≠ 0 := fun h0 => h (h0 ▸ hk)
    simp only [Option.map_some, Option.mem_def, Option.some.injEq, forall_eq']
    omega

/-- The outcomes of sending replies one after the other. When the socket dies
    its entry is gone, and the next use of the entry is undefined. -/
inductive Sends (sock : Sock) (rs : List (Option Frame)) (s : StateServer) :
    Except Fault StateServer → Prop where
  | sent {s' : StateServer} (hall : ∀ r ∈ rs, r.isSome = true) (hclients : s'.clients = s.clients)
      (hwrote : Wrote sock rs.length s s') : Sends sock rs s (.ok s')
  | threw (hthrows : ¬ ∀ r ∈ rs, r.isSome = true) (htakes : s.Takes sock (writes rs)) :
      Sends sock rs s (.error .uncaught)
  | died {s' : StateServer} (hdies : ¬ s.Takes sock (writes rs))
      (hgone : s'.clients.lookup sock = none) : Sends sock rs s (.ok s')
  | dangled (hdies : ¬ s.Takes sock (writes rs)) : Sends sock rs s (.error (.dangling sock))

theorem sends_nil : Sends sock [] s (.ok s) := .sent (by simp) rfl .refl

theorem sends_none {rs : List (Option Frame)} : Sends sock (none :: rs) s (.error .uncaught) :=
  .threw (by simp) takes_zero

/-- The first reply goes out. -/
theorem Sends.cons {rs : List (Option Frame)} {r : Except Fault StateServer}
    (hlife : s.life sock ≠ some 0) (h : Sends sock rs (s.sendFrame sock f) r) :
    Sends sock (some f :: rs) s r := by
  have hwrote : Wrote sock 1 s (s.sendFrame sock f) := sendFrame_wrote hlife
  have htakes : (s.sendFrame sock f).Takes sock (writes rs) ↔
      s.Takes sock (writes (some f :: rs)) := by
    rw [hwrote.takes, writes_some, Nat.add_comm]
  cases h with
  | sent hall hclients hw =>
    refine .sent (by simpa using hall) (hclients.trans (sendFrame_clients hlife)) ?_
    rw [List.length_cons, Nat.add_comm]
    exact hwrote.trans hw
  | threw hthrows ht => exact .threw (by simpa using hthrows) (htakes.mp ht)
  | died hdies hgone => exact .died (fun ht => hdies (htakes.mpr ht)) hgone
  | dangled hdies => exact .dangled fun ht => hdies (htakes.mpr ht)

/-- The socket dies of the first reply. -/
theorem not_takes_cons {rs : List (Option Frame)} (hlife : s.life sock = some 0) :
    ¬ s.Takes sock (writes (some f :: rs)) := by
  intro h
  have := h 0 hlife
  rw [writes_some] at this
  omega

theorem sendFrame_sends : Sends sock [some f] s (.ok (s.sendFrame sock f)) := by
  by_cases hlife : s.life sock = some 0
  · refine .died (not_takes_cons hlife) ?_
    rw [sendFrame_dead hlife]
    exact AList.lookup_erase sock _
  · exact .cons hlife sends_nil

theorem seedAvatars_sends (lib : JsonLib) (entries : List (Sigma fun _ : Bytes => AvatarEntry))
    {c : Client} (hc : s.clients.lookup sock = some c) :
    Sends sock (entries.map (avatarReply lib)) s (s.seedAvatars lib sock entries) := by
  induction entries generalizing s with
  | nil => exact sends_nil
  | cons e rest ih =>
    obtain ⟨hash, entry⟩ := e
    rw [seedAvatars, client_of_lookup hc, List.map_cons, avatarReply]
    cases avatarPayload lib hash entry.path entry.w entry.h with
    | none => exact sends_none
    | some payload =>
      by_cases hlife : s.life sock = some 0
      · have hgone : (s.onDisconnected sock).clients.lookup sock = none :=
          AList.lookup_erase sock _
        simp only [bind, Except.bind, orThrow, sendFrame_dead hlife]
        cases rest with
        | nil => exact .died (not_takes_cons hlife) hgone
        | cons e' rest =>
          rw [seedAvatars, client_of_gone hgone]
          exact .dangled (not_takes_cons hlife)
      · refine .cons hlife (ih ?_)
        rw [sendFrame_clients hlife, hc]

theorem seedClient_sends (lib : JsonLib) {c : Client} (hc : s.clients.lookup sock = some c)
    (hinert : c.inert = false) : Sends sock (s.greeting lib c) s (s.seedClient lib sock) := by
  rw [greeting, hinert, if_neg Bool.false_ne_true, seedClient, client_of_lookup hc]
  cases s.current.toJsonStr lib with
  | none => exact sends_none
  | some snapJson =>
    by_cases hlife : s.life sock = some 0
    · have hgone : (s.onDisconnected sock).clients.lookup sock = none := AList.lookup_erase sock _
      simp only [bind, Except.bind, orThrow, sendFrame_dead hlife]
      cases havatars : s.avatars.entries with
      | nil => exact .died (not_takes_cons hlife) hgone
      | cons e rest =>
        rw [seedAvatars, client_of_gone hgone]
        exact .dangled (not_takes_cons hlife)
    · exact .cons hlife (seedAvatars_sends lib _ (by rw [sendFrame_clients hlife, hc]))

theorem heard_rbuf (lib : JsonLib) (c : Client) (f : Frame) (s : StateServer) :
    (s.heard lib c f).rbuf = c.rbuf := by
  rw [heard]
  cases f.type with
  | hello =>
    simp only [classify]
    split_ifs <;> rfl
  | snapshot | avatarReady | disabled | ping | pong | unknown => rfl

/-- One frame is answered by its replies, sent by a server that has noted the
    classification. -/
theorem onFrame_sends (lib : JsonLib) (f : Frame) {c : Client}
    (hc : s.clients.lookup sock = some c) :
    ∃ s₁, Wrote sock 0 s s₁ ∧ s₁.clients.lookup sock = some (s.heard lib c f) ∧
      Sends sock (s.answers lib c f) s₁ (s.onFrame lib sock f) := by
  rw [onFrame, answers, heard]
  cases f.type with
  | ping => exact ⟨s, .refl, hc, sendFrame_sends⟩
  | hello =>
    rw [handleHello, client_of_lookup hc]
    simp only [bind, Except.bind]
    by_cases hclassified : (c.active || c.inert) = true
    · rw [if_pos hclassified, if_pos hclassified, classify, if_pos hclassified]
      exact ⟨s, .refl, hc, sends_nil⟩
    · rw [if_neg hclassified, if_neg hclassified]
      refine ⟨s.setClient sock (s.classify lib c f.payload), setClient_wrote, lookup_setClient, ?_⟩
      cases hinert : (s.classify lib c f.payload).inert with
      | true =>
        rw [greeting, hinert, if_pos rfl, if_pos rfl]
        exact sendFrame_sends
      | false =>
        rw [if_neg Bool.false_ne_true]
        exact seedClient_sends lib lookup_setClient hinert
  | snapshot | avatarReady | disabled | pong | unknown => exact ⟨s, .refl, hc, sends_nil⟩

/-! ## Draining -/

theorem blocksHello_congr (h : s'.isBlocked = s.isBlocked) (payload : Bytes) :
    s'.blocksHello lib payload = s.blocksHello lib payload := by
  have hblocks : ∀ name, s'.blocks name = s.blocks name := fun name => by rw [blocks, h, blocks]
  simp only [blocksHello, hblocks]

theorem classify_congr (h : s'.isBlocked = s.isBlocked) (c : Client) (payload : Bytes) :
    s'.classify lib c payload = s.classify lib c payload := by
  rw [classify, blocksHello_congr h, classify]

/-- Replies depend on what is served and on the denylist only. -/
theorem Wrote.replies_eq {n : Nat} (h : Wrote sock n s s') (fuel : Nat) (c : Client) :
    replies lib s' fuel c = replies lib s fuel c := by
  induction fuel generalizing c with
  | zero => rfl
  | succ fuel ih =>
    simp only [replies, answers, heard, greeting, ih, classify_congr h.isBlocked, h.current,
      h.avatars]

theorem drainFrames_gone {fuel : Nat} (hfuel : 0 < fuel) (h : s.clients.lookup sock = none) :
    s.drainFrames lib sock fuel = .error (.dangling sock) := by
  obtain ⟨fuel, rfl⟩ := Nat.exists_eq_add_of_lt hfuel
  rw [Nat.zero_add, drainFrames, client_of_gone h]
  rfl

theorem writes_le_append (rs rs' : List (Option Frame)) : writes rs ≤ writes (rs ++ rs') := by
  rw [writes_append]
  split_ifs
  · exact Nat.le_trans (List.takeWhile_sublist _).length_le (Nat.le_add_right ..)
  · exact Nat.le_refl _

/-- Replies go out, and then those due to the rest of the buffer. -/
theorem Sends.drain_dangling {s₁ : StateServer} {fuel : Nat} {rs : List (Option Frame)}
    {c : Client} {r : Except Fault StateServer} (hsends : Sends sock rs s₁ r)
    (hbase : Wrote sock 0 s s₁) (hc : s₁.clients.lookup sock = some c) (hfuel : 0 < fuel)
    (hdrain : ∀ s' : StateServer, s'.clients.lookup sock = some c →
      ((∃ at', s'.drainFrames lib sock fuel = .error (.dangling at')) ↔
        ¬ s'.Takes sock (writes (replies lib s' fuel c)))) :
    (∃ at', (r >>= drainFrames lib sock fuel) = .error (.dangling at')) ↔
      ¬ s.Takes sock (writes (rs ++ replies lib s fuel c)) := by
  have htakes : ∀ n, s₁.Takes sock n ↔ s.Takes sock n := fun n => by
    rw [hbase.takes, Nat.zero_add]
  -- A socket that dies of these replies is used again by the next turn.
  have hdead : ¬ s₁.Takes sock (writes rs) →
      ¬ s.Takes sock (writes (rs ++ replies lib s fuel c)) :=
    fun h hall => h ((htakes _).mpr (hall.mono (writes_le_append _ _)))
  cases hsends with
  | sent hall hclients hwrote =>
    have hentry := hclients ▸ hc
    rw [writes_append, if_pos hall, ← hbase.replies_eq, ← hwrote.replies_eq, ← htakes,
      ← hwrote.takes]
    exact hdrain _ hentry
  | threw hthrows hfits =>
    rw [writes_append, if_neg hthrows, ← htakes]
    simp [bind, Except.bind, hfits]
  | died hdies hgone =>
    simp only [bind, Except.bind, drainFrames_gone hfuel hgone, hdead hdies, not_false_iff,
      iff_true]
    exact ⟨sock, rfl⟩
  | dangled hdies =>
    simp only [bind, Except.bind, hdead hdies, not_false_iff, iff_true]
    exact ⟨sock, rfl⟩

/-- The frames of a client are handled without touching an erased entry exactly
    when its socket takes the replies. By induction on the fuel. -/
theorem drainFrames_dangling (lib : JsonLib) {fuel : Nat} {c : Client}
    (hc : s.clients.lookup sock = some c) (hfuel : c.rbuf.length < fuel) :
    (∃ at', s.drainFrames lib sock fuel = .error (.dangling at')) ↔
      ¬ s.Takes sock (writes (replies lib s fuel c)) := by
  induction fuel generalizing s c with
  | zero => omega
  | succ fuel ih =>
    rw [drainFrames, client_of_lookup hc, replies]
    simp only [bind, Except.bind]
    cases hdec : tryDecodeFrame c.rbuf with
    | corrupt => simp [takes_zero]
    | incomplete => simp [takes_zero]
    | frame f rest =>
      have hlen := tryDecodeFrame_length hdec
      have hentry : (s.setClient sock { c with rbuf := rest }).clients.lookup sock =
        some { c with rbuf := rest } := lookup_setClient
      obtain ⟨s₁, hs₁, hheard, hsends⟩ := onFrame_sends lib f hentry
      refine hsends.drain_dangling (setClient_wrote.trans hs₁) hheard (by omega) fun s' hs' => ?_
      refine ih hs' ?_
      rw [heard_rbuf]
      exact Nat.lt_of_lt_of_le hlen (Nat.le_of_lt_succ hfuel)

/-- The replies due to a client that sends these bytes. -/
def due (lib : JsonLib) (c : Client) (data : Bytes) (s : StateServer) : Nat :=
  writes (replies lib s ((c.rbuf ++ data).length + 1) { c with rbuf := c.rbuf ++ data })

theorem onReadyRead_dangling (lib : JsonLib) (sock : Sock) (data : Bytes) (s : StateServer) :
    (∃ at', s.onReadyRead lib sock data = .error (.dangling at')) ↔
      ∃ c, s.clients.lookup sock = some c ∧ ¬ s.Takes sock (s.due lib c data) := by
  rw [onReadyRead]
  cases hc : s.clients.lookup sock with
  | none => simp
  | some c =>
    have hbase : Wrote sock 0 s (s.setClient sock { c with rbuf := c.rbuf ++ data }) :=
      setClient_wrote
    have hdrain := drainFrames_dangling lib
      (lookup_setClient : (s.setClient sock { c with rbuf := c.rbuf ++ data }).clients.lookup sock
        = some { c with rbuf := c.rbuf ++ data }) (Nat.lt_succ_self _)
    rw [hbase.replies_eq, hbase.takes, Nat.zero_add] at hdrain
    simp only [Option.some.injEq, exists_eq_left']
    refine Iff.trans ?_ hdrain
    simp only [bind, Except.bind]
    cases (s.setClient sock { c with rbuf := c.rbuf ++ data }).drainFrames lib sock
        ((c.rbuf ++ data).length + 1) with
    | error fault => simp
    | ok res =>
      simp only [reduceCtorEq, exists_false, iff_false]
      split_ifs <;> simp

/-! ## The three sends -/

/-- A dump, and then the loop over all clients. -/
theorem dumpAndSend_iff (type : MsgType) (text : Option Bytes) (s : StateServer) :
    (∃ payload s', text = some payload ∧
        (orThrow text >>= fun payload => s.sendActive ⟨type, payload⟩ s.clients.keys) = .ok s' ∧
        SentOnce ⟨type, payload⟩ s s') ↔
      text.isSome = true ∧ s.SocketsHold := by
  cases text with
  | none => simp
  | some payload => simpa [orThrow, bind, Except.bind] using sendActive_keys ⟨type, payload⟩

theorem avatarPayload_isSome (lib : JsonLib) (hash path : Bytes) (w h : UInt32) :
    (avatarPayload lib hash path w h).isSome = (validUtf8 hash && validUtf8 path) := by
  rw [avatarPayload, lib.dump_isSome]
  simp only [Json.utf8, Json.utf8Entries, show validUtf8 (ascii "h") = true by decide,
    show validUtf8 (ascii "hash") = true by decide, show validUtf8 (ascii "path") = true by decide,
    show validUtf8 (ascii "w") = true by decide, Bool.true_and, Bool.and_true]

/-- A broadcast reaches every active client once exactly when its text can be
    written and no active client's socket dies; the frames of a client are
    answered without a use of an erased entry exactly when its socket takes all
    the replies that are due. -/
theorem sends_survive_iff (lib : JsonLib) (s : StateServer) :
    (∀ snap, (∃ text s', snap.toJsonStr lib = some text ∧ s.broadcast lib snap = .ok s' ∧
        SentOnce ⟨.snapshot, text⟩ s s') ↔ snap.toJson.utf8 = true ∧ s.SocketsHold) ∧
    (∀ hash path w h, (∃ text s', avatarPayload lib hash path w h = some text ∧
        s.broadcastAvatar lib hash path w h = .ok s' ∧ SentOnce ⟨.avatarReady, text⟩ s s') ↔
      (validUtf8 hash = true ∧ validUtf8 path = true) ∧ s.SocketsHold) ∧
    (∀ sock data, (∀ at', s.onReadyRead lib sock data ≠ .error (.dangling at')) ↔
      ∀ c, s.clients.lookup sock = some c → s.Takes sock (s.due lib c data)) := by
  refine ⟨fun snap => ?_, fun hash path w h => ?_, fun sock data => ?_⟩
  · rw [← lib.dump_isSome]
    exact dumpAndSend_iff .snapshot (snap.toJsonStr lib) (s.setSnapshot snap)
  · rw [← Bool.and_eq_true, ← avatarPayload_isSome lib hash path w h]
    exact dumpAndSend_iff .avatarReady (avatarPayload lib hash path w h)
      { s with avatars := s.avatars.insert hash { path, w, h } }
  · have h := not_congr (onReadyRead_dangling lib sock data s)
    simpa only [not_exists, not_and, not_not] using h

/-- An active client whose socket dies of the broadcast: the loop advances from
    its erased entry. -/
theorem broadcast_dangling :
    let s : StateServer :=
      { clients := AList.singleton 1 { active := true }, life := fun _ => some 0 }
    s.broadcast compactJson {} = .error (.dangling 1) := by
  intro s
  have hutf8 : (Snapshot.toJson {}).utf8 = true := by decide
  obtain ⟨text, htext⟩ := compactJson.exists_dump hutf8
  rw [broadcast, Snapshot.toJsonStr, htext]
  rfl

end StateServer

end Choir
