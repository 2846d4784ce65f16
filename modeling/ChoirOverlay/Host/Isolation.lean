-- SUMMARY: What the server sends to a client that has not said Hello or is on the denylist, in every run.
import ChoirOverlay.Host.Inbound

/-!
# Isolation

A client is classified by its first Hello, for good. Until it is admitted it
gets a Pong for each Ping, and Disabled once if it is refused.
-/

namespace Choir

/-! ## Classification -/

def Heard.isHello (h : Heard) : Bool := decide (h.frame.type = .hello)

def Heard.isPing (h : Heard) : Bool := decide (h.frame.type = .ping)

def firstHello (hs : List Heard) : Option Heard := hs.find? Heard.isHello

/-- The first Hello was not blocked. -/
def admitted (hs : List Heard) : Bool := (firstHello hs).any fun h => !h.blocked

/-- The first Hello was blocked. -/
def refused (hs : List Heard) : Bool := (firstHello hs).any Heard.blocked

/-- The frames due to a client that is not admitted. -/
def dueTo (classified : Bool) : List Heard → List Frame
  | [] => []
  | h :: hs => StateServer.plainReplies classified h.frame ++ dueTo (classified || h.isHello) hs

variable {hs : List Heard} {h : Heard}

theorem admitted_or_refused (hs : List Heard) :
    (admitted hs || refused hs) = (firstHello hs).isSome := by
  unfold admitted refused
  cases firstHello hs with
  | none => rfl
  | some h => cases hb : h.blocked <;> simp [hb]

theorem firstHello_cons_isSome (h : Heard) (hs : List Heard) :
    (firstHello (h :: hs)).isSome = (h.isHello || (firstHello hs).isSome) := by
  unfold firstHello
  rw [List.find?_cons]
  cases h.isHello <;> rfl

/-- A later frame changes nothing about the first Hello. -/
theorem firstHello_append_of_isSome (hsome : (firstHello hs).isSome = true) (more : List Heard) :
    firstHello (hs ++ more) = firstHello hs := by
  unfold firstHello at hsome ⊢
  rw [List.find?_append]
  exact Option.or_of_isSome hsome

theorem firstHello_append_of_none (hnone : firstHello hs = none) :
    firstHello (hs ++ [h]) = if h.isHello then some h else none := by
  unfold firstHello at hnone ⊢
  rw [List.find?_append, hnone, List.find?_singleton]
  rfl

theorem dueTo_append (classified : Bool) (hs : List Heard) (h : Heard) :
    dueTo classified (hs ++ [h]) = dueTo classified hs ++
      StateServer.plainReplies (classified || (firstHello hs).isSome) h.frame := by
  induction hs generalizing classified with
  | nil => simp [dueTo, firstHello]
  | cons g hs ih =>
    rw [List.cons_append, dueTo, ih, dueTo, firstHello_cons_isSome, ← Bool.or_assoc,
      List.append_assoc]

/-! ## What a client is due -/

def pong : Frame := ⟨.pong, []⟩

def disabled : Frame := ⟨.disabled, []⟩

theorem mem_dueTo {classified : Bool} {f : Frame} (hf : f ∈ dueTo classified hs) :
    f = pong ∨ f = disabled := by
  induction hs generalizing classified with
  | nil => simp [dueTo] at hf
  | cons h hs ih =>
    rw [dueTo, List.mem_append] at hf
    rcases hf with hf | hf
    · unfold StateServer.plainReplies at hf
      split at hf
      · split at hf
        · simp at hf
        · exact .inr (List.mem_singleton.mp hf)
      · exact .inl (List.mem_singleton.mp hf)
      all_goals cases hf
    · exact ih hf

/-- One Pong for each Ping. -/
theorem count_pong (classified : Bool) (hs : List Heard) :
    (dueTo classified hs).count pong = hs.countP Heard.isPing := by
  induction hs generalizing classified with
  | nil => rfl
  | cons h hs ih =>
    have hhere : (StateServer.plainReplies classified h.frame).count pong =
        if h.isPing = true then 1 else 0 := by
      unfold StateServer.plainReplies Heard.isPing
      cases h.frame.type <;> cases classified <;> rfl
    rw [dueTo, List.count_append, ih, hhere, List.countP_cons, Nat.add_comm]

/-- Disabled once, for the first Hello. -/
theorem count_disabled (classified : Bool) (hs : List Heard) :
    (dueTo classified hs).count disabled =
      if classified = false ∧ (firstHello hs).isSome = true then 1 else 0 := by
  induction hs generalizing classified with
  | nil => simp [dueTo, firstHello]
  | cons h hs ih =>
    have hhere : (StateServer.plainReplies classified h.frame).count disabled =
        if classified = false ∧ h.isHello = true then 1 else 0 := by
      unfold StateServer.plainReplies Heard.isHello
      cases h.frame.type <;> cases classified <;> rfl
    rw [dueTo, List.count_append, ih, hhere, firstHello_cons_isSome]
    cases classified <;> cases h.isHello <;> simp

/-! ## The law -/

namespace StateServer

/-- The flags of a client are those of its first Hello, and one that is not
    admitted was sent what it is due. -/
structure Treated (sock : Sock) (hs : List Heard) (s : StateServer) : Prop where
  flags : ∀ c, s.clients.lookup sock = some c → c.active = admitted hs ∧ c.inert = refused hs
  sent : admitted hs = false → s.out sock = (dueTo false hs).flatMap encodeFrame

variable {lib : JsonLib} {sock : Sock} {s s' : StateServer} {c : Client} {f : Frame}

theorem Treated.isActive (ht : s.Treated sock hs) (hadm : admitted hs = false) :
    s.isActive sock = false := by
  rw [StateServer.isActive]
  cases hc : s.clients.lookup sock with
  | none => rfl
  | some c => exact (ht.flags c hc).1.trans hadm

/-- The flags after one more frame. -/
theorem heard_flags (lib : JsonLib) (s : StateServer) (hact : c.active = admitted hs)
    (hinert : c.inert = refused hs) (f : Frame) :
    (s.heard lib c f).active = admitted (hs ++ [⟨f, s.blocksHello lib f.payload⟩]) ∧
      (s.heard lib c f).inert = refused (hs ++ [⟨f, s.blocksHello lib f.payload⟩]) := by
  have hclassified : (c.active || c.inert) = (firstHello hs).isSome := by
    rw [hact, hinert, admitted_or_refused]
  cases hfirst : firstHello hs with
  | some first =>
    -- Classified before: nothing changes.
    have hsome : (firstHello hs).isSome = true := by rw [hfirst]; rfl
    have hsame : s.heard lib c f = c := by
      unfold heard
      split
      · rw [classify, if_pos (hclassified.trans hsome)]
      all_goals rfl
    rw [hsame, admitted, refused, firstHello_append_of_isSome hsome]
    exact ⟨hact, hinert⟩
  | none =>
    rw [hfirst, Option.isSome_none, Bool.or_eq_false_iff] at hclassified
    rw [admitted, refused, firstHello_append_of_none hfirst, heard, Heard.isHello]
    cases htype : f.type with
    | hello =>
      cases hblocked : s.blocksHello lib f.payload <;>
        simp [classify, hclassified.1, hclassified.2, hblocked]
    | snapshot | avatarReady | disabled | ping | pong | unknown =>
      simpa using hclassified

/-- The client was not admitted before the frame either. -/
theorem admitted_before (hadm : admitted (hs ++ [h]) = false) : admitted hs = false := by
  cases hfirst : firstHello hs with
  | none => rw [admitted, hfirst]; rfl
  | some first =>
    rw [admitted, firstHello_append_of_isSome (by rw [hfirst]; rfl)] at hadm
    exact hadm

theorem treated_law (lib : JsonLib) (sock : Sock) :
    Watched.Law lib sock (fun _ hs s => s.Treated sock hs) fun _ hs s => s.Treated sock hs where
  fresh s hc hout := by
    refine ⟨fun c hc' => ?_, fun _ => hout⟩
    rw [hc] at hc'
    obtain rfl := Option.some.inj hc'
    exact ⟨rfl, rfl⟩
  congr _ hs s s' hlookup hout ht :=
    ⟨fun c hc => ht.flags c (hlookup ▸ hc),
      fun hadm => (hout (ht.isActive hadm)).trans (ht.sent hadm)⟩
  weaken _ _ _ ht := ht
  done _ _ _ _ _ _ _ ht := ht
  gone _ _ hs s s' hgone hout ht := by
    refine ⟨fun c hc => ?_, fun hadm => hout.trans (ht.sent hadm)⟩
    rw [hgone] at hc
    cases hc
  data _ hs s c bytes hc ht := by
    refine ⟨fun c' hc' => ?_, ht.sent⟩
    rw [lookup_setClient] at hc'
    obtain rfl := Option.some.inj hc'
    exact ht.flags c hc
  taken _ hs s s' c f rest hc _ hok hentry ht := by
    obtain ⟨hact, hinert⟩ := ht.flags c hc
    have hflags := heard_flags lib s (c := { c with rbuf := rest }) hact hinert f
    refine ⟨fun c' hc' => ?_, fun hadm => ?_⟩
    · rw [hentry] at hc'
      obtain rfl := Option.some.inj hc'
      exact hflags
    · have hout := out_onFrame lookup_setClient hok hentry (hflags.1.trans hadm)
      rw [dueTo_append, List.flatMap_append, ← ht.sent (admitted_before hadm), Bool.false_or,
        ← admitted_or_refused, ← hact, ← hinert]
      exact hout

end StateServer

namespace Watched

variable {lib : JsonLib} {sock : Sock} {w w' : Watched}

/-- While the connection is not replaced, more is heard from it and nothing is
    taken back. -/
theorem heard_prefix {es : List Event} (hsame : ∀ life, .connect sock life ∉ es)
    (hrun : Machine.runM (step lib) w es = .ok w') : w.heard sock <+: w'.heard sock := by
  refine Machine.runM_invariant (P := fun v => w.heard sock <+: v.heard sock) es
    (fun v e v' he h hok => ?_) List.prefix_rfl hrun
  cases step_concerns sock hok with
  | made life => exact absurd he (hsame life)
  | read data hread hreceived hheard =>
    rw [hheard]
    exact h.trans (List.prefix_append _ _)
  | ended hentry hout hreceived hheard | elsewhere _ hentry hout hreceived hheard =>
    rw [hheard]
    exact h

/-- What a client was sent that is not admitted. -/
structure Isolated (w : Watched) (sock : Sock) (sent : List Frame) : Prop where
  out : w.server.out sock = sent.flatMap encodeFrame
  plain : ∀ f ∈ sent, f.type ≠ .snapshot ∧ f.type ≠ .avatarReady
  only : ∀ f ∈ sent, f = pong ∨ f = disabled
  /-- A Pong for each Ping. -/
  pongs : sent.count pong = (w.heard sock).countP Heard.isPing
  /-- Disabled once when the first Hello is refused, and not before. -/
  disabledOnce : sent.count disabled = if refused (w.heard sock) = true then 1 else 0

theorem isolated_dueTo (hout : w.server.out sock = (dueTo false (w.heard sock)).flatMap encodeFrame)
    (hadm : admitted (w.heard sock) = false) :
    w.Isolated sock (dueTo false (w.heard sock)) where
  out := hout
  plain f hf := by
    rcases mem_dueTo hf with rfl | rfl <;> exact ⟨nofun, nofun⟩
  only _ := mem_dueTo
  pongs := count_pong false _
  disabledOnce := by
    rw [count_disabled, ← admitted_or_refused, hadm, Bool.false_or]
    simp only [true_and]

/-- The server over all runs: a client's flags are those its first Hello made,
    whatever follows it, and a client that is not admitted is sent a Pong for
    each Ping, and Disabled once if it was refused. -/
theorem client_isolated (lib : JsonLib) (isBlocked : Option (Bytes → Bool)) (snap : Snapshot)
    (es : List Event) (w : Watched)
    (hrun : Machine.runM (step lib) (init isBlocked snap) es = .ok w) (sock : Sock) :
    (∀ c, w.server.clients.lookup sock = some c →
      c.active = admitted (w.heard sock) ∧ c.inert = refused (w.heard sock)) ∧
    (admitted (w.heard sock) = false → ∃ sent, w.Isolated sock sent) ∧
    ∀ later w', (∀ life, .connect sock life ∉ later) →
      Machine.runM (step lib) w later = .ok w' → (firstHello (w.heard sock)).isSome = true →
        firstHello (w'.heard sock) = firstHello (w.heard sock) ∧
        ∀ c c', w.server.clients.lookup sock = some c → w'.server.clients.lookup sock = some c' →
          c'.active = c.active ∧ c'.inert = c.inert := by
  have hlaw := StateServer.treated_law lib sock
  have hfresh : (init isBlocked snap).server.Treated sock ((init isBlocked snap).heard sock) := by
    refine ⟨fun c hc => ?_, fun _ => rfl⟩
    cases hc
  have ht := hlaw.run es hfresh hrun
  refine ⟨ht.flags, fun hadm => ⟨_, isolated_dueTo (ht.sent hadm) hadm⟩, ?_⟩
  intro later w' hsame hlater hsome
  have ht' := hlaw.run later ht hlater
  obtain ⟨more, hmore⟩ := heard_prefix hsame hlater
  have hfirst : firstHello (w'.heard sock) = firstHello (w.heard sock) := by
    rw [← hmore]
    exact firstHello_append_of_isSome hsome more
  refine ⟨hfirst, fun c c' hc hc' => ?_⟩
  obtain ⟨hact, hinert⟩ := ht.flags c hc
  obtain ⟨hact', hinert'⟩ := ht'.flags c' hc'
  unfold admitted at hact hact'
  unfold refused at hinert hinert'
  rw [hact, hact', hinert, hinert', hfirst]
  exact ⟨rfl, rfl⟩

/-- A game on the denylist: Hello, Ping, then a broadcast. -/
theorem client_isolated_refused :
    let es : List Event := [.connect 0 none,
      .readable 0 (encodeFrame ⟨.hello, []⟩ ++ encodeFrame ⟨.ping, []⟩), .snapshot {}]
    (∃ w, Machine.runM (step compactJson) (init (some fun _ => true) {}) es = .ok w ∧
      refused (w.heard 0) = true) ∧
    ∀ w, Machine.runM (step compactJson) (init (some fun _ => true) {}) es = .ok w →
      admitted (w.heard 0) = false → ∃ sent, w.Isolated 0 sent :=
  ⟨⟨_, rfl, by decide⟩, fun w hrun => (client_isolated _ _ _ _ w hrun 0).2.1⟩

end Watched

end Choir
