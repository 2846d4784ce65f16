-- SUMMARY: What a write to a host that is gone does to the game, and when the client then gives the connection up.
import ChoirOverlay.Json.Text
import ChoirOverlay.Machine.Run
import ChoirOverlay.Overlay.StateClient

/-!
# The host dies

The client's thread one system call at a time, so that the host can close its
end between any two of them. A `write` to a peer that closed raises SIGPIPE,
whose default action ends the process before `write` returns; where the game
ignores the signal, `write` fails with `EPIPE`.
-/

namespace Choir

/-! ## write_frame -/

/-- What a `write` to an open peer returns. -/
inductive WriteResult where
  /-- `n + 1` bytes are taken, or all there are. -/
  | accepted (n : Nat)
  /-- `EINTR`, `EAGAIN` or `EWOULDBLOCK`. -/
  | transient
  | error

/-- How a turn of the loop of `write_frame` ends. -/
inductive WriteTurn where
  | again (left : Bytes)
  | returned (ok : Bool)
  /-- The signal ends the process. -/
  | killed

/-- One turn, with the bytes that are left. -/
def writeTurn (peerUp sigpipeIgnored : Bool) (left : Bytes) (result : WriteResult) : WriteTurn :=
  if peerUp then
    match result with
    | .accepted n => if left.drop (n + 1) = [] then .returned true else .again (left.drop (n + 1))
    | .transient => .again left
    | .error => .returned false
  else if sigpipeIgnored then .returned false
  else .killed

/-! ## The process -/

/-- Where the thread stands. -/
inductive ClientThread where
  /-- Without a connection: backing off or connecting. -/
  | idle
  /-- In `write_frame` for the Hello, or for a Pong. -/
  | hello (left : Bytes)
  | pong (left : Bytes) (r : FrameReader)
  /-- Before `reader.next`, and before `poll`. -/
  | draining (r : FrameReader)
  | polling (r : FrameReader)
  | ended

def ClientThread.writing : ClientThread → Bool
  | .hello _ | .pong _ _ => true
  | .idle | .draining _ | .polling _ | .ended => false

/-- `serve` holds the descriptor. -/
def ClientThread.connected : ClientThread → Bool
  | .hello _ | .pong _ _ | .draining _ | .polling _ => true
  | .idle | .ended => false

/-- How a `write_frame` ended: whether the host had closed its end at the last
    `write`, and what was returned. -/
structure WriteEnd where
  peerGone : Bool
  ok : Bool
  deriving DecidableEq, Repr

structure GameProcess where
  client : StateClient := {}
  /-- The game ignores SIGPIPE. -/
  sigpipeIgnored : Bool := false
  /-- The host has its end of the connection open. -/
  hostUp : Bool := false
  /-- What the host sent and the client has not read. -/
  inbox : Bytes := []
  thread : ClientThread := .idle
  alive : Bool := true
  writes : List WriteEnd := []
  /-- How many actions the thread may still take on a connection the host has
      closed; set when the host closes it. -/
  due : Nat := 0

/-- What the kernel answers to an action of the thread. -/
structure Kernel where
  write : WriteResult := .accepted 4096
  /-- A read takes this many bytes and one more, up to 4096. -/
  readLen : Nat := 4095
  pollFails : Bool := false

inductive GameProcess.Event where
  /-- `connect_once` succeeds. -/
  | connects
  | hostSends (bytes : Bytes)
  /-- The host closes the connection, or dies. -/
  | hostCloses
  /-- The thread takes its next action. -/
  | act (kernel : Kernel)
  /-- The game sets what it does on SIGPIPE. -/
  | sigpipe (ignored : Bool)
  /-- The destructor stops the thread. -/
  | stop

namespace GameProcess

/-- `serve` closes the descriptor and returns. -/
def close (g : GameProcess) : GameProcess := { g with thread := .idle, inbox := [] }

/-- The action of a thread in `write_frame`, and where it goes on. -/
def write (left : Bytes) (kernel : Kernel) (again : Bytes → ClientThread)
    (done : Bool → GameProcess → GameProcess) (g : GameProcess) : GameProcess :=
  match writeTurn g.hostUp g.sigpipeIgnored left kernel.write with
  | .again left => { g with thread := again left }
  | .returned ok => done ok { g with writes := ⟨!g.hostUp, ok⟩ :: g.writes }
  | .killed => { g with alive := false }

/-- One action of the thread. -/
def act (lib : JsonLib) (kernel : Kernel) (g : GameProcess) : GameProcess :=
  match g.thread with
  | .idle | .ended => g
  | .hello left =>
    g.write left kernel .hello fun ok g =>
      if ok then { g with thread := .draining {} } else g.close
  -- What `write_frame` returns for a Pong is not looked at.
  | .pong left r => g.write left kernel (.pong · r) fun _ g => { g with thread := .draining r }
  | .draining r =>
    match r.next with
    | (r, some f) =>
      if f.type = .ping then { g with thread := .pong (encodeFrame ⟨.pong, f.payload⟩) r }
      else { g with client := g.client.dispatch lib f, thread := .draining r }
    | (r, none) => if r.failed then g.close else { g with thread := .polling r }
  | .polling r =>
    if kernel.pollFails then g.close
    else if g.inbox = [] then (if g.hostUp then { g with thread := .draining r } else g.close)
    else
      let n := min (kernel.readLen + 1) 4096
      let (r, alive) := r.feed (.data (g.inbox.take n))
      let g := { g with inbox := g.inbox.drop n }
      if alive then { g with thread := .draining r } else g.close

/-- How many actions a connection the host has closed can take: for each byte
    that is unread or buffered, and for the turn the thread is in. -/
def left (g : GameProcess) : Nat :=
  match g.thread with
  | .idle | .ended => 0
  | .hello _ => 1
  | .polling r => 4 * g.inbox.length + 2 * r.buf.length + 1
  | .draining r => 4 * g.inbox.length + 2 * r.buf.length + 2
  | .pong _ r => 4 * g.inbox.length + 2 * r.buf.length + 3

/-- A step; `hello` is the payload the client says Hello with. -/
def step (lib : JsonLib) (hello : Bytes) (g : GameProcess) (e : Event) : GameProcess :=
  if !g.alive then g
  else match e with
    | .connects =>
      match g.thread with
      | .idle => { g with hostUp := true, thread := .hello (encodeFrame ⟨.hello, hello⟩) }
      | _ => g
    | .hostSends bytes =>
      if g.hostUp && g.thread.connected then { g with inbox := g.inbox ++ bytes } else g
    | .hostCloses => if g.hostUp then { g with hostUp := false, due := g.left } else g
    | .act kernel =>
      let g' := g.act lib kernel
      if g.hostUp then g' else { g' with due := g.due - 1 }
    | .sigpipe ignored => { g with sigpipeIgnored := ignored }
    | .stop => if g.thread.writing then g else { g.close with thread := .ended }

/-! ## The property -/

/-- The game runs, `write_frame` returned false wherever it wrote to a host that
    was gone, and a connection the host has closed is closed in the end. -/
structure Unharmed (g : GameProcess) : Prop where
  alive : g.alive = true
  refused : ∀ w ∈ g.writes, w.peerGone = true → w.ok = false
  closed : g.hostUp = false → g.due = 0 → g.thread.connected = false

/-- The thread does not write to a host that is gone, unless the game ignores
    SIGPIPE. -/
def WritesSafely (g : GameProcess) : Event → Prop
  | .act _ => g.thread.writing = true → g.hostUp = true ∨ g.sigpipeIgnored = true
  | .connects | .hostSends _ | .hostCloses | .sigpipe _ | .stop => True

instance (g : GameProcess) : DecidablePred g.WritesSafely := fun e => by
  unfold WritesSafely
  split <;> infer_instance

variable {g : GameProcess} {lib : JsonLib} {hello : Bytes}

/-- What every run that writes safely keeps. -/
structure Going (g : GameProcess) : Prop where
  alive : g.alive = true
  refused : ∀ w ∈ g.writes, w.peerGone = true → w.ok = false
  left_le : g.hostUp = false → g.left ≤ g.due

theorem Going.unharmed (h : g.Going) : g.Unharmed := by
  refine ⟨h.alive, h.refused, fun hgone hdue => ?_⟩
  have hleft : g.left = 0 := Nat.le_zero.mp (hdue ▸ h.left_le hgone)
  cases hthread : g.thread with
  | idle => rfl
  | ended => rfl
  | hello left => simp [GameProcess.left, hthread] at hleft
  | pong left r => simp [GameProcess.left, hthread] at hleft
  | draining r => simp [GameProcess.left, hthread] at hleft
  | polling r => simp [GameProcess.left, hthread] at hleft

/-! ## Writes -/

/-- A turn that does not end the process: another one while the host is there,
    or a result, which is false where the host is gone. -/
theorem writeTurn_cases {peerUp ignored : Bool} (hsafe : peerUp = true ∨ ignored = true)
    (left : Bytes) (result : WriteResult) :
    (∃ left', writeTurn peerUp ignored left result = .again left' ∧ peerUp = true) ∨
      ∃ ok, writeTurn peerUp ignored left result = .returned ok ∧
        (peerUp = false → ok = false) := by
  cases peerUp with
  | false =>
    obtain rfl : ignored = true := hsafe.resolve_left Bool.false_ne_true
    exact .inr ⟨false, rfl, fun _ => rfl⟩
  | true =>
    cases result with
    | accepted n =>
      by_cases hleft : left.drop (n + 1) = []
      · exact .inr ⟨true, by simp [writeTurn, hleft], nofun⟩
      · exact .inl ⟨left.drop (n + 1), by simp [writeTurn, hleft], rfl⟩
    | transient => exact .inl ⟨left, rfl, rfl⟩
    | error => exact .inr ⟨false, rfl, fun _ => rfl⟩

/-- The same for the write of a thread. -/
theorem write_cases {left : Bytes} (kernel : Kernel) (again : Bytes → ClientThread)
    (done : Bool → GameProcess → GameProcess)
    (hsafe : g.hostUp = true ∨ g.sigpipeIgnored = true) :
    (∃ left', g.write left kernel again done = { g with thread := again left' } ∧
        g.hostUp = true) ∨
      ∃ ok, g.write left kernel again done =
          done ok { g with writes := ⟨!g.hostUp, ok⟩ :: g.writes } ∧
        (g.hostUp = false → ok = false) := by
  unfold write
  rcases writeTurn_cases hsafe left kernel.write with ⟨left', hturn, hup⟩ | ⟨ok, hturn, hok⟩
  · exact .inl ⟨left', by rw [hturn], hup⟩
  · exact .inr ⟨ok, by rw [hturn], hok⟩

/-- A write that is not safe ends the process. -/
theorem write_killed {left : Bytes} (kernel : Kernel) (again : Bytes → ClientThread)
    (done : Bool → GameProcess → GameProcess)
    (hexposed : ¬ (g.hostUp = true ∨ g.sigpipeIgnored = true)) :
    (g.write left kernel again done).alive = false := by
  rw [not_or, Bool.not_eq_true, Bool.not_eq_true] at hexposed
  simp [write, writeTurn, hexposed.1, hexposed.2]

/-! ## Actions -/

/-- An action that writes safely: the process goes on, and a connection the host
    has closed comes nearer to its end. -/
structure Goes (g g' : GameProcess) : Prop where
  alive : g'.alive = g.alive
  hostUp : g'.hostUp = g.hostUp
  due : g'.due = g.due
  refused : (∀ w ∈ g.writes, w.peerGone = true → w.ok = false) →
    ∀ w ∈ g'.writes, w.peerGone = true → w.ok = false
  left_le : g.hostUp = false → g'.left ≤ g.left - 1

theorem refused_cons {ok : Bool} (hok : g.hostUp = false → ok = false)
    (h : ∀ w ∈ g.writes, w.peerGone = true → w.ok = false) :
    ∀ w ∈ (⟨!g.hostUp, ok⟩ : WriteEnd) :: g.writes, w.peerGone = true → w.ok = false := by
  refine List.forall_mem_cons.mpr ⟨fun hgone => hok ?_, h⟩
  simpa using hgone

/-- Draining takes a frame off the buffer, or goes on to poll. -/
theorem draining_goes {r : FrameReader} (kernel : Kernel) (hthread : g.thread = .draining r) :
    Goes g (g.act lib kernel) := by
  unfold act
  rw [hthread]
  simp only
  split
  · rename_i r' f hnext
    have hlen := FrameReader.next_length hnext
    split
    · refine ⟨rfl, rfl, rfl, id, fun _ => ?_⟩
      simp only [GameProcess.left, hthread]
      omega
    · refine ⟨rfl, rfl, rfl, id, fun _ => ?_⟩
      simp only [GameProcess.left, hthread]
      omega
  · rename_i r' hnext
    split
    · exact ⟨rfl, rfl, rfl, id, fun _ => Nat.zero_le _⟩
    · rename_i hsound
      have hbuf : r'.buf = r.buf := by
        unfold FrameReader.next at hnext
        split at hnext
        · simp_all
        split at hnext
        · simp_all
        · obtain rfl : ({ buf := [], failed := true } : FrameReader) = r' := by simpa using hnext
          simp at hsound
        · cases hnext
      refine ⟨rfl, rfl, rfl, id, fun _ => ?_⟩
      simp only [GameProcess.left, hthread, hbuf]
      omega

theorem feed_buf {r r' : FrameReader} {bytes : Bytes} (h : r.feed (.data bytes) = (r', true)) :
    r'.buf = r.buf ++ bytes := by
  unfold FrameReader.feed at h
  split at h
  · cases h
  · cases bytes with
    | nil => cases h
    | cons b bytes =>
      simp only at h
      split at h
      · cases h
      · obtain rfl := (Prod.mk.inj h).1
        rfl

/-- Polling reads what is there, or finds the end of the stream. -/
theorem polling_goes {r : FrameReader} (kernel : Kernel) (hthread : g.thread = .polling r) :
    Goes g (g.act lib kernel) := by
  have hclose : Goes g g.close := ⟨rfl, rfl, rfl, id, fun _ => Nat.zero_le _⟩
  unfold act
  rw [hthread]
  simp only
  split
  · exact hclose
  split
  · split
    · rename_i hup
      exact ⟨rfl, rfl, rfl, id, fun hgone => absurd hup (by simp [hgone])⟩
    · exact hclose
  · rename_i hinbox
    cases hfeed : r.feed (.data (g.inbox.take (min (kernel.readLen + 1) 4096))) with
    | mk r' alive =>
    simp only
    cases alive with
    | false => exact ⟨rfl, rfl, rfl, id, fun _ => Nat.zero_le _⟩
    | true =>
      refine ⟨rfl, rfl, rfl, id, fun _ => ?_⟩
      have hpos := List.length_pos_iff.mpr hinbox
      simp only [if_true, GameProcess.left, hthread, feed_buf hfeed, List.length_append,
        List.length_take, List.length_drop]
      omega

/-- Every action that writes safely goes on. -/
theorem act_goes (kernel : Kernel) (hsafe : g.WritesSafely (.act kernel)) :
    Goes g (g.act lib kernel) := by
  cases hthread : g.thread with
  | idle =>
    simp only [act, hthread]
    exact ⟨rfl, rfl, rfl, id, fun _ => by simp [GameProcess.left, hthread]⟩
  | ended =>
    simp only [act, hthread]
    exact ⟨rfl, rfl, rfl, id, fun _ => by simp [GameProcess.left, hthread]⟩
  | draining r => exact draining_goes kernel hthread
  | polling r => exact polling_goes kernel hthread
  | hello left =>
    have hs : g.hostUp = true ∨ g.sigpipeIgnored = true := hsafe (by rw [hthread]; rfl)
    simp only [act, hthread]
    rcases write_cases kernel .hello _ hs with ⟨left', heq, hup⟩ | ⟨ok, heq, hok⟩
    · rw [heq]
      exact ⟨rfl, rfl, rfl, id, fun hgone => absurd hup (by simp [hgone])⟩
    · rw [heq]
      cases ok with
      | false => exact ⟨rfl, rfl, rfl, refused_cons hok, fun _ => Nat.zero_le _⟩
      | true => exact ⟨rfl, rfl, rfl, refused_cons hok, fun hgone => absurd (hok hgone) (by simp)⟩
  | pong left r =>
    have hs : g.hostUp = true ∨ g.sigpipeIgnored = true := hsafe (by rw [hthread]; rfl)
    simp only [act, hthread]
    rcases write_cases kernel (.pong · r) _ hs with ⟨left', heq, hup⟩ | ⟨ok, heq, hok⟩
    · rw [heq]
      exact ⟨rfl, rfl, rfl, id, fun hgone => absurd hup (by simp [hgone])⟩
    · rw [heq]
      refine ⟨rfl, rfl, rfl, refused_cons hok, fun _ => ?_⟩
      simp only [GameProcess.left, hthread]
      omega

/-- An action that writes to a host that is gone ends the process. -/
theorem act_killed (kernel : Kernel) (hexposed : ¬ g.WritesSafely (.act kernel)) :
    (g.act lib kernel).alive = false := by
  have hwriting : g.thread.writing = true := by
    by_contra hw
    exact hexposed fun h => absurd h hw
  have hs : ¬ (g.hostUp = true ∨ g.sigpipeIgnored = true) := fun hs => hexposed fun _ => hs
  cases hthread : g.thread with
  | hello left =>
    simp only [act, hthread]
    exact write_killed kernel .hello _ hs
  | pong left r =>
    simp only [act, hthread]
    exact write_killed kernel (.pong · r) _ hs
  | idle => simp [hthread, ClientThread.writing] at hwriting
  | draining r => simp [hthread, ClientThread.writing] at hwriting
  | polling r => simp [hthread, ClientThread.writing] at hwriting
  | ended => simp [hthread, ClientThread.writing] at hwriting

/-! ## Runs -/

/-- A step keeps the process going exactly when it writes safely. -/
theorem step_alive (h : g.alive = true) (e : Event) :
    (g.step lib hello e).alive = true ↔ g.WritesSafely e := by
  unfold step
  rw [if_neg (by simp [h])]
  cases e with
  | connects =>
    simp only
    split <;> exact iff_of_true h trivial
  | hostSends bytes =>
    simp only
    split <;> exact iff_of_true h trivial
  | hostCloses =>
    simp only
    split <;> exact iff_of_true h trivial
  | sigpipe ignored => exact iff_of_true h trivial
  | stop =>
    simp only
    split <;> exact iff_of_true h trivial
  | act kernel =>
    have hact : (g.act lib kernel).alive = true ↔ g.WritesSafely (.act kernel) := by
      by_cases hsafe : g.WritesSafely (.act kernel)
      · exact iff_of_true ((act_goes kernel hsafe).alive.trans h) hsafe
      · exact iff_of_false (by simp [act_killed kernel hsafe]) hsafe
    simp only
    split <;> exact hact

theorem Going.step (h : g.Going) {e : Event} (hsafe : g.WritesSafely e) :
    (g.step lib hello e).Going := by
  unfold GameProcess.step
  rw [if_neg (by simp [h.alive])]
  cases e with
  | connects =>
    simp only
    cases hthread : g.thread with
    | idle => exact ⟨h.alive, h.refused, nofun⟩
    | hello left | pong left r | draining r | polling r | ended => exact h
  | hostSends bytes =>
    simp only
    split
    · rename_i hup
      refine ⟨h.alive, h.refused, fun hgone => ?_⟩
      simp_all
    · exact h
  | hostCloses =>
    simp only
    split
    · exact ⟨h.alive, h.refused, fun _ => Nat.le_refl _⟩
    · exact h
  | sigpipe ignored => exact ⟨h.alive, h.refused, h.left_le⟩
  | stop =>
    simp only
    split
    · exact h
    · exact ⟨h.alive, h.refused, fun _ => Nat.zero_le _⟩
  | act kernel =>
    have hgoes : Goes g (g.act lib kernel) := act_goes kernel hsafe
    simp only
    split
    · rename_i hup
      refine ⟨hgoes.alive.trans h.alive, hgoes.refused h.refused, fun hgone => ?_⟩
      rw [hgoes.hostUp, hup] at hgone
      cases hgone
    · rename_i hup
      rw [Bool.not_eq_true] at hup
      refine ⟨hgoes.alive.trans h.alive, hgoes.refused h.refused, fun _ => ?_⟩
      exact Nat.le_trans (hgoes.left_le hup) (Nat.sub_le_sub_right (h.left_le hup) 1)

/-- Over any interleaving of the host with the client's thread: the process is
    unharmed in every state exactly when no write is made to a host that is gone
    while SIGPIPE ends the process. -/
theorem run_unharmed_iff (lib : JsonLib) (hello : Bytes) (client : StateClient)
    (sigpipeIgnored : Bool) (es : List Event) :
    (∀ pre, pre <+: es →
        (Machine.run (step lib hello) { client, sigpipeIgnored } pre).Unharmed) ↔
      Machine.Along (step lib hello) WritesSafely { client, sigpipeIgnored } es := by
  have hstart : Going { client, sigpipeIgnored } :=
    ⟨rfl, fun w hw => absurd hw List.not_mem_nil, fun _ => Nat.le_refl 0⟩
  constructor
  · intro h
    exact (Machine.forall_prefix_iff_along (P := fun g => g.alive = true)
      (fun g e hg => step_alive hg e) hstart.alive es).mp fun pre hpre => (h pre hpre).alive
  · intro h pre hpre
    exact ((h.of_prefix hpre).invariant (fun g e hg he => hg.step he) hstart).unharmed

/-- The host dies between the connection and the Hello: the game goes with it. -/
theorem hello_kills_game :
    (Machine.run (step compactJson []) {} [.connects, .hostCloses, .act {}]).alive = false := by
  decide +kernel


end GameProcess

end Choir
