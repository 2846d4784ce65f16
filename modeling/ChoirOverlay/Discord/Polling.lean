-- SUMMARY: When a transport that is polled hands on what its peers send, in order, and tells the end of each connection.
import ChoirOverlay.Discord.Transport
import ChoirOverlay.Json.Text
import ChoirOverlay.Machine.Run

/-!
# Polling the transport

An `IpcTransport` with handlers that keep a record, and the peers at the other
end of its connections. A `poll` loses messages when it finds the end of the
stream, or too much in its buffer, before it has peeled what it read.
-/

namespace Choir

/-! ## A transport with recording handlers -/

namespace Polling

/-- What the handlers were told, and the PONGs that went out. -/
inductive Entry where
  | message (c : Conn) (op : Int) (j : Json)
  | pong (c : Conn) (payload : Bytes)
  | closed (c : Conn)

def Entry.conn : Entry → Conn
  | .message c _ _ | .pong c _ | .closed c => c

structure Recorder where
  transport : IpcTransport := {}
  /-- Oldest first. -/
  log : List Entry := []

namespace Recorder

def note (e : Entry) (r : Recorder) : Recorder := { r with log := r.log ++ [e] }

def setRbuf (rbuf : Bytes) (r : Recorder) : Recorder :=
  { r with transport := { r.transport with rbuf } }

def handleClosed (r : Recorder) : Recorder :=
  match r.transport.fd with
  | none => r
  | some c => { r with transport := r.transport.shut }.note (.closed c)

def close (r : Recorder) : Recorder :=
  match r.transport.fd with
  | none => r
  | some _ => { r with transport := r.transport.shut }

/-- `send_raw` of a PONG. -/
def sendPong (payload : Bytes) (r : Recorder) : Recorder :=
  match r.transport.fd with
  | none => r
  | some c =>
    let (ok, transport) := r.transport.writeFrame
    let r := { r with transport }
    if ok then r.note (.pong c payload) else r.handleClosed

/-- What is done with one message. -/
def dispatch (lib : JsonLib) (c : Conn) (m : Message) (r : Recorder) : Recorder :=
  if m.op = kOpPing then r.sendPong m.payload
  else match lib.parse m.payload with
    | some j => r.note (.message c m.op j)
    | none => r

/-- The loop that peels and dispatches, for at most `fuel` messages. -/
def drain (lib : JsonLib) : Nat → Recorder → Recorder
  | 0, r => r
  | fuel + 1, r =>
    match r.transport.fd with
    | none => r
    | some c =>
      match IpcTransport.peelOne r.transport.rbuf with
      | .incomplete => r
      | .corrupt => r.handleClosed
      | .message op payload rest => drain lib fuel ((r.setRbuf rest).dispatch lib c ⟨op, payload⟩)

def poll (lib : JsonLib) (reads : List ReadResult) (r : Recorder) : Recorder :=
  match r.transport.fd with
  | none => r
  | some _ =>
    match IpcTransport.fill r.transport.rbuf reads with
    | none => r.handleClosed
    | some rbuf => drain lib (rbuf.length + 1) (r.setRbuf rbuf)

end Recorder

/-! ## The peers -/

/-- What one `read` finds. -/
inductive Arrival where
  /-- Some of the bytes on their way, up to `n + 1`; when there are none and the
      peer has hung up, the end of the stream. -/
  | upTo (n : Nat)
  | later
  | interrupted

/-- The reads of a `poll`, and the bytes still on their way. -/
def readsOf : List Arrival → Bytes → Bool → List ReadResult × Bytes
  | [], wire, _ => ([], wire)
  | .interrupted :: as, wire, hungUp =>
    (.interrupted :: (readsOf as wire hungUp).1, (readsOf as wire hungUp).2)
  | .later :: _, wire, _ => ([.wouldBlock], wire)
  | .upTo n :: as, wire, hungUp =>
    let bytes := wire.take (min (n + 1) 4096)
    let rest := wire.drop (min (n + 1) 4096)
    if wire = [] then (if hungUp then [.data []] else [.wouldBlock], [])
    else if bytes.length < 4096 then ([.data bytes], rest)
    else (.data bytes :: (readsOf as rest hungUp).1, (readsOf as rest hungUp).2)

/-- A transport and its peers. -/
structure Line extends Recorder where
  /-- What the peer of the live connection sent that is not read yet. -/
  wire : Bytes := []
  sent : Conn → List Message := fun _ => []
  hungUp : Conn → Bool := fun _ => false
  /-- Connections that were given up by `close`. -/
  dropped : Conn → Bool := fun _ => false

namespace Line

inductive Event where
  | connect (probe : Nat → Bool)
  /-- The peer sends a message. -/
  | send (m : Message) (hm : m.Sendable)
  /-- The peer closes its end. -/
  | hangUp
  /-- `poll`, with what its reads find and what becomes of its writes. -/
  | poll (arrivals : List Arrival) (writes : List Bool)
  | close

def step (lib : JsonLib) (l : Line) : Event → Line
  | .connect probe =>
    { l with
      transport := (l.transport.connect probe).1
      wire := if l.transport.fd = none then [] else l.wire }
  | .send m _ =>
    match l.transport.fd with
    | none => l
    | some c =>
      if l.hungUp c then l
      else { l with
        wire := l.wire ++ m.encode
        sent := Function.update l.sent c (l.sent c ++ [m]) }
  | .hangUp =>
    match l.transport.fd with
    | none => l
    | some c => { l with hungUp := Function.update l.hungUp c true }
  | .poll arrivals writes =>
    match l.transport.fd with
    | none => l
    | some c =>
      let (reads, wire) := readsOf arrivals l.wire (l.hungUp c)
      { l with
        toRecorder := { l.toRecorder with
          transport := { l.transport with verdicts := writes } }.poll lib reads
        wire }
  | .close =>
    match l.transport.fd with
    | none => l
    | some c =>
      { l with toRecorder := l.toRecorder.close, dropped := Function.update l.dropped c true }

end Line

/-! ## What is due -/

/-- What a message leads to: a PING is answered, JSON is handed on. -/
def due (lib : JsonLib) (c : Conn) (m : Message) : Option Entry :=
  if m.op = kOpPing then some (.pong c m.payload)
  else (lib.parse m.payload).map (.message c m.op)

def dues (lib : JsonLib) (c : Conn) (ms : List Message) : List Entry := ms.filterMap (due lib c)

def pings (ms : List Message) : Nat := ms.countP fun m => m.op = kOpPing

/-- The complete messages in a buffer, and what is left. -/
def peelAll (buf : Bytes) : List Message × Bytes :=
  IpcTransport.messageCodec.split (buf.length + 1) buf

variable {lib : JsonLib} {c : Conn} {m : Message} {ms : List Message} {r : Recorder}

theorem dues_append (ms ms' : List Message) :
    dues lib c (ms ++ ms') = dues lib c ms ++ dues lib c ms' := List.filterMap_append

theorem dues_cons (m : Message) (ms : List Message) :
    dues lib c (m :: ms) = (due lib c m).toList ++ dues lib c ms := by
  rw [dues, List.filterMap_cons, dues]
  cases due lib c m <;> rfl

theorem pings_cons (m : Message) (ms : List Message) :
    pings (m :: ms) = (if m.op = kOpPing then 1 else 0) + pings ms := by
  rw [pings, List.countP_cons, Nat.add_comm]
  simp only [decide_eq_true_eq]
  rfl

/-! ## The dispatch loop -/

namespace Recorder

theorem dispatch_rest (hm : m.op ≠ kOpPing) :
    r.dispatch lib c m = { r with log := r.log ++ (due lib c m).toList } := by
  rw [dispatch, due, if_neg hm, if_neg hm]
  cases lib.parse m.payload with
  | none => simp
  | some j => rfl

theorem dispatch_ping (hm : m.op = kOpPing) (hc : r.transport.fd = some c)
    (hok : r.transport.Allows 1) :
    r.dispatch lib c m =
      { transport := { r.transport with verdicts := r.transport.verdicts.drop 1 }
        log := r.log ++ (due lib c m).toList } := by
  have hwrite := r.transport.writeFrame_fst.mpr hok
  have hnext := r.transport.writeFrame_snd
  rw [dispatch, due, if_pos hm, if_pos hm, sendPong]
  simp only [hc, hwrite, hnext, if_true]
  rfl

/-- A PONG that does not go out ends the connection. -/
theorem dispatch_refused (hm : m.op = kOpPing) (hc : r.transport.fd = some c)
    (hno : ¬ r.transport.Allows 1) :
    r.dispatch lib c m =
      { transport := { r.transport.shut with verdicts := r.transport.verdicts.drop 1 }
        log := r.log ++ [.closed c] } := by
  have hwrite := Bool.eq_false_iff.mpr (mt r.transport.writeFrame_fst.mp hno)
  have hnext := r.transport.writeFrame_snd
  rw [dispatch, if_pos hm, sendPong]
  simp only [hc, hwrite, hnext, Bool.false_eq_true, if_false]
  simp only [handleClosed]
  rfl

theorem drain_message {op : Int} {payload rest : Bytes} (hc : r.transport.fd = some c)
    (hpeel : IpcTransport.peelOne r.transport.rbuf = .message op payload rest) (fuel : Nat) :
    r.drain lib (fuel + 1) = drain lib fuel ((r.setRbuf rest).dispatch lib c ⟨op, payload⟩) := by
  rw [drain, hc]
  simp only [hpeel]

theorem drain_gone (hgone : r.transport.fd = none) (fuel : Nat) : r.drain lib fuel = r := by
  cases fuel with
  | zero => rfl
  | succ fuel => rw [drain, hgone]

variable {fuel : Nat} {tail : Bytes}

/-- All messages that are complete are handled when the PONGs go out. By
    induction on the fuel. -/
theorem drain_allowed {opened : Nat} {rbuf : Bytes} {verdicts : List Bool} {l : List Entry}
    (hms : ∀ m ∈ ms, m.Sendable) (heq : rbuf ++ tail = ms.flatMap Message.encode)
    (hok : ∀ ok ∈ verdicts.take (pings (IpcTransport.messageCodec.split fuel rbuf).1), ok = true) :
    ∃ verdicts', drain lib fuel ⟨⟨some c, rbuf, opened, verdicts⟩, l⟩ =
      ⟨⟨some c, (IpcTransport.messageCodec.split fuel rbuf).2, opened, verdicts'⟩,
        l ++ dues lib c (IpcTransport.messageCodec.split fuel rbuf).1⟩ := by
  induction fuel generalizing rbuf ms verdicts l with
  | zero => exact ⟨verdicts, by simp [drain, Deframe.Codec.split, dues]⟩
  | succ fuel ih =>
    cases hpeel : IpcTransport.peelOne rbuf with
    -- Complete messages of a sendable stream never look corrupt.
    | corrupt => exact absurd hpeel (IpcTransport.peelOne_stream hms heq)
    | incomplete =>
      rw [Deframe.Codec.split_of_none (IpcTransport.messageCodec_next_eq_none.mpr (.inl hpeel))]
      exact ⟨verdicts, by simp [drain, hpeel, dues]⟩
    | message op payload rest =>
      have hnext := IpcTransport.messageCodec_next_of_message hpeel
      obtain ⟨left, rfl, hleft⟩ := Deframe.Codec.stream_of_next hms heq hnext
      have hms' : ∀ m ∈ left, m.Sendable := fun m hm => hms m (List.mem_cons_of_mem _ hm)
      rw [Deframe.Codec.split_of_some hnext] at hok ⊢
      rw [drain_message rfl hpeel, dues_cons]
      -- A PING uses up one verdict, any other message none.
      by_cases hping : op = kOpPing
      · rw [pings_cons, if_pos hping] at hok
        obtain ⟨hfirst, hrest⟩ :=
          IpcTransport.allows_add ⟨some c, rest, opened, verdicts⟩ 1 _ |>.mp hok
        rw [dispatch_ping (c := c) hping rfl hfirst, ← List.append_assoc]
        exact ih hms' hleft hrest
      · rw [pings_cons, if_neg hping, Nat.zero_add] at hok
        rw [dispatch_rest (c := c) hping, ← List.append_assoc]
        exact ih hms' hleft hok

/-- A PONG that does not go out ends the connection in the middle. By induction
    on the fuel. -/
theorem drain_refused {opened : Nat} {rbuf : Bytes} {verdicts : List Bool} {l : List Entry}
    (hms : ∀ m ∈ ms, m.Sendable) (heq : rbuf ++ tail = ms.flatMap Message.encode)
    (hno : ¬ ∀ ok ∈ verdicts.take (pings (IpcTransport.messageCodec.split fuel rbuf).1),
      ok = true) :
    ∃ before m after verdicts',
      (IpcTransport.messageCodec.split fuel rbuf).1 = before ++ m :: after ∧ m.op = kOpPing ∧
        drain lib fuel ⟨⟨some c, rbuf, opened, verdicts⟩, l⟩ =
          ⟨⟨none, [], opened, verdicts'⟩, l ++ dues lib c before ++ [.closed c]⟩ := by
  induction fuel generalizing rbuf ms verdicts l with
  | zero => exact absurd (by simp [Deframe.Codec.split, pings]) hno
  | succ fuel ih =>
    cases hpeel : IpcTransport.peelOne rbuf with
    | corrupt => exact absurd hpeel (IpcTransport.peelOne_stream hms heq)
    | incomplete =>
      rw [Deframe.Codec.split_of_none
        (IpcTransport.messageCodec_next_eq_none.mpr (.inl hpeel))] at hno
      exact absurd (by simp [pings]) hno
    | message op payload rest =>
      have hnext := IpcTransport.messageCodec_next_of_message hpeel
      obtain ⟨left, rfl, hleft⟩ := Deframe.Codec.stream_of_next hms heq hnext
      have hms' : ∀ m ∈ left, m.Sendable := fun m hm => hms m (List.mem_cons_of_mem _ hm)
      rw [Deframe.Codec.split_of_some hnext] at hno ⊢
      rw [drain_message rfl hpeel]
      by_cases hping : op = kOpPing
      · rw [pings_cons, if_pos hping] at hno
        by_cases hfirst : IpcTransport.Allows ⟨some c, rest, opened, verdicts⟩ 1
        -- This PONG goes out; the one that does not comes later.
        · have hrest := mt (fun hrest => (IpcTransport.allows_add
            ⟨some c, rest, opened, verdicts⟩ 1 _).mpr ⟨hfirst, hrest⟩) hno
          rw [dispatch_ping (c := c) hping rfl hfirst]
          obtain ⟨before, m, after, verdicts', hsplit, hm, hdrain⟩ := ih
            (l := l ++ (due lib c ⟨op, payload⟩).toList) hms' hleft hrest
          refine ⟨⟨op, payload⟩ :: before, m, after, verdicts', congrArg _ hsplit, hm, ?_⟩
          rw [dues_cons, ← List.append_assoc]
          exact hdrain
        · -- Nothing is peeled from the connection once it is closed.
          rw [dispatch_refused (c := c) hping rfl hfirst, drain_gone rfl]
          refine ⟨[], _, _, verdicts.drop 1, rfl, hping, ?_⟩
          rw [dues, List.filterMap_nil, List.append_nil]
          rfl
      · rw [pings_cons, if_neg hping, Nat.zero_add] at hno
        rw [dispatch_rest (c := c) hping]
        obtain ⟨before, m, after, verdicts', hsplit, hm, hdrain⟩ := ih
          (l := l ++ (due lib c ⟨op, payload⟩).toList) hms' hleft hno
        refine ⟨⟨op, payload⟩ :: before, m, after, verdicts', congrArg _ hsplit, hm, ?_⟩
        rw [dues_cons, ← List.append_assoc]
        exact hdrain

end Recorder

/-! ## The reads of a poll -/

/-- The bytes of some reads. -/
def bytesOf (reads : List ReadResult) : Bytes := reads.flatMap ReadResult.bytes

/-- The read loop gives up at the end of the stream, or with too much in the
    buffer. -/
def givesUp (rbuf : Bytes) (reads : List ReadResult) : Bool :=
  reads.any ReadResult.atEnd || decide (kMaxRecvBuffer < (rbuf ++ bytesOf reads).length)

@[simp] theorem bytesOf_nil : bytesOf [] = [] := rfl

@[simp] theorem bytesOf_cons (read : ReadResult) (reads : List ReadResult) :
    bytesOf (read :: reads) = read.bytes ++ bytesOf reads := rfl

theorem givesUp_nil {rbuf : Bytes} (hroom : rbuf.length ≤ kMaxRecvBuffer) :
    givesUp rbuf [] = false := by
  simp [givesUp, hroom]

theorem givesUp_wouldBlock {rbuf : Bytes} (hroom : rbuf.length ≤ kMaxRecvBuffer) :
    givesUp rbuf [.wouldBlock] = false := givesUp_nil hroom

theorem givesUp_data {bytes rbuf : Bytes} (hne : bytes ≠ []) (reads : List ReadResult) :
    givesUp rbuf (.data bytes :: reads) = givesUp (rbuf ++ bytes) reads := by
  have hnot : (ReadResult.data bytes).atEnd = false := by
    cases bytes with
    | nil => exact absurd rfl hne
    | cons b bytes => rfl
  rw [givesUp, List.any_cons, hnot, Bool.false_or, bytesOf_cons, ← List.append_assoc]
  rfl

theorem givesUp_full {rbuf : Bytes} (hfull : kMaxRecvBuffer < rbuf.length)
    (reads : List ReadResult) : givesUp rbuf reads = true := by
  have hmore : kMaxRecvBuffer < (rbuf ++ bytesOf reads).length := by
    rw [List.length_append]
    omega
  rw [givesUp, decide_eq_true hmore, Bool.or_true]

theorem readsOf_upTo {n : Nat} {as : List Arrival} {wire : Bytes} {hungUp : Bool}
    (hne : wire ≠ []) :
    readsOf (.upTo n :: as) wire hungUp =
      if (wire.take (min (n + 1) 4096)).length < 4096 then
        ([.data (wire.take (min (n + 1) 4096))], wire.drop (min (n + 1) 4096))
      else (.data (wire.take (min (n + 1) 4096)) ::
          (readsOf as (wire.drop (min (n + 1) 4096)) hungUp).1,
        (readsOf as (wire.drop (min (n + 1) 4096)) hungUp).2) := by
  rw [readsOf, if_neg hne]

/-- No byte is lost or made up. -/
theorem readsOf_conserves (as : List Arrival) (wire : Bytes) (hungUp : Bool) :
    bytesOf (readsOf as wire hungUp).1 ++ (readsOf as wire hungUp).2 = wire := by
  induction as generalizing wire with
  | nil => rfl
  | cons a as ih =>
    cases a with
    | interrupted => exact ih wire
    | later => rfl
    | upTo n =>
      by_cases hempty : wire = []
      · subst hempty
        cases hungUp <;> rfl
      · rw [readsOf_upTo hempty]
        split
        · simp only [bytesOf_cons, bytesOf_nil, ReadResult.bytes, List.append_nil,
            List.take_append_drop]
        · simp only [bytesOf_cons, ReadResult.bytes, List.append_assoc, ih, List.take_append_drop]

/-- The loop reads until nothing more is there. -/
theorem fill_readsOf (as : List Arrival) (wire : Bytes) (hungUp : Bool) {rbuf : Bytes}
    (hroom : rbuf.length ≤ kMaxRecvBuffer) :
    IpcTransport.fill rbuf (readsOf as wire hungUp).1 =
      if givesUp rbuf (readsOf as wire hungUp).1 = true then none
      else some (rbuf ++ bytesOf (readsOf as wire hungUp).1) := by
  induction as generalizing wire rbuf with
  | nil => rw [readsOf, givesUp_nil hroom, IpcTransport.fill, bytesOf_nil, List.append_nil]; rfl
  | cons a as ih =>
    cases a with
    | interrupted => exact ih wire hroom
    | later =>
      rw [readsOf, givesUp_wouldBlock hroom]
      exact congrArg some (List.append_nil rbuf).symm
    | upTo n =>
      by_cases hempty : wire = []
      · subst hempty
        cases hungUp with
        | true => rfl
        | false =>
          have hread : readsOf (.upTo n :: as) [] false = ([.wouldBlock], []) := rfl
          rw [hread, givesUp_wouldBlock hroom]
          exact congrArg some (List.append_nil rbuf).symm
      -- A read that is not empty: the guard first, then the short read that ends the loop.
      · have hbytes : wire.take (min (n + 1) 4096) ≠ [] := by
          rw [← List.length_pos_iff, List.length_take]
          have hpos := List.length_pos_iff.mpr hempty
          omega
        rw [readsOf_upTo hempty]
        generalize wire.take (min (n + 1) 4096) = bytes at hbytes ⊢
        generalize wire.drop (min (n + 1) 4096) = rest
        have hfill : ∀ reads, IpcTransport.fill rbuf (.data bytes :: reads) =
            if kMaxRecvBuffer < (rbuf ++ bytes).length then none
            else if bytes.length < 4096 then some (rbuf ++ bytes)
            else IpcTransport.fill (rbuf ++ bytes) reads := fun reads => if_neg hbytes
        by_cases hfull : kMaxRecvBuffer < (rbuf ++ bytes).length
        · split <;> rw [givesUp_data hbytes, givesUp_full hfull, hfill, if_pos hfull] <;> rfl
        · have hroom' := Nat.not_lt.mp hfull
          split
          · rename_i hshort
            rw [givesUp_data hbytes, givesUp_nil hroom', hfill, if_neg hfull, if_pos hshort,
              bytesOf_cons, bytesOf_nil, List.append_nil]
            rfl
          · rename_i hlong
            rw [givesUp_data hbytes, hfill, if_neg hfull, if_neg hlong, ih rest hroom',
              bytesOf_cons, ReadResult.bytes, List.append_assoc]

/-! ## Service -/

/-- What the log says of one connection. -/
def ofConn (c : Conn) (log : List Entry) : List Entry := log.filter fun e => e.conn = c

theorem ofConn_append (log log' : List Entry) :
    ofConn c (log ++ log') = ofConn c log ++ ofConn c log' := List.filter_append ..

theorem conn_of_due {e : Entry} (he : due lib c m = some e) : e.conn = c := by
  rw [due] at he
  split at he
  · rw [← Option.some.inj he]
    rfl
  · obtain ⟨j, -, rfl⟩ := Option.map_eq_some_iff.mp he
    rfl

theorem conn_of_mem_dues {e : Entry} (he : e ∈ dues lib c ms) : e.conn = c := by
  obtain ⟨m, -, hm⟩ := List.mem_filterMap.mp he
  exact conn_of_due hm

theorem ofConn_dues (ms : List Message) : ofConn c (dues lib c ms) = dues lib c ms :=
  List.filter_eq_self.mpr fun _ he => decide_eq_true (conn_of_mem_dues he)

theorem ofConn_dues_ne {c' : Conn} (hne : c' ≠ c) (ms : List Message) :
    ofConn c' (dues lib c ms) = [] :=
  List.filter_eq_nil_iff.mpr fun _ he => by
    rw [conn_of_mem_dues he, decide_eq_true_eq]
    exact hne.symm

namespace Line

/-- The live connection: the complete messages that were read are handled, in
    order, and the others are in the buffer and on their way. -/
structure Live (lib : JsonLib) (l : Line) (c : Conn) (done left : List Message) : Prop where
  sent : l.sent c = done ++ left
  handled : ofConn c l.log = dues lib c done
  bytes : l.transport.rbuf ++ l.wire = left.flatMap Message.encode
  idle : IpcTransport.peelOne l.transport.rbuf = .incomplete
  room : l.transport.rbuf.length ≤ kMaxRecvBuffer
  opened : c < l.transport.opened
  kept : l.dropped c = false

/-- An earlier connection: unless it was given up, its peer had hung up, all it
    sent was handled, and then its end was told, once. -/
def Ended (lib : JsonLib) (l : Line) (c : Conn) : Prop :=
  if l.dropped c = true then ∃ done, done <+: l.sent c ∧ ofConn c l.log = dues lib c done
  else l.hungUp c = true ∧ ofConn c l.log = dues lib c (l.sent c) ++ [.closed c]

structure Served (lib : JsonLib) (l : Line) : Prop where
  live : ∀ c, l.transport.fd = some c → ∃ done left, l.Live lib c done left
  ended : ∀ c, l.transport.fd ≠ some c → c < l.transport.opened → l.Ended lib c
  fresh : ∀ c, l.transport.opened ≤ c →
    l.sent c = [] ∧ ofConn c l.log = [] ∧ l.hungUp c = false ∧ l.dropped c = false
  sendable : ∀ c, ∀ m ∈ l.sent c, m.Sendable

/-- When the loop gives up, the peer must have hung up and nothing be left to
    handle; else the PONGs must go out. -/
def Good (lib : JsonLib) (l : Line) : Event → Prop
  | .poll arrivals writes => ∀ c, l.transport.fd = some c →
    let reads := (readsOf arrivals l.wire (l.hungUp c)).1
    if givesUp l.transport.rbuf reads = true then
      l.hungUp c = true ∧ dues lib c (peelAll (l.transport.rbuf ++ l.wire)).1 = []
    else
      ∀ ok ∈ writes.take (pings (peelAll (l.transport.rbuf ++ bytesOf reads)).1), ok = true
  | .connect _ | .send _ _ | .hangUp | .close => True

variable {l l' : Line} {done left : List Message}

/-- What is pending is what a decoder finds in the buffer and on the wire. -/
theorem Live.pending (h : l.Live lib c done left) (hleft : ∀ m ∈ left, m.Sendable) :
    (peelAll (l.transport.rbuf ++ l.wire)).1 = left := by
  rw [peelAll, h.bytes]
  exact congrArg Prod.fst (Deframe.Codec.split_all (c := IpcTransport.messageCodec) hleft
    (Nat.lt_succ_self _))

/-- The connection ends: that is right when the peer has hung up and the
    messages that were handled are all that had to be. -/
theorem served_closed (part : List Message) (hs : l.Served lib) (hc : l.transport.fd = some c)
    (hlive : l.Live lib c done left) (hfd : l'.transport.fd = none)
    (hopened : l'.transport.opened = l.transport.opened)
    (hlog : l'.log = l.log ++ dues lib c part ++ [.closed c]) (hsent : l'.sent = l.sent)
    (hhungUp : l'.hungUp = l.hungUp) (hdropped : l'.dropped = l.dropped) :
    l'.Served lib ↔ l.hungUp c = true ∧ dues lib c left = dues lib c part := by
  have hhere : ofConn c l'.log = dues lib c done ++ dues lib c part ++ [.closed c] := by
    rw [hlog, ofConn_append, ofConn_append, hlive.handled, ofConn_dues]
    simp [ofConn, Entry.conn]
  have hended : l'.Ended lib c ↔ l.hungUp c = true ∧ dues lib c left = dues lib c part := by
    rw [Ended, hdropped, hlive.kept, if_neg Bool.false_ne_true, hhungUp, hsent, hhere, hlive.sent,
      dues_append, List.append_cancel_right_eq, List.append_cancel_left_eq,
      eq_comm (a := dues lib c part)]
  -- The other connections have no part in the entries of this one.
  have helse : ∀ c', c' ≠ c → ofConn c' l'.log = ofConn c' l.log := by
    intro c' hne
    rw [hlog, ofConn_append, ofConn_append, ofConn_dues_ne hne]
    simp [ofConn, Entry.conn, hne.symm]
  rw [← hended]
  constructor
  · intro hs'
    exact hs'.ended c (by rw [hfd]; nofun) (by rw [hopened]; exact hlive.opened)
  · intro hend
    refine ⟨fun c' hc' => ?_, fun c' _ hopened' => ?_, fun c' hfresh => ?_, ?_⟩
    · rw [hfd] at hc'
      cases hc'
    · by_cases hsame : c' = c
      · exact hsame ▸ hend
      · have hold := hs.ended c' (by rw [hc]; exact fun h => hsame (Option.some.inj h).symm)
          (hopened ▸ hopened')
        rw [Ended, hdropped, hsent, hhungUp, helse c' hsame]
        exact hold
    · have hlt := hlive.opened
      rw [hopened] at hfresh
      rw [hsent, hhungUp, hdropped, helse c' (Nat.ne_of_gt (Nat.lt_of_lt_of_le hlt hfresh))]
      exact hs.fresh c' hfresh
    · rw [hsent]
      exact hs.sendable

/-- The connection goes on. -/
theorem served_live (hs : l.Served lib) (hc : l.transport.fd = some c)
    (hfd : l'.transport.fd = some c) (hopened : l'.transport.opened = l.transport.opened)
    (hlive : l'.Live lib c done left)
    (helse : ∀ c', c' ≠ c → ofConn c' l'.log = ofConn c' l.log ∧ l'.sent c' = l.sent c' ∧
      l'.hungUp c' = l.hungUp c' ∧ l'.dropped c' = l.dropped c')
    (hsendable : ∀ m ∈ l'.sent c, m.Sendable) : l'.Served lib := by
  refine ⟨fun c' hc' => ?_, fun c' hne hopened' => ?_, fun c' hfresh => ?_, fun c' => ?_⟩
  · rw [hfd] at hc'
    obtain rfl := Option.some.inj hc'
    exact ⟨done, left, hlive⟩
  · rw [hfd] at hne
    have hsame : c' ≠ c := fun h => hne (h ▸ rfl)
    obtain ⟨hlog, hsent, hhungUp, hdropped⟩ := helse c' hsame
    rw [Ended, hlog, hsent, hhungUp, hdropped]
    exact hs.ended c' (by rw [hc]; exact hne) (hopened ▸ hopened')
  · have hlt := hlive.opened
    obtain ⟨hlog, hsent, hhungUp, hdropped⟩ :=
      helse c' (Nat.ne_of_gt (Nat.lt_of_lt_of_le hlt hfresh))
    rw [hlog, hsent, hhungUp, hdropped]
    exact hs.fresh c' (hopened ▸ hfresh)
  · by_cases hsame : c' = c
    · rw [hsame]
      exact hsendable
    · rw [(helse c' hsame).2.1]
      exact hs.sendable c'

theorem Live.sendable (hs : l.Served lib) (h : l.Live lib c done left) :
    (∀ m ∈ done, m.Sendable) ∧ ∀ m ∈ left, m.Sendable := by
  have hall := hs.sendable c
  rw [h.sent, List.forall_mem_append] at hall
  exact hall

/-! ## Steps -/

/-- A message that is due something leaves more due after it. -/
theorem dues_ne_of_ping {before after : List Message} (hm : m.op = kOpPing) :
    dues lib c (before ++ m :: after) ≠ dues lib c before := by
  intro heq
  rw [dues_append, dues_cons, due, if_pos hm, List.append_right_eq_self] at heq
  cases heq

theorem length_of_not_givesUp {rbuf : Bytes} {reads : List ReadResult}
    (h : givesUp rbuf reads = false) : (rbuf ++ bytesOf reads).length ≤ kMaxRecvBuffer := by
  rw [givesUp, Bool.or_eq_false_iff, decide_eq_false_iff_not, Nat.not_lt] at h
  exact h.2

/-- The buffer of a `poll` that goes on to peel. -/
theorem served_peel (hs : l.Served lib) (hc : l.transport.fd = some c)
    (hlive : l.Live lib c done left) {rbuf rest : Bytes} (writes : List Bool)
    (hbytes : rbuf ++ rest = left.flatMap Message.encode) (hroom : rbuf.length ≤ kMaxRecvBuffer) :
    Served lib { l with
        toRecorder := Recorder.drain lib (rbuf.length + 1)
          ⟨⟨some c, rbuf, l.transport.opened, writes⟩, l.log⟩
        wire := rest } ↔
      ∀ ok ∈ writes.take (pings (peelAll rbuf).1), ok = true := by
  obtain ⟨-, hleft⟩ := hlive.sendable hs
  have hfuel := Nat.lt_succ_self rbuf.length
  obtain ⟨left', hsplit, hrest⟩ := Deframe.Codec.split_stream (c := IpcTransport.messageCodec)
    hleft hfuel hbytes
  have hleft' : ∀ m ∈ left', m.Sendable := fun m hm =>
    hleft m (hsplit ▸ List.mem_append_right _ hm)
  rw [peelAll]
  by_cases hok : ∀ ok ∈
      writes.take (pings (IpcTransport.messageCodec.split (rbuf.length + 1) rbuf).1),
      ok = true
  -- What is left of the buffer is the front of an unfinished message.
  · refine iff_of_true ?_ hok
    obtain ⟨verdicts, hdrain⟩ := @Recorder.drain_allowed lib c left _ rest l.transport.opened rbuf
      writes l.log hleft hbytes hok
    rw [hdrain]
    generalize hdone : IpcTransport.messageCodec.split (rbuf.length + 1) rbuf = split
      at hsplit hrest
    have hidle : IpcTransport.messageCodec.next split.2 = none :=
      hdone ▸ Deframe.Codec.next_split hfuel
    have hlen : split.2.length ≤ rbuf.length := by
      have hcons := congrArg List.length
        (Deframe.Codec.split_conserves (c := IpcTransport.messageCodec) (rbuf.length + 1) rbuf)
      rw [hdone, List.length_append] at hcons
      omega
    have hsent : l.sent c = (done ++ split.1) ++ left' := by
      rw [hlive.sent, hsplit, List.append_assoc]
    have hhandled : ofConn c (l.log ++ dues lib c split.1) = dues lib c (done ++ split.1) := by
      rw [ofConn_append, hlive.handled, ofConn_dues, dues_append]
    have hpeel : IpcTransport.peelOne split.2 = .incomplete := by
      rcases IpcTransport.messageCodec_next_eq_none.mp hidle with h | h
      · exact h
      · exact absurd h (IpcTransport.peelOne_stream hleft' hrest)
    refine served_live hs hc rfl rfl
      ⟨hsent, hhandled, hrest, hpeel, Nat.le_trans hlen hroom, hlive.opened, hlive.kept⟩
      (fun c' hne => ⟨?_, rfl, rfl, rfl⟩) (hs.sendable c)
    rw [ofConn_append, ofConn_dues_ne hne, List.append_nil]
  -- The connection is closed before the PING is answered, so it is not served.
  · refine iff_of_false (fun hs' => ?_) hok
    obtain ⟨before, m, after, verdicts, hdone, hm, hdrain⟩ := @Recorder.drain_refused lib c left _
      rest l.transport.opened rbuf writes l.log hleft hbytes hok
    rw [hdrain] at hs'
    rw [hdone, List.append_assoc, List.cons_append] at hsplit
    refine absurd ((served_closed before hs hc hlive ?_ ?_ ?_ ?_ ?_ ?_).mp hs').2 ?_
    any_goals rfl
    rw [hsplit]
    exact dues_ne_of_ping hm

/-- A `poll` that keeps its connection, or gives up, or cannot answer a PING. -/
theorem served_poll (hs : l.Served lib) (hc : l.transport.fd = some c) (as : List Arrival)
    (writes : List Bool) :
    (l.step lib (.poll as writes)).Served lib ↔ l.Good lib (.poll as writes) := by
  obtain ⟨done, left, hlive⟩ := hs.live c hc
  obtain ⟨-, hleft⟩ := hlive.sendable hs
  have hwire := readsOf_conserves as l.wire (l.hungUp c)
  have hfill := fill_readsOf as l.wire (l.hungUp c) hlive.room
  rw [Good]
  simp only [hc, Option.some.injEq, forall_eq', hlive.pending hleft]
  rw [step]
  simp only [hc, Recorder.poll]
  -- The reads and what they leave on the wire are all that matters from here.
  generalize (readsOf as l.wire (l.hungUp c)).1 = reads at hwire hfill ⊢
  generalize (readsOf as l.wire (l.hungUp c)).2 = rest at hwire ⊢
  cases hgives : givesUp l.transport.rbuf reads with
  | true =>
    rw [hgives, if_pos rfl] at hfill
    simp only [hfill, Recorder.handleClosed, Recorder.note, if_true]
    refine Iff.trans (served_closed [] hs hc hlive ?_ ?_ ?_ ?_ ?_ ?_) Iff.rfl
    · rfl
    · rfl
    · simp [dues]
    all_goals rfl
  | false =>
    rw [hgives, if_neg Bool.false_ne_true] at hfill
    simp only [hfill, Recorder.setRbuf, Bool.false_eq_true, if_false]
    refine served_peel hs hc hlive writes ?_ (length_of_not_givesUp hgives)
    rw [List.append_assoc, hwire, hlive.bytes]

theorem served_connect (hs : l.Served lib) (probe : Nat → Bool) :
    (l.step lib (.connect probe)).Served lib := by
  cases hfd : l.transport.fd with
  | some c =>
    have hsame : l.step lib (.connect probe) = l := by
      simp [step, IpcTransport.connect, hfd]
    rw [hsame]
    exact hs
  | none =>
    rw [step, IpcTransport.connect, hfd]
    simp only [if_true]
    split
    · -- A new connection, on which nothing was sent yet.
      obtain ⟨hsent, hlog, hhungUp, hdropped⟩ := hs.fresh l.transport.opened (Nat.le_refl _)
      refine ⟨fun c hc => ?_, fun c hne hopened => ?_, fun c hfresh => ?_, hs.sendable⟩
      · obtain rfl := Option.some.inj hc
        exact ⟨[], [], hsent, hlog, rfl, rfl, Nat.zero_le _, Nat.lt_succ_self _, hdropped⟩
      · refine hs.ended c (by rw [hfd]; nofun) (Nat.lt_of_le_of_ne (Nat.le_of_lt_succ hopened) ?_)
        rintro rfl
        exact hne rfl
      · exact hs.fresh c (Nat.le_trans (Nat.le_succ _) hfresh)
    · refine ⟨fun c hc => ?_, fun c _ => ?_, hs.fresh, hs.sendable⟩
      · exact absurd (hfd.symm.trans hc) nofun
      · exact hs.ended c (by rw [hfd]; nofun)

theorem served_send (hs : l.Served lib) (m : Message) (hm : m.Sendable) :
    (l.step lib (.send m hm)).Served lib := by
  cases hfd : l.transport.fd with
  | none =>
    rw [step, hfd]
    exact hs
  | some c =>
    obtain ⟨done, left, hlive⟩ := hs.live c hfd
    rw [step, hfd]
    dsimp only
    split
    · exact hs
    · have hsent : Function.update l.sent c (l.sent c ++ [m]) c = done ++ (left ++ [m]) := by
        rw [Function.update_self, hlive.sent, List.append_assoc]
      have hbytes : l.transport.rbuf ++ (l.wire ++ m.encode) =
          (left ++ [m]).flatMap Message.encode := by
        rw [← List.append_assoc, hlive.bytes, List.flatMap_append, List.flatMap_singleton]
      refine served_live hs hfd hfd rfl
        ⟨hsent, hlive.handled, hbytes, hlive.idle, hlive.room, hlive.opened, hlive.kept⟩
        (fun c' hne => ⟨rfl, Function.update_of_ne hne _ _, rfl, rfl⟩) fun m' hm' => ?_
      have hmem : m' ∈ l.sent c ++ [m] := by
        rw [hlive.sent, List.append_assoc, ← hsent]
        exact hm'
      rcases List.mem_append.mp hmem with hold | hnew
      · exact hs.sendable c m' hold
      · exact List.mem_singleton.mp hnew ▸ hm

theorem served_hangUp (hs : l.Served lib) : (l.step lib .hangUp).Served lib := by
  cases hfd : l.transport.fd with
  | none =>
    rw [step, hfd]
    exact hs
  | some c =>
    obtain ⟨done, left, hlive⟩ := hs.live c hfd
    rw [step, hfd]
    exact served_live hs hfd hfd rfl { hlive with }
      (fun c' hne => ⟨rfl, rfl, Function.update_of_ne hne _ _, rfl⟩) (hs.sendable c)

theorem served_close (hs : l.Served lib) : (l.step lib .close).Served lib := by
  cases hfd : l.transport.fd with
  | none =>
    rw [step, hfd]
    exact hs
  | some c =>
    obtain ⟨done, left, hlive⟩ := hs.live c hfd
    have hlt := hlive.opened
    simp only [step, hfd, Recorder.close]
    refine ⟨nofun, fun c' _ hopened => ?_, fun c' hfresh => ?_, hs.sendable⟩
    · by_cases hsame : c' = c
      · subst hsame
        simp only [Ended, Function.update_self, if_true]
        exact ⟨done, hlive.sent ▸ List.prefix_append done left, hlive.handled⟩
      · simp only [Ended, Function.update_of_ne hsame]
        exact hs.ended c' (by rw [hfd]; exact fun h => hsame (Option.some.inj h).symm) hopened
    · simp only [Function.update_of_ne (Nat.ne_of_gt (Nat.lt_of_lt_of_le hlt hfresh))]
      exact hs.fresh c' hfresh

theorem served_step (l : Line) (e : Event) (hs : l.Served lib) :
    (l.step lib e).Served lib ↔ l.Good lib e := by
  cases e with
  | connect probe => exact iff_of_true (served_connect hs probe) trivial
  | send m hm => exact iff_of_true (served_send hs m hm) trivial
  | hangUp => exact iff_of_true (served_hangUp hs) trivial
  | close => exact iff_of_true (served_close hs) trivial
  | poll as writes =>
    cases hfd : l.transport.fd with
    | none =>
      rw [step, hfd, Good, hfd]
      exact iff_of_true hs nofun
    | some c => exact served_poll hs hfd as writes

theorem served_init : Served lib {} where
  live c hc := by cases hc
  ended c _ hopened := by cases hopened
  fresh c _ := ⟨rfl, rfl, rfl, rfl⟩
  sendable c m hm := by cases hm

/-- The transport serves its peers in every state of a run exactly when each
    `poll` of the run is good: it gives up only on a peer that has hung up and
    has nothing pending, and its PONGs go out. -/
theorem run_served_iff (lib : JsonLib) (es : List Event) :
    (∀ pre, pre <+: es → (Machine.run (step lib) {} pre).Served lib) ↔
      Machine.Along (step lib) (Good lib) {} es :=
  Machine.forall_prefix_iff_along served_step served_init es

/-- A full read is followed by another one. -/
theorem readsOf_full {wire : Bytes} (hlen : wire.length = 4096) :
    (readsOf [.upTo 4095, .upTo 0] wire true).1 = [.data wire, .data []] := by
  have hne : wire ≠ [] := by
    rintro rfl
    cases hlen
  have hend : readsOf [.upTo 0] [] true = ([.data []], []) := rfl
  have hmin : min (4095 + 1) 4096 = wire.length := hlen.symm
  rw [readsOf_upTo hne, hmin, List.take_length, List.drop_length, if_neg (by omega), hend]

/-- The same `poll` reads on after a full read, and finds that the peer has
    hung up. -/
theorem lost_at_end (hm : m.Sendable) (hping : m.op = kOpPing) (hlen : m.encode.length = 4096) :
    ¬ (Machine.run (step lib) {} [.connect fun _ => true, .send m hm, .hangUp,
      .poll [.upTo 4095, .upTo 0] []]).Served lib := by
  intro hserved
  let l : Line := { transport := { fd := some 0, opened := 1 }, wire := m.encode
                    sent := Function.update (fun _ => []) 0 [m]
                    hungUp := Function.update (fun _ => false) 0 true }
  have hs : l.Served lib :=
    served_hangUp (served_send (served_connect served_init fun _ => true) m hm)
  have hgood := (served_step l (.poll [.upTo 4095, .upTo 0] []) hs).mp hserved 0 rfl
  have hpending : (peelAll m.encode).1 = [m] := by
    have hms : ∀ m' ∈ [m], m'.Sendable := fun m' hm' => List.mem_singleton.mp hm' ▸ hm
    have hall := Deframe.Codec.split_all (c := IpcTransport.messageCodec) hms (Nat.lt_succ_self _)
    rw [List.flatMap_singleton] at hall
    exact congrArg Prod.fst hall
  have hgives : givesUp [] [.data m.encode, .data []] = true := by
    rw [givesUp, List.any_cons, List.any_cons, show (ReadResult.data []).atEnd = true from rfl,
      Bool.true_or, Bool.or_true, Bool.true_or]
  have hdues : dues lib 0 (peelAll m.encode).1 = [] := by
    simp only [l, Function.update_self, readsOf_full hlen] at hgood
    rw [if_pos hgives] at hgood
    exact hgood.2
  rw [hpending, dues_cons, due, if_pos hping] at hdues
  cases hdues

/-- A PING whose frame fills one read exactly, before the peer hangs up. -/
theorem ping_lost :
    ∃ hm : Message.Sendable ⟨kOpPing, List.replicate 4088 0x20⟩,
      ¬ (Machine.run (step compactJson) {} [.connect fun _ => true, .send _ hm, .hangUp,
        .poll [.upTo 4095, .upTo 0] []]).Served compactJson := by
  have hlen : (Message.encode ⟨kOpPing, List.replicate 4088 0x20⟩).length = 4096 := by
    simp only [Message.encode, IpcTransport.frame, List.length_append, length_le32,
      List.length_replicate]
  refine ⟨⟨by decide, ?_⟩, lost_at_end _ rfl hlen⟩
  rw [List.length_replicate]
  decide

end Line

end Polling

end Choir
