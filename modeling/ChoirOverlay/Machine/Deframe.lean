-- SUMMARY: Streams of encoded items: a prefix-free codec, and the loop that takes all complete items off a buffer.

/-!
# Taking items off a stream

A codec writes items as tokens and finds the item a buffer starts with. Its
items are found again whatever follows them, so the loop that takes them off a
buffer finds the same items however the stream was cut. What it leaves is the
beginning of an item that is not all there.
-/

universe u v

namespace Deframe

structure Codec (α : Type u) (β : Type v) where
  encode : α → List β
  /-- The item at the front of a buffer, and what follows it. -/
  next : List β → Option (α × List β)
  Valid : α → Prop
  encode_ne_nil : ∀ a, encode a ≠ []
  next_encode : ∀ a rest, Valid a → next (encode a ++ rest) = some (a, rest)
  eq_of_next : ∀ buf a rest, next buf = some (a, rest) → Valid a ∧ buf = encode a ++ rest

namespace Codec

variable {α : Type u} {β : Type v} (c : Codec α β)

theorem next_nil : c.next [] = none := by
  cases hnext : c.next [] with
  | none => rfl
  | some found =>
    have heq := (c.eq_of_next [] found.1 found.2 hnext).2
    exact absurd (List.append_eq_nil_iff.mp heq.symm).1 (c.encode_ne_nil found.1)

variable {c}

theorem length_of_next {buf rest : List β} {a : α} (h : c.next buf = some (a, rest)) :
    rest.length < buf.length := by
  obtain ⟨-, rfl⟩ := c.eq_of_next buf a rest h
  have hpos := List.length_pos_iff.mpr (c.encode_ne_nil a)
  rw [List.length_append]
  omega

/-- A found item stays the first one when more tokens arrive. -/
theorem next_append {buf rest : List β} {a : α} (h : c.next buf = some (a, rest))
    (more : List β) : c.next (buf ++ more) = some (a, rest ++ more) := by
  obtain ⟨hvalid, rfl⟩ := c.eq_of_next buf a rest h
  rw [List.append_assoc]
  exact c.next_encode a _ hvalid

/-- At the front of a stream that starts with an item only that item is found,
    and only when all of it is there. -/
theorem next_of_stream {buf tail more : List β} {a : α} (ha : c.Valid a)
    (heq : buf ++ tail = c.encode a ++ more) :
    (c.next buf = none ∧ buf.length < (c.encode a).length) ∨
      ∃ rest, c.next buf = some (a, rest) ∧ rest ++ tail = more := by
  rcases List.append_eq_append_iff.mp heq with ⟨mid, hmid, -⟩ | ⟨rest, rfl, hmore⟩
  · cases mid with
    | nil =>
      rw [List.append_nil] at hmid
      have hbuf := c.next_encode a [] ha
      rw [List.append_nil, hmid] at hbuf
      refine .inr ⟨[], hbuf, ?_⟩
      rw [← hmid] at heq
      exact List.append_cancel_left heq
    | cons b mid =>
      have hlen : buf.length < (c.encode a).length := by
        rw [hmid]
        simp
      refine .inl ⟨?_, hlen⟩
      cases hnext : c.next buf with
      | none => rfl
      | some found =>
        -- Another item at the front would be the first of the whole stream.
        have hwhole := next_append hnext (b :: mid)
        have hitem := c.next_encode a [] ha
        rw [← hmid, ← List.append_nil (c.encode a), hitem] at hwhole
        simp at hwhole
  · exact .inr ⟨rest, c.next_encode a rest ha, hmore.symm⟩

/-- An item found at the front of a stream of items is the first of them. -/
theorem stream_of_next {buf tail rest : List β} {a : α} {items : List α}
    (hitems : ∀ b ∈ items, c.Valid b) (heq : buf ++ tail = items.flatMap c.encode)
    (hnext : c.next buf = some (a, rest)) :
    ∃ left, items = a :: left ∧ rest ++ tail = left.flatMap c.encode := by
  cases items with
  | nil =>
    obtain ⟨rfl, -⟩ := List.append_eq_nil_iff.mp heq
    rw [c.next_nil] at hnext
    cases hnext
  | cons b items =>
    rcases next_of_stream (hitems b List.mem_cons_self) heq with ⟨hnone, -⟩ | ⟨rest', hsome, hmore⟩
    · rw [hnext] at hnone
      cases hnone
    · rw [hnext] at hsome
      obtain ⟨rfl, rfl⟩ := Prod.mk.inj (Option.some.inj hsome)
      exact ⟨items, rfl, hmore⟩

/-! ## The loop -/

variable (c)

/-- Take items off a buffer while there are complete ones, for at most `fuel`
    items: the items in order, and what is left. -/
def split : Nat → List β → List α × List β
  | 0, buf => ([], buf)
  | fuel + 1, buf =>
    match c.next buf with
    | none => ([], buf)
    | some (a, rest) => (a :: (split fuel rest).1, (split fuel rest).2)

variable {c}

theorem split_of_none {buf : List β} (h : c.next buf = none) (fuel : Nat) :
    c.split fuel buf = ([], buf) := by
  cases fuel with
  | zero => rfl
  | succ fuel => rw [split, h]

theorem split_of_some {buf rest : List β} {a : α} (h : c.next buf = some (a, rest)) (fuel : Nat) :
    c.split (fuel + 1) buf = (a :: (c.split fuel rest).1, (c.split fuel rest).2) := by
  rw [split, h]

/-- Nothing is lost or made up. -/
theorem split_conserves (fuel : Nat) (buf : List β) :
    (c.split fuel buf).1.flatMap c.encode ++ (c.split fuel buf).2 = buf := by
  induction fuel generalizing buf with
  | zero => rfl
  | succ fuel ih =>
    cases hnext : c.next buf with
    | none => rw [split_of_none hnext]; rfl
    | some found =>
      obtain ⟨a, rest⟩ := found
      rw [split_of_some hnext, List.flatMap_cons, List.append_assoc, ih]
      exact (c.eq_of_next buf a rest hnext).2.symm

/-- With fuel for the tokens of the buffer no complete item is left. -/
theorem next_split {fuel : Nat} {buf : List β} (hfuel : buf.length < fuel) :
    c.next (c.split fuel buf).2 = none := by
  induction fuel generalizing buf with
  | zero => omega
  | succ fuel ih =>
    cases hnext : c.next buf with
    | none => rw [split_of_none hnext]; exact hnext
    | some found =>
      rw [split_of_some hnext]
      exact ih (Nat.lt_of_lt_of_le (length_of_next hnext) (Nat.le_of_lt_succ hfuel))

/-- The front of a stream of items holds the first of them, and the beginning
    of the next. -/
theorem split_stream {fuel : Nat} {buf tail : List β} {items : List α}
    (hitems : ∀ a ∈ items, c.Valid a) (hfuel : buf.length < fuel)
    (heq : buf ++ tail = items.flatMap c.encode) :
    ∃ left, items = (c.split fuel buf).1 ++ left ∧
      (c.split fuel buf).2 ++ tail = left.flatMap c.encode := by
  induction fuel generalizing buf items with
  | zero => omega
  | succ fuel ih =>
    cases items with
    | nil =>
      obtain ⟨rfl, rfl⟩ := List.append_eq_nil_iff.mp heq
      rw [split_of_none c.next_nil]
      exact ⟨[], rfl, rfl⟩
    | cons a items =>
      have ha := hitems a List.mem_cons_self
      rcases next_of_stream ha heq with ⟨hnext, -⟩ | ⟨rest, hnext, hrest⟩
      · rw [split_of_none hnext]
        exact ⟨a :: items, rfl, heq⟩
      · rw [split_of_some hnext]
        obtain ⟨left, hleft, htail⟩ := ih
          (fun b hb => hitems b (List.mem_cons_of_mem _ hb))
          (Nat.lt_of_lt_of_le (length_of_next hnext) (Nat.le_of_lt_succ hfuel)) hrest
        exact ⟨left, congrArg (a :: ·) hleft, htail⟩

/-- No item is complete only at the end of a stream. -/
theorem stream_of_none {items : List α} (hitems : ∀ a ∈ items, c.Valid a)
    (h : c.next (items.flatMap c.encode) = none) : items = [] := by
  cases items with
  | nil => rfl
  | cons a items =>
    rw [List.flatMap_cons, c.next_encode a _ (hitems a List.mem_cons_self)] at h
    cases h

/-- All of a stream is all of its items. -/
theorem split_all {fuel : Nat} {items : List α} (hitems : ∀ a ∈ items, c.Valid a)
    (hfuel : (items.flatMap c.encode).length < fuel) :
    c.split fuel (items.flatMap c.encode) = (items, []) := by
  obtain ⟨left, hleft, hrest⟩ := split_stream hitems hfuel (List.append_nil _)
  rw [List.append_nil] at hrest
  have hnil : left = [] := by
    refine stream_of_none (fun a ha => hitems a (hleft ▸ List.mem_append_right _ ha)) ?_
    rw [← hrest]
    exact next_split hfuel
  rw [hnil, List.append_nil] at hleft
  rw [hnil, List.flatMap_nil] at hrest
  exact Prod.ext hleft.symm hrest

/-- Of whole items and the beginning of another one, the whole ones are taken. -/
theorem split_front {fuel : Nat} {items : List α} {a : α} {front : List β}
    (hitems : ∀ a ∈ items, c.Valid a) (ha : c.Valid a) (hfront : front <+: c.encode a)
    (hcut : front ≠ c.encode a) (hfuel : (items.flatMap c.encode ++ front).length < fuel) :
    c.split fuel (items.flatMap c.encode ++ front) = (items, front) := by
  induction items generalizing fuel with
  | nil =>
    obtain ⟨tail, htail⟩ := hfront
    have hstream : front ++ tail = c.encode a ++ [] := by rw [htail, List.append_nil]
    rcases next_of_stream ha hstream with ⟨hnone, -⟩ | ⟨rest, -, hrest⟩
    · exact split_of_none hnone fuel
    · obtain ⟨-, rfl⟩ := List.append_eq_nil_iff.mp hrest
      exact absurd (by rw [← htail, List.append_nil]) hcut
  | cons b items ih =>
    cases fuel with
    | zero => omega
    | succ fuel =>
      have hnext : c.next ((b :: items).flatMap c.encode ++ front) =
          some (b, items.flatMap c.encode ++ front) := by
        rw [List.flatMap_cons, List.append_assoc]
        exact c.next_encode b _ (hitems b List.mem_cons_self)
      have hlen := length_of_next hnext
      rw [split_of_some hnext, ih (fun a ha => hitems a (List.mem_cons_of_mem _ ha)) (by omega)]

/-! ## The item that is not all there -/

variable (c)

/-- How much of the first `n` tokens of a stream of items belongs to an item
    that is not all among them. -/
def unfinished : List α → Nat → Nat
  | [], n => n
  | a :: items, n =>
    if n < (c.encode a).length then n else unfinished items (n - (c.encode a).length)

variable {c}

theorem unfinished_le (items : List α) (n : Nat) : c.unfinished items n ≤ n := by
  induction items generalizing n with
  | nil => exact Nat.le_refl n
  | cons a items ih =>
    rw [unfinished]
    split
    · exact Nat.le_refl n
    · exact Nat.le_trans (ih _) (Nat.sub_le ..)

theorem unfinished_append {taken left : List α} {n : Nat}
    (hlen : (taken.flatMap c.encode).length ≤ n) :
    c.unfinished (taken ++ left) n = c.unfinished left (n - (taken.flatMap c.encode).length) := by
  induction taken generalizing n with
  | nil => rfl
  | cons a taken ih =>
    rw [List.flatMap_cons, List.length_append] at hlen ⊢
    rw [List.cons_append, unfinished, if_neg (by omega), ih (by omega), Nat.sub_sub]

/-- What the loop leaves is what is unfinished. -/
theorem length_split {fuel : Nat} {buf tail : List β} {items : List α}
    (hitems : ∀ a ∈ items, c.Valid a) (hfuel : buf.length < fuel)
    (heq : buf ++ tail = items.flatMap c.encode) :
    (c.split fuel buf).2.length = c.unfinished items buf.length := by
  obtain ⟨left, hleft, htail⟩ := split_stream hitems hfuel heq
  have hcons := congrArg List.length (split_conserves (c := c) fuel buf)
  rw [List.length_append] at hcons
  have hstep : c.unfinished items buf.length =
      c.unfinished left (buf.length - ((c.split fuel buf).1.flatMap c.encode).length) := by
    rw [← unfinished_append (by omega), ← hleft]
  rw [hstep, show buf.length - ((c.split fuel buf).1.flatMap c.encode).length =
    (c.split fuel buf).2.length by omega]
  cases left with
  | nil => rfl
  | cons a left =>
    have ha : c.Valid a := hitems a (hleft ▸ List.mem_append_right _ List.mem_cons_self)
    rcases next_of_stream ha htail with ⟨-, hshort⟩ | ⟨rest, hnext, -⟩
    · rw [unfinished, if_pos hshort]
    · rw [next_split hfuel] at hnext
      cases hnext

end Codec

/-! ## Receivers -/

variable {α : Type u} {β : Type v} {c : Codec α β}

/-- A receiver appends a chunk to its buffer, takes the items off it and keeps
    the rest. It gives up on a buffer that is too long, before or after, and on
    a rest that no item starts with. -/
structure Receiver (c : Codec α β) where
  before : Nat → Bool
  after : Nat → Bool
  sound : List β → Bool
  sound_of_stream : ∀ (rest tail : List β) (items : List α), (∀ a ∈ items, c.Valid a) →
    rest ++ tail = items.flatMap c.encode → c.next rest = none → sound rest = true

namespace Receiver

variable (r : Receiver c)

/-- The items of a chunk, and what is left in the buffer. -/
def pull (buf chunk : List β) : Option (List α × List β) :=
  let whole := buf ++ chunk
  let done := c.split (whole.length + 1) whole
  if r.before whole.length && (r.sound done.2 && r.after done.2.length) then some done else none

/-- The items of all chunks. -/
def pulls (buf : List β) : List (List β) → Option (List α × List β)
  | [] => some ([], buf)
  | chunk :: chunks =>
    (r.pull buf chunk).bind fun (items, rest) =>
      (pulls rest chunks).map fun (more, rest) => (items ++ more, rest)

variable {r} {buf rest chunk : List β} {items : List α}

theorem pull_eq_some (h : r.pull buf chunk = some (items, rest)) :
    items.flatMap c.encode ++ rest = buf ++ chunk ∧ c.next rest = none ∧ r.sound rest = true ∧
      r.before (buf ++ chunk).length = true ∧ r.after rest.length = true := by
  rw [pull] at h
  simp only [Option.ite_none_right_eq_some, Bool.and_eq_true, Option.some.injEq] at h
  obtain ⟨⟨hbefore, hsound, hafter⟩, hdone⟩ := h
  have hitems : (c.split ((buf ++ chunk).length + 1) (buf ++ chunk)).1 = items := by rw [hdone]
  have hrest : (c.split ((buf ++ chunk).length + 1) (buf ++ chunk)).2 = rest := by rw [hdone]
  refine ⟨?_, ?_, hrest ▸ hsound, hbefore, hrest ▸ hafter⟩
  · rw [← hitems, ← hrest]
    exact Codec.split_conserves _ _
  · rw [← hrest]
    exact Codec.next_split (Nat.lt_succ_self _)

theorem pulls_cons_eq_some {chunks : List (List β)} :
    r.pulls buf (chunk :: chunks) = some (items, rest) ↔
      ∃ now mid more, r.pull buf chunk = some (now, mid) ∧
        r.pulls mid chunks = some (more, rest) ∧ items = now ++ more := by
  rw [pulls, Option.bind_eq_some_iff]
  constructor
  · rintro ⟨⟨now, mid⟩, hnow, hmore⟩
    obtain ⟨⟨more, last⟩, hlater, hdone⟩ := Option.map_eq_some_iff.mp hmore
    obtain ⟨rfl, rfl⟩ := Prod.mk.inj hdone
    exact ⟨now, mid, more, hnow, hlater, rfl⟩
  · rintro ⟨now, mid, more, hnow, hlater, rfl⟩
    exact ⟨(now, mid), hnow, Option.map_eq_some_iff.mpr ⟨(more, rest), hlater, rfl⟩⟩

/-- Nothing is lost or made up. -/
theorem pulls_conserves {chunks : List (List β)} (h : r.pulls buf chunks = some (items, rest)) :
    items.flatMap c.encode ++ rest = buf ++ chunks.flatten := by
  induction chunks generalizing buf items with
  | nil =>
    obtain ⟨rfl, rfl⟩ := Prod.mk.inj (Option.some.inj h)
    exact (List.append_nil _).symm
  | cons chunk chunks ih =>
    obtain ⟨now, mid, more, hnow, hlater, rfl⟩ := pulls_cons_eq_some.mp h
    rw [List.flatMap_append, List.append_assoc, ih hlater, ← List.append_assoc,
      (pull_eq_some hnow).1, List.flatten_cons, List.append_assoc]

/-- A chunk of a stream of items gives the next of them exactly when there is
    room for it. -/
theorem pull_stream {tail : List β} (hitems : ∀ a ∈ items, c.Valid a)
    (heq : buf ++ chunk ++ tail = items.flatMap c.encode) :
    ∃ taken left rest, items = taken ++ left ∧ rest ++ tail = left.flatMap c.encode ∧
      c.next rest = none ∧ taken.flatMap c.encode ++ rest = buf ++ chunk ∧
      rest.length = c.unfinished items (buf ++ chunk).length ∧
      r.pull buf chunk =
        if r.before (buf ++ chunk).length && r.after rest.length then some (taken, rest)
        else none := by
  have hfuel := Nat.lt_succ_self (buf ++ chunk).length
  obtain ⟨left, hleft, htail⟩ := Codec.split_stream hitems hfuel heq
  refine ⟨_, left, _, hleft, htail, Codec.next_split hfuel, Codec.split_conserves _ _,
    Codec.length_split hitems hfuel heq, ?_⟩
  have hsound := r.sound_of_stream _ tail left
    (fun a ha => hitems a (hleft ▸ List.mem_append_right _ ha)) htail (Codec.next_split hfuel)
  rw [pull, hsound, Bool.true_and]

/-- The receiver has room for a stream at each cut: for what is unfinished
    there with the next chunk, and for what is unfinished after it. -/
def Fits (r : Receiver c) (items : List α) (start : Nat) (chunks : List (List β)) : Prop :=
  ∀ pre chunk, pre ++ [chunk] <+: chunks →
    r.before (c.unfinished items (start + pre.flatten.length) + chunk.length) = true ∧
      r.after (c.unfinished items (start + pre.flatten.length + chunk.length)) = true

theorem fits_cons {start : Nat} {chunks : List (List β)} :
    r.Fits items start (chunk :: chunks) ↔
      (r.before (c.unfinished items start + chunk.length) = true ∧
        r.after (c.unfinished items (start + chunk.length)) = true) ∧
      r.Fits items (start + chunk.length) chunks := by
  constructor
  · intro h
    refine ⟨h [] chunk (List.prefix_append [chunk] chunks), fun pre next hpre => ?_⟩
    have hnext := h (chunk :: pre) next (List.cons_prefix_cons.mpr ⟨rfl, hpre⟩)
    rw [List.flatten_cons, List.length_append, ← Nat.add_assoc] at hnext
    exact hnext
  · rintro ⟨hhere, hrest⟩ pre next hpre
    cases pre with
    | nil =>
      obtain ⟨rfl, -⟩ := List.cons_prefix_cons.mp hpre
      exact hhere
    | cons first pre =>
      obtain ⟨rfl, hpre'⟩ := List.cons_prefix_cons.mp hpre
      rw [List.flatten_cons, List.length_append, ← Nat.add_assoc]
      exact hrest pre next hpre'

/-- Items that are behind do not matter. -/
theorem fits_append {taken left : List α} {start : Nat} {chunks : List (List β)} :
    r.Fits (taken ++ left) ((taken.flatMap c.encode).length + start) chunks ↔
      r.Fits left start chunks := by
  have hbehind : ∀ n, c.unfinished (taken ++ left) ((taken.flatMap c.encode).length + n) =
      c.unfinished left n := fun n => by
    rw [Codec.unfinished_append (Nat.le_add_right ..), Nat.add_sub_cancel_left]
  simp only [Fits, Nat.add_assoc, hbehind]

/-- What is left over when no item is complete is all unfinished. -/
theorem unfinished_of_none {tail : List β} (hitems : ∀ a ∈ items, c.Valid a)
    (hnext : c.next buf = none) (heq : buf ++ tail = items.flatMap c.encode) :
    c.unfinished items buf.length = buf.length := by
  rw [← Codec.length_split hitems (Nat.lt_succ_self _) heq, Codec.split_of_none hnext]

/-- The items are all of a stream only when nothing is left. -/
theorem pulls_all {chunks : List (List β)} (heq : buf ++ chunks.flatten = items.flatMap c.encode)
    (h : r.pulls buf chunks = some (items, rest)) : rest = [] := by
  have hcons := pulls_conserves h
  rw [heq] at hcons
  exact List.append_right_eq_self.mp hcons

/-- A receiver gets all items of a stream, however it is cut, exactly when it
    has room for it at each cut. By induction on the chunks. -/
theorem pulls_stream {chunks : List (List β)} (hitems : ∀ a ∈ items, c.Valid a)
    (hnext : c.next buf = none) (heq : buf ++ chunks.flatten = items.flatMap c.encode) :
    r.pulls buf chunks = some (items, []) ↔ r.Fits items buf.length chunks := by
  induction chunks generalizing buf items with
  | nil =>
    rw [List.flatten_nil, List.append_nil] at heq
    obtain rfl := Codec.stream_of_none hitems (heq ▸ hnext)
    obtain rfl : buf = [] := heq
    refine ⟨fun _ pre chunk hpre => ?_, fun _ => rfl⟩
    simp at hpre
  | cons chunk chunks ih =>
    have hstart : c.unfinished items buf.length = buf.length :=
      unfinished_of_none hitems hnext heq
    rw [List.flatten_cons, ← List.append_assoc] at heq
    obtain ⟨taken, left, rest, rfl, htail, hidle, hcons, hlen, hpull⟩ := pull_stream hitems heq
    have hleft := ih (fun a ha => hitems a (List.mem_append_right _ ha)) hidle htail
    have hbytes : buf.length + chunk.length = (taken.flatMap c.encode).length + rest.length := by
      rw [← List.length_append, ← List.length_append, hcons]
    rw [List.length_append] at hpull hlen
    rw [fits_cons, hstart, ← hlen, hbytes, fits_append, ← hleft, ← hbytes, pulls, hpull]
    cases hroom : r.before (buf.length + chunk.length) && r.after rest.length with
    | false =>
      rw [Bool.and_eq_false_iff] at hroom
      rcases hroom with hroom | hroom <;> simp [hroom]
    | true =>
      rw [Bool.and_eq_true] at hroom
      simp only [if_true, Option.bind_some, hroom.1, hroom.2, true_and]
      cases r.pulls rest chunks with
      | none => simp
      | some done => simp [Prod.ext_iff]

end Receiver

end Deframe
