-- SUMMARY: The characters `decode_utf8` reads, and the sequences of them an emoji is.
import ChoirOverlay.Ipc.Runs
import ChoirOverlay.Discord.Texts

/-!
# Characters

What the decoder reads depends only on the bytes it takes: a first byte and
continuation bytes. An emoji is a sequence of such characters.
-/

namespace Choir.Emoji

/-! ## One character -/

/-- The bytes are the character `cp`, whatever follows them. -/
def IsCharacter (front : Bytes) (cp : Nat) : Prop :=
  ∀ rest, decodeUtf8 (front ++ rest) = some (cp, front.length)

theorem decodeTail_front {left cp cp' : Nat} {s : Bytes} (h : decodeTail left cp s = some cp') :
    ∃ tail rest, s = tail ++ rest ∧ tail.length = left ∧ (∀ c ∈ tail, 0x80 ≤ c) ∧
      ∀ rest', decodeTail left cp (tail ++ rest') = some cp' := by
  induction left generalizing cp s with
  | zero => exact ⟨[], s, rfl, rfl, by simp, fun _ => h⟩
  | succ left ih =>
    cases s with
    | nil => cases h
    | cons b s =>
      obtain ⟨hb, h⟩ := Option.ite_none_right_eq_some.mp h
      obtain ⟨tail, rest, rfl, hlen, htail, hread⟩ := ih h
      refine ⟨b :: tail, rest, rfl, by rw [List.length_cons, hlen], ?_, fun rest' => ?_⟩
      · exact List.forall_mem_cons.mpr ⟨hb.1, htail⟩
      · exact (if_pos hb).trans (hread rest')

/-- A decoded character, with the bytes it takes taken apart. -/
theorem character_of_decodeUtf8 {s : Bytes} {cp n : Nat} (h : decodeUtf8 s = some (cp, n)) :
    ∃ b tail rest, s = b :: tail ++ rest ∧ (b :: tail).length = n ∧ (∀ c ∈ tail, 0x80 ≤ c) ∧
      (b < 0x80 → cp = b.toNat) ∧ IsCharacter (b :: tail) cp := by
  cases s with
  | nil => cases h
  | cons b s =>
    rw [decodeUtf8] at h
    split_ifs at h with h₁ h₂ h₃ h₄
    · obtain ⟨rfl, rfl⟩ : b.toNat = cp ∧ 1 = n := by simpa using h
      refine ⟨b, [], s, rfl, rfl, by simp, fun _ => rfl, fun rest => ?_⟩
      rw [List.cons_append, decodeUtf8, if_pos h₁, List.length_singleton]
    all_goals
      obtain ⟨cp', hcp, heq⟩ := Option.map_eq_some_iff.mp h
      obtain ⟨rfl, rfl⟩ := Prod.mk.inj heq
      obtain ⟨tail, rest, rfl, hlen, htail, hread⟩ := decodeTail_front hcp
      refine ⟨b, tail, rest, rfl, by rw [List.length_cons, hlen], htail, fun hb => absurd hb h₁,
        fun rest' => ?_⟩
      simp [decodeUtf8, *]

theorem IsCharacter.length_pos {front : Bytes} {cp : Nat} (h : IsCharacter front cp) :
    0 < front.length := by
  cases front with
  | nil => cases h []
  | cons b tail => exact Nat.succ_pos _

/-- The bytes after the first continue the character. -/
theorem IsCharacter.tail {b : UInt8} {tail : Bytes} {cp : Nat} (h : IsCharacter (b :: tail) cp) :
    (∀ c ∈ tail, 0x80 ≤ c) ∧ (b < 0x80 → cp = b.toNat) := by
  obtain ⟨b', tail', rest, heq, hlen, htail, hcp, -⟩ := character_of_decodeUtf8 (h [])
  rw [List.append_nil] at heq
  obtain ⟨heq, -⟩ := List.append_inj ((List.append_nil _).trans heq) hlen.symm
  obtain ⟨rfl, rfl⟩ := List.cons.inj heq
  exact ⟨htail, hcp⟩

theorem decodeUtf8_front {s : Bytes} {cp n : Nat} (h : decodeUtf8 s = some (cp, n)) :
    ∃ front rest, s = front ++ rest ∧ front.length = n ∧ IsCharacter front cp := by
  obtain ⟨b, tail, rest, hs, hlen, -, -, hread⟩ := character_of_decodeUtf8 h
  exact ⟨b :: tail, rest, hs, hlen, hread⟩

theorem decodeUtf8_append {s : Bytes} {r : Nat × Nat} (h : decodeUtf8 s = some r) (after : Bytes) :
    decodeUtf8 (s ++ after) = some r := by
  obtain ⟨front, rest, rfl, hlen, hread⟩ := decodeUtf8_front h
  rw [List.append_assoc, hread, hlen]

/-- A byte that opens a token is a character of its own. -/
theorem IsCharacter.ne_open {front : Bytes} {cp : Nat} (h : IsCharacter front cp)
    (hcp : cp ≠ 0x3C) : 0x3C ∉ front := by
  cases front with
  | nil => exact List.not_mem_nil
  | cons b tail =>
    obtain ⟨htail, hb⟩ := h.tail
    intro hmem
    rcases List.mem_cons.mp hmem with rfl | hmem
    · exact hcp (hb (by decide))
    · exact absurd (htail _ hmem) (by decide)

/-! ## Sequences of characters -/

inductive Characters : Bytes → List Nat → Prop
  | nil : Characters [] []
  | cons {front s : Bytes} {cp : Nat} {cps : List Nat} :
    IsCharacter front cp → Characters s cps → Characters (front ++ s) (cp :: cps)

theorem IsCharacter.characters {front : Bytes} {cp : Nat} (h : IsCharacter front cp) :
    Characters front [cp] := by
  simpa using Characters.cons h .nil

theorem Characters.append {s s' : Bytes} {cps cps' : List Nat} (h : Characters s cps)
    (h' : Characters s' cps') : Characters (s ++ s') (cps ++ cps') := by
  induction h with
  | nil => exact h'
  | cons hfront _ ih =>
    rw [List.append_assoc, List.cons_append]
    exact .cons hfront ih

theorem Characters.ne_open {s : Bytes} {cps : List Nat} (h : Characters s cps)
    (hcps : 0x3C ∉ cps) : 0x3C ∉ s := by
  induction h with
  | nil => exact List.not_mem_nil
  | cons hfront _ ih =>
    have hcp := List.ne_of_not_mem_cons hcps
    have hrest := List.not_mem_of_not_mem_cons hcps
    exact List.not_mem_append (hfront.ne_open hcp.symm) (ih hrest)

/-- The text starts with that many bytes of characters, none of which opens a
token. -/
def Sequence (s : Bytes) (n : Nat) : Prop :=
  ∃ front rest cps, s = front ++ rest ∧ front.length = n ∧ Characters front cps ∧ cps ≠ [] ∧
    0x3C ∉ cps

theorem Sequence.one {s : Bytes} {cp n : Nat} (h : decodeUtf8 s = some (cp, n))
    (hcp : cp ≠ 0x3C) : Sequence s n := by
  obtain ⟨front, rest, rfl, hlen, hread⟩ := decodeUtf8_front h
  exact ⟨front, rest, [cp], rfl, hlen, hread.characters, by simp, by simpa using hcp.symm⟩

theorem Sequence.append {s : Bytes} {n m : Nat} (h : Sequence s n) (h' : Sequence (s.drop n) m) :
    Sequence s (n + m) := by
  obtain ⟨front, rest, cps, rfl, rfl, hchars, hne, hcps⟩ := h
  rw [List.drop_left] at h'
  obtain ⟨front', rest', cps', rfl, rfl, hchars', -, hcps'⟩ := h'
  exact ⟨front ++ front', rest', cps ++ cps', by rw [List.append_assoc], List.length_append,
    hchars.append hchars', List.append_ne_nil_of_left_ne_nil hne _,
    List.not_mem_append hcps hcps'⟩

theorem Sequence.pos {s : Bytes} {n : Nat} (h : Sequence s n) : 0 < n := by
  obtain ⟨front, rest, cps, -, rfl, hchars, hne, -⟩ := h
  cases hchars with
  | nil => exact absurd rfl hne
  | cons hfront _ =>
    rw [List.length_append]
    exact Nat.add_pos_left hfront.length_pos _

/-- Skipped bytes might as well be dropped. -/
theorem Sequence.drop_tail {b : UInt8} {rest : Bytes} {n : Nat} (h : Sequence (b :: rest) n) :
    rest.drop (n - 1) = (b :: rest).drop n := by
  rw [← Nat.sub_add_cancel h.pos]
  rfl

/-! ## Emoji -/

theorem extend_skip (skip : Nat) (s : Bytes) : extend skip s = extend 0 (s.drop skip) := by
  induction s generalizing skip with
  | nil => simp [extend]
  | cons b s ih =>
    cases skip with
    | zero => rfl
    | succ skip => exact ih skip

/-- What a turn takes. -/
theorem sequence_joined {q : Bytes} {cps : List Nat} {n : Nat} (h : joined q = some (cps, n)) :
    Sequence q n := by
  unfold joined at h
  obtain ⟨⟨cp, k⟩, hcp, h⟩ := Option.bind_eq_some_iff.mp h
  dsimp only at h
  split at h
  · rename_i hmark
    obtain ⟨-, rfl⟩ : _ ∧ k = n := by simpa using h
    refine .one hcp ?_
    rintro rfl
    exact absurd hmark (by decide)
  · split at h
    · cases h
    rename_i hjoin
    obtain rfl := not_not.mp hjoin
    obtain ⟨⟨cp', k'⟩, hcp', h⟩ := Option.bind_eq_some_iff.mp h
    dsimp only at h
    obtain ⟨hemoji, h⟩ := Option.ite_none_right_eq_some.mp h
    obtain ⟨-, rfl⟩ : _ ∧ k + k' = n := by simpa using h
    refine (Sequence.one hcp (by decide)).append (.one hcp' ?_)
    rintro rfl
    exact absurd hemoji (by decide)

/-- The loop, by the bytes that are left to it. -/
theorem sequence_extend {s : Bytes} {n : Nat} (h : Sequence s n) :
    Sequence s (n + (extend 0 (s.drop n)).2) := by
  cases hrest : s.drop n with
  | nil => exact h
  | cons b rest =>
    rw [extend]
    split
    · exact h
    · rename_i cps m hjoined
      have htaken := sequence_joined hjoined
      have hlonger : Sequence s (n + m) := h.append (hrest ▸ htaken)
      have hlt : s.length - (n + m) < s.length - n := by
        have hlen := congrArg List.length hrest
        have hpos := htaken.pos
        rw [List.length_drop, List.length_cons] at hlen
        omega
      have hdrop : rest.drop (m - 1) = s.drop (n + m) := by
        rw [htaken.drop_tail, ← hrest, List.drop_drop]
      dsimp only
      rw [extend_skip, hdrop, ← Nat.add_assoc]
      exact sequence_extend hlonger
termination_by s.length - n

theorem sequence_keycap {s : Bytes} {cp n m : Nat} {cps : List Nat} (hcp : Sequence s n)
    (h : keycap cp n (s.drop n) = some (cps, m)) : Sequence s m := by
  unfold keycap at h
  obtain ⟨⟨cp', n'⟩, hcp', h⟩ := Option.bind_eq_some_iff.mp h
  dsimp only at h
  split at h
  · rename_i hvs16
    obtain ⟨⟨cp'', n''⟩, hcp'', h⟩ := Option.bind_eq_some_iff.mp h
    dsimp only at h
    obtain ⟨hkeycap, h⟩ := Option.ite_none_right_eq_some.mp h
    obtain ⟨-, rfl⟩ : _ ∧ n + n' + n'' = m := by simpa using h
    rw [List.drop_drop] at hcp''
    exact (hcp.append (.one hcp' (by rw [hvs16]; decide))).append
      (.one hcp'' (by rw [hkeycap]; decide))
  · obtain ⟨hkeycap, h⟩ := Option.ite_none_right_eq_some.mp h
    obtain ⟨-, rfl⟩ : _ ∧ n + n' = m := by simpa using h
    exact hcp.append (.one hcp' (by rw [hkeycap]; decide))

theorem sequence_flag {s : Bytes} {cp n : Nat} (hcp : Sequence s n) :
    Sequence s (flag cp n (s.drop n)).2 := by
  unfold flag
  split
  · rename_i cp' n' hcp'
    split
    · rename_i hindicator
      refine hcp.append (.one hcp' ?_)
      rintro rfl
      exact absurd hindicator (by decide)
    · exact hcp
  · exact hcp

theorem sequence_base {s : Bytes} {cp n m : Nat} {cps : List Nat}
    (hcp : cp ≠ 0x3C → Sequence s n) (h : base cp n (s.drop n) = some (cps, m)) :
    Sequence s m := by
  unfold base at h
  split at h
  · rename_i halways
    obtain ⟨-, rfl⟩ : _ ∧ n = m := by simpa using h
    refine hcp ?_
    rintro rfl
    exact absurd halways (by decide)
  · obtain ⟨hgated, h⟩ := Option.ite_none_right_eq_some.mp h
    obtain ⟨⟨cp', n'⟩, hcp', h⟩ := Option.bind_eq_some_iff.mp h
    dsimp only at h
    obtain ⟨hvs16, h⟩ := Option.ite_none_right_eq_some.mp h
    obtain ⟨-, rfl⟩ : _ ∧ n + n' = m := by simpa using h
    refine (hcp ?_).append (.one hcp' (by rw [hvs16]; decide))
    rintro rfl
    exact absurd hgated (by decide)

/-- An emoji is a sequence of characters. -/
theorem sequence_matchUnicode {s : Bytes} {cps : List Nat} {n : Nat}
    (h : matchUnicode s = some (cps, n)) : Sequence s n := by
  unfold matchUnicode at h
  obtain ⟨⟨cp, k⟩, hdecode, h⟩ := Option.bind_eq_some_iff.mp h
  dsimp only at h
  have hcp (hne : cp ≠ 0x3C) : Sequence s k := .one hdecode hne
  split_ifs at h with hdigit hindicator
  · refine sequence_keycap (hcp ?_) h
    rintro rfl
    exact absurd hdigit (by decide)
  · have hflag : flag cp k (s.drop k) = (cps, n) := Option.some.inj h
    have hseq : Sequence s (flag cp k (s.drop k)).2 := by
      refine sequence_flag (hcp ?_)
      rintro rfl
      exact absurd hindicator (by decide)
    rwa [hflag] at hseq
  · obtain ⟨⟨cps', m⟩, hbase, h⟩ := Option.bind_eq_some_iff.mp h
    obtain ⟨-, rfl⟩ := Prod.mk.inj (Option.some.inj h)
    exact sequence_extend (sequence_base hcp hbase)

/-! ## More text

What is an emoji stays one when more text follows, though it may grow. -/

theorem keycap_append {cp n : Nat} {q : Bytes} {r : List Nat × Nat}
    (h : keycap cp n q = some r) (after : Bytes) : keycap cp n (q ++ after) = some r := by
  unfold keycap at h ⊢
  obtain ⟨⟨cp', n'⟩, hcp', h⟩ := Option.bind_eq_some_iff.mp h
  rw [decodeUtf8_append hcp' after]
  dsimp only [Option.bind_eq_bind, Option.bind_some] at h ⊢
  split at h
  · rename_i hvs16
    obtain ⟨r', hcp'', h⟩ := Option.bind_eq_some_iff.mp h
    have hle : n' ≤ q.length := by
      obtain ⟨front, rest, rfl, rfl, -⟩ := decodeUtf8_front hcp'
      simp
    rw [if_pos hvs16, List.drop_append_of_le_length hle, decodeUtf8_append hcp'' after]
    exact h
  · rename_i hvs16
    rw [if_neg hvs16]
    exact h

theorem base_append {cp n : Nat} {q : Bytes} {r : List Nat × Nat} (h : base cp n q = some r)
    (after : Bytes) : base cp n (q ++ after) = some r := by
  unfold base at h ⊢
  split_ifs at h ⊢ with halways hgated
  · exact h
  · obtain ⟨r', hcp', h⟩ := Option.bind_eq_some_iff.mp h
    rw [decodeUtf8_append hcp' after]
    exact h

theorem matchUnicode_append {s : Bytes} {r : List Nat × Nat} (h : matchUnicode s = some r)
    (after : Bytes) : (matchUnicode (s ++ after)).isSome := by
  unfold matchUnicode at h ⊢
  obtain ⟨⟨cp, n⟩, hcp, h⟩ := Option.bind_eq_some_iff.mp h
  have hle : n ≤ s.length := by
    obtain ⟨front, rest, rfl, rfl, -⟩ := decodeUtf8_front hcp
    simp
  rw [decodeUtf8_append hcp after]
  dsimp only [Option.bind_eq_bind, Option.bind_some] at h ⊢
  rw [List.drop_append_of_le_length hle]
  split_ifs at h ⊢ with hdigit hindicator
  · rw [keycap_append h]
    rfl
  · rfl
  · obtain ⟨r', hbase, -⟩ := Option.bind_eq_some_iff.mp h
    rw [base_append hbase]
    rfl

/-! ## UTF-8 -/

end Choir.Emoji

namespace Choir.Utf8State

/-- The continuation bytes a character is short of. -/
def owed : Utf8State → Nat
  | .start => 0
  | .tail1 => 1
  | .tail2 | .afterE0 | .afterED => 2
  | .tail3 | .afterF0 | .afterF4 => 3

/-- Inside a character, a byte pays one of what is owed. -/
theorem owed_next {s s' : Utf8State} {b : UInt8} (hs : s ≠ .start) (h : s.next b = some s') :
    s'.owed + 1 = s.owed ∧ 0x80 ≤ b ∧ b ≤ 0xBF := by
  cases s with
  | start => exact absurd rfl hs
  | tail1 | tail2 | tail3 | afterE0 | afterED | afterF0 | afterF4 =>
    have hin := within_eq_some h
    obtain rfl := within_next h
    exact ⟨rfl, by grind⟩

/-- The first byte of a character says how many follow. -/
theorem owed_first {s : Utf8State} {b : UInt8} (h : first b = some s) :
    b < 0x80 ∧ s.owed = 0 ∨ (0xC0 ≤ b ∧ b ≤ 0xDF) ∧ s.owed = 1 ∨
      (0xE0 ≤ b ∧ b ≤ 0xEF) ∧ s.owed = 2 ∨ (0xF0 ≤ b ∧ b ≤ 0xF7) ∧ s.owed = 3 := by
  unfold first at h
  split_ifs at h <;> cases h <;> simp only [owed] <;> grind

/-- A text that ends between characters pays what is owed, and what follows
starts between characters. -/
theorem pays {s t : Utf8State} {text : Bytes} (h : s.run text = some t) (ht : t = .start) :
    ∃ tail rest, text = tail ++ rest ∧ tail.length = s.owed ∧
      (∀ c ∈ tail, 0x80 ≤ c ∧ c ≤ 0xBF) ∧ s.run tail = some .start ∧
      start.run rest = some .start := by
  subst ht
  induction text generalizing s with
  | nil =>
    obtain rfl : s = .start := Option.some.inj h
    exact ⟨[], [], rfl, rfl, by simp, rfl, rfl⟩
  | cons b text ih =>
    by_cases hs : s = .start
    · subst hs
      exact ⟨[], b :: text, rfl, rfl, by simp, rfl, h⟩
    · rw [run_cons] at h
      obtain ⟨s', hs', hrun⟩ := Option.bind_eq_some_iff.mp h
      obtain ⟨tail, rest, rfl, hlen, htail, hpaid, hrest⟩ := ih hrun
      obtain ⟨howed, hb⟩ := owed_next hs hs'
      refine ⟨b :: tail, rest, rfl, by rw [List.length_cons, hlen, howed],
        List.forall_mem_cons.mpr ⟨hb, htail⟩, ?_, hrest⟩
      rw [run_cons, hs']
      exact hpaid

end Choir.Utf8State

namespace Choir.Emoji

theorem decodeTail_isSome {left : Nat} (cp : Nat) {tail : Bytes} (hlen : tail.length = left)
    (htail : ∀ c ∈ tail, 0x80 ≤ c ∧ c ≤ 0xBF) (rest : Bytes) :
    ∃ cp', decodeTail left cp (tail ++ rest) = some cp' := by
  induction tail generalizing left cp with
  | nil =>
    subst hlen
    exact ⟨cp, rfl⟩
  | cons b tail ih =>
    subst hlen
    obtain ⟨hb, hrest⟩ := List.forall_mem_cons.mp htail
    obtain ⟨cp', hcp'⟩ := ih _ rfl hrest
    exact ⟨cp', (if_pos hb).trans hcp'⟩

theorem isCharacter_of_first {s : Utf8State} {b : UInt8} {tail : Bytes}
    (hb : Utf8State.first b = some s) (hlen : tail.length = s.owed)
    (htail : ∀ c ∈ tail, 0x80 ≤ c ∧ c ≤ 0xBF) : ∃ cp, IsCharacter (b :: tail) cp := by
  have hread (cp : Nat) : ∃ cp', decodeTail s.owed cp tail = some cp' := by
    simpa using decodeTail_isSome cp hlen htail []
  have hdecode : ∃ cp, decodeUtf8 (b :: tail) = some (cp, (b :: tail).length) := by
    rw [List.length_cons, hlen, decodeUtf8]
    rcases Utf8State.owed_first hb with ⟨hb, howed⟩ | ⟨hb, howed⟩ | ⟨hb, howed⟩ | ⟨hb, howed⟩
    · exact ⟨b.toNat, by rw [if_pos hb, howed]⟩
    all_goals
      obtain ⟨cp, hcp⟩ := hread _
      rw [howed] at hcp ⊢
    · exact ⟨cp, by rw [if_neg (by grind), if_pos hb, hcp]; rfl⟩
    · exact ⟨cp, by rw [if_neg (by grind), if_neg (by grind), if_pos hb, hcp]; rfl⟩
    · refine ⟨cp, ?_⟩
      rw [if_neg (by grind), if_neg (by grind), if_neg (by grind), if_pos hb, hcp]
      rfl
  obtain ⟨cp, hcp⟩ := hdecode
  exact ⟨cp, decodeUtf8_append hcp⟩

/-- Well-formed text starts with a character, and is well-formed behind it. -/
theorem decodeUtf8_of_run {s : Bytes} (hs : s ≠ []) (h : Utf8State.start.run s = some .start) :
    ∃ front rest cp, s = front ++ rest ∧ IsCharacter front cp ∧
      Utf8State.start.run front = some .start ∧ Utf8State.start.run rest = some .start := by
  obtain ⟨b, text, rfl⟩ := List.exists_cons_of_ne_nil hs
  rw [Utf8State.run_cons] at h
  obtain ⟨s', hs', hrun⟩ := Option.bind_eq_some_iff.mp h
  obtain ⟨tail, rest, rfl, hlen, htail, hpaid, hrest⟩ := Utf8State.pays hrun rfl
  obtain ⟨cp, hcp⟩ := isCharacter_of_first hs' hlen htail
  refine ⟨b :: tail, rest, cp, rfl, hcp, ?_, hrest⟩
  rw [Utf8State.run_cons, hs']
  exact hpaid

/-- Characters cut off the front of well-formed text are well-formed, and so is
what is left. -/
theorem Characters.run {front rest : Bytes} {cps : List Nat} (h : Characters front cps)
    (hrun : Utf8State.start.run (front ++ rest) = some .start) :
    Utf8State.start.run front = some .start ∧ Utf8State.start.run rest = some .start := by
  induction h with
  | nil => exact ⟨rfl, hrun⟩
  | @cons front s cp cps hfront _ ih =>
    have hne : front ++ (s ++ rest) ≠ [] :=
      List.append_ne_nil_of_left_ne_nil (List.ne_nil_of_length_pos hfront.length_pos) _
    rw [List.append_assoc] at hrun
    obtain ⟨front', rest', cp', heq, hread, hrun', hrest'⟩ := decodeUtf8_of_run hne hrun
    have hsame := hfront (s ++ rest)
    rw [heq, hread] at hsame
    obtain ⟨-, hlen⟩ := Prod.mk.inj (Option.some.inj hsame)
    obtain ⟨rfl, rfl⟩ := List.append_inj heq hlen.symm
    obtain ⟨hs, hrest⟩ := ih hrest'
    refine ⟨?_, hrest⟩
    rw [Utf8State.run_append, hrun']
    exact hs

end Choir.Emoji
