-- SUMMARY: The bidirectional controls `strip_bidi_controls` removes, as code points of the text.
import ChoirOverlay.Ipc.Characters
import Mathlib.Data.List.Basic

/-!
# Bidirectional controls

The parser looks for the bytes of the controls. In well-formed text these are
the characters themselves: no byte of a character but its first is `E2`.
-/

namespace Choir

/-- The bytes of a sequence of code points. -/
def encodeUtf8 (cs : List Char) : Bytes := cs.flatMap String.utf8EncodeChar

/-- U+200E, U+200F, U+202A to U+202E, U+2066 to U+2069. -/
def isBidiControl (c : Char) : Bool :=
  c.toNat == 0x200E || c.toNat == 0x200F || (0x202A ≤ c.toNat && c.toNat ≤ 0x202E) ||
    (0x2066 ≤ c.toNat && c.toNat ≤ 0x2069)

-- The joiner of emoji sequences is next to the marks.
example : isBidiControl '\u200D' = false := by decide

theorem encodeUtf8_cons (c : Char) (cs : List Char) :
    encodeUtf8 (c :: cs) = String.utf8EncodeChar c ++ encodeUtf8 cs := rfl

theorem encodeUtf8_injective {cs cs' : List Char} (h : encodeUtf8 cs = encodeUtf8 cs') :
    cs = cs' := by
  have hbytes : cs.utf8Encode = cs'.utf8Encode := congrArg List.toByteArray h
  rw [← String.toByteArray_ofList, ← String.toByteArray_ofList, String.toByteArray_inj] at hbytes
  exact String.ofList_injective hbytes

/-! ## Well-formed text is encoded -/

theorem val_ofNat {v : Nat} (hv : v.isValidChar) : (Char.ofNat v).val.toNat = v := by
  rw [Char.ofNat, dif_pos hv]
  rfl

/-- The two bytes of a character below U+0800. -/
theorem exists_char_two {b c : UInt8} (hb : 0xC2 ≤ b ∧ b ≤ 0xDF) (hc : 0x80 ≤ c ∧ c ≤ 0xBF) :
    ∃ ch, String.utf8EncodeChar ch = [b, c] := by
  simp only [UInt8.le_iff_toNat_le, UInt8.reduceToNat] at hb hc
  let v := (b.toNat - 0xC0) * 0x40 + (c.toNat - 0x80)
  have hv : v.isValidChar := .inl (by omega)
  refine ⟨Char.ofNat v, ?_⟩
  unfold String.utf8EncodeChar
  rw [val_ofNat hv, if_neg (by omega), if_pos (by omega)]
  simp only [List.cons.injEq, ← UInt8.toNat_inj, UInt8.toNat_ofNat', and_true, v]
  omega

/-- The three bytes of a character below U+10000 that is no surrogate. -/
theorem exists_char_three {b c d : UInt8} (hb : 0xE0 ≤ b ∧ b ≤ 0xEF) (hc : 0x80 ≤ c ∧ c ≤ 0xBF)
    (hd : 0x80 ≤ d ∧ d ≤ 0xBF) (hlong : b = 0xE0 → 0xA0 ≤ c) (hsurrogate : b = 0xED → c ≤ 0x9F) :
    ∃ ch, String.utf8EncodeChar ch = [b, c, d] := by
  simp only [UInt8.le_iff_toNat_le, ← UInt8.toNat_inj, UInt8.reduceToNat]
    at hb hc hd hlong hsurrogate
  let v := (b.toNat - 0xE0) * 0x1000 + (c.toNat - 0x80) * 0x40 + (d.toNat - 0x80)
  have hv : v.isValidChar := by
    unfold Nat.isValidChar
    omega
  refine ⟨Char.ofNat v, ?_⟩
  unfold String.utf8EncodeChar
  rw [val_ofNat hv, if_neg (by omega), if_neg (by omega), if_pos (by omega)]
  simp only [List.cons.injEq, ← UInt8.toNat_inj, UInt8.toNat_ofNat', and_true, v]
  omega

/-- The four bytes of a character from U+10000 to U+10FFFF. -/
theorem exists_char_four {b c d e : UInt8} (hb : 0xF0 ≤ b ∧ b ≤ 0xF4) (hc : 0x80 ≤ c ∧ c ≤ 0xBF)
    (hd : 0x80 ≤ d ∧ d ≤ 0xBF) (he : 0x80 ≤ e ∧ e ≤ 0xBF) (hlong : b = 0xF0 → 0x90 ≤ c)
    (hlast : b = 0xF4 → c ≤ 0x8F) : ∃ ch, String.utf8EncodeChar ch = [b, c, d, e] := by
  simp only [UInt8.le_iff_toNat_le, ← UInt8.toNat_inj, UInt8.reduceToNat] at hb hc hd he hlong hlast
  let v := (b.toNat - 0xF0) * 0x40000 + (c.toNat - 0x80) * 0x1000 + (d.toNat - 0x80) * 0x40 +
    (e.toNat - 0x80)
  have hv : v.isValidChar := .inr ⟨by omega, by omega⟩
  refine ⟨Char.ofNat v, ?_⟩
  unfold String.utf8EncodeChar
  rw [val_ofNat hv, if_neg (by omega), if_neg (by omega), if_neg (by omega)]
  simp only [List.cons.injEq, ← UInt8.toNat_inj, UInt8.toNat_ofNat', and_true, v]
  omega

theorem exists_char_one {b : UInt8} (hb : b < 0x80) : ∃ ch, String.utf8EncodeChar ch = [b] := by
  simp only [UInt8.lt_iff_toNat_lt, UInt8.reduceToNat] at hb
  have hv : b.toNat.isValidChar := .inl (by omega)
  refine ⟨Char.ofNat b.toNat, ?_⟩
  unfold String.utf8EncodeChar
  rw [val_ofNat hv, if_pos (by omega), UInt8.ofNat_toNat]

/-- What the first byte is, by what it leaves owed. -/
theorem first_cases {s : Utf8State} {b : UInt8} (h : Utf8State.first b = some s) :
    s.owed = 0 ∧ b < 0x80 ∨ s.owed = 1 ∧ (0xC2 ≤ b ∧ b ≤ 0xDF) ∨
      (s.owed = 2 ∧ (0xE0 ≤ b ∧ b ≤ 0xEF) ∧ (b = 0xE0 → s = .afterE0) ∧
        (b = 0xED → s = .afterED)) ∨
      s.owed = 3 ∧ (0xF0 ≤ b ∧ b ≤ 0xF4) ∧ (b = 0xF0 → s = .afterF0) ∧
        (b = 0xF4 → s = .afterF4) := by
  unfold Utf8State.first at h
  split_ifs at h <;> cases h <;> simp only [Utf8State.owed] <;> grind

/-- The character of a first byte and of the bytes it owes. -/
theorem exists_char {s : Utf8State} {b : UInt8} {tail : Bytes} (hb : Utf8State.first b = some s)
    (hlen : tail.length = s.owed) (htail : ∀ c ∈ tail, 0x80 ≤ c ∧ c ≤ 0xBF)
    (hrun : s.run tail = some .start) : ∃ ch, String.utf8EncodeChar ch = b :: tail := by
  rcases first_cases hb with ⟨howed, hb⟩ | ⟨howed, hb⟩ | ⟨howed, hb, hE0, hED⟩ |
    ⟨howed, hb, hF0, hF4⟩
  · obtain rfl := List.eq_nil_of_length_eq_zero (hlen.trans howed)
    exact exists_char_one hb
  · obtain ⟨c, rfl⟩ := List.length_eq_one_iff.mp (hlen.trans howed)
    exact exists_char_two hb (htail c (by simp))
  · obtain ⟨c, d, rfl⟩ := List.length_eq_two.mp (hlen.trans howed)
    obtain ⟨s', hs', -⟩ := Option.bind_eq_some_iff.mp hrun
    refine exists_char_three hb (htail c (by simp)) (htail d (by simp)) (fun hb => ?_) fun hb => ?_
    · obtain rfl := hE0 hb
      exact (Utf8State.within_eq_some hs').1
    · obtain rfl := hED hb
      exact (Utf8State.within_eq_some hs').2
  · obtain ⟨c, d, e, rfl⟩ := List.length_eq_three.mp (hlen.trans howed)
    obtain ⟨s', hs', -⟩ := Option.bind_eq_some_iff.mp hrun
    refine exists_char_four hb (htail c (by simp)) (htail d (by simp)) (htail e (by simp))
      (fun hb => ?_) fun hb => ?_
    · obtain rfl := hF0 hb
      exact (Utf8State.within_eq_some hs').1
    · obtain rfl := hF4 hb
      exact (Utf8State.within_eq_some hs').2

/-- Well-formed text is the encoding of its code points. -/
theorem exists_encodeUtf8 {s : Bytes} (h : Utf8State.start.run s = some .start) :
    ∃ cs, encodeUtf8 cs = s := by
  cases s with
  | nil => exact ⟨[], rfl⟩
  | cons b s =>
    rw [Utf8State.run_cons] at h
    obtain ⟨s', hs', hrun⟩ := Option.bind_eq_some_iff.mp h
    obtain ⟨tail, rest, rfl, hlen, htail, hpaid, hrest⟩ := Utf8State.pays hrun rfl
    obtain ⟨c, hc⟩ := exists_char hs' hlen htail hpaid
    have hlt : rest.length < (tail ++ rest).length + 1 := by
      rw [List.length_append]
      omega
    obtain ⟨cs, hcs⟩ := exists_encodeUtf8 hrest
    exact ⟨c :: cs, by rw [encodeUtf8_cons, hc, hcs, List.cons_append]⟩
termination_by s.length

/-! ## The removed characters -/

theorem ofNat_ne {n : Nat} (h : n % 0x100 ≠ 0xE2) : UInt8.ofNat n ≠ 0xE2 := by
  intro heq
  rw [← UInt8.toNat_inj, UInt8.toNat_ofNat'] at heq
  exact h heq

theorem isBidiControl_eq_false {c : Char} (h : c.val.toNat < 0x2000 ∨ 0x2FFF < c.val.toNat) :
    isBidiControl c = false := by
  unfold isBidiControl Char.toNat
  grind

/-- The last two bytes tell a control from the other characters that start with
`E2`. -/
theorem isBidi_ofNat {c : Char} (h : c.val.toNat / 0x1000 = 2) :
    isBidi (UInt8.ofNat (c.val.toNat / 64 % 64 + 128)) (UInt8.ofNat (c.val.toNat % 64 + 128)) =
      isBidiControl c := by
  rw [Bool.eq_iff_iff]
  unfold isBidi isBidiControl Char.toNat
  simp only [Bool.or_eq_true, Bool.and_eq_true, beq_iff_eq, decide_eq_true_eq,
    UInt8.le_iff_toNat_le, ← UInt8.toNat_inj, UInt8.toNat_ofNat', UInt8.reduceToNat]
  omega

/-- The bytes of a character none of which is `E2`, or the three bytes of one
from U+2000 to U+2FFF. -/
theorem utf8EncodeChar_cases (c : Char) :
    (∀ b ∈ String.utf8EncodeChar c, b ≠ 0xE2) ∧ isBidiControl c = false ∨
      ∃ b₁ b₂, String.utf8EncodeChar c = [0xE2, b₁, b₂] ∧ b₁ ≠ 0xE2 ∧ b₂ ≠ 0xE2 ∧
        isBidi b₁ b₂ = isBidiControl c := by
  have hmax : c.val.toNat < 0x110000 := by
    have hvalid := c.valid
    unfold UInt32.isValidChar Nat.isValidChar at hvalid
    omega
  unfold String.utf8EncodeChar
  dsimp only
  split_ifs with h₁ h₂ h₃
  · refine .inl ⟨List.forall_mem_singleton.mpr (ofNat_ne (by omega)), ?_⟩
    exact isBidiControl_eq_false (.inl (by omega))
  · refine .inl ⟨?_, isBidiControl_eq_false (.inl (by omega))⟩
    exact List.forall_mem_cons.mpr ⟨ofNat_ne (by omega),
      List.forall_mem_singleton.mpr (ofNat_ne (by omega))⟩
  · by_cases hE2 : c.val.toNat / 0x1000 = 2
    · refine .inr ⟨UInt8.ofNat (c.val.toNat / 64 % 64 + 128), UInt8.ofNat (c.val.toNat % 64 + 128),
        ?_, ofNat_ne (by omega), ofNat_ne (by omega), isBidi_ofNat hE2⟩
      rw [hE2]
      rfl
    · refine .inl ⟨?_, isBidiControl_eq_false (by omega)⟩
      exact List.forall_mem_cons.mpr ⟨ofNat_ne (by omega), List.forall_mem_cons.mpr
        ⟨ofNat_ne (by omega), List.forall_mem_singleton.mpr (ofNat_ne (by omega))⟩⟩
  · refine .inl ⟨?_, isBidiControl_eq_false (.inr (by omega))⟩
    intro b hb
    simp only [List.mem_cons, List.not_mem_nil, or_false] at hb
    rcases hb with rfl | rfl | rfl | rfl <;> exact ofNat_ne (by omega)

theorem stripBidiControls_cons {b : UInt8} (hb : b ≠ 0xE2) (rest : Bytes) :
    stripBidiControls (b :: rest) = b :: stripBidiControls rest := by
  match rest with
  | [] => rfl
  | [_] => rfl
  | b₁ :: b₂ :: rest => rw [stripBidiControls, if_neg (fun h => hb h.1)]

theorem stripBidiControls_append {front : Bytes} (hfront : ∀ b ∈ front, b ≠ 0xE2) (rest : Bytes) :
    stripBidiControls (front ++ rest) = front ++ stripBidiControls rest := by
  induction front with
  | nil => rfl
  | cons b front ih =>
    obtain ⟨hb, hfront⟩ := List.forall_mem_cons.mp hfront
    rw [List.cons_append, stripBidiControls_cons hb, ih hfront, List.cons_append]

theorem stripBidiControls_encodeUtf8 (cs : List Char) :
    stripBidiControls (encodeUtf8 cs) = encodeUtf8 (cs.filter fun c => !isBidiControl c) := by
  induction cs with
  | nil => rfl
  | cons c cs ih =>
    rw [encodeUtf8_cons]
    rcases utf8EncodeChar_cases c with ⟨hbytes, hc⟩ | ⟨b₁, b₂, hbytes, h₁, h₂, hc⟩
    · rw [stripBidiControls_append hbytes, ih, List.filter_cons_of_pos (by simp [hc]),
        encodeUtf8_cons]
    · rw [hbytes]
      by_cases hbidi : isBidiControl c = true
      · rw [List.filter_cons_of_neg (by simp [hbidi]), ← ih]
        exact if_pos ⟨rfl, hc.trans hbidi⟩
      · have hkept : ¬ ((0xE2 : UInt8) = 0xE2 ∧ isBidi b₁ b₂ = true) := by
          rw [hc]
          exact fun h => hbidi h.2
        rw [List.filter_cons_of_pos (by simp [hbidi]), encodeUtf8_cons, hbytes, ← ih]
        refine (if_neg hkept).trans (congrArg (0xE2 :: ·) ?_)
        exact @stripBidiControls_append [b₁, b₂] (by simp [h₁, h₂]) (encodeUtf8 cs)

/-- Of well-formed text exactly the controls are removed, and so of the title and
the body of a notification. -/
theorem stripBidiControls_spec :
    (∀ s, validUtf8 s = true → validUtf8 (stripBidiControls s) = true ∧
      ∃ cs, encodeUtf8 cs = s ∧ (∀ cs', encodeUtf8 cs' = s → cs' = cs) ∧
        encodeUtf8 (cs.filter fun c => !isBidiControl c) = stripBidiControls s) ∧
    ∀ data : Json, data.utf8 = true → ∃ title body,
      encodeUtf8 title = data.strOr "title" ∧
      encodeUtf8 body = Emoji.restoreCustomMarkup (data.strOr "body")
        ((data.objOrEmpty "message").strOr "content") ∧
      encodeUtf8 (title.filter fun c => !isBidiControl c) = (parseNotification data).notif.title ∧
      encodeUtf8 (body.filter fun c => !isBidiControl c) =
        (parseNotification data).notif.body := by
  refine ⟨fun s hs => ⟨validUtf8_stripBidiControls hs, ?_⟩, fun data hdata => ?_⟩
  · obtain ⟨cs, rfl⟩ := exists_encodeUtf8 ((validUtf8_iff s).mp hs)
    exact ⟨cs, rfl, fun cs' h => encodeUtf8_injective h, (stripBidiControls_encodeUtf8 cs).symm⟩
  · have htitle := Json.validUtf8_strOr hdata "title"
    have hbody := Emoji.validUtf8_restoreCustomMarkup (Json.validUtf8_strOr hdata "body")
      ((data.objOrEmpty "message").strOr "content")
    obtain ⟨title, htitle⟩ := exists_encodeUtf8 ((validUtf8_iff _).mp htitle)
    obtain ⟨body, hbody⟩ := exists_encodeUtf8 ((validUtf8_iff _).mp hbody)
    refine ⟨title, body, htitle, hbody, ?_, ?_⟩
    · rw [← stripBidiControls_encodeUtf8, htitle]
      rfl
    · rw [← stripBidiControls_encodeUtf8, hbody]
      rfl

end Choir
