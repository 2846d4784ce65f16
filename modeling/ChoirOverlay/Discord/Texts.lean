-- SUMMARY: The texts of parsed messages are UTF-8: what the parsers cut out of them and put into them keeps them so.
import ChoirOverlay.Discord.Messages
import ChoirOverlay.Ipc.RoundTrip
import Mathlib.Data.List.TakeWhile

/-!
# Texts of messages

The parsers rewrite texts byte by byte. Both rewritings start at bytes that no
character continues with, and put or take whole characters.
-/

namespace Choir

/-! ## Running the automaton -/

namespace Utf8State

def run (s : Utf8State) (text : Bytes) : Option Utf8State := text.foldlM next s

@[simp] theorem run_nil (s : Utf8State) : s.run [] = some s := rfl

@[simp] theorem run_cons (s : Utf8State) (b : UInt8) (text : Bytes) :
    s.run (b :: text) = (s.next b).bind fun s' => s'.run text := rfl

theorem run_append (s : Utf8State) (text text' : Bytes) :
    s.run (text ++ text') = (s.run text).bind fun s' => s'.run text' := List.foldlM_append ..

theorem within_eq_some {lo hi b : UInt8} {t s' : Utf8State} (h : within lo hi b t = some s') :
    lo ≤ b ∧ b ≤ hi := by
  unfold within at h
  split at h
  · assumption
  · cases h

theorem within_next {lo hi b : UInt8} {t s' : Utf8State} (h : within lo hi b t = some s') :
    t = s' := by
  unfold within at h
  split at h
  · exact Option.some.inj h
  · cases h

/-- Only continuation bytes come inside a character. -/
theorem eq_start_of_next {s s' : Utf8State} {b : UInt8} (h : s.next b = some s')
    (hb : b < 0x80 ∨ 0xBF < b) : s = .start := by
  cases s with
  | start => rfl
  | tail1 | tail2 | tail3 | afterE0 | afterED | afterF0 | afterF4 =>
    have hin := within_eq_some h
    grind

/-- An ASCII byte is a character of its own. -/
theorem next_ascii {b : UInt8} (hb : b < 0x80) : start.next b = some .start := if_pos hb

theorem run_ascii {text : Bytes} (h : ∀ b ∈ text, b < 0x80) : start.run text = some .start := by
  induction text with
  | nil => rfl
  | cons b text ih =>
    obtain ⟨hb, hrest⟩ := List.forall_mem_cons.mp h
    rw [run_cons, next_ascii hb]
    exact ih hrest

theorem run_ascii_append {pre : Bytes} (h : ∀ b ∈ pre, b < 0x80) (rest : Bytes) :
    start.run (pre ++ rest) = start.run rest := by
  rw [run_append, run_ascii h]
  rfl

end Utf8State

theorem validUtf8_iff (s : Bytes) : validUtf8 s = true ↔ Utf8State.start.run s = some .start := by
  simp [validUtf8, Utf8State.run]

/-! ## Bidirectional controls -/

/-- `E2` starts a character of three bytes. -/
theorem run_after_E2 {s t : Utf8State} {b₁ b₂ : UInt8} {rest : Bytes}
    (h : s.run (0xE2 :: b₁ :: b₂ :: rest) = some t) : s.run rest = some t := by
  rw [Utf8State.run_cons] at h
  obtain ⟨s₁, h₁, h⟩ := Option.bind_eq_some_iff.mp h
  obtain rfl := Utf8State.eq_start_of_next h₁ (.inr (by decide))
  obtain rfl : Utf8State.tail2 = s₁ := Option.some.inj h₁
  obtain ⟨s₂, h₂, h⟩ := Option.bind_eq_some_iff.mp h
  obtain ⟨s₃, h₃, h⟩ := Option.bind_eq_some_iff.mp h
  obtain rfl := Utf8State.within_next h₂
  obtain rfl := Utf8State.within_next h₃
  exact h

theorem run_stripBidiControls {s t : Utf8State} {text : Bytes} (h : s.run text = some t) :
    s.run (stripBidiControls text) = some t := by
  induction text using stripBidiControls.induct generalizing s with
  | case1 b₀ b₁ b₂ rest hbidi ih =>
    rw [stripBidiControls, if_pos hbidi]
    obtain ⟨rfl, -⟩ := hbidi
    exact ih (run_after_E2 h)
  | case2 b₀ b₁ b₂ rest hbidi ih =>
    rw [stripBidiControls, if_neg hbidi, Utf8State.run_cons]
    rw [Utf8State.run_cons] at h
    cases hs : s.next b₀ with
    | none => simp [hs] at h
    | some s' =>
      rw [hs] at h
      exact ih h
  | case3 text hshort =>
    rwa [stripBidiControls]
    exact hshort

theorem validUtf8_stripBidiControls {text : Bytes} (h : validUtf8 text = true) :
    validUtf8 (stripBidiControls text) = true :=
  (validUtf8_iff _).mpr (run_stripBidiControls ((validUtf8_iff text).mp h))

/-! ## Emoji markup -/

namespace Emoji

theorem ascii_of_isNameByte {b : UInt8} (h : isNameByte b = true) : b < 0x80 := by
  unfold isNameByte isDigit at h
  grind

theorem ascii_of_isDigit {b : UInt8} (h : isDigit b = true) : b < 0x80 := by
  unfold isDigit at h
  grind

/-- `rest` is what ASCII bytes at the front of `s` leave of it. -/
def AsciiBefore (s rest : Bytes) : Prop := ∃ pre, s = pre ++ rest ∧ ∀ b ∈ pre, b < 0x80

theorem AsciiBefore.refl (s : Bytes) : AsciiBefore s s := ⟨[], rfl, by simp⟩

theorem AsciiBefore.trans {s s' s'' : Bytes} (h : AsciiBefore s s') (h' : AsciiBefore s' s'') :
    AsciiBefore s s'' := by
  obtain ⟨pre, rfl, hpre⟩ := h
  obtain ⟨pre', rfl, hpre'⟩ := h'
  refine ⟨pre ++ pre', by rw [List.append_assoc], fun b hb => ?_⟩
  exact (List.mem_append.mp hb).elim (hpre b) (hpre' b)

theorem asciiBefore_eat {b : UInt8} {s rest : Bytes} (hb : b < 0x80) (h : eat b s = some rest) :
    AsciiBefore s rest := by
  cases s with
  | nil => cases h
  | cons c s =>
    by_cases hc : c = b
    · rw [eat, if_pos hc] at h
      exact ⟨[b], by simp [hc, Option.some.inj h], by simpa using hb⟩
    · rw [eat, if_neg hc] at h
      cases h

theorem asciiBefore_eat_getD {b : UInt8} (s : Bytes) (hb : b < 0x80) :
    AsciiBefore s ((eat b s).getD s) := by
  cases h : eat b s with
  | none => exact .refl s
  | some rest => exact asciiBefore_eat hb h

theorem asciiBefore_dropWhile {p : UInt8 → Bool} (hp : ∀ b, p b = true → b < 0x80) (s : Bytes) :
    AsciiBefore s (s.dropWhile p) :=
  ⟨s.takeWhile p, List.takeWhile_append_dropWhile.symm,
    fun b hb => hp b (List.mem_takeWhile_imp hb)⟩

/-- Markup is ASCII. -/
theorem ascii_of_matchCustom {s name id : Bytes} {n : Nat}
    (h : matchCustom s = some (name, id, n)) : ∀ b ∈ s.take n, b < 0x80 := by
  unfold matchCustom at h
  obtain ⟨q₁, h₁, h⟩ := Option.bind_eq_some_iff.mp h
  obtain ⟨q₂, h₂, h⟩ := Option.bind_eq_some_iff.mp h
  dsimp only at h
  split at h
  · cases h
  obtain ⟨q₃, h₃, h⟩ := Option.bind_eq_some_iff.mp h
  split at h
  · cases h
  obtain ⟨q₄, h₄, h⟩ := Option.bind_eq_some_iff.mp h
  obtain ⟨-, -, rfl⟩ : _ ∧ _ ∧ s.length - q₄.length = n := by simpa using h
  have hfront : AsciiBefore s q₂ := (asciiBefore_eat (by decide) h₁).trans
    ((asciiBefore_eat_getD q₁ (by decide)).trans (asciiBefore_eat (by decide) h₂))
  have hname : AsciiBefore q₂ q₃ := (asciiBefore_dropWhile (fun _ => ascii_of_isNameByte) q₂).trans
    (asciiBefore_eat (by decide) h₃)
  have hid : AsciiBefore q₃ q₄ := (asciiBefore_dropWhile (fun _ => ascii_of_isDigit) q₃).trans
    (asciiBefore_eat (by decide) h₄)
  obtain ⟨pre, rfl, hpre⟩ := (hfront.trans hname).trans hid
  simpa using hpre

/-- All markups of a harvest are ASCII. -/
theorem ascii_of_mem_harvest {markup : Markup} (hmarkup : ∀ e ∈ markup, ∀ b ∈ e.2, b < 0x80)
    (skip : Nat) (raw : Bytes) : ∀ e ∈ harvest markup skip raw, ∀ b ∈ e.2, b < 0x80 := by
  induction raw generalizing markup skip with
  | nil => exact hmarkup
  | cons b rest ih =>
    cases skip with
    | succ skip => exact ih hmarkup skip
    | zero =>
      rw [harvest]
      split
      · rename_i name id n hmatch
        refine ih (fun e he => ?_) _
        rcases List.mem_cons.mp he with rfl | he
        · exact ascii_of_matchCustom hmatch
        · exact hmarkup e he
      · exact ih hmarkup 0

/-- A shortcode starts with a colon, and it and the markup it stands for are ASCII. -/
theorem ascii_of_shortcode {markup : Markup} (hmarkup : ∀ e ∈ markup, ∀ b ∈ e.2, b < 0x80)
    {b : UInt8} {rest m : Bytes} {n : Nat} (h : shortcode markup (b :: rest) = some (m, n)) :
    b = 0x3A ∧ (∀ c ∈ m, c < 0x80) ∧ ∀ c ∈ rest.take n, c < 0x80 := by
  unfold shortcode at h
  dsimp only at h
  split at h
  case isFalse => cases h
  case isTrue hcode =>
    obtain ⟨rfl, -, hcolon⟩ := hcode
    obtain ⟨m', hm, heq⟩ := Option.map_eq_some_iff.mp h
    obtain ⟨rfl, rfl⟩ := Prod.mk.inj heq
    obtain ⟨l₁, l₂, rfl, -⟩ := List.lookup_eq_some_iff.mp hm
    refine ⟨rfl, hmarkup (rest.takeWhile isNameByte, m') (by simp), ?_⟩
    -- The name, and the colon that ends it.
    obtain ⟨after, hafter⟩ : ∃ after, rest.dropWhile isNameByte = 0x3A :: after :=
      List.head?_eq_some_iff.mp hcolon
    have hrest : rest = (rest.takeWhile isNameByte ++ [0x3A]) ++ after := by
      rw [List.append_assoc, List.singleton_append, ← hafter, List.takeWhile_append_dropWhile]
    have htake : rest.take ((rest.takeWhile isNameByte).length + 1) =
        rest.takeWhile isNameByte ++ [0x3A] := by
      conv_lhs => rw [hrest]
      exact List.take_left' (by simp [← hrest])
    rw [htake]
    intro c hc
    rcases List.mem_append.mp hc with hc | hc
    · exact ascii_of_isNameByte (List.mem_takeWhile_imp hc)
    · obtain rfl := List.mem_singleton.mp hc
      decide

theorem run_rewriteShortcodes {markup : Markup} (hmarkup : ∀ e ∈ markup, ∀ b ∈ e.2, b < 0x80)
    {s t : Utf8State} (skip : Nat) {text : Bytes} (h : s.run (text.drop skip) = some t) :
    s.run (rewriteShortcodes markup skip text) = some t := by
  induction text generalizing s skip with
  | nil => simpa [rewriteShortcodes] using h
  | cons b rest ih =>
    cases skip with
    | succ skip => exact ih skip h
    | zero =>
      rw [rewriteShortcodes]
      split
      · rename_i m n hcode
        obtain ⟨rfl, hm, hskipped⟩ := ascii_of_shortcode hmarkup hcode
        rw [List.drop_zero, Utf8State.run_cons] at h
        obtain ⟨s', hs', h⟩ := Option.bind_eq_some_iff.mp h
        obtain rfl := Utf8State.eq_start_of_next hs' (.inl (by decide))
        obtain rfl : Utf8State.start = s' := Option.some.inj hs'
        rw [← List.take_append_drop n rest, Utf8State.run_ascii_append hskipped] at h
        rw [Utf8State.run_ascii_append hm]
        exact ih n h
      · rw [List.drop_zero, Utf8State.run_cons] at h
        obtain ⟨s', hs', h⟩ := Option.bind_eq_some_iff.mp h
        rw [Utf8State.run_cons, hs']
        exact ih 0 h

theorem validUtf8_restoreCustomMarkup {display : Bytes} (h : validUtf8 display = true)
    (raw : Bytes) : validUtf8 (restoreCustomMarkup display raw) = true := by
  have hmarkup : ∀ e ∈ harvest [] 0 raw, ∀ b ∈ e.2, b < 0x80 :=
    ascii_of_mem_harvest (by simp) 0 raw
  unfold restoreCustomMarkup
  split
  · exact h
  · exact (validUtf8_iff _).mpr (run_rewriteShortcodes hmarkup 0 ((validUtf8_iff _).mp h))

end Emoji

/-! ## What is read off a value -/

namespace Json

theorem utf8_of_find? {j v : Json} {key : String} (h : j.utf8 = true) (hv : j.find? key = some v) :
    v.utf8 = true := by
  cases j with
  | obj entries =>
    replace hv : entries.lookup (ascii key) = some v := hv
    replace h : utf8Entries entries = true := h
    induction entries with
    | nil => cases hv
    | cons e rest ih =>
      simp only [utf8Entries, Bool.and_eq_true] at h
      rw [List.lookup_cons] at hv
      split at hv
      · cases hv
        exact h.1.2
      · exact ih hv h.2
  | null | bool | int | float | str | arr => cases hv

theorem validUtf8_strOr {j : Json} (h : j.utf8 = true) (key : String) :
    validUtf8 (j.strOr key) = true := by
  unfold strOr
  split
  · rename_i s hs
    exact utf8_of_find? h hs
  · rfl

theorem utf8_objOrEmpty {j : Json} (h : j.utf8 = true) (key : String) :
    (j.objOrEmpty key).utf8 = true := by
  unfold objOrEmpty
  split
  · rename_i entries hobj
    exact utf8_of_find? h hobj
  · rfl

end Json

/-- The texts of a voice state. -/
structure VoiceState.Utf8 (v : VoiceState) : Prop where
  userId : validUtf8 v.userId = true
  nick : validUtf8 v.nick = true
  avatarHash : validUtf8 v.avatarHash = true

structure RpcEvent.Utf8 (ev : RpcEvent) : Prop where
  channelId : validUtf8 ev.channelId = true
  voice : ev.voice.Utf8
  notif : ev.notif.Utf8

theorem VoiceState.utf8_default : VoiceState.Utf8 {} := ⟨rfl, rfl, rfl⟩

theorem Notification.utf8_default : Notification.Utf8 {} := ⟨rfl, rfl, rfl, rfl⟩

theorem utf8_parseVoice (kind : RpcEvent.Kind) {data : Json} (h : data.utf8 = true) :
    (parseVoice kind data).Utf8 := by
  have huser := Json.utf8_objOrEmpty h "user"
  refine ⟨rfl, ⟨Json.validUtf8_strOr huser "id", ?_, Json.validUtf8_strOr huser "avatar"⟩,
    Notification.utf8_default⟩
  unfold parseVoice
  dsimp only
  split
  · exact Json.validUtf8_strOr huser "username"
  · exact Json.validUtf8_strOr h "nick"

theorem utf8_parseNotification {data : Json} (h : data.utf8 = true) :
    (parseNotification data).Utf8 := by
  have hmessage := Json.utf8_objOrEmpty h "message"
  have hauthor := Json.utf8_objOrEmpty hmessage "author"
  refine ⟨rfl, VoiceState.utf8_default, ?_, ?_, ?_, Json.validUtf8_strOr hauthor "avatar"⟩
  · unfold parseNotification
    dsimp only
    split
    · exact Json.validUtf8_strOr h "channel_id"
    · exact Json.validUtf8_strOr hmessage "id"
  · exact validUtf8_stripBidiControls (Json.validUtf8_strOr h "title")
  · exact validUtf8_stripBidiControls
      (Emoji.validUtf8_restoreCustomMarkup (Json.validUtf8_strOr h "body") _)

/-- An event read off a well-formed value holds well-formed texts. -/
theorem utf8_of_parseEvent {frame : Json} {ev : RpcEvent} (h : frame.utf8 = true)
    (hev : parseEvent frame = some ev) : ev.Utf8 := by
  have hdata := Json.utf8_objOrEmpty h "data"
  have hchannel : validUtf8 ((frame.objOrEmpty "data").strOr "channel_id") = true :=
    Json.validUtf8_strOr hdata "channel_id"
  unfold parseEvent at hev
  dsimp only at hev
  split_ifs at hev
  all_goals cases hev
  -- Voice events, speaking events, channel selects, notifications.
  iterate 3 exact utf8_parseVoice _ hdata
  iterate 3 exact ⟨hchannel, VoiceState.utf8_default, Notification.utf8_default⟩
  exact utf8_parseNotification hdata

theorem utf8_parseSelectedVoiceChannel {frame : Json} (h : frame.utf8 = true) :
    validUtf8 (parseSelectedVoiceChannel frame).channelId = true ∧
      ∀ v ∈ (parseSelectedVoiceChannel frame).states, v.Utf8 := by
  have hdata := Json.utf8_objOrEmpty h "data"
  unfold parseSelectedVoiceChannel
  dsimp only
  split
  · exact ⟨rfl, by simp⟩
  · refine ⟨Json.validUtf8_strOr hdata "id", fun v hv => ?_⟩
    dsimp only at hv
    split at hv
    · rename_i xs hxs
      obtain ⟨j, hj, rfl⟩ := List.mem_map.mp hv
      have hxs : (Json.arr xs).utf8 = true := Json.utf8_of_find? hdata hxs
      replace hxs : xs.all Json.utf8 = true := (Json.utf8List_eq_all xs).symm.trans hxs
      exact (utf8_parseVoice .voiceCreate (List.all_eq_true.mp hxs j hj)).voice
    · simp at hv

end Choir
