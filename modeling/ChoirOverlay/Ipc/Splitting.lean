-- SUMMARY: What `split_runs` makes of a text: its tokens, its shown text, the shape of its runs and of their keys.
import ChoirOverlay.Ipc.Markup
import ChoirOverlay.Ipc.Characters
import Mathlib.Data.List.Chain

/-!
# Splitting a text

A text is read from the left, one lexeme after the other: markup, an emoji, or a
step of plain text. The runs are told from the lexemes alone.
-/

namespace Choir.Emoji

/-! ## Lexemes -/

inductive Lexeme where
  | custom (e : CustomEmoji)
  | unicode (front : Bytes) (cps : List Nat)
  | text (front : Bytes)

/-- The text starts with a step of plain text. -/
structure TextStep (front rest : Bytes) : Prop where
  custom : matchCustom (front ++ rest) = none
  unicode : matchUnicode (front ++ rest) = none
  step : (∃ cp, IsCharacter front cp) ∨ ∃ b, front = [b] ∧ decodeUtf8 (front ++ rest) = none

/-- How a text is read. -/
inductive Reads : Bytes → List Lexeme → Prop
  | nil : Reads [] []
  | custom {e : CustomEmoji} {rest : Bytes} {ls : List Lexeme} :
    Reads rest ls → Reads (e.markup ++ rest) (.custom e :: ls)
  | unicode {front rest : Bytes} {cps : List Nat} {ls : List Lexeme} :
    matchCustom (front ++ rest) = none → matchUnicode (front ++ rest) = some (cps, front.length) →
    Reads rest ls → Reads (front ++ rest) (.unicode front cps :: ls)
  | text {front rest : Bytes} {ls : List Lexeme} :
    TextStep front rest → Reads rest ls → Reads (front ++ rest) (.text front :: ls)

/-- The runs of a text, with the text gathered before it. -/
def runsOf : Bytes → List Lexeme → List Run
  | text, [] => flush text
  | text, .custom e :: ls => flush text ++ ⟨e.shortcode, e.key⟩ :: runsOf [] ls
  | text, .unicode front cps :: ls =>
    flush text ++ ⟨front, ascii "emoji.u." ++ twemojiStem cps⟩ :: runsOf [] ls
  | text, .text front :: ls => runsOf (text ++ front) ls

/-! ## The loop -/

theorem splitLoop_skip (text : Bytes) (skip : Nat) (s : Bytes) :
    splitLoop text skip s = splitLoop text 0 (s.drop skip) := by
  induction s generalizing skip with
  | nil => simp [splitLoop]
  | cons b s ih =>
    cases skip with
    | zero => rfl
    | succ skip => exact ih skip

/-- What a turn skips is what it took. -/
theorem drop_front {b : UInt8} {front rest s : Bytes} (h : b :: s = front ++ rest)
    (hfront : front ≠ []) : s.drop (front.length - 1) = rest ∧
      (b :: s).take front.length = front := by
  obtain ⟨c, front, rfl⟩ := List.exists_cons_of_ne_nil hfront
  obtain ⟨rfl, rfl⟩ := List.cons.inj h
  simp

theorem TextStep.ne_nil {front rest : Bytes} (h : TextStep front rest) : front ≠ [] := by
  rcases h.step with ⟨cp, hread⟩ | ⟨b, rfl, -⟩
  · exact List.ne_nil_of_length_pos hread.length_pos
  · exact List.cons_ne_nil _ _

theorem TextStep.textStep {front rest : Bytes} (h : TextStep front rest) :
    textStep (front ++ rest) = front.length := by
  rcases h.step with ⟨cp, hread⟩ | ⟨b, rfl, hnone⟩
  · rw [Emoji.textStep, hread rest]
    rfl
  · rw [Emoji.textStep, hnone]
    rfl

theorem ne_nil_of_matchUnicode {front rest : Bytes} {cps : List Nat}
    (h : matchUnicode (front ++ rest) = some (cps, front.length)) : front ≠ [] :=
  List.ne_nil_of_length_pos (sequence_matchUnicode h).pos

/-- The loop, told from the lexemes of what is left. -/
theorem splitLoop_of_reads {s : Bytes} {ls : List Lexeme} (h : Reads s ls) (text : Bytes) :
    splitLoop text 0 s = runsOf text ls := by
  induction h generalizing text with
  | nil => rfl
  | @custom e rest ls _ ih =>
    have hmatch := matchCustom_markup e rest
    cases hs : e.markup ++ rest with
    | nil => cases hs
    | cons b s =>
      obtain ⟨hdrop, -⟩ := drop_front hs.symm (List.cons_ne_nil _ _)
      rw [hs] at hmatch
      rw [splitLoop, hmatch]
      dsimp only
      rw [splitLoop_skip, hdrop, ih]
      rfl
  | @unicode front rest cps ls hcustom hunicode _ ih =>
    have hne := ne_nil_of_matchUnicode hunicode
    cases hs : front ++ rest with
    | nil => exact absurd (List.append_eq_nil_iff.mp hs).1 hne
    | cons b s =>
      obtain ⟨hdrop, htake⟩ := drop_front hs.symm hne
      rw [hs] at hcustom hunicode
      rw [splitLoop, hcustom, hunicode]
      dsimp only
      rw [splitLoop_skip, hdrop, htake, ih]
      rfl
  | @text front rest ls hstep _ ih =>
    have htext := hstep.textStep
    have hcustom := hstep.custom
    have hunicode := hstep.unicode
    cases hs : front ++ rest with
    | nil => exact absurd (List.append_eq_nil_iff.mp hs).1 hstep.ne_nil
    | cons b s =>
      obtain ⟨hdrop, htake⟩ := drop_front hs.symm hstep.ne_nil
      rw [hs] at hcustom hunicode htext
      rw [splitLoop, hcustom, hunicode]
      dsimp only
      rw [splitLoop_skip, htext, hdrop, htake, ih]
      rfl

/-- Every text can be read. By induction on its length. -/
theorem exists_reads (s : Bytes) : ∃ ls, Reads s ls := by
  by_cases hs : s = []
  · exact ⟨[], hs ▸ .nil⟩
  have hshorter {front rest : Bytes} (heq : s = front ++ rest) (hne : front ≠ []) :
      rest.length < s.length := by
    have hpos := List.length_pos_iff.mpr hne
    rw [heq, List.length_append]
    omega
  cases hcustom : matchCustom s with
  | some r =>
    obtain ⟨e, rest, heq, -⟩ := eq_markup_of_matchCustom hcustom
    have hlt := hshorter heq (List.cons_ne_nil _ _)
    obtain ⟨ls, hls⟩ := exists_reads rest
    exact ⟨.custom e :: ls, heq ▸ .custom hls⟩
  | none =>
    cases hunicode : matchUnicode s with
    | some r =>
      obtain ⟨front, rest, -, heq, hlen, -⟩ := sequence_matchUnicode hunicode
      have hmatch : matchUnicode (front ++ rest) = some (r.1, front.length) := by
        rw [← heq, hunicode, hlen]
      have hlt := hshorter heq (ne_nil_of_matchUnicode hmatch)
      obtain ⟨ls, hls⟩ := exists_reads rest
      exact ⟨.unicode front r.1 :: ls, heq ▸ .unicode (heq ▸ hcustom) hmatch hls⟩
    | none =>
      have hstep : ∃ front rest, s = front ++ rest ∧
          ((∃ cp, IsCharacter front cp) ∨
            ∃ b, front = [b] ∧ decodeUtf8 (front ++ rest) = none) := by
        cases hdecode : decodeUtf8 s with
        | none =>
          obtain ⟨b, rest, rfl⟩ := List.exists_cons_of_ne_nil hs
          exact ⟨[b], rest, rfl, .inr ⟨b, rfl, hdecode⟩⟩
        | some r =>
          obtain ⟨front, rest, heq, -, hread⟩ := decodeUtf8_front hdecode
          exact ⟨front, rest, heq, .inl ⟨_, hread⟩⟩
      obtain ⟨front, rest, heq, hstep⟩ := hstep
      have htext : TextStep front rest := ⟨heq ▸ hcustom, heq ▸ hunicode, hstep⟩
      have hlt := hshorter heq htext.ne_nil
      obtain ⟨ls, hls⟩ := exists_reads rest
      exact ⟨.text front :: ls, heq ▸ .text htext hls⟩
termination_by s.length

theorem splitRuns_eq (s : Bytes) : ∃ ls, Reads s ls ∧ splitRuns s = runsOf [] ls := by
  obtain ⟨ls, hls⟩ := exists_reads s
  exact ⟨ls, hls, splitLoop_of_reads hls []⟩

/-! ## The tokens -/

/-- The pieces a lexeme adds to the cut of the text. -/
def Lexeme.pieces : Lexeme → List (UInt8 ⊕ CustomEmoji)
  | .custom e => [.inr e]
  | .unicode front _ => front.map .inl
  | .text front => front.map .inl

/-- Markup starts with a `<`. -/
theorem not_starts {b : UInt8} (hb : b ≠ 0x3C) (s : Bytes) :
    ¬ Cut.Starts CustomEmoji.markup (b :: s) := by
  rintro ⟨e, rest, heq⟩
  exact hb (List.cons.inj heq).1

/-- Only the first byte of a step of text can open a token. -/
theorem TextStep.tail_ne_open {b : UInt8} {tail rest : Bytes} (h : TextStep (b :: tail) rest) :
    0x3C ∉ tail := by
  rcases h.step with ⟨cp, hread⟩ | ⟨b', heq, -⟩
  · intro hmem
    exact absurd (hread.tail.1 _ hmem) (by decide)
  · obtain ⟨-, rfl⟩ := List.cons.inj heq
    exact List.not_mem_nil

/-- The lexemes are the cut of the text at its leftmost tokens. -/
theorem leftmost_of_reads {s : Bytes} {ls : List Lexeme} (h : Reads s ls) :
    Cut.flatten CustomEmoji.markup (ls.flatMap Lexeme.pieces) = s ∧
      Cut.Leftmost CustomEmoji.markup (ls.flatMap Lexeme.pieces) := by
  induction h with
  | nil => exact ⟨rfl, trivial⟩
  | custom _ ih =>
    obtain ⟨hflatten, hleftmost⟩ := ih
    exact ⟨congrArg _ hflatten, hleftmost⟩
  | @unicode front rest cps ls hcustom hunicode _ ih =>
    obtain ⟨hflatten, hleftmost⟩ := ih
    have hopen : 0x3C ∉ front := by
      obtain ⟨front', rest', cps', heq, hlen, hchars, -, hcps⟩ := sequence_matchUnicode hunicode
      obtain ⟨rfl, -⟩ := List.append_inj heq hlen.symm
      exact hchars.ne_open hcps
    refine ⟨?_, hleftmost.map_inl_append fun b hb => not_starts (fun heq => hopen (heq ▸ hb))⟩
    simp [Lexeme.pieces, hflatten]
  | @text front rest ls hstep _ ih =>
    obtain ⟨hflatten, hleftmost⟩ := ih
    obtain ⟨b, tail, rfl⟩ := List.exists_cons_of_ne_nil hstep.ne_nil
    have htail := hleftmost.map_inl_append fun c hc =>
      not_starts fun heq => hstep.tail_ne_open (heq ▸ hc)
    have hfirst : ¬ Cut.Starts CustomEmoji.markup
        (b :: Cut.flatten CustomEmoji.markup (tail.map .inl ++ ls.flatMap Lexeme.pieces)) := by
      rw [Cut.flatten_append, Cut.flatten_map_inl, hflatten]
      exact matchCustom_eq_none.mp hstep.custom
    exact ⟨by simp [Lexeme.pieces, hflatten], hfirst, htail⟩

/-! ## The runs -/

/-- A token of the custom grammar. -/
def Run.isCustom (r : Run) : Bool := (ascii "emoji.c.").isPrefixOf r.key

theorem flatMap_flush (text : Bytes) : (flush text).flatMap Run.text = text := by
  unfold flush
  split
  · rename_i htext
    exact htext.symm
  · exact List.append_nil text

/-- The runs show the text with each token as its shortcode. -/
theorem texts_runsOf (text : Bytes) (ls : List Lexeme) :
    (runsOf text ls).flatMap Run.text =
      text ++ CustomEmoji.collapse (ls.flatMap Lexeme.pieces) := by
  induction ls generalizing text with
  | nil => simp [runsOf, flatMap_flush]
  | cons l ls ih =>
    cases l with
    | custom e => simp [runsOf, Lexeme.pieces, flatMap_flush, ih]
    | unicode front cps => simp [runsOf, Lexeme.pieces, flatMap_flush, ih]
    | text front => simp [runsOf, Lexeme.pieces, ih]

theorem isCustom_flush (text : Bytes) : (flush text).filter Run.isCustom = [] := by
  unfold flush
  split <;> rfl

theorem isCustom_key (text : Bytes) (e : CustomEmoji) : Run.isCustom ⟨text, e.key⟩ = true :=
  List.isPrefixOf_iff_prefix.mpr (List.prefix_append _ _)

theorem not_isCustom_unicode (text stem : Bytes) :
    Run.isCustom ⟨text, ascii "emoji.u." ++ stem⟩ = false := rfl

/-- The custom runs are the tokens. -/
theorem customs_runsOf (text : Bytes) (ls : List Lexeme) :
    (runsOf text ls).filter Run.isCustom =
      (Cut.tokens (ls.flatMap Lexeme.pieces)).map fun e => ⟨e.shortcode, e.key⟩ := by
  induction ls generalizing text with
  | nil => exact isCustom_flush text
  | cons l ls ih =>
    cases l with
    | custom e => simp [runsOf, Lexeme.pieces, isCustom_flush, isCustom_key, ih]
    | unicode front cps => simp [runsOf, Lexeme.pieces, isCustom_flush, not_isCustom_unicode, ih]
    | text front => simp [runsOf, Lexeme.pieces, ih]

/-- A cut at the leftmost tokens says what the runs show and what their custom
emoji are. -/
theorem splitRuns_of_leftmost {ps : List (UInt8 ⊕ CustomEmoji)}
    (h : Cut.Leftmost CustomEmoji.markup ps) :
    (splitRuns (Cut.flatten CustomEmoji.markup ps)).flatMap Run.text = CustomEmoji.collapse ps ∧
      (splitRuns (Cut.flatten CustomEmoji.markup ps)).filter Run.isCustom =
        (Cut.tokens ps).map fun e => ⟨e.shortcode, e.key⟩ := by
  obtain ⟨ls, hls, hruns⟩ := splitRuns_eq (Cut.flatten CustomEmoji.markup ps)
  obtain ⟨hflatten, hleftmost⟩ := leftmost_of_reads hls
  obtain rfl := hleftmost.unique unambiguous_markup h hflatten
  rw [hruns, texts_runsOf, customs_runsOf]
  exact ⟨rfl, rfl⟩

/-! ## The shape of the runs -/

theorem forall_flush {P : Run → Prop} {text : Bytes} (h : text ≠ [] → P ⟨text, []⟩) :
    ∀ r ∈ flush text, P r := by
  unfold flush
  split
  · simp
  · rename_i htext
    simpa using h htext

/-- What holds of the text runs and of the runs of the emoji holds of all runs. -/
theorem forall_runsOf {P : Run → Prop} {s text : Bytes} {ls : List Lexeme} (h : Reads s ls)
    (htext : ∀ text, text ≠ [] → P ⟨text, []⟩)
    (hcustom : ∀ e : CustomEmoji, P ⟨e.shortcode, e.key⟩)
    (hunicode : ∀ front rest cps, matchUnicode (front ++ rest) = some (cps, front.length) →
      P ⟨front, ascii "emoji.u." ++ twemojiStem cps⟩) : ∀ r ∈ runsOf text ls, P r := by
  induction h generalizing text with
  | nil => exact forall_flush (htext text)
  | custom _ ih =>
    refine List.forall_mem_append.mpr ⟨forall_flush (htext text), ?_⟩
    exact List.forall_mem_cons.mpr ⟨hcustom _, ih⟩
  | unicode _ hmatch _ ih =>
    refine List.forall_mem_append.mpr ⟨forall_flush (htext text), ?_⟩
    exact List.forall_mem_cons.mpr ⟨hunicode _ _ _ hmatch, ih⟩
  | text _ _ ih => exact ih

/-- One of two neighbours is an emoji. -/
theorem isChain_flush {text : Bytes} {r : Run} {rs : List Run} (hr : r.key ≠ [])
    (hrs : rs.IsChain fun r r' => r.key ≠ [] ∨ r'.key ≠ []) :
    (flush text ++ r :: rs).IsChain fun r r' => r.key ≠ [] ∨ r'.key ≠ [] := by
  have hcons : (r :: rs).IsChain fun r r' => r.key ≠ [] ∨ r'.key ≠ [] :=
    hrs.cons fun _ _ => .inl hr
  unfold flush
  split
  · exact hcons
  · exact hcons.cons_cons (.inr hr)

theorem isChain_runsOf (text : Bytes) (ls : List Lexeme) :
    (runsOf text ls).IsChain fun r r' => r.key ≠ [] ∨ r'.key ≠ [] := by
  induction ls generalizing text with
  | nil =>
    unfold runsOf flush
    split <;> simp
  | cons l ls ih =>
    cases l with
    | custom e => exact isChain_flush (List.append_ne_nil_of_left_ne_nil (by decide) _) (ih [])
    | unicode front cps =>
      exact isChain_flush (List.append_ne_nil_of_left_ne_nil (by decide) _) (ih [])
    | text front => exact ih (text ++ front)

/-! ## Keys -/

/-- `emoji.c.<digits>`. -/
def IsCustomKey (key : Bytes) : Prop :=
  ∃ id : Bytes, id ≠ [] ∧ (∀ b ∈ id, isDigit b = true) ∧ key = ascii "emoji.c." ++ id

/-- `0` to `9` and `a` to `f`. -/
def isHexDigit (b : UInt8) : Bool := isDigit b || (0x61 ≤ b && b ≤ 0x66)

/-- `emoji.u.<hex>(-<hex>)*`. -/
def IsUnicodeKey (key : Bytes) : Prop :=
  ∃ words : List Bytes, words ≠ [] ∧
    (∀ w ∈ words, w ≠ [] ∧ ∀ b ∈ w, isHexDigit b = true) ∧
    key = ascii "emoji.u." ++ [0x2D].intercalate words

theorem isHexDigit_digitChar {n : Nat} (h : n < 16) :
    isHexDigit (UInt8.ofNat (Nat.digitChar n).toNat) = true := by
  revert n
  decide

theorem isHexDigit_of_mem_hex {n : Nat} : ∀ b ∈ hex n, isHexDigit b = true := by
  induction n using Nat.strongRecOn with
  | _ n ih =>
    by_cases hn : n < 16
    · rw [hex, Nat.toDigits_of_lt_base hn]
      simpa using isHexDigit_digitChar hn
    · rw [hex, Nat.toDigits_of_base_le (by omega) (by omega), List.map_append]
      refine List.forall_mem_append.mpr ⟨ih (n / 16) (by omega), ?_⟩
      simpa using isHexDigit_digitChar (Nat.mod_lt n (by omega))

theorem hex_ne_nil (n : Nat) : hex n ≠ [] := by
  simp [hex, Nat.toDigits_ne_nil]

/-- The stem of a sequence that does not start with a variation selector. -/
theorem isUnicodeKey_stem {cp : Nat} (hcp : cp ≠ kVS16) (cps : List Nat) :
    IsUnicodeKey (ascii "emoji.u." ++ twemojiStem (cp :: cps)) := by
  refine ⟨_, ?_, ?_, rfl⟩
  · simp [hcp]
  · intro w hw
    obtain ⟨n, -, rfl⟩ := List.mem_map.mp hw
    exact ⟨hex_ne_nil n, isHexDigit_of_mem_hex⟩

theorem keycap_first {cp n m : Nat} {q : Bytes} {cps : List Nat}
    (h : keycap cp n q = some (cps, m)) : ∃ cps', cps = cp :: cps' := by
  unfold keycap at h
  obtain ⟨⟨cp', n'⟩, -, h⟩ := Option.bind_eq_some_iff.mp h
  dsimp only at h
  split at h
  · obtain ⟨r, -, h⟩ := Option.bind_eq_some_iff.mp h
    obtain ⟨-, h⟩ := Option.ite_none_right_eq_some.mp h
    exact ⟨_, (Prod.mk.inj (Option.some.inj h)).1.symm⟩
  · obtain ⟨-, h⟩ := Option.ite_none_right_eq_some.mp h
    exact ⟨_, (Prod.mk.inj (Option.some.inj h)).1.symm⟩

theorem flag_first (cp n : Nat) (q : Bytes) : ∃ cps', (flag cp n q).1 = cp :: cps' := by
  unfold flag
  split
  · split
    · exact ⟨_, rfl⟩
    · exact ⟨[], rfl⟩
  · exact ⟨[], rfl⟩

theorem base_first {cp n m : Nat} {q : Bytes} {cps : List Nat}
    (h : base cp n q = some (cps, m)) : cp ≠ kVS16 ∧ ∃ cps', cps = cp :: cps' := by
  have hvs16 : base kVS16 n q = none := rfl
  refine ⟨fun hcp => ?_, ?_⟩
  · rw [hcp, hvs16] at h
    cases h
  · unfold base at h
    split at h
    · exact ⟨[], (Prod.mk.inj (Option.some.inj h)).1.symm⟩
    · obtain ⟨-, h⟩ := Option.ite_none_right_eq_some.mp h
      obtain ⟨r, -, h⟩ := Option.bind_eq_some_iff.mp h
      obtain ⟨-, h⟩ := Option.ite_none_right_eq_some.mp h
      exact ⟨_, (Prod.mk.inj (Option.some.inj h)).1.symm⟩

/-- An emoji does not start with a variation selector. -/
theorem matchUnicode_first {s : Bytes} {cps : List Nat} {n : Nat}
    (h : matchUnicode s = some (cps, n)) : ∃ cp cps', cps = cp :: cps' ∧ cp ≠ kVS16 := by
  unfold matchUnicode at h
  obtain ⟨⟨cp, k⟩, -, h⟩ := Option.bind_eq_some_iff.mp h
  dsimp only at h
  split_ifs at h with hdigit hindicator
  · obtain ⟨cps', rfl⟩ := keycap_first h
    refine ⟨cp, cps', rfl, ?_⟩
    rintro rfl
    exact absurd hdigit (by decide)
  · obtain ⟨cps', hcps'⟩ := flag_first cp k (s.drop k)
    rw [Option.some.inj h] at hcps'
    refine ⟨cp, cps', hcps', ?_⟩
    rintro rfl
    exact absurd hindicator (by decide)
  · obtain ⟨⟨cps', m⟩, hbase, h⟩ := Option.bind_eq_some_iff.mp h
    obtain ⟨hcp, cps'', rfl⟩ := base_first hbase
    exact ⟨cp, _, (Prod.mk.inj (Option.some.inj h)).1.symm, hcp⟩

/-- A key of more than its prefix has an image. -/
theorem urlFor_custom {id : Bytes} (h : id ≠ []) : urlFor (ascii "emoji.c." ++ id) ≠ [] := by
  have hpos := List.length_pos_iff.mpr h
  have hcustom : ((ascii "emoji.c.").isPrefixOf (ascii "emoji.c." ++ id) &&
      decide ((ascii "emoji.c.").length < (ascii "emoji.c." ++ id).length)) = true := by
    rw [Bool.and_eq_true, List.isPrefixOf_iff_prefix, List.length_append, decide_eq_true_eq]
    exact ⟨List.prefix_append _ _, by omega⟩
  unfold urlFor
  dsimp only
  rw [if_pos hcustom]
  exact List.append_ne_nil_of_right_ne_nil _ (by decide)

theorem urlFor_unicode {stem : Bytes} (h : stem ≠ []) :
    urlFor (ascii "emoji.u." ++ stem) ≠ [] := by
  have hpos := List.length_pos_iff.mpr h
  have hcustom : (ascii "emoji.c.").isPrefixOf (ascii "emoji.u." ++ stem) = false := rfl
  have hunicode : ((ascii "emoji.u.").isPrefixOf (ascii "emoji.u." ++ stem) &&
      decide ((ascii "emoji.u.").length < (ascii "emoji.u." ++ stem).length)) = true := by
    rw [Bool.and_eq_true, List.isPrefixOf_iff_prefix, List.length_append, decide_eq_true_eq]
    exact ⟨List.prefix_append _ _, by omega⟩
  unfold urlFor
  dsimp only
  rw [if_neg (by simp [hcustom]), if_pos hunicode]
  exact List.append_ne_nil_of_right_ne_nil _ (by decide)

theorem IsCustomKey.urlFor_ne_nil {key : Bytes} (h : IsCustomKey key) : urlFor key ≠ [] := by
  obtain ⟨id, hid, -, rfl⟩ := h
  exact urlFor_custom hid

theorem IsUnicodeKey.urlFor_ne_nil {key : Bytes} (h : IsUnicodeKey key) : urlFor key ≠ [] := by
  obtain ⟨words, hwords, hword, rfl⟩ := h
  refine urlFor_unicode ?_
  obtain ⟨w, words, rfl⟩ := List.exists_cons_of_ne_nil hwords
  obtain ⟨hw, -⟩ := hword w List.mem_cons_self
  cases words with
  | nil => rwa [List.intercalate_singleton]
  | cons w' words =>
    rw [List.intercalate_cons_cons]
    exact List.append_ne_nil_of_left_ne_nil (List.append_ne_nil_of_left_ne_nil hw _) _

theorem isCustomKey_key (e : CustomEmoji) : IsCustomKey e.key :=
  ⟨e.id, e.id_ne_nil, e.isDigit, rfl⟩

theorem isUnicodeKey_key {s : Bytes} {cps : List Nat} {n : Nat}
    (h : matchUnicode s = some (cps, n)) : IsUnicodeKey (ascii "emoji.u." ++ twemojiStem cps) := by
  obtain ⟨cp, cps', rfl, hcp⟩ := matchUnicode_first h
  exact isUnicodeKey_stem hcp cps'

/-! ## UTF-8 -/

theorem ascii_markup (e : CustomEmoji) : ∀ b ∈ e.markup, b < 0x80 := by
  simpa using ascii_of_matchCustom (matchCustom_markup e [])

theorem ascii_shortcode (e : CustomEmoji) : ∀ b ∈ e.shortcode, b < 0x80 := by
  intro b hb
  rcases List.mem_cons.mp hb with rfl | hb
  · decide
  rcases List.mem_append.mp hb with hb | hb
  · exact ascii_of_isNameByte (e.isNameByte b hb)
  · obtain rfl := List.mem_singleton.mp hb
    decide

/-- Runs of well-formed text are well-formed. -/
theorem utf8_runsOf {s text : Bytes} {ls : List Lexeme} (h : Reads s ls)
    (hs : Utf8State.start.run s = some .start) (htext : Utf8State.start.run text = some .start) :
    ∀ r ∈ runsOf text ls, Utf8State.start.run r.text = some .start := by
  induction h generalizing text with
  | nil => exact forall_flush fun _ => htext
  | @custom e rest ls _ ih =>
    rw [Utf8State.run_ascii_append (ascii_markup e)] at hs
    refine List.forall_mem_append.mpr ⟨forall_flush fun _ => htext, ?_⟩
    exact List.forall_mem_cons.mpr ⟨Utf8State.run_ascii (ascii_shortcode e), ih hs rfl⟩
  | @unicode front rest cps ls _ hmatch _ ih =>
    obtain ⟨front', rest', cps', heq, hlen, hchars, -⟩ := sequence_matchUnicode hmatch
    obtain ⟨rfl, rfl⟩ := List.append_inj heq hlen.symm
    obtain ⟨hfront, hrest⟩ := hchars.run hs
    refine List.forall_mem_append.mpr ⟨forall_flush fun _ => htext, ?_⟩
    exact List.forall_mem_cons.mpr ⟨hfront, ih hrest rfl⟩
  | @text front rest ls hstep _ ih =>
    have hread : ∃ cp, IsCharacter front cp := by
      rcases hstep.step with hread | ⟨b, rfl, hnone⟩
      · exact hread
      · obtain ⟨front, rest', cp, heq, hread, -⟩ := decodeUtf8_of_run (List.cons_ne_nil _ _) hs
        have hsome : decodeUtf8 ([b] ++ rest) = some (cp, front.length) :=
          (congrArg decodeUtf8 heq).trans (hread rest')
        rw [hnone] at hsome
        cases hsome
    obtain ⟨cp, hread⟩ := hread
    obtain ⟨hfront, hrest⟩ := hread.characters.run hs
    refine ih hrest ?_
    rw [Utf8State.run_append, htext]
    exact hfront

/-! ## Splitting a text run again -/

/-- The text is read as plain text when `after` follows. -/
inductive Plain : Bytes → Bytes → Prop
  | nil {after : Bytes} : Plain [] after
  | cons {front rest after : Bytes} :
    TextStep front (rest ++ after) → Plain rest after → Plain (front ++ rest) after

theorem Plain.append {text text' after : Bytes} (h : Plain text (text' ++ after))
    (h' : Plain text' after) : Plain (text ++ text') after := by
  generalize hmore : text' ++ after = more at h
  induction h with
  | nil => exact h'
  | cons hstep _ ih =>
    subst hmore
    rw [List.append_assoc]
    refine .cons ?_ (ih rfl)
    rwa [List.append_assoc]

/-- What is no emoji with more text behind it is none without. -/
theorem TextStep.cut {front rest after : Bytes} (h : TextStep front (rest ++ after)) :
    TextStep front rest := by
  refine ⟨?_, ?_, h.step.imp_right ?_⟩
  · have hstarts := matchCustom_eq_none.mp h.custom
    refine matchCustom_eq_none.mpr fun ⟨e, more, heq⟩ => hstarts ⟨e, more ++ after, ?_⟩
    rw [← List.append_assoc, heq, List.append_assoc]
  · cases hmatch : matchUnicode (front ++ rest) with
    | none => rfl
    | some r =>
      have hmore := matchUnicode_append hmatch after
      rw [List.append_assoc, h.unicode] at hmore
      cases hmore
  · rintro ⟨b, hfront, hnone⟩
    refine ⟨b, hfront, ?_⟩
    cases hdecode : decodeUtf8 (front ++ rest) with
    | none => rfl
    | some r =>
      rw [← List.append_assoc, decodeUtf8_append hdecode after] at hnone
      cases hnone

theorem Plain.cut {text after : Bytes} (h : Plain text after) : Plain text [] := by
  induction h with
  | nil => exact .nil
  | cons hstep _ ih =>
    refine .cons ?_ ih
    rw [List.append_nil]
    exact hstep.cut

theorem Plain.splitLoop {rest : Bytes} (h : Plain rest []) (text : Bytes) :
    splitLoop text 0 rest = flush (text ++ rest) := by
  have hreads : ∃ ls, Reads rest ls ∧ ∀ text, runsOf text ls = flush (text ++ rest) := by
    generalize hnil : ([] : Bytes) = after at h
    induction h with
    | nil => exact ⟨[], .nil, fun text => by rw [runsOf, List.append_nil]⟩
    | @cons front rest after hstep _ ih =>
      subst hnil
      obtain ⟨ls, hls, hruns⟩ := ih rfl
      rw [List.append_nil] at hstep
      exact ⟨.text front :: ls, .text hstep hls, fun text => by
        rw [runsOf, hruns, List.append_assoc]⟩
  obtain ⟨ls, hls, hruns⟩ := hreads
  rw [splitLoop_of_reads hls, hruns]

/-- A text run was read as plain text. -/
theorem plain_of_reads {s text : Bytes} {ls : List Lexeme} (h : Reads s ls) (htext : Plain text s) :
    ∀ r ∈ runsOf text ls, r.key = [] → ∃ after, Plain r.text after := by
  induction h generalizing text with
  | nil => exact forall_flush fun _ _ => ⟨_, htext⟩
  | custom _ ih =>
    refine List.forall_mem_append.mpr ⟨forall_flush fun _ _ => ⟨_, htext⟩, ?_⟩
    refine List.forall_mem_cons.mpr ⟨fun hkey => ?_, ih .nil⟩
    exact absurd hkey (List.append_ne_nil_of_left_ne_nil (by decide) _)
  | unicode _ _ _ ih =>
    refine List.forall_mem_append.mpr ⟨forall_flush fun _ _ => ⟨_, htext⟩, ?_⟩
    refine List.forall_mem_cons.mpr ⟨fun hkey => ?_, ih .nil⟩
    exact absurd hkey (List.append_ne_nil_of_left_ne_nil (by decide) _)
  | @text front rest ls hstep _ ih =>
    refine ih (htext.append ?_)
    simpa using @Plain.cons front [] rest hstep .nil

theorem splitRuns_text {s : Bytes} {r : Run} (hr : r ∈ splitRuns s) (hkey : r.key = [])
    (htext : r.text ≠ []) : splitRuns r.text = [r] := by
  obtain ⟨ls, hls, hruns⟩ := splitRuns_eq s
  rw [hruns] at hr
  obtain ⟨after, hplain⟩ := plain_of_reads hls .nil r hr hkey
  have hrun : r = ⟨r.text, []⟩ := by rw [← hkey]
  rw [splitRuns, hplain.cut.splitLoop, List.nil_append, flush, if_neg htext]
  exact congrArg (fun r => [r]) hrun.symm

/-! ## The splitting -/

/-- What `split_runs` makes of a text. -/
theorem splitRuns_spec (s : Bytes) :
    (∃ ps, Cut.flatten CustomEmoji.markup ps = s ∧ Cut.Leftmost CustomEmoji.markup ps ∧
      (splitRuns s).filter Run.isCustom =
        (Cut.tokens ps).map (fun e => ⟨e.shortcode, e.key⟩) ∧
      (splitRuns s).flatMap Run.text = CustomEmoji.collapse ps) ∧
    (∀ r ∈ splitRuns s, r.text ≠ []) ∧
    (splitRuns s).IsChain (fun r r' => r.key ≠ [] ∨ r'.key ≠ []) ∧
    (∀ r ∈ splitRuns s, r.key ≠ [] →
      (IsCustomKey r.key ∨ IsUnicodeKey r.key) ∧ urlFor r.key ≠ []) ∧
    (validUtf8 s = true → ∀ r ∈ splitRuns s, validUtf8 r.text = true) ∧
    ∀ r ∈ splitRuns s, r.key = [] → splitRuns r.text = [r] := by
  obtain ⟨ls, hls, hruns⟩ := splitRuns_eq s
  obtain ⟨hflatten, hleftmost⟩ := leftmost_of_reads hls
  have htexts : ∀ r ∈ splitRuns s, r.text ≠ [] := by
    rw [hruns]
    refine forall_runsOf hls (fun _ htext => htext) (fun _ => List.cons_ne_nil _ _) ?_
    intro front rest cps hmatch
    exact ne_nil_of_matchUnicode hmatch
  refine ⟨⟨ls.flatMap Lexeme.pieces, hflatten, hleftmost, ?_, ?_⟩, htexts, ?_, ?_, ?_, ?_⟩
  · rw [hruns, customs_runsOf]
  · rw [hruns, texts_runsOf, List.nil_append]
  · rw [hruns]
    exact isChain_runsOf [] ls
  · rw [hruns]
    refine forall_runsOf hls (fun _ _ hkey => absurd rfl hkey) (fun e _ => ?_) ?_
    · exact ⟨.inl (isCustomKey_key e), (isCustomKey_key e).urlFor_ne_nil⟩
    · intro front rest cps hmatch _
      exact ⟨.inr (isUnicodeKey_key hmatch), (isUnicodeKey_key hmatch).urlFor_ne_nil⟩
  · intro hs r hr
    rw [hruns] at hr
    exact (validUtf8_iff _).mpr (utf8_runsOf hls ((validUtf8_iff s).mp hs) rfl r hr)
  · intro r hr hkey
    exact splitRuns_text hr hkey (htexts r hr)

end Choir.Emoji
