-- SUMMARY: Restoring markup shows the same text as before, and undoes what Discord does to it.
import ChoirOverlay.Ipc.Splitting

/-!
# Restoring custom markup

The harvest holds the tokens of the raw text. The rewritten text is cut at the
tokens put into it, unless some text of the display was a token already.
-/

namespace Choir.Emoji

/-! ## The harvest -/

theorem harvest_skip (markup : Markup) (skip : Nat) (s : Bytes) :
    harvest markup skip s = harvest markup 0 (s.drop skip) := by
  induction s generalizing skip with
  | nil => simp [harvest]
  | cons b s ih =>
    cases skip with
    | zero => rfl
    | succ skip => exact ih skip

/-- The entries of a harvest of tokens, the last one first. -/
def harvested (es : List CustomEmoji) : Markup := (es.map fun e => (e.name, e.markup)).reverse

theorem harvest_flatten (markup : Markup) {ps : List (UInt8 ⊕ CustomEmoji)}
    (h : Cut.Leftmost CustomEmoji.markup ps) :
    harvest markup 0 (Cut.flatten CustomEmoji.markup ps) =
      harvested (Cut.tokens ps) ++ markup := by
  induction ps generalizing markup with
  | nil => rfl
  | cons p ps ih =>
    cases p with
    | inl b =>
      obtain ⟨hstarts, hps⟩ := h
      rw [Cut.flatten_inl, harvest, matchCustom_eq_none.mpr hstarts]
      exact ih markup hps
    | inr e =>
      have hps : Cut.Leftmost CustomEmoji.markup ps := h
      have hmatch := matchCustom_markup e (Cut.flatten CustomEmoji.markup ps)
      rw [Cut.flatten_inr]
      cases hs : e.markup ++ Cut.flatten CustomEmoji.markup ps with
      | nil => cases hs
      | cons b s =>
        obtain ⟨hdrop, htake⟩ := drop_front hs.symm (List.cons_ne_nil _ _)
        rw [hs] at hmatch
        rw [harvest, hmatch]
        dsimp only
        rw [harvest_skip, hdrop, htake, ih _ hps]
        simp [harvested]

theorem harvest_eq (s : Bytes) : ∃ ps, Cut.flatten CustomEmoji.markup ps = s ∧
    Cut.Leftmost CustomEmoji.markup ps ∧ harvest [] 0 s = harvested (Cut.tokens ps) := by
  obtain ⟨ps, rfl, hps⟩ := Cut.exists_leftmost unambiguous_markup s
  exact ⟨ps, rfl, hps, by rw [harvest_flatten [] hps, List.append_nil]⟩

theorem not_occurs_of_harvest {s : Bytes} (h : harvest [] 0 s = []) :
    ¬ Cut.Occurs CustomEmoji.markup s := by
  obtain ⟨ps, rfl, hps, hharvest⟩ := harvest_eq s
  rw [h] at hharvest
  refine hps.not_occurs unambiguous_markup ?_
  simpa [harvested] using hharvest.symm

/-- The markup a harvest holds for a name is that of a token with that name. -/
theorem lookup_harvest {es : List CustomEmoji} {name m : Bytes}
    (h : (harvested es).lookup name = some m) :
    ∃ e ∈ es, e.name = name ∧ e.markup = m := by
  obtain ⟨l₁, l₂, hmem, -⟩ := List.lookup_eq_some_iff.mp h
  have hin : (name, m) ∈ harvested es := by
    rw [hmem]
    simp
  obtain ⟨e, he, heq⟩ := List.mem_map.mp (List.mem_reverse.mp hin)
  obtain ⟨rfl, rfl⟩ := Prod.mk.inj heq
  exact ⟨e, he, rfl, rfl⟩

/-! ## The rewriting -/

theorem rewriteShortcodes_skip (markup : Markup) (skip : Nat) (s : Bytes) :
    rewriteShortcodes markup skip s = rewriteShortcodes markup 0 (s.drop skip) := by
  induction s generalizing skip with
  | nil => simp [rewriteShortcodes]
  | cons b s ih =>
    cases skip with
    | zero => rfl
    | succ skip => exact ih skip

theorem shortcode_nil (s : Bytes) : shortcode [] s = none := by
  cases s with
  | nil => rfl
  | cons b s =>
    unfold shortcode
    dsimp only
    split <;> rfl

theorem rewriteShortcodes_nil (s : Bytes) : rewriteShortcodes [] 0 s = s := by
  induction s with
  | nil => rfl
  | cons b s ih =>
    rw [rewriteShortcodes, shortcode_nil]
    exact congrArg (b :: ·) ih

theorem restoreCustomMarkup_eq (display raw : Bytes) :
    restoreCustomMarkup display raw = rewriteShortcodes (harvest [] 0 raw) 0 display := by
  unfold restoreCustomMarkup
  split
  · rename_i hnil
    rw [hnil, rewriteShortcodes_nil]
  · rfl

/-- A shortcode is read with the markup its name has. -/
theorem shortcode_append (markup : Markup) (e : CustomEmoji) (rest : Bytes) :
    shortcode markup (e.shortcode ++ rest) =
      (markup.lookup e.name).map fun m => (m, e.name.length + 1) := by
  have hs : e.shortcode ++ rest = 0x3A :: (e.name ++ 0x3A :: rest) := by
    simp [CustomEmoji.shortcode]
  obtain ⟨htake, hdrop⟩ := takeWhile_ends e.isNameByte (b := 0x3A) (by decide) rest
  rw [hs, shortcode, htake, hdrop, if_pos ⟨rfl, e.name_ne_nil, rfl⟩]

theorem rewriteShortcodes_shortcode {markup : Markup} {e : CustomEmoji} {m : Bytes}
    (h : markup.lookup e.name = some m) (rest : Bytes) :
    rewriteShortcodes markup 0 (e.shortcode ++ rest) = m ++ rewriteShortcodes markup 0 rest := by
  have hcode := shortcode_append markup e rest
  rw [h, Option.map_some] at hcode
  cases hs : e.shortcode ++ rest with
  | nil => cases hs
  | cons b s =>
    obtain ⟨hdrop, -⟩ := drop_front hs.symm (List.cons_ne_nil _ _)
    have hlen : e.shortcode.length - 1 = e.name.length + 1 := by simp [CustomEmoji.shortcode]
    rw [hlen] at hdrop
    rw [hs] at hcode
    rw [rewriteShortcodes, hcode]
    dsimp only
    rw [rewriteShortcodes_skip, hdrop]

/-- What is read is the shortcode of a token that was harvested. -/
theorem shortcode_of_harvest {es : List CustomEmoji} {s m : Bytes} {n : Nat}
    (h : shortcode (harvested es) s = some (m, n)) :
    ∃ e ∈ es, ∃ rest, s = e.shortcode ++ rest ∧ (harvested es).lookup e.name = some e.markup := by
  cases s with
  | nil => cases h
  | cons b s =>
    rw [shortcode] at h
    obtain ⟨⟨rfl, -, hcolon⟩, hlookup⟩ := Option.ite_none_right_eq_some.mp h
    obtain ⟨m', hm, heq⟩ := Option.map_eq_some_iff.mp hlookup
    obtain ⟨rfl, rfl⟩ := Prod.mk.inj heq
    obtain ⟨e, he, hname, hmarkup⟩ := lookup_harvest hm
    obtain ⟨rest, hrest⟩ := List.head?_eq_some_iff.mp hcolon
    refine ⟨e, he, rest, ?_, by rw [hname, hmarkup, hm]⟩
    rw [CustomEmoji.shortcode, hname, List.cons_append, List.append_assoc, List.singleton_append,
      ← hrest, List.takeWhile_append_dropWhile]

/-- The rewriting replaces shortcodes by markup that was harvested. By induction
on the length of the text. -/
theorem rewriteShortcodes_harvested (es : List CustomEmoji) (s : Bytes) :
    ∃ ps : List (UInt8 ⊕ CustomEmoji),
      CustomEmoji.collapse ps = s ∧
      rewriteShortcodes (harvested es) 0 s = Cut.flatten CustomEmoji.markup ps ∧
      ∀ e ∈ Cut.tokens ps, e ∈ es := by
  cases s with
  | nil => exact ⟨[], rfl, rfl, by simp⟩
  | cons b s =>
    cases hcode : shortcode (harvested es) (b :: s) with
    | none =>
      obtain ⟨ps, hs, hrewrite, hps⟩ := rewriteShortcodes_harvested es s
      refine ⟨.inl b :: ps, congrArg (b :: ·) hs, ?_, hps⟩
      rw [rewriteShortcodes, hcode]
      exact congrArg (b :: ·) hrewrite
    | some r =>
      obtain ⟨e, he, rest, heq, hlookup⟩ := shortcode_of_harvest hcode
      have hlt : rest.length < s.length + 1 := by
        have hlen := congrArg List.length heq
        simp only [List.length_cons, List.length_append, CustomEmoji.shortcode] at hlen
        omega
      obtain ⟨ps, hs, hrewrite, hps⟩ := rewriteShortcodes_harvested es rest
      refine ⟨.inr e :: ps, ?_, ?_, List.forall_mem_cons.mpr ⟨he, hps⟩⟩
      · rw [CustomEmoji.collapse_inr, hs, heq]
      · rw [heq, rewriteShortcodes_shortcode hlookup, hrewrite, Cut.flatten_inr]
termination_by s.length

/-! ## No new tokens -/

/-- Bytes that open no token are text of the cut. -/
theorem eq_map_inl_of_flatten {body rest : Bytes} {ps : List (UInt8 ⊕ CustomEmoji)}
    (hbody : 0x3C ∉ body) (h : Cut.flatten CustomEmoji.markup ps = body ++ rest) :
    ∃ ps', ps = body.map .inl ++ ps' := by
  induction body generalizing ps with
  | nil => exact ⟨ps, rfl⟩
  | cons c body ih =>
    have hc := List.ne_of_not_mem_cons hbody
    cases ps with
    | nil => cases h
    | cons p ps =>
      cases p with
      | inl c' =>
        obtain ⟨rfl, hrest⟩ := List.cons.inj h
        obtain ⟨ps', rfl⟩ := ih (List.not_mem_of_not_mem_cons hbody) hrest
        exact ⟨ps', rfl⟩
      | inr e => exact absurd (List.cons.inj h).1 hc

/-- Where the text shown has no token of its own, the tokens put into it are the
leftmost ones. -/
theorem leftmost_of_not_occurs {ps : List (UInt8 ⊕ CustomEmoji)}
    (h : ¬ Cut.Occurs CustomEmoji.markup (CustomEmoji.collapse ps)) :
    Cut.Leftmost CustomEmoji.markup ps := by
  induction ps with
  | nil => trivial
  | cons p ps ih =>
    cases p with
    | inr e => exact ih fun hoccurs => h (hoccurs.append_left _)
    | inl b =>
      refine ⟨?_, ih fun hoccurs => h (hoccurs.append_left [b])⟩
      rintro ⟨e, rest, heq⟩
      -- The rest of the token would be text of the display.
      obtain ⟨hb, hrest⟩ := List.cons.inj heq
      obtain ⟨ps', rfl⟩ := eq_map_inl_of_flatten (not_mem_markup_tail e) hrest
      refine h (Cut.Starts.occurs ⟨e, CustomEmoji.collapse ps', ?_⟩)
      rw [CustomEmoji.collapse_inl, CustomEmoji.collapse_append, CustomEmoji.collapse_map_inl, hb]
      simp [CustomEmoji.markup]

/-! ## What is shown -/

/-- Restored markup shows what the display text showed, and each custom emoji
stands where its shortcode stood. -/
theorem splitRuns_restoreCustomMarkup (display raw : Bytes)
    (h : ¬ Cut.Occurs CustomEmoji.markup display) :
    (splitRuns (restoreCustomMarkup display raw)).flatMap Run.text = display ∧
    (∃ ps, Cut.flatten CustomEmoji.markup ps = raw ∧ Cut.Leftmost CustomEmoji.markup ps ∧
      ∀ before r after, splitRuns (restoreCustomMarkup display raw) = before ++ r :: after →
        r.isCustom = true → ∃ e ∈ Cut.tokens ps, r = ⟨e.shortcode, e.key⟩ ∧
          display = before.flatMap Run.text ++ e.shortcode ++ after.flatMap Run.text) ∧
    (¬ Cut.Occurs CustomEmoji.markup raw → restoreCustomMarkup display raw = display) := by
  obtain ⟨ps, rfl, hps, hharvest⟩ := harvest_eq raw
  obtain ⟨qs, rfl, hrewrite, hqs⟩ := rewriteShortcodes_harvested (Cut.tokens ps) display
  have hrestore : restoreCustomMarkup (CustomEmoji.collapse qs)
      (Cut.flatten CustomEmoji.markup ps) = Cut.flatten CustomEmoji.markup qs := by
    rw [restoreCustomMarkup_eq, hharvest, hrewrite]
  obtain ⟨htexts, hcustoms⟩ := splitRuns_of_leftmost (leftmost_of_not_occurs h)
  rw [hrestore]
  refine ⟨htexts, ⟨ps, rfl, hps, ?_⟩, fun hraw => ?_⟩
  · intro before r after hruns hr
    rw [hruns] at htexts hcustoms
    have hmem : r ∈ (before ++ r :: after).filter Run.isCustom :=
      List.mem_filter.mpr ⟨by simp, hr⟩
    rw [hcustoms] at hmem
    obtain ⟨e, he, rfl⟩ := List.mem_map.mp hmem
    exact ⟨e, hqs e he, rfl, by rw [← htexts]; simp⟩
  · have hnone : Cut.tokens ps = [] := by
      refine List.eq_nil_iff_forall_not_mem.mpr fun e he => hraw ?_
      exact Cut.occurs_of_mem_tokens he
    rw [← hrewrite, hnone]
    exact rewriteShortcodes_nil _

theorem splitRuns_restored_pog :
    (splitRuns (restoreCustomMarkup (ascii "a<:pog:") (ascii "<a:pog:1>"))).flatMap Run.text =
      ascii "a<:pog:" :=
  (splitRuns_restoreCustomMarkup _ _ (not_occurs_of_harvest (by decide))).1

/-! ## The inverse -/

/-- Every shortcode of a token in the collapsed text is a collapsed token. -/
def OnlyCollapsed (ps : List (UInt8 ⊕ CustomEmoji)) : Prop :=
  ∀ before after, ∀ e ∈ Cut.tokens ps,
    CustomEmoji.collapse ps = before ++ e.shortcode ++ after →
      ∃ ps₁ ps₂, ps = ps₁ ++ .inr e :: ps₂ ∧ CustomEmoji.collapse ps₁ = before ∧
        CustomEmoji.collapse ps₂ = after

/-- The markup of a name that only one token has. -/
theorem lookup_of_same {es : List CustomEmoji}
    (hsame : ∀ e ∈ es, ∀ e' ∈ es, e.name = e'.name → e = e') {e : CustomEmoji} (he : e ∈ es) :
    (harvested es).lookup e.name = some e.markup := by
  cases hm : (harvested es).lookup e.name with
  | none =>
    have hnone := List.lookup_eq_none_iff.mp hm (e.name, e.markup)
      (List.mem_reverse.mpr (List.mem_map.mpr ⟨e, he, rfl⟩))
    simp at hnone
  | some m =>
    obtain ⟨e', he', hname, rfl⟩ := lookup_harvest hm
    rw [hsame e he e' he' hname.symm]

/-- The rewriting from some place of the collapsed text on. -/
theorem rewriteShortcodes_collapse {pre ps : List (UInt8 ⊕ CustomEmoji)}
    (hlookup : ∀ e ∈ Cut.tokens (pre ++ ps),
      (harvested (Cut.tokens (pre ++ ps))).lookup e.name = some e.markup)
    (honly : OnlyCollapsed (pre ++ ps)) :
    rewriteShortcodes (harvested (Cut.tokens (pre ++ ps))) 0 (CustomEmoji.collapse ps) =
      Cut.flatten CustomEmoji.markup ps := by
  induction ps generalizing pre with
  | nil => rfl
  | cons p ps ih =>
    have hmove : pre ++ p :: ps = (pre ++ [p]) ++ ps := by simp
    have hrest := ih (hmove ▸ hlookup) (hmove ▸ honly)
    rw [← hmove] at hrest
    cases p with
    | inr e =>
      have he : e ∈ Cut.tokens (pre ++ .inr e :: ps) := by simp
      rw [CustomEmoji.collapse_inr, rewriteShortcodes_shortcode (hlookup e he), hrest,
        Cut.flatten_inr]
    | inl b =>
      have hcode : shortcode (harvested (Cut.tokens (pre ++ .inl b :: ps)))
          (b :: CustomEmoji.collapse ps) = none := by
        -- A shortcode here would be a collapsed token, and so no byte left over.
        cases hcode : shortcode (harvested (Cut.tokens (pre ++ .inl b :: ps)))
          (b :: CustomEmoji.collapse ps) with
        | none => rfl
        | some r =>
          obtain ⟨e, he, rest, heq, -⟩ := shortcode_of_harvest hcode
          have hall : CustomEmoji.collapse (pre ++ .inl b :: ps) =
              CustomEmoji.collapse pre ++ e.shortcode ++ rest := by
            rw [CustomEmoji.collapse_append, CustomEmoji.collapse_inl, heq, List.append_assoc]
          obtain ⟨ps₁, ps₂, hps, hpre, -⟩ := honly _ _ e he hall
          obtain rfl := CustomEmoji.eq_of_collapse_eq hps hpre.symm
          have hpiece := List.append_cancel_left hps
          cases hpiece
      rw [CustomEmoji.collapse_inl, rewriteShortcodes, hcode, Cut.flatten_inl]
      exact congrArg (b :: ·) hrest

/-- Restoring undoes the collapse of a text where each name has one token and no
other text looks like a shortcode of it. -/
theorem restoreCustomMarkup_collapse {raw display : Bytes} {ps : List (UInt8 ⊕ CustomEmoji)}
    (hraw : Cut.flatten CustomEmoji.markup ps = raw) (hps : Cut.Leftmost CustomEmoji.markup ps)
    (hdisplay : CustomEmoji.collapse ps = display)
    (hsame : ∀ e ∈ Cut.tokens ps, ∀ e' ∈ Cut.tokens ps, e.name = e'.name → e = e')
    (honly : OnlyCollapsed ps) : restoreCustomMarkup display raw = raw := by
  subst hraw hdisplay
  rw [restoreCustomMarkup_eq, harvest_flatten [] hps, List.append_nil]
  exact @rewriteShortcodes_collapse [] ps (fun e he => lookup_of_same hsame he) honly

/-- `<:a:1>`. -/
def emojiA : CustomEmoji where
  animated := false
  name := ascii "a"
  id := ascii "1"
  name_ne_nil := by decide
  isNameByte b hb := by
    obtain rfl : b = 0x61 := List.mem_singleton.mp hb
    decide
  id_ne_nil := by decide
  isDigit b hb := by
    obtain rfl : b = 0x31 := List.mem_singleton.mp hb
    decide

theorem restoreCustomMarkup_collapse_once :
    restoreCustomMarkup (ascii "x:a::") (ascii "x<:a:1>:") = ascii "x<:a:1>:" := by
  refine @restoreCustomMarkup_collapse _ _ [.inl 0x78, .inr emojiA, .inl 0x3A] rfl ?_ rfl ?_ ?_
  · exact ⟨not_starts (by decide) _, not_starts (by decide) _, trivial⟩
  · intro e he e' he' _
    rw [List.mem_singleton.mp he, List.mem_singleton.mp he']
  · intro before after e he h
    obtain rfl := List.mem_singleton.mp he
    rcases before with _ | ⟨b, _ | ⟨b', before⟩⟩
    · cases h
    · obtain ⟨rfl, hrest⟩ := List.cons.inj h
      exact ⟨[.inl 0x78], [.inl 0x3A], rfl, rfl, (List.cons.inj (List.cons.inj
        (List.cons.inj hrest).2).2).2⟩
    · have hlen := congrArg List.length h
      simp [CustomEmoji.shortcode, emojiA, ascii] at hlen
      obtain rfl : before = [] := List.eq_nil_of_length_eq_zero (by omega)
      obtain ⟨-, hrest⟩ := List.cons.inj h
      cases (List.cons.inj hrest).2

end Choir.Emoji
