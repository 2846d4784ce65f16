-- SUMMARY: The markup of a custom emoji as a language, and that `match_custom` reads exactly its words.
import ChoirOverlay.Base.Cut
import ChoirOverlay.Ipc.Emoji
import Mathlib.Data.List.TakeWhile

/-!
# The language of custom emoji

`<a?:name:id>`, where the name is made of letters, digits and underscores and
the id of digits, neither of them empty.
-/

namespace Choir

structure CustomEmoji where
  animated : Bool
  name : Bytes
  id : Bytes
  name_ne_nil : name ≠ []
  isNameByte : ∀ b ∈ name, Emoji.isNameByte b = true
  id_ne_nil : id ≠ []
  isDigit : ∀ b ∈ id, Choir.isDigit b = true

namespace CustomEmoji

/-- `<a?:name:id>`. -/
def markup (e : CustomEmoji) : Bytes :=
  0x3C :: ((if e.animated then [0x61] else []) ++ 0x3A :: (e.name ++ 0x3A :: (e.id ++ [0x3E])))

/-- `:name:`. -/
def shortcode (e : CustomEmoji) : Bytes := 0x3A :: (e.name ++ [0x3A])

/-- `emoji.c.<id>`. -/
def key (e : CustomEmoji) : Bytes := ascii "emoji.c." ++ e.id

/-- A text with each of its tokens collapsed to `:name:`. -/
def collapse (ps : List (UInt8 ⊕ CustomEmoji)) : Bytes := Cut.render (fun b => [b]) shortcode ps

variable {ps ps' : List (UInt8 ⊕ CustomEmoji)}

@[simp] theorem collapse_nil : collapse [] = [] := rfl

@[simp] theorem collapse_inl {b : UInt8} : collapse (.inl b :: ps) = b :: collapse ps := rfl

@[simp] theorem collapse_inr {e : CustomEmoji} :
    collapse (.inr e :: ps) = e.shortcode ++ collapse ps := rfl

@[simp] theorem collapse_append : collapse (ps ++ ps') = collapse ps ++ collapse ps' :=
  Cut.render_append

@[simp] theorem collapse_map_inl {s : Bytes} : collapse (s.map .inl) = s := by
  simp [collapse]

/-- The front of a cut is known by its collapsed text. -/
theorem eq_of_collapse_eq {rest rest' : List (UInt8 ⊕ CustomEmoji)}
    (heq : ps ++ rest = ps' ++ rest') (h : collapse ps = collapse ps') : ps = ps' :=
  Cut.eq_of_render_eq (fun _ => List.cons_ne_nil _ _) (fun _ => List.cons_ne_nil _ _) heq h

end CustomEmoji

namespace Emoji

theorem eat_eq_some {b : UInt8} {s rest : Bytes} : eat b s = some rest ↔ s = b :: rest := by
  cases s with
  | nil => simp [eat]
  | cons c s =>
    rw [eat, Option.ite_none_right_eq_some, Option.some.injEq, List.cons.injEq]

theorem eat_cons (b : UInt8) (rest : Bytes) : eat b (b :: rest) = some rest := eat_eq_some.mpr rfl

/-- The longest front of such elements ends at the first other one. -/
theorem takeWhile_ends {p : UInt8 → Bool} {front : Bytes} (hfront : ∀ c ∈ front, p c = true)
    {b : UInt8} (hb : p b = false) (rest : Bytes) :
    (front ++ b :: rest).takeWhile p = front ∧
      (front ++ b :: rest).dropWhile p = b :: rest := by
  have hb' : ¬ p b = true := by simp [hb]
  rw [List.takeWhile_append_of_pos hfront, List.takeWhile_cons_of_neg hb', List.append_nil,
    List.dropWhile_append_of_pos hfront, List.dropWhile_cons_of_neg hb']
  exact ⟨rfl, rfl⟩

/-- Markup at the front is read, whatever follows. -/
theorem matchCustom_markup (e : CustomEmoji) (rest : Bytes) :
    matchCustom (e.markup ++ rest) = some (e.name, e.id, e.markup.length) := by
  let afterId := 0x3E :: rest
  let afterName := 0x3A :: (e.id ++ afterId)
  let opened := 0x3A :: (e.name ++ afterName)
  have hmarkup : e.markup ++ rest = 0x3C :: ((if e.animated then [0x61] else []) ++ opened) := by
    simp [CustomEmoji.markup, opened, afterName, afterId]
  have hopen : eat 0x3C (e.markup ++ rest) =
      some ((if e.animated then [0x61] else []) ++ opened) := by
    rw [hmarkup, eat_cons]
  have hanimated : (eat 0x61 ((if e.animated then [0x61] else []) ++ opened)).getD
      ((if e.animated then [0x61] else []) ++ opened) = opened := by
    cases e.animated <;> rfl
  obtain ⟨hname, hafterName⟩ := takeWhile_ends e.isNameByte (b := 0x3A) (by decide)
    (e.id ++ afterId)
  obtain ⟨hid, hafterId⟩ := takeWhile_ends e.isDigit (b := 0x3E) (by decide) rest
  have hlen : (e.markup ++ rest).length - rest.length = e.markup.length := by
    rw [List.length_append, Nat.add_sub_cancel]
  unfold matchCustom
  simp only [hopen, hanimated, opened, eat_cons, afterName, hname, hafterName, e.name_ne_nil,
    if_false, afterId, hid, hafterId, e.id_ne_nil, Option.bind_eq_bind, Option.bind_some,
    Option.pure_def, hlen]

/-- What is read is markup. -/
theorem eq_markup_of_matchCustom {s name id : Bytes} {n : Nat}
    (h : matchCustom s = some (name, id, n)) :
    ∃ (e : CustomEmoji) (rest : Bytes), s = e.markup ++ rest ∧ e.name = name ∧ e.id = id ∧
      e.markup.length = n := by
  unfold matchCustom at h
  obtain ⟨q₁, h₁, h⟩ := Option.bind_eq_some_iff.mp h
  obtain ⟨q₂, h₂, h⟩ := Option.bind_eq_some_iff.mp h
  dsimp only at h
  split at h
  · cases h
  rename_i hname
  obtain ⟨q₃, h₃, h⟩ := Option.bind_eq_some_iff.mp h
  split at h
  · cases h
  rename_i hid
  obtain ⟨q₄, h₄, h⟩ := Option.bind_eq_some_iff.mp h
  obtain ⟨rfl, rfl, rfl⟩ : q₂.takeWhile isNameByte = name ∧ q₃.takeWhile isDigit = id ∧
    s.length - q₄.length = n := by simpa using h
  have hq₂ : q₂ = q₂.takeWhile isNameByte ++ 0x3A :: q₃ := by
    rw [← eat_eq_some.mp h₃, List.takeWhile_append_dropWhile]
  have hq₃ : q₃ = q₃.takeWhile isDigit ++ 0x3E :: q₄ := by
    rw [← eat_eq_some.mp h₄, List.takeWhile_append_dropWhile]
  obtain ⟨animated, hq₁⟩ : ∃ animated : Bool,
      q₁ = (if animated then [0x61] else []) ++ 0x3A :: q₂ := by
    rw [eat_eq_some] at h₂
    cases ha : eat 0x61 q₁ with
    | none => exact ⟨false, by rw [← h₂, ha]; rfl⟩
    | some q => exact ⟨true, by rw [eat_eq_some.mp ha, ← h₂, ha]; rfl⟩
  let e : CustomEmoji := ⟨animated, q₂.takeWhile isNameByte, q₃.takeWhile isDigit, hname,
    fun _ hb => List.mem_takeWhile_imp hb, hid, fun _ hb => List.mem_takeWhile_imp hb⟩
  have hs : s = e.markup ++ q₄ := by
    rw [eat_eq_some.mp h₁, hq₁, hq₂, hq₃]
    simp [e, CustomEmoji.markup]
  refine ⟨e, q₄, hs, rfl, rfl, ?_⟩
  rw [hs, List.length_append, Nat.add_sub_cancel]

theorem matchCustom_eq_none {s : Bytes} :
    matchCustom s = none ↔ ¬ Cut.Starts CustomEmoji.markup s := by
  constructor
  · rintro h ⟨e, rest, rfl⟩
    rw [matchCustom_markup] at h
    cases h
  · intro h
    cases hmatch : matchCustom s with
    | none => rfl
    | some r =>
      obtain ⟨e, rest, hs, -⟩ := eq_markup_of_matchCustom hmatch
      exact absurd ⟨e, rest, hs⟩ h

theorem unambiguous_markup : Cut.Unambiguous CustomEmoji.markup where
  ne_nil _ := List.cons_ne_nil _ _
  inj {e e' rest rest'} heq := by
    have hmatch := matchCustom_markup e rest
    rw [heq, matchCustom_markup] at hmatch
    obtain ⟨hname, hid, hlen⟩ : e'.name = e.name ∧ e'.id = e.id ∧
      e'.markup.length = e.markup.length := by simpa using hmatch
    have hanimated : e'.animated = e.animated := by
      simp only [CustomEmoji.markup, List.length_cons, List.length_append, hname, hid] at hlen
      cases ha : e.animated <;> cases ha' : e'.animated <;> simp [ha, ha'] at hlen ⊢
    cases e
    cases e'
    simp only at hname hid hanimated
    subst hname hid hanimated
    rfl

/-- Only the first byte of markup opens one. -/
theorem not_mem_markup_tail (e : CustomEmoji) : 0x3C ∉ e.markup.tail := by
  have hname : 0x3C ∉ e.name := fun h => absurd (e.isNameByte _ h) (by decide)
  have hid : 0x3C ∉ e.id := fun h => absurd (e.isDigit _ h) (by decide)
  cases ha : e.animated <;> simp [CustomEmoji.markup, ha, hname, hid]

end Emoji

end Choir
