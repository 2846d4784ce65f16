-- SUMMARY: The texts of a toast as the overlay lays them out, and the images it looks up for them.
import ChoirOverlay.Base.Firsts
import ChoirOverlay.Machine.Run
import ChoirOverlay.Overlay.Layout
import ChoirOverlay.Overlay.Toasts
import Mathlib.Algebra.Order.Field.Basic
import Mathlib.Tactic.Linarith
import Mathlib.Tactic.NormNum

/-!
# The texts of a toast

Each draw lays out the title and then the body of a toast. An image that is not
loaded yet is asked for under the key of its emoji.
-/

namespace Choir

open Firsts

/-! ## Clients -/

namespace StateClient

/-- A retained image is kept under its own key. -/
def Keyed (c : StateClient) : Prop := ∀ hash req, c.avatarFor hash = some req → req.hash = hash

variable {lib : JsonLib} {c : StateClient}

theorem Keyed.dispatch (h : c.Keyed) (f : Frame) : (c.dispatch lib f).Keyed := by
  unfold StateClient.dispatch
  split
  case h_1 => split <;> exact h
  case h_2 =>
    split
    · split
      · rename_i req _ _
        intro hash req' hreq
        simp only [avatarFor, enqueueAvatar] at hreq
        split at hreq
        · rename_i heq
          obtain rfl := Option.some.inj hreq
          exact heq.symm
        · exact h hash req' hreq
      · exact h
    · exact h
  all_goals exact h

theorem Keyed.takeFrames (h : c.Keyed) (r : FrameReader) : (c.takeFrames lib r).Keyed := by
  have hframes (frames : List Frame) : (frames.foldl (StateClient.dispatch lib) c).Keyed :=
    Machine.run_invariant (fun _ f hc => hc.dispatch f) h frames
  unfold StateClient.takeFrames
  dsimp only
  split
  · exact hframes _
  · exact hframes _

theorem Keyed.step (h : c.Keyed) (e : Event) : (c.step lib e).Keyed := by
  unfold StateClient.step
  split
  · exact h
  · split
    case h_1 => split <;> first | exact h | (split <;> exact h)
    case h_2 =>
      dsimp only
      split
      · exact h.takeFrames _
      · exact h
    all_goals exact h

/-- Whatever a client has met, it keeps the images under their keys. -/
theorem keyed_run (self : ProcSelf) (es : List Event) :
    (Machine.run (step lib) { self } es).Keyed :=
  Machine.run_invariant (fun _ e hc => hc.step e) (fun _ _ h => by cases h) es

end StateClient

/-! ## What a layout asks for -/

section Asked

variable {σ Tex : Type} {textures : IAvatarTextures σ Tex} {client : StateClient}

/-- An image that is not loaded is asked for, and no other is loaded. -/
theorem resolveIcon_unloaded (hclient : client.Keyed) {hash : Bytes} (hhash : hash ≠ []) {s : σ}
    (hs : textures.lookup s hash = none) :
    ∃ tex s', resolveIcon textures client hash s = (tex, s', [hash]) ∧
      ∀ key, (textures.lookup s' key).isSome = true →
        (textures.lookup s key).isSome = true ∨ key = hash := by
  simp only [resolveIcon, if_neg hhash, hs]
  cases hreq : client.avatarFor hash with
  | none => exact ⟨none, s, rfl, fun _ h => .inl h⟩
  | some req =>
    refine ⟨_, _, rfl, fun key hkey => ?_⟩
    rw [← hclient hash req hreq]
    exact textures.lookup_getOrLoad s req key hkey

theorem resolveRuns_append (runs runs' : List Emoji.Run) (s : σ) :
    (resolveRuns textures client (runs ++ runs') s).2.2 =
      (resolveRuns textures client runs s).2.2 ++
        (resolveRuns textures client runs' (resolveRuns textures client runs s).2.1).2.2 := by
  induction runs generalizing s with
  | nil => rfl
  | cons r runs ih =>
    simp only [List.cons_append, resolveRuns, ih, List.append_assoc]

/-- What is asked for first are the keys in the order of the text, as far as they
are new. -/
theorem firsts_asked (hclient : client.Keyed) (runs : List Emoji.Run) (s : σ) (seen : List Bytes)
    (hs : ∀ key ∈ Emoji.emojiKeys runs, (textures.lookup s key).isSome = true → key ∈ seen) :
    firsts seen (resolveRuns textures client runs s).2.2 = firsts seen (Emoji.emojiKeys runs) := by
  induction runs generalizing s seen with
  | nil => rfl
  | cons r runs ih =>
    by_cases hkey : r.key = []
    · rw [Emoji.emojiKeys_cons_text hkey] at hs ⊢
      simp only [resolveRuns, resolveIcon, if_pos hkey, List.nil_append]
      exact ih s seen hs
    rw [Emoji.emojiKeys_cons_emoji hkey] at hs ⊢
    obtain ⟨hfirst, hrest⟩ := List.forall_mem_cons.mp hs
    cases hlookup : textures.lookup s r.key with
    | some tex =>
      simp only [resolveRuns, resolveIcon, if_neg hkey, hlookup, List.nil_append]
      rw [firsts_cons_of_mem (hfirst (by rw [hlookup, Option.isSome_some])), ih s seen hrest]
    | none =>
      obtain ⟨tex, s', hicon, hloaded⟩ := resolveIcon_unloaded hclient hkey hlookup
      simp only [resolveRuns, hicon, List.singleton_append]
      by_cases hmem : r.key ∈ seen
      · rw [firsts_cons_of_mem hmem, firsts_cons_of_mem hmem]
        refine ih s' seen fun key hin hsome => ?_
        rcases hloaded key hsome with hbefore | rfl
        · exact hrest key hin hbefore
        · exact hmem
      · rw [firsts_cons_of_not_mem hmem, firsts_cons_of_not_mem hmem]
        refine congrArg _ (ih s' (r.key :: seen) fun key hin hsome => ?_)
        rcases hloaded key hsome with hbefore | rfl
        · exact List.mem_cons_of_mem _ (hrest key hin hbefore)
        · exact List.mem_cons_self

end Asked

/-! ## A toast -/

/-- `kToastBodyLines` -/
def kToastBodyLines : Int := 2

namespace ToastView

variable {α : Type} [NatCast α] [Add α] [Sub α] [Mul α] [Div α] [LT α] [DecidableLT α]
  (v : ToastView α)

/-- The width of the texts of a toast. -/
def textWidth (cfg : AppearanceConfig) (n : Notification) : α :=
  let s := v.scale cfg
  let pad := const 1400 * s
  let icon := const 4000 * s
  let hasIcon := !n.iconHash.isEmpty
  let textX := pad + if hasIcon then icon + const 1200 * s else const 0
  v.cardWidth cfg - textX - pad

def titleBlock (cfg : AppearanceConfig) (n : Notification) : TextBlock α where
  size := v.fontSize * const 120
  lineAdvance := v.fontSize * const 120
  wrapWidth := v.textWidth cfg n
  maxLines := 1

def bodyBlock (cfg : AppearanceConfig) (n : Notification) : TextBlock α where
  size := v.fontSize
  lineAdvance := v.lineHeight
  wrapWidth := v.textWidth cfg n
  maxLines := kToastBodyLines

variable [LE α] [DecidableLE α] [Std.Irrefl (fun a b : α => a < b)] {σ Tex : Type}

/-- What `avatar_for` is asked for while the title and then the body are laid
out. -/
def asked (font : Font α) (textures : IAvatarTextures σ Tex) (client : StateClient)
    (cfg : AppearanceConfig) (n : Notification) (s : σ) : List Bytes :=
  let title := layoutRuns font (v.titleBlock cfg n) textures client n.title s
  let body := layoutRuns font (v.bodyBlock cfg n) textures client n.body title.textures
  title.asked ++ body.asked

variable {v}

omit [Div α] in
/-- Past the guard every image of the text is resolved. -/
theorem layoutRuns_asked (font : Font α) (b : TextBlock α) (textures : IAvatarTextures σ Tex)
    (client : StateClient) (text : Bytes) (s : σ) (hwrap : ¬ b.wrapWidth ≤ ((1 : Nat) : α))
    (hlines : 0 < b.maxLines) :
    (layoutRuns font b textures client text s).asked =
        (resolveRuns textures client (Emoji.splitRuns text) s).2.2 ∧
      (layoutRuns font b textures client text s).textures =
        (resolveRuns textures client (Emoji.splitRuns text) s).2.1 := by
  rw [layoutRuns]
  split
  · rename_i hguard
    have htext : text = [] := hguard.resolve_right (by simp [hwrap, hlines])
    rw [htext]
    exact ⟨rfl, rfl⟩
  · exact ⟨rfl, rfl⟩

/-- While none of a toast's images is loaded, the keys that are asked for are
those of its title and its body. -/
theorem asked_eraseDups (font : Font α) (textures : IAvatarTextures σ Tex) {client : StateClient}
    (hclient : client.Keyed) (cfg : AppearanceConfig) (n : Notification) (s : σ)
    (hwide : ¬ v.textWidth cfg n ≤ ((1 : Nat) : α))
    (hs : ∀ key ∈ Emoji.emojiKeys ([n.title, n.body].flatMap Emoji.splitRuns),
      textures.lookup s key = none) :
    (v.asked font textures client cfg n s).eraseDups =
      (Emoji.emojiKeys ([n.title, n.body].flatMap Emoji.splitRuns)).eraseDups := by
  obtain ⟨htitle, hloaded⟩ := layoutRuns_asked font (v.titleBlock cfg n) textures client n.title s
    hwide Int.zero_lt_one
  have hbody := (layoutRuns_asked font (v.bodyBlock cfg n) textures client n.body
    (resolveRuns textures client (Emoji.splitRuns n.title) s).2.1 hwide
    (by decide : 0 < kToastBodyLines)).1
  have hall : v.asked font textures client cfg n s =
      (resolveRuns textures client ([n.title, n.body].flatMap Emoji.splitRuns) s).2.2 := by
    have hruns : [n.title, n.body].flatMap Emoji.splitRuns =
        Emoji.splitRuns n.title ++ Emoji.splitRuns n.body := by simp
    simp only [asked, htitle, hloaded, hbody, hruns, resolveRuns_append]
  rw [hall, ← firsts_of_nothing_seen, ← firsts_of_nothing_seen]
  refine firsts_asked hclient _ s [] fun key hkey hsome => ?_
  rw [hs key hkey] at hsome
  cases hsome

end ToastView

/-! ## The width of a toast -/

namespace ToastView

/-- In exact arithmetic the texts of a toast are wider than the guard asks for. -/
theorem one_lt_textWidth {α : Type} [Field α] [LinearOrder α] [IsStrictOrderedRing α]
    (v : ToastView α) (cfg : AppearanceConfig) (n : Notification) :
    ¬ v.textWidth cfg n ≤ ((1 : Nat) : α) := by
  have hscale : 1 / 20 < v.scale cfg := by
    rw [scale]
    split_ifs with hlarge
    · refine lt_of_eq_of_lt ?_ hlarge
      norm_num [const]
    · norm_num [const]
  rw [not_le]
  simp only [textWidth, cardWidth, const]
  push_cast
  split_ifs <;> linarith

end ToastView

end Choir
