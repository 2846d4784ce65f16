-- SUMMARY: How the overlay lays a text with emoji out into lines, and what of it is placed.
import ChoirOverlay.Ipc.Runs
import ChoirOverlay.Overlay.StateClient
import Mathlib.Data.List.DropRight

/-!
# Laying a text out

Coordinates are any type with the operations of `float`; of them it is only
assumed that nothing is below itself. What ImGui measures is a parameter.
-/

namespace Choir

/-! ## Textures -/

/-- `IAvatarTextures`; `none` is `ImTextureID_Invalid`. -/
structure IAvatarTextures (σ Tex : Type) where
  lookup : σ → Bytes → Option Tex
  getOrLoad : σ → AvatarReq → σ × Option Tex
  /-- Only what is asked for is loaded. -/
  lookup_getOrLoad : ∀ s req hash, (lookup (getOrLoad s req).1 hash).isSome →
    (lookup s hash).isSome ∨ hash = req.hash

section Resolve

variable {σ Tex : Type} (textures : IAvatarTextures σ Tex) (client : StateClient)

/-- `resolve_icon`: the texture, the textures after it, and what `avatar_for` was
asked for. -/
def resolveIcon (hash : Bytes) (s : σ) : Option Tex × σ × List Bytes :=
  if hash = [] then (none, s, [])
  else
    match textures.lookup s hash with
    | some tex => (some tex, s, [])
    | none =>
      match client.avatarFor hash with
      | some req =>
        let (s, tex) := textures.getOrLoad s req
        (tex, s, [hash])
      | none => (none, s, [hash])

/-- The runs with the textures their emoji resolve to. A text run has an empty
key. -/
def resolveRuns : List Emoji.Run → σ → List (Emoji.Run × Option Tex) × σ × List Bytes
  | [], s => ([], s, [])
  | r :: rs, s =>
    let (tex, s, asked) := resolveIcon textures client r.key s
    let (rest, s, asked') := resolveRuns rs s
    ((r, tex) :: rest, s, asked ++ asked')

theorem resolveRuns_fst (runs : List Emoji.Run) (s : σ) :
    (resolveRuns textures client runs s).1.map Prod.fst = runs := by
  induction runs generalizing s with
  | nil => rfl
  | cons r rs ih =>
    rw [resolveRuns, List.map_cons, ih]

end Resolve

/-! ## Items -/

/-- A piece of text, or an emoji that resolved. -/
structure LayoutItem (Tex : Type) where
  text : Bytes
  tex : Option Tex

/-- An emoji that did not resolve joins the text before it. -/
def pushItem {Tex : Type} (items : List (LayoutItem Tex)) : Emoji.Run × Option Tex →
    List (LayoutItem Tex)
  | (_, some tex) => items ++ [⟨[], some tex⟩]
  | (r, none) =>
    match items.getLast? with
    | some ⟨back, none⟩ => items.dropLast ++ [⟨back ++ r.text, none⟩]
    | _ => items ++ [⟨r.text, none⟩]

def layoutItems {Tex : Type} (runs : List (Emoji.Run × Option Tex)) : List (LayoutItem Tex) :=
  runs.foldl pushItem []

/-! ## Lines -/

/-- What ImGui measures. Texts are given as bytes, and positions in them count
bytes. -/
structure Font (α : Type) where
  /-- `CalcWordWrapPosition` -/
  wordWrap : α → Bytes → α → Nat
  /-- The width of `CalcTextSizeA` without a wrap. -/
  textWidth : α → Bytes → α
  wordWrap_le : ∀ size text width, wordWrap size text width ≤ text.length

/-- The block a text is laid out in. -/
structure TextBlock (α : Type) where
  size : α
  lineAdvance : α
  wrapWidth : α
  maxLines : Int

structure PlacedRun (α Tex : Type) where
  x : α
  y : α
  text : Bytes
  tex : Option Tex

/-- The locals of `layout_runs`. -/
structure Cursor (α Tex : Type) where
  line : Nat := 0
  x : α
  out : List (PlacedRun α Tex) := []
  overflow : Bool := false

def skipSpaces (text : Bytes) : Bytes := text.dropWhile (· == 0x20)

/-- One whole code point, never mid-sequence. -/
def codepointLength (text : Bytes) : Nat :=
  1 + ((text.drop 1).takeWhile fun b => 0x80 ≤ b && b ≤ 0xBF).length

/-- A text up to the NUL that ends it for C. -/
def cStr (text : Bytes) : Bytes := text.takeWhile (· ≠ 0)

section Lines

variable {α Tex : Type} [NatCast α] [Add α] [Sub α] [Mul α] [LT α] [DecidableLT α] [LE α]
  [DecidableLE α] (font : Font α) (b : TextBlock α)

/-- The box of an emoji. -/
def placeBox (tex : Tex) (st : Cursor α Tex) : Cursor α Tex :=
  let put (st : Cursor α Tex) : Cursor α Tex :=
    { st with
      out := st.out ++ [⟨st.x, st.line * b.lineAdvance, [], some tex⟩]
      x := st.x + b.size }
  if b.wrapWidth < st.x + b.size ∧ ((0 : Nat) : α) < st.x then
    if b.maxLines ≤ st.line + 1 then { st with overflow := true }
    else put { st with line := st.line + 1, x := (0 : Nat) }
  else put st

/-- The first `n` bytes of a text on the line. -/
def putText (n : Nat) (text : Bytes) (st : Cursor α Tex) : Cursor α Tex :=
  { st with
    out := st.out ++ [⟨st.x, st.line * b.lineAdvance, text.take n, none⟩]
    x := st.x + font.textWidth b.size (text.take n) }

theorem length_skipSpaces_le (text : Bytes) : (skipSpaces text).length ≤ text.length :=
  (List.dropWhile_suffix _).length_le

theorem codepointLength_pos (text : Bytes) : 0 < codepointLength text := by
  unfold codepointLength
  omega

theorem length_skipSpaces_drop_lt {text : Bytes} (htext : text ≠ []) {n : Nat} (hn : 0 < n) :
    (skipSpaces (text.drop n)).length < text.length := by
  have hle := length_skipSpaces_le (text.drop n)
  have hpos := List.length_pos_iff.mpr htext
  rw [List.length_drop] at hle
  omega

/-- The loop over the text of an item. -/
def placeText [Std.Irrefl (fun a b : α => a < b)] (text : Bytes) (st : Cursor α Tex) :
    Cursor α Tex :=
  if text = [] then st
  else
    let fit := font.wordWrap b.size text (b.wrapWidth - st.x)
    if fit = 0 ∧ ((0 : Nat) : α) < st.x then
      -- Nothing fits mid-line: wrap and try again.
      if b.maxLines ≤ st.line + 1 then { st with overflow := true }
      else placeText (skipSpaces text) { st with line := st.line + 1, x := (0 : Nat) }
    else
      let fit := if fit = 0 then codepointLength text else fit
      let placed := putText font b fit text st
      let rest := skipSpaces (text.drop fit)
      if rest = [] then placed
      else if b.maxLines ≤ placed.line + 1 then { placed with overflow := true }
      else placeText rest { placed with line := placed.line + 1, x := (0 : Nat) }
termination_by (text.length, if ((0 : Nat) : α) < st.x then 1 else 0)
decreasing_by
  · -- The cursor is back at the start of a line.
    rename_i hfit _
    have hzero : ¬ ((0 : Nat) : α) < ((0 : Nat) : α) :=
      Std.Irrefl.irrefl (r := fun a b : α => a < b) _
    rw [if_pos hfit.2, if_neg hzero]
    exact Prod.Lex.right' _ (length_skipSpaces_le text) Nat.zero_lt_one
  · refine Prod.Lex.left _ _ (length_skipSpaces_drop_lt ‹_› ?_)
    split
    · exact codepointLength_pos text
    · exact Nat.pos_of_ne_zero ‹_›

variable [Std.Irrefl (fun a b : α => a < b)]

def placeItem (item : LayoutItem Tex) (st : Cursor α Tex) : Cursor α Tex :=
  match item.tex with
  | some tex => placeBox b tex st
  | none => placeText font b item.text st

/-- The loop over the items, up to the one that runs out of lines. -/
def placeItems : List (LayoutItem Tex) → Cursor α Tex → Cursor α Tex
  | [], st => st
  | item :: items, st =>
    if st.overflow then st else placeItems items (placeItem font b item st)

/-! ## The ellipsis -/

/-- The last line cut down until the ellipsis fits, the last run first. -/
def shrinkTail (ell lastY : α) : α → List (PlacedRun α Tex) → α × List (PlacedRun α Tex)
  | x, [] => (x, [])
  | x, last :: before =>
    if lastY ≤ last.y ∧ b.wrapWidth < x + ell then
      if last.tex.isSome then shrinkTail ell lastY last.x before
      else
        let avail := b.wrapWidth - ell - last.x
        let cut := if ((0 : Nat) : α) < avail then font.wordWrap b.size last.text avail else 0
        if cut = 0 then shrinkTail ell lastY last.x before
        else
          let text := (last.text.take cut).rdropWhile (· == 0x20)
          (last.x + font.textWidth b.size (cStr text), { last with text } :: before)
    else (x, last :: before)

/-- What is placed when lines ran out: what fits, and the ellipsis behind it. -/
def ellipsize (st : Cursor α Tex) : List (PlacedRun α Tex) :=
  let ell := font.textWidth b.size (ascii "...")
  let lastY : α := st.line * b.lineAdvance
  let (x, kept) := shrinkTail font b ell lastY st.x st.out.reverse
  kept.reverse ++ [⟨x, lastY, ascii "...", none⟩]

/-- What a layout comes to. -/
structure Laid (α Tex σ : Type) where
  lines : Nat
  out : List (PlacedRun α Tex)
  /-- An ellipsis was appended. -/
  ellipsis : Bool
  textures : σ
  /-- What `avatar_for` was asked for. -/
  asked : List Bytes

/-- `layout_runs`. -/
def layoutRuns {σ : Type} (textures : IAvatarTextures σ Tex) (client : StateClient)
    (text : Bytes) (s : σ) : Laid α Tex σ :=
  if text = [] ∨ b.wrapWidth ≤ ((1 : Nat) : α) ∨ b.maxLines ≤ 0 then
    { lines := 0, out := [], ellipsis := false, textures := s, asked := [] }
  else
    let (runs, s, asked) := resolveRuns textures client (Emoji.splitRuns text) s
    let st := placeItems font b (layoutItems runs) { x := (0 : Nat) }
    { lines := st.line + 1
      out := if st.overflow then ellipsize font b st else st.out
      ellipsis := st.overflow
      textures := s
      asked }

end Lines

/-! ## What is placed -/

/-- What is to be seen of a text or a box: bytes other than spaces, and textures. -/
def shown {Tex : Type} (text : Bytes) : Option Tex → List (UInt8 ⊕ Tex)
  | some tex => [.inr tex]
  | none => (text.filter (· != 0x20)).map .inl

def LayoutItem.shown {Tex : Type} (item : LayoutItem Tex) : List (UInt8 ⊕ Tex) :=
  Choir.shown item.text item.tex

def PlacedRun.shown {α Tex : Type} (r : PlacedRun α Tex) : List (UInt8 ⊕ Tex) :=
  Choir.shown r.text r.tex

theorem shown_append {Tex : Type} (text text' : Bytes) :
    shown (text ++ text') (none : Option Tex) = shown text none ++ shown text' none := by
  simp [shown]

theorem shown_nil {Tex : Type} : shown [] (none : Option Tex) = [] := rfl

/-- Another run is seen behind the items. -/
theorem shown_pushItem {Tex : Type} (items : List (LayoutItem Tex)) (x : Emoji.Run × Option Tex) :
    (pushItem items x).flatMap LayoutItem.shown =
      items.flatMap LayoutItem.shown ++ shown x.1.text x.2 := by
  obtain ⟨r, tex⟩ := x
  cases tex with
  | some tex =>
    rw [pushItem, List.flatMap_append, List.flatMap_singleton]
    rfl
  | none =>
    rw [pushItem]
    split
    · rename_i back hlast
      obtain ⟨front, rfl⟩ := List.getLast?_eq_some_iff.mp hlast
      rw [List.dropLast_concat, List.flatMap_append, List.flatMap_append, List.flatMap_singleton,
        List.flatMap_singleton, List.append_assoc]
      exact congrArg _ (shown_append back r.text)
    · rw [List.flatMap_append, List.flatMap_singleton]
      rfl

/-- The items show the runs: the text of one that did not resolve, and the texture of another. -/
theorem shown_layoutItems {Tex : Type} (runs : List (Emoji.Run × Option Tex)) :
    (layoutItems runs).flatMap LayoutItem.shown = runs.flatMap fun x => shown x.1.text x.2 := by
  have hfold (items : List (LayoutItem Tex)) :
      (runs.foldl pushItem items).flatMap LayoutItem.shown =
        items.flatMap LayoutItem.shown ++ runs.flatMap fun x => shown x.1.text x.2 := by
    induction runs generalizing items with
    | nil => exact (List.append_nil _).symm
    | cons x runs ih =>
      rw [List.foldl_cons, ih, shown_pushItem, List.flatMap_cons, List.append_assoc]
  exact hfold []

/-- Spaces are not seen. -/
theorem shown_spaces {Tex : Type} {text : Bytes} (h : ∀ c ∈ text, (c == 0x20) = true) :
    shown text (none : Option Tex) = [] := by
  rw [shown, List.filter_eq_nil_iff.mpr fun c hc => by simp [beq_iff_eq.mp (h c hc)]]
  rfl

theorem shown_skipSpaces {Tex : Type} (text : Bytes) :
    shown (skipSpaces text) (none : Option Tex) = shown text none := by
  have hspaces : shown (text.takeWhile (· == 0x20)) (none : Option Tex) = [] :=
    shown_spaces fun c hc => List.mem_takeWhile_imp (p := (· == 0x20)) hc
  have hsplit := @shown_append Tex (text.takeWhile (· == 0x20)) (skipSpaces text)
  rw [hspaces, List.nil_append] at hsplit
  rw [← hsplit, skipSpaces, List.takeWhile_append_dropWhile]

theorem shown_rdropWhile {Tex : Type} (text : Bytes) :
    shown (text.rdropWhile (· == 0x20)) (none : Option Tex) = shown text none := by
  have hspaces : shown (text.rtakeWhile (· == 0x20)) (none : Option Tex) = [] :=
    shown_spaces fun c hc => List.mem_rtakeWhile_imp (p := (· == 0x20)) hc
  have hsplit := @shown_append Tex (text.rdropWhile (· == 0x20)) (text.rtakeWhile (· == 0x20))
  rw [hspaces, List.append_nil, List.rdropWhile_append_rtakeWhile] at hsplit
  exact hsplit.symm

section Placed

variable {α Tex : Type} [NatCast α] [Mul α] {b : TextBlock α} {st : Cursor α Tex}
  {cs : List (UInt8 ⊕ Tex)}

/-- The cursor has come to what is shown: it stands on one of the lines, as do
the runs, which are the front of it, and all of it while there are lines. -/
structure Placed (b : TextBlock α) (st : Cursor α Tex) (cs : List (UInt8 ⊕ Tex)) : Prop where
  line : (st.line : Int) + 1 ≤ b.maxLines
  onLine : ∀ r ∈ st.out, ∃ k ≤ st.line, r.y = k * b.lineAdvance
  front : st.out.flatMap PlacedRun.shown <+: cs
  all : st.overflow = false → st.out.flatMap PlacedRun.shown = cs

/-- Nothing more is placed when the lines have run out. -/
theorem Placed.overflow (h : Placed b st cs) (rest : List (UInt8 ⊕ Tex)) :
    Placed b { st with overflow := true } (cs ++ rest) where
  line := h.line
  onLine := h.onLine
  front := h.front.trans (List.prefix_append cs rest)
  all hst := absurd hst Bool.noConfusion

theorem Placed.newLine (h : Placed b st cs) (hlines : ¬ b.maxLines ≤ st.line + 1) (x : α) :
    Placed b { st with line := st.line + 1, x } cs where
  line := by
    push_cast
    omega
  onLine r hr := by
    obtain ⟨k, hk, hy⟩ := h.onLine r hr
    exact ⟨k, Nat.le_succ_of_le hk, hy⟩
  front := h.front
  all := h.all

/-- A run on the cursor's line. -/
theorem Placed.put (h : Placed b st cs) (hst : st.overflow = false) {r : PlacedRun α Tex}
    (hr : r.y = st.line * b.lineAdvance) (x : α) :
    Placed b { st with out := st.out ++ [r], x } (cs ++ r.shown) := by
  have hall : (st.out ++ [r]).flatMap PlacedRun.shown = cs ++ r.shown := by
    rw [List.flatMap_append, h.all hst, List.flatMap_singleton]
  refine ⟨h.line, fun r' hr' => ?_, hall ▸ List.prefix_rfl, fun _ => hall⟩
  rcases List.mem_append.mp hr' with hr' | hr'
  · exact h.onLine r' hr'
  · obtain rfl := List.mem_singleton.mp hr'
    exact ⟨st.line, le_rfl, hr⟩

variable [Add α] {font : Font α}

theorem Placed.putText (h : Placed b st cs) (hst : st.overflow = false) (n : Nat) (text : Bytes) :
    Placed b (putText font b n text st) (cs ++ shown (text.take n) none) := h.put hst rfl _

variable [LT α] [DecidableLT α]

theorem Placed.placeBox (h : Placed b st cs) (hst : st.overflow = false) (tex : Tex) :
    Placed b (placeBox b tex st) (cs ++ shown [] (some tex)) := by
  unfold Choir.placeBox
  dsimp only
  split
  · split
    · exact h.overflow _
    · rename_i hlines
      exact (h.newLine hlines (0 : Nat)).put hst rfl _
  · exact h.put hst rfl _

variable [Sub α] [Std.Irrefl (fun a b : α => a < b)]

/-- What is placed of a text and what is left of it. -/
theorem shown_split (n : Nat) (text : Bytes) : shown text (none : Option Tex) =
    shown (text.take n) none ++ shown (skipSpaces (text.drop n)) none := by
  rw [shown_skipSpaces, ← shown_append, List.take_append_drop]

/-- The loop over a text, by its own recursion. -/
theorem Placed.placeText {text : Bytes} (h : Placed b st cs) (hst : st.overflow = false) :
    Placed b (placeText font b text st) (cs ++ shown text none) := by
  fun_induction Choir.placeText font b text st generalizing cs
  case case1 st =>
    rw [shown_nil, List.append_nil]
    exact h
  case case2 => exact h.overflow _
  case case3 hlines ih =>
    rw [← shown_skipSpaces]
    exact ih (h.newLine hlines _) hst
  case case4 text st _ measured _ fit placed rest hrest =>
    have hspaces : skipSpaces (text.drop fit) = [] := hrest
    rw [shown_split fit text, hspaces, shown_nil, List.append_nil]
    exact h.putText hst fit text
  case case5 text st _ measured _ fit placed rest _ hlines =>
    rw [shown_split fit text, ← List.append_assoc]
    exact (h.putText hst fit text).overflow _
  case case6 text st _ measured _ fit placed rest _ hlines ih =>
    rw [shown_split fit text, ← List.append_assoc]
    exact ih ((h.putText hst fit text).newLine hlines _) hst

/-- The loop over the items. -/
theorem Placed.placeItems (font : Font α) (items : List (LayoutItem Tex)) (h : Placed b st cs) :
    Placed b (placeItems font b items st) (cs ++ items.flatMap LayoutItem.shown) := by
  induction items generalizing st cs with
  | nil =>
    rw [List.flatMap_nil, List.append_nil]
    exact h
  | cons item items ih =>
    rw [Choir.placeItems]
    split
    · rename_i hover
      have hout := h.overflow ((item :: items).flatMap LayoutItem.shown)
      rwa [← hover] at hout
    · rename_i hover
      rw [Bool.not_eq_true] at hover
      rw [List.flatMap_cons, ← List.append_assoc]
      refine ih ?_
      unfold placeItem
      have hshown : item.shown = shown item.text item.tex := rfl
      cases htex : item.tex with
      | some tex =>
        rw [hshown, htex]
        exact h.placeBox hover tex
      | none =>
        rw [hshown, htex]
        exact h.placeText hover

omit [Mul α] [Std.Irrefl fun a b : α => a < b] in
/-- What is left of the runs on the last line is the front of it. -/
theorem shrinkTail_front [LE α] [DecidableLE α] (font : Font α) (b : TextBlock α) (ell lastY x : α)
    (rev : List (PlacedRun α Tex)) :
    (shrinkTail font b ell lastY x rev).2.reverse.flatMap PlacedRun.shown <+:
        rev.reverse.flatMap PlacedRun.shown ∧
      ∀ r ∈ (shrinkTail font b ell lastY x rev).2, ∃ r' ∈ rev, r.y = r'.y := by
  induction rev generalizing x with
  | nil => exact ⟨List.prefix_rfl, by simp [shrinkTail]⟩
  | cons last before ih =>
    have hdropped (x : α) : (shrinkTail font b ell lastY x before).2.reverse.flatMap
        PlacedRun.shown <+: (last :: before).reverse.flatMap PlacedRun.shown ∧
          ∀ r ∈ (shrinkTail font b ell lastY x before).2, ∃ r' ∈ last :: before, r.y = r'.y := by
      obtain ⟨hfront, hline⟩ := ih x
      rw [List.reverse_cons, List.flatMap_append]
      refine ⟨hfront.trans (List.prefix_append _ _), fun r hr => ?_⟩
      obtain ⟨r', hr', hy⟩ := hline r hr
      exact ⟨r', List.mem_cons_of_mem last hr', hy⟩
    rw [shrinkTail]
    split
    · split
      · exact hdropped _
      · rename_i htex
        rw [Bool.not_eq_true, Option.isSome_eq_false_iff, Option.isNone_iff_eq_none] at htex
        dsimp only
        generalize (if ((0 : Nat) : α) < b.wrapWidth - ell - last.x then
          font.wordWrap b.size last.text (b.wrapWidth - ell - last.x) else 0) = cut
        split
        · exact hdropped _
        · refine ⟨?_, List.forall_mem_cons.mpr ⟨⟨last, List.mem_cons_self, rfl⟩, fun r hr => ?_⟩⟩
          · rw [List.reverse_cons, List.reverse_cons, List.flatMap_append, List.flatMap_append,
              List.flatMap_singleton, List.flatMap_singleton]
            refine (List.prefix_append_right_inj _).mpr ?_
            have hsplit := @shown_append Tex (last.text.take cut) (last.text.drop cut)
            rw [List.take_append_drop] at hsplit
            rw [PlacedRun.shown, PlacedRun.shown, htex, shown_rdropWhile, hsplit]
            exact List.prefix_append _ _
          · exact ⟨r, List.mem_cons_of_mem last hr, rfl⟩
    · exact ⟨List.prefix_rfl, fun r hr => ⟨r, hr, rfl⟩⟩

omit [Std.Irrefl fun a b : α => a < b] in
/-- An ellipsis comes last, behind a front of what the lines hold. -/
theorem Placed.ellipsize [LE α] [DecidableLE α] (font : Font α) (h : Placed b st cs) :
    ∃ before x, ellipsize font b st = before ++ [⟨x, st.line * b.lineAdvance, ascii "...", none⟩] ∧
      before.flatMap PlacedRun.shown <+: cs ∧
      ∀ r ∈ before, ∃ k ≤ st.line, r.y = k * b.lineAdvance := by
  obtain ⟨hfront, hline⟩ := shrinkTail_front font b
    (font.textWidth b.size (ascii "...")) (st.line * b.lineAdvance) st.x st.out.reverse
  rw [List.reverse_reverse] at hfront
  refine ⟨_, _, rfl, hfront.trans h.front, fun r hr => ?_⟩
  obtain ⟨r', hr', hy⟩ := hline r (List.mem_reverse.mp hr)
  obtain ⟨k, hk, hky⟩ := h.onLine r' (List.mem_reverse.mp hr')
  exact ⟨k, hk, hy.trans hky⟩

end Placed

section Laid

variable {α Tex σ : Type} [NatCast α] [Add α] [Sub α] [Mul α] [LT α] [DecidableLT α] [LE α]
  [DecidableLE α] [Std.Irrefl (fun a b : α => a < b)]

/-- The items of a text. -/
def itemsOf (textures : IAvatarTextures σ Tex) (client : StateClient) (text : Bytes) (s : σ) :
    List (LayoutItem Tex) :=
  layoutItems (resolveRuns textures client (Emoji.splitRuns text) s).1

/-- What a layout places. Behind the guard every run stands on one of the lines,
of which there are no more than allowed; without an ellipsis all of the items is
placed, and an ellipsis comes behind a front of it. The guard places nothing. The items are
the runs of the text. -/
theorem layoutRuns_placed (font : Font α) (b : TextBlock α) (textures : IAvatarTextures σ Tex)
    (client : StateClient) (text : Bytes) (s : σ) :
    (b.wrapWidth ≤ ((1 : Nat) : α) ∨ b.maxLines ≤ 0 →
      (layoutRuns font b textures client text s).lines = 0 ∧
        (layoutRuns font b textures client text s).out = []) ∧
    (¬ b.wrapWidth ≤ ((1 : Nat) : α) → 0 < b.maxLines →
      ((layoutRuns font b textures client text s).lines : Int) ≤ b.maxLines ∧
      (∀ r ∈ (layoutRuns font b textures client text s).out,
        ∃ k < (layoutRuns font b textures client text s).lines, r.y = k * b.lineAdvance) ∧
      ((layoutRuns font b textures client text s).ellipsis = false →
        (layoutRuns font b textures client text s).out.flatMap PlacedRun.shown =
          (itemsOf textures client text s).flatMap LayoutItem.shown) ∧
      ((layoutRuns font b textures client text s).ellipsis = true →
        ∃ before x y, (layoutRuns font b textures client text s).out =
            before ++ [⟨x, y, ascii "...", none⟩] ∧
          before.flatMap PlacedRun.shown <+:
            (itemsOf textures client text s).flatMap LayoutItem.shown)) ∧
    (itemsOf textures client text s).flatMap LayoutItem.shown =
      ((resolveRuns textures client (Emoji.splitRuns text) s).1.flatMap fun x =>
        shown x.1.text x.2) ∧
    (resolveRuns textures client (Emoji.splitRuns text) s).1.map Prod.fst =
      Emoji.splitRuns text := by
  refine ⟨fun hguard => ?_, fun hwrap hlines => ?_, shown_layoutItems _, resolveRuns_fst ..⟩
  · rw [layoutRuns, if_pos (.inr hguard)]
    exact ⟨rfl, rfl⟩
  · by_cases htext : text = []
    · -- No text: no runs and no items.
      have hitems : itemsOf textures client text s = [] := by
        rw [htext]
        rfl
      rw [layoutRuns, if_pos (.inl htext), hitems]
      exact ⟨hlines.le, by simp, fun _ => rfl, by simp⟩
    · have hguard : ¬ (text = [] ∨ b.wrapWidth ≤ ((1 : Nat) : α) ∨ b.maxLines ≤ 0) := by
        simp [htext, hwrap, hlines]
      rw [layoutRuns, if_neg hguard]
      dsimp only
      have hstart : Placed b ({ x := ((0 : Nat) : α) } : Cursor α Tex) [] := by
        refine ⟨?_, by simp, List.prefix_rfl, fun _ => rfl⟩
        change ((0 : Nat) : Int) + 1 ≤ b.maxLines
        omega
      have hplaced := hstart.placeItems font (itemsOf textures client text s)
      rw [List.nil_append] at hplaced
      have hitems : layoutItems (resolveRuns textures client (Emoji.splitRuns text) s).1 =
          itemsOf textures client text s := rfl
      rw [hitems]
      generalize placeItems font b (itemsOf textures client text s) { x := ((0 : Nat) : α) } = st
        at hplaced
      have hmore {k : Nat} (hk : k ≤ st.line) : k < st.line + 1 := Nat.lt_succ_of_le hk
      cases hover : st.overflow with
      | false =>
        refine ⟨by exact_mod_cast hplaced.line, fun r hr => ?_, fun _ => hplaced.all hover, by simp⟩
        obtain ⟨k, hk, hy⟩ := hplaced.onLine r hr
        exact ⟨k, hmore hk, hy⟩
      | true =>
        obtain ⟨before, x, hout, hfront, hline⟩ := hplaced.ellipsize font
        rw [if_pos rfl, hout]
        refine ⟨by exact_mod_cast hplaced.line, fun r hr => ?_, by simp, fun _ =>
          ⟨before, x, _, rfl, hfront⟩⟩
        rcases List.mem_append.mp hr with hr | hr
        · obtain ⟨k, hk, hy⟩ := hline r hr
          exact ⟨k, hmore hk, hy⟩
        · obtain rfl := List.mem_singleton.mp hr
          exact ⟨st.line, Nat.lt_succ_self _, rfl⟩

end Laid

/-! ## A fixed cell for every byte -/

instance irrefl_int : Std.Irrefl (fun a b : Int => a < b) := ⟨Int.lt_irrefl⟩

def cellFont : Font Int where
  wordWrap size text width := min (width / size).toNat text.length
  textWidth size text := size * text.length
  wordWrap_le _ _ _ := Nat.min_le_right _ _

/-- Nothing is loaded. -/
def noTextures : IAvatarTextures Unit Nat where
  lookup _ _ := none
  getOrLoad s _ := (s, none)
  lookup_getOrLoad _ _ _ h := .inl h

theorem layoutRuns_placed_cells :
    ((layoutRuns cellFont ⟨1, 1, 8, 2⟩ noTextures {} (ascii "hi there all") ()).lines : Int) ≤ 2 :=
  ((layoutRuns_placed cellFont ⟨1, 1, 8, 2⟩ noTextures {} (ascii "hi there all") ()).2.1
    (by decide) (by decide)).1

/-- Without a line nothing is placed, and no ellipsis says so; below zero even no
line is one too many. -/
theorem layoutRuns_noLines :
    (layoutRuns cellFont ⟨1, 1, 8, 0⟩ noTextures {} (ascii "a") ()).ellipsis = false ∧
      (layoutRuns cellFont ⟨1, 1, 8, 0⟩ noTextures {} (ascii "a") ()).out.flatMap PlacedRun.shown ≠
        (itemsOf noTextures {} (ascii "a") ()).flatMap LayoutItem.shown ∧
      ¬ ((layoutRuns cellFont ⟨1, 1, 8, -1⟩ noTextures {} (ascii "a") ()).lines : Int) ≤ -1 := by
  have hguard : layoutRuns cellFont ⟨1, 1, 8, 0⟩ noTextures {} (ascii "a") () =
      { lines := 0, out := [], ellipsis := false, textures := (), asked := [] } :=
    if_pos (by decide)
  have hbelow : layoutRuns cellFont ⟨1, 1, 8, -1⟩ noTextures {} (ascii "a") () =
      { lines := 0, out := [], ellipsis := false, textures := (), asked := [] } :=
    if_pos (by decide)
  rw [hguard, hbelow]
  exact ⟨rfl, by decide, by decide⟩

end Choir
