-- SUMMARY: How the overlay stacks notification toasts, and exactly when the newest ones stand at the anchor.
import ChoirOverlay.Host.History
import Mathlib.Data.Rat.Cast.Defs

/-!
# Toasts

`draw_toasts` reads the notifications of a snapshot in one order, the reducer
stores them in the other. Coordinates are any type with the operations of
`float`; nothing is assumed of them.
-/

namespace Choir

/-! ## Drawing -/

def isTop : Anchor → Bool
  | .topLeft | .topRight => true
  | _ => false

def isLeft : Anchor → Bool
  | .topLeft | .bottomLeft | .centerLeft => true
  | _ => false

/-- What a draw reads besides the snapshot: the screen, the clock and the font. -/
structure ToastView (α : Type) where
  width : Nat
  height : Nat
  now : Int
  /-- A number of the config as a `float`. -/
  toFloat : JsonFloat → α
  fontSize : α
  lineHeight : α
  /-- The lines `layout_runs` lays a body out to, in a given width. -/
  bodyLines : Bytes → α → Nat

/-- A card that is drawn. -/
structure ToastCard (α : Type) where
  /-- The notification it shows, by its position in the snapshot. -/
  note : Nat
  x : α
  y : α
  width : α
  height : α

/-- How long a toast stays. -/
def toastDuration (cfg : AppearanceConfig) : Int :=
  if cfg.toastDurationMs > 0 then cfg.toastDurationMs else 5000

def isLive (cfg : AppearanceConfig) (now : Int) (n : Notification) : Bool :=
  0 ≤ now - n.createdMs && now - n.createdMs < toastDuration cfg

/-- The live notifications with their positions, in the order they are drawn. -/
def liveToasts (snap : Snapshot) (now : Int) : List (Notification × Nat) :=
  snap.notifications.zipIdx.reverse.filter fun x => isLive snap.config now x.1

/-! ## The two orders -/

/-- The notifications of the history that the snapshot still has and that are
    live, newest first, each with its number in the order of receipt. -/
def liveNewestFirst (h : List OverlayInput) (now : Int) : List (Notification × Nat) :=
  ((History.notifications h).zipIdx.reverse.take kMaxNotifications).filter fun x =>
    isLive (OverlayState.after h).snap.config now x.1

/-- Positions from the end of a list, counted from its start. -/
theorem zipIdx_reverse_take {β : Type} (l : List β) (k : Nat) :
    l.zipIdx.reverse.take k =
      (l.reverse.take k).zipIdx.map fun x => (x.1, l.length - 1 - x.2) := by
  refine List.ext_getElem (by simp) fun i _ _ => ?_
  simp

/-- What is live is found oldest first. -/
theorem liveNewestFirst_eq (h : List OverlayInput) (now : Int) :
    liveNewestFirst h now = ((liveToasts (OverlayState.after h).snap now).map fun x =>
      (x.1, (History.notifications h).length - 1 - x.2)).reverse := by
  unfold liveNewestFirst liveToasts
  rw [zipIdx_reverse_take, List.filter_map, ← List.map_reverse, List.filter_reverse,
    List.reverse_reverse, (after_describes h).notifications]
  rfl

theorem nodup_liveNewestFirst (h : List OverlayInput) (now : Int) :
    ((liveNewestFirst h now).map Prod.snd).Nodup := by
  have hall : ((History.notifications h).zipIdx.reverse.map Prod.snd).Nodup := by
    rw [List.map_reverse, List.nodup_reverse, List.zipIdx_map_snd]
    exact List.nodup_range'
  exact hall.sublist ((List.filter_sublist.trans (List.take_sublist ..)).map Prod.snd)

/-- Of distinct elements at most one comes first from both ends. -/
theorem prefix_both_iff {β : Type} {l d : List β} (hl : l.Nodup) (hd : d <+: l.reverse) :
    d <+: l ↔ l.length ≤ 1 ∨ d = [] := by
  constructor
  · intro hboth
    cases d with
    | nil => exact .inr rfl
    | cons a d =>
      -- `a` is the first and the last element of `l`.
      obtain ⟨rest, rfl⟩ := hboth
      obtain ⟨rest', hrev⟩ := hd
      refine .inl ?_
      cases hlist : d ++ rest with
      | nil => simp [hlist]
      | cons b tail =>
        have hwhole : a :: d ++ rest = a :: b :: tail := by rw [List.cons_append, hlist]
        rw [hwhole] at hl hrev
        refine absurd ?_ (List.nodup_cons.mp hl).1
        have hhead : ((b :: tail).reverse ++ [a]).head? = some a := by
          rw [← List.reverse_cons, ← hrev]
          rfl
        rw [List.head?_append_of_ne_nil _ (by simp)] at hhead
        exact List.mem_reverse.mp (List.mem_of_head? hhead)
  · rintro (hlen | rfl)
    · match l, hlen with
      | [], _ => exact hd
      | [_], _ => exact hd
    · exact List.nil_prefix

namespace ToastView

variable {α : Type} [NatCast α] [Add α] [Sub α] [Mul α] [Div α] [LT α] [DecidableLT α]

/-- A `float` constant in hundredths. -/
def const (hundredths : Nat) : α := (hundredths : α) / ((100 : Nat) : α)

/-- The top of a card of height `h` on a stack that has come to `stackY`. -/
def cardY (cfg : AppearanceConfig) (stackY h : α) : α :=
  if isTop cfg.toastAnchor then stackY else stackY - h

variable (v : ToastView α)

/-- `cfg.scale`, unless it is too small. -/
def scale (cfg : AppearanceConfig) : α :=
  if const 5 < v.toFloat cfg.scale then v.toFloat cfg.scale else const 100

def margin (cfg : AppearanceConfig) : α := const 1600 * v.scale cfg

def cardWidth (cfg : AppearanceConfig) : α := const 32000 * v.scale cfg

def cardGap (cfg : AppearanceConfig) : α := const 800 * v.scale cfg

def cardHeight (cfg : AppearanceConfig) (n : Notification) : α :=
  let s := v.scale cfg
  let pad := const 1400 * s
  let icon := const 4000 * s
  let hasIcon := !n.iconHash.isEmpty
  let textX := pad + if hasIcon then icon + const 1200 * s else const 0
  let textW := v.cardWidth cfg - textX - pad
  let lines := v.bodyLines n.body textW
  let textH := v.fontSize * const 120 +
    if lines = 0 then const 0 else const 400 * s + (lines : α) * v.lineHeight
  let iconH := if hasIcon then icon else const 0
  (if iconH < textH then textH else iconH) + pad * const 200

/-- Where the stack starts: the anchor's edge. -/
def stackStart (cfg : AppearanceConfig) : α :=
  if isTop cfg.toastAnchor then v.margin cfg else (v.height : α) - v.margin cfg

/-- Where the stack is after that card. -/
def stackNext (cfg : AppearanceConfig) (stackY h : α) : α :=
  if isTop cfg.toastAnchor then stackY + (h + v.cardGap cfg) else stackY - h - v.cardGap cfg

def cardX (cfg : AppearanceConfig) : α :=
  let x := if isLeft cfg.toastAnchor then v.margin cfg
    else (v.width : α) - v.margin cfg - v.cardWidth cfg
  if x < const 0 then const 0 else x

/-- The loop over the live toasts. -/
def stackToasts (cfg : AppearanceConfig) : α → List (Notification × Nat) → List (ToastCard α)
  | _, [] => []
  | stackY, (n, i) :: rest =>
    let h := v.cardHeight cfg n
    let y := cardY cfg stackY h
    -- Off the screen: the rest is left out.
    if y < const 0 then
      []
    else
      { note := i, x := v.cardX cfg, y, width := v.cardWidth cfg, height := h } ::
        stackToasts cfg (v.stackNext cfg stackY h) rest

/-- `draw_toasts`: the cards in the order they are stacked, from the anchor's
    edge inwards. -/
def drawToasts (snap : Snapshot) : List (ToastCard α) :=
  v.stackToasts snap.config (v.stackStart snap.config) (liveToasts snap v.now)

/-! ## Newest first -/

/-- The number of the notification a card shows. -/
def receipt (h : List OverlayInput) (card : ToastCard α) : Nat :=
  (History.notifications h).length - 1 - card.note

/-- From the anchor's edge inwards the cards show the live toasts from the
    newest on, so those left out are the oldest. -/
def NewestFirst (h : List OverlayInput) : Prop :=
  (v.drawToasts (OverlayState.after h).snap).map (receipt h) <+:
    (liveNewestFirst h v.now).map Prod.snd

variable {v} {h : List OverlayInput}

/-- The cards follow the live toasts in the order they come. -/
theorem stackToasts_notes (cfg : AppearanceConfig) (stackY : α) (live : List (Notification × Nat)) :
    (v.stackToasts cfg stackY live).map (·.note) <+: live.map Prod.snd := by
  induction live generalizing stackY with
  | nil => exact List.nil_prefix
  | cons toast rest ih =>
    obtain ⟨n, i⟩ := toast
    simp only [stackToasts]
    split
    · exact List.nil_prefix
    · exact List.cons_prefix_cons.mpr ⟨rfl, ih _⟩

/-- The first card of the stack would already be off the screen. -/
def OffScreen (v : ToastView α) (cfg : AppearanceConfig) (n : Notification) : Prop :=
  cardY cfg (v.stackStart cfg) (v.cardHeight cfg n) < const 0

theorem stackToasts_eq_nil (cfg : AppearanceConfig) (toast : Notification × Nat)
    (rest : List (Notification × Nat)) :
    v.stackToasts cfg (v.stackStart cfg) (toast :: rest) = [] ↔ v.OffScreen cfg toast.1 := by
  simp only [stackToasts, OffScreen]
  split <;> simp [*]

/-- After every history: the newest live toasts stand at the anchor and only
    older ones are left out, exactly when at most one is live or the oldest of
    them, which is stacked first, is already off the screen. -/
theorem newestFirst_iff (v : ToastView α) (h : List OverlayInput) :
    v.NewestFirst h ↔
      (liveNewestFirst h v.now).length ≤ 1 ∨
        ∃ oldest ∈ (liveNewestFirst h v.now).getLast?,
          v.OffScreen (OverlayState.after h).snap.config oldest.1 := by
  have hlive := liveNewestFirst_eq h v.now
  have hdrawn : (v.drawToasts (OverlayState.after h).snap).map (receipt h) <+:
      ((liveNewestFirst h v.now).map Prod.snd).reverse := by
    rw [hlive, List.map_reverse, List.reverse_reverse, List.map_map]
    have hnotes := (v.stackToasts_notes (OverlayState.after h).snap.config
      (v.stackStart (OverlayState.after h).snap.config)
      (liveToasts (OverlayState.after h).snap v.now)).map
        fun i => (History.notifications h).length - 1 - i
    rwa [List.map_map, List.map_map] at hnotes
  rw [NewestFirst, prefix_both_iff (nodup_liveNewestFirst h v.now) hdrawn, List.length_map,
    List.map_eq_nil_iff, drawToasts, hlive]
  -- What is stacked first is the oldest.
  cases liveToasts (OverlayState.after h).snap v.now with
  | nil => simp
  | cons oldest rest =>
    rw [stackToasts_eq_nil]
    simp

/-- A draw on a small screen. -/
def oneView (now : Int) : ToastView ℚ :=
  { width := 1280, height := 720, now, toFloat := fun _ => 1, fontSize := 16, lineHeight := 20,
    bodyLines := fun _ _ => 1 }

/-- Two notifications, one after the other. -/
def twoToasts : List OverlayInput :=
  [.event 1000 { kind := .notification, notif := { title := ascii "first" } },
    .event 2000 { kind := .notification, notif := { title := ascii "second" } }]

/-- The first stands at the anchor. -/
theorem twoToasts_oldestFirst : ¬ (oneView 3000).NewestFirst twoToasts := by
  unfold NewestFirst
  decide +kernel

end ToastView

end Choir
