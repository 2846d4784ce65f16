-- SUMMARY: The reducer wired to the server and the game processes, and what a process shows of the session.
import ChoirOverlay.Host.Config
import ChoirOverlay.Host.Denylist
import ChoirOverlay.Host.History
import ChoirOverlay.System.Pipes

/-!
# Deployment

`main` wires the RPC events and the settings to the reducer, and the reducer to
the server. A process that has read everything shows what the history of the
session says; one that has not shows what an earlier part of it says, and never
goes back.
-/

namespace Choir

structure Deployment where
  overlay : OverlayState
  world : World

namespace Deployment

/-- The handlers of `main`, with the configuration it has loaded. -/
def init (loc : Locale) (cfg : Config) (procs : Nat → ProcSelf) : Deployment :=
  let overlay := OverlayState.after [.setConfig cfg.appearance]
  { overlay
    world := .init (some ((Denylist.mk cfg.denylist).blocks loc)) overlay.snap procs }

inductive Event where
  /-- The handler of RPC events, and what the clock reads. -/
  | rpc (now : Int) (ev : RpcEvent)
  /-- `config_changed`. -/
  | configChanged (newcfg : Config)
  | world (e : World.Event)

/-- The reducer is given an input; `on_change` fires with every change. -/
def feed (lib : JsonLib) (a : OverlayInput) (d : Deployment) : Deployment :=
  let overlay := d.overlay.step a
  if overlay.changes.length = d.overlay.changes.length then { d with overlay }
  else { overlay, world := d.world.step lib (.snapshot overlay.snap) }

/-- The denylist behind `is_blocked_` is replaced. -/
def setDenylist (loc : Locale) (denylist : List Bytes) (d : Deployment) : Deployment :=
  { d with
    world.server := { d.world.server with isBlocked := some ((Denylist.mk denylist).blocks loc) } }

def step (loc : Locale) (lib : JsonLib) (d : Deployment) (e : Event) : Deployment :=
  if d.world.crashed then d
  else match e with
    | .rpc now ev => d.feed lib (.event now ev)
    | .configChanged newcfg =>
      let d := d.feed lib (.setConfig newcfg.appearance)
      if d.world.crashed then d else d.setDenylist loc newcfg.denylist
    | .world (.snapshot _) => d
    | .world e => { d with world := d.world.step lib e }

def Event.input? : Event → Option OverlayInput
  | .rpc now ev => some (.event now ev)
  | .configChanged newcfg => some (.setConfig newcfg.appearance)
  | .world _ => none

/-- All the reducer has been given. -/
def history (cfg : Config) (es : List Event) : List OverlayInput :=
  .setConfig cfg.appearance :: es.filterMap Event.input?

/-- Every announcement fits its frame. -/
def Event.Modest (lib : JsonLib) : Event → Prop
  | .world e => e.Modest lib
  | .rpc .. | .configChanged _ => True

/-- All that is served while the reducer is given this history survives its
    text and fits its frame. -/
def Servable (lib : JsonLib) (h : List OverlayInput) : Prop :=
  ∀ pre, pre <+: h → (OverlayState.after pre).snap.Servable lib

variable {loc : Locale} {lib : JsonLib} {cfg : Config} {d : Deployment} {h : List OverlayInput}
variable {es : List Event} {e : Event} {a : OverlayInput} {p : Nat}

theorem Servable.of_front {pre : List OverlayInput} (hs : Servable lib h) (hpre : pre <+: h) :
    Servable lib pre := fun _ hle => hs _ (hle.trans hpre)

theorem history_concat (cfg : Config) (es : List Event) (e : Event) :
    history cfg (es ++ [e]) = history cfg es ++ e.input?.toList := by
  unfold history
  cases he : e.input? <;> simp [he]

/-! ## The invariant -/

/-- A host that is up serves what the reducer has made of the history. -/
structure Inv (lib : JsonLib) (h : List OverlayInput) (d : Deployment) : Prop where
  world : d.world.Inv lib none
  overlay : d.world.crashed = false → d.overlay = OverlayState.after h
  current : d.world.crashed = false → d.world.server.current = d.overlay.snap

theorem inv_init (cfg : Config) (procs : Nat → ProcSelf)
    (hsnap : Servable lib (history cfg [])) : (init loc cfg procs).Inv lib (history cfg []) where
  world := World.inv_init _ (hsnap _ (List.prefix_refl _)) procs
  overlay _ := rfl
  current _ := rfl

/-- An input that changes nothing does nothing; any other is broadcast. -/
theorem feed_cases (lib : JsonLib) (hd : d.overlay = OverlayState.after h) (a : OverlayInput) :
    d.feed lib a = d ∧ OverlayState.after (h ++ [a]) = OverlayState.after h ∨
      d.feed lib a = ⟨OverlayState.after (h ++ [a]),
        d.world.step lib (.snapshot (OverlayState.after (h ++ [a])).snap)⟩ := by
  have hstep := (after_describes h).step_eq a
  rw [← hd] at hstep
  unfold feed
  simp only [after_concat, ← hd]
  cases hnoop : History.isNoOp h a with
  | true =>
    rw [hnoop, if_pos rfl] at hstep
    rw [hstep, if_pos rfl]
    exact .inl ⟨rfl, rfl⟩
  | false =>
    rw [hnoop, if_neg Bool.false_ne_true] at hstep
    rw [if_neg (by rw [hstep.2]; exact (Nat.lt_succ_self _).ne')]
    exact .inr rfl

theorem Inv.feed (hd : d.Inv lib h) (hup : d.world.crashed = false)
    (hserv : Servable lib (h ++ [a])) (p : Nat) :
    (d.feed lib a).Inv lib (h ++ [a]) ∧ d.world.Moves lib (d.feed lib a).world p := by
  rcases feed_cases lib (hd.overlay hup) a with ⟨hsame, hafter⟩ | hfeed
  · rw [hsame]
    exact ⟨⟨hd.world, fun hup => (hd.overlay hup).trans hafter.symm, hd.current⟩,
      World.moves_quiet rfl rfl fun _ _ => rfl⟩
  · rw [hfeed]
    have hsnap := hserv _ (List.prefix_refl _)
    exact ⟨⟨World.inv_step hd.world (.snapshot _) hsnap, fun _ => rfl, World.step_current⟩,
      World.step_moves hd.world (e := .snapshot _) hsnap p⟩

theorem Inv.setDenylist (hd : d.Inv lib h) (denylist : List Bytes) :
    (d.setDenylist loc denylist).Inv lib h where
  world := { hd.world with
    sound := hd.world.sound.congr hd.world.sound.life rfl rfl
    delivers := fun q sock hq hl => (hd.world.delivers q sock hq hl).quiet rfl id rfl rfl }
  overlay := hd.overlay
  current := hd.current

/-- A host that is down hears nothing. -/
theorem Inv.down (hd : d.Inv lib h) (hdown : d.world.crashed = true) (h' : List OverlayInput) :
    d.Inv lib h' where
  world := hd.world
  overlay hup := absurd (hdown.symm.trans hup) (by simp)
  current hup := absurd (hdown.symm.trans hup) (by simp)

/-- What every event does. -/
theorem step_spec (hd : d.Inv lib h) (hserv : Servable lib (h ++ e.input?.toList))
    (he : e.Modest lib) (p : Nat) :
    (d.step loc lib e).Inv lib (h ++ e.input?.toList) ∧
      d.world.Moves lib (d.step loc lib e).world p := by
  cases hup : d.world.crashed with
  | true =>
    rw [show d.step loc lib e = d by simp only [step, hup, if_true]]
    exact ⟨hd.down hup _, World.moves_quiet rfl rfl fun _ _ => rfl⟩
  | false =>
    simp only [step, hup, Bool.false_eq_true, if_false]
    cases e with
    | rpc now ev => exact hd.feed hup hserv p
    | configChanged newcfg =>
      obtain ⟨hinv, hmoves⟩ := hd.feed hup hserv p
      simp only
      split
      · exact ⟨hinv, hmoves⟩
      · exact ⟨hinv.setDenylist _, hmoves.congr rfl rfl rfl rfl⟩
    | world e =>
      have hstep (hserved : e.served d.world.server.current = d.world.server.current) :
          ({ d with world := d.world.step lib e } : Deployment).Inv lib h ∧
            d.world.Moves lib (d.world.step lib e) p := by
        refine ⟨⟨World.inv_step hd.world e he, fun _ => hd.overlay hup, fun hup' => ?_⟩,
          World.step_moves hd.world he p⟩
        rw [World.step_current hup', hserved]
        exact hd.current hup
      rw [show Event.input? (.world e) = none from rfl, Option.toList_none, List.append_nil]
      cases e with
      | snapshot snap => exact ⟨hd, World.moves_quiet rfl rfl fun _ _ => rfl⟩
      | announce | connect | accept | arrive | disconnected | receive | other => exact hstep rfl

/-! ## A short session -/

/-- A process joins, and the user enters a channel. -/
def joining : List Event :=
  [.world (.connect 0 true), .world .accept, .world (.arrive 0 1000),
    .rpc 5 { kind := .channelSelect, channelId := ascii "c" }, .world (.receive 0 4096)]

theorem servable_of_short {snap : Snapshot}
    (hlen : (JsonText.text snap.toJson).length ≤ 1000)
    (htext : snap.toJsonStr compactJson = some (JsonText.text snap.toJson))
    (hback : Snapshot.fromJsonStr compactJson (JsonText.text snap.toJson) = some snap) :
    snap.Servable compactJson := by
  refine ⟨⟨_, htext, hback⟩, fun text htext' => ⟨rfl, ?_⟩⟩
  obtain rfl := Option.some.inj (htext.symm.trans htext')
  rw [length_encodeFrame]
  exact Nat.le_trans (Nat.add_le_add_right (Nat.add_le_add_left hlen 5) _) (by decide)

theorem joining_servable : Servable compactJson (history {} joining) := by
  intro pre hpre
  have hmem : pre ∈ [[], [.setConfig {}],
      [.setConfig {}, .event 5 { kind := .channelSelect, channelId := ascii "c" }]] :=
    (List.mem_inits _ _).mpr hpre
  simp only [List.mem_cons, List.not_mem_nil, or_false] at hmem
  rcases hmem with rfl | rfl | rfl <;>
    exact servable_of_short (by decide +kernel) (by decide +kernel) (by decide +kernel)

theorem joining_modest : ∀ e ∈ joining, e.Modest compactJson := by
  simp [joining, Event.Modest, World.Event.Modest]

/-! ## Runs -/

theorem history_front {pre : List Event} (cfg : Config) (hpre : pre <+: es) :
    history cfg pre <+: history cfg es := by
  obtain ⟨post, rfl⟩ := hpre
  refine ⟨post.filterMap Event.input?, ?_⟩
  rw [history, history, List.filterMap_append, List.cons_append]

/-- By induction from the end of the run. -/
theorem run_inv (cfg : Config) (procs : Nat → ProcSelf) (hserv : Servable lib (history cfg es))
    (hes : ∀ e ∈ es, e.Modest lib) :
    (Machine.run (step loc lib) (init loc cfg procs) es).Inv lib (history cfg es) := by
  induction es using List.reverseRecOn with
  | nil => exact inv_init cfg procs hserv
  | append_singleton es e ih =>
    have hpre := history_front cfg (List.prefix_append es [e])
    have hinv := ih (hserv.of_front hpre) fun e he => hes e (List.mem_append_left _ he)
    rw [Machine.run_append, Machine.run_cons, Machine.run_nil]
    rw [history_concat] at hserv ⊢
    exact (step_spec hinv hserv (hes e (by simp)) 0).1

/-- A snapshot that is as the history says: whether the user is on a call, who
    else is, in which order and who speaks, the notifications that are kept, the
    appearance in force, and how often it has changed. -/
structure Pictures (h : List OverlayInput) (snap : Snapshot) : Prop where
  inVoice : snap.inVoice = !(History.channel h).isEmpty
  channelName : snap.channelName = History.channel h
  participants : History.Shows (History.sinceSelect h) snap.participants
  notifications : snap.notifications = (History.notifications h).reverse.take kMaxNotifications
  config : snap.config = History.config h
  revision : snap.revision = UInt64.ofNat (History.changing h).length

theorem pictures_after (h : List OverlayInput) : Pictures h (OverlayState.after h).snap where
  inVoice := (after_describes h).inVoice
  channelName := (after_describes h).channelName
  participants := (after_describes h).participants
  notifications := (after_describes h).notifications
  config := (after_describes h).config
  revision := (after_describes h).revision

end Deployment

end Choir
