-- SUMMARY: A game with the OpenGL overlay: its contexts are as without the overlay, and the overlay's textures are its own affair.
import ChoirOverlay.Gl.Textures
import ChoirOverlay.Machine.Holders
import ChoirOverlay.Machine.Run

/-!
# A game and the overlay

The game makes its own calls on a context between the swaps; what they do to the
state is any function of it. The same calls are run with the library and
without.
-/

namespace Choir

open Ownership GlRenderer

structure GlGame where
  process : GlProcess := {}
  /-- The contexts, as the driver has them. -/
  states : GlContext → GlState := fun _ => {}
  /-- `textures` of the states in `g_ctxs` that have been drawn on. -/
  caches : AList fun _ : GlContext => GlAvatarTextures := ∅
  /-- `gl().ok()`, once the functions of the textures are looked for. -/
  functions : Option Bool := none
  log : GlLog := {}
  /-- The textures of states that were dropped while their context was not
      current. -/
  left : Multiset (Obj GlOwner) := 0

namespace GlGame

/-- The context a handle stands for. -/
def owner (ctx : GlContext) (g : GlGame) : GlOwner := (ctx, g.process.incarnation ctx)

inductive Call where
  | create (ctx : GlContext)
  | free (ctx : GlContext)
  /-- The game's own calls on a context. -/
  | own (ctx : GlContext) (change : GlState → GlState)
  /-- The game calls an entry point; a swap on its current context. `current`
      tells whether a context that is destroyed is the current one. -/
  | enter (entry : GlEntry) (route : GlRoute) (ctx : GlContext) (env : SwapEnv) (draw : DrawEnv)
      (current : Bool)

/-- `draw_overlay_for` comes to `renderer.draw`. -/
def drawsOn (env : SwapEnv) (ctx : GlContext) (g : GlProcess) : Bool :=
  let st := (g.ctxs.lookup ctx).getD {}
  ctx ≠ 0 && env.draws && !st.skip && (st.ready || env.initOk)

theorem draws_drawOverlayFor (env : SwapEnv) (ctx : GlContext) (g : GlProcess) :
    (g.drawOverlayFor env ctx).draws.length =
      g.draws.length + if drawsOn env ctx g then 1 else 0 := by
  unfold GlProcess.drawOverlayFor drawsOn
  by_cases hctx : ctx = 0
  · simp [hctx]
  cases hdraws : env.draws with
  | false => simp [hctx]
  | true =>
    obtain ⟨st, hst⟩ : ∃ st, (g.ctxs.lookup ctx).getD {} = st := ⟨_, rfl⟩
    obtain ⟨ready, skip, initialisedFor⟩ := st
    cases skip with
    | true => simp [hctx, hst]
    | false =>
      cases ready with
      | true => simp [hctx, hst]
      | false => cases env.initOk <;> simp [hctx, hst]

/-- The textures of `draw_overlay_for`. The first of them looks for the functions, for all. -/
def drawFor (b : GlBackend) (draw : DrawEnv) (ctx : GlContext) (g : GlGame) : GlGame :=
  let functions := g.functions.getD draw.functions
  let r := GlRenderer.draw b { draw with functions } (g.owner ctx)
    ((g.caches.lookup ctx).getD {}) g.log (g.states ctx)
  { g with
    functions := if draw.loads.isEmpty then g.functions else some functions
    caches := g.caches.insert ctx r.1
    log := r.2.1
    states := Function.update g.states ctx r.2.2 }

/-- The textures of `destroy_ctx`. Where there are textures the functions have been found. -/
def dropFor (current : Bool) (ctx : GlContext) (g : GlGame) : GlGame :=
  match g.caches.lookup ctx with
  | none => g
  | some t =>
    if !current then
      { g with caches := g.caches.erase ctx, left := g.left + t.objects (g.owner ctx) }
    else
      let ok := g.functions.getD false
      let r := t.shutdown ok (g.owner ctx) g.log (g.states ctx)
      { g with
        caches := g.caches.erase ctx
        log := r.1
        states := Function.update g.states ctx r.2
        left := if ok then g.left else g.left + t.objects (g.owner ctx) }

/-- One call, without the library. -/
def without (g : GlGame) : Call → GlGame
  | .create ctx =>
    { g with
      process := g.process.step (.create ctx)
      states :=
        if ctx = 0 || g.process.live ctx then g.states else Function.update g.states ctx {} }
  | .free ctx => { g with process := g.process.step (.free ctx) }
  | .own ctx change => { g with states := Function.update g.states ctx (change (g.states ctx)) }
  | .enter .. => g

/-- One call, with it. -/
def step (b : GlBackend) (g : GlGame) : Call → GlGame
  | .enter entry route ctx env draw current =>
    let next :=
      if g.process.swaps entry route ctx then
        if drawsOn env ctx g.process then g.drawFor b draw ctx else g
      else if route.reachesHook entry && !entry.isSwap then g.dropFor current ctx
      else g
    { next with process := g.process.step (.enter entry route ctx env) }
  | call => g.without call

/-- The game binds textures of its own, a handle comes back only after the destroy hook
has run for it, and the driver has the functions that save and restore how pixels are
read. -/
def Proper (g : GlGame) : Call → Prop
  | .create ctx => ctx ∉ g.caches
  | .free _ => True
  | .own _ change => ∀ s, (∀ id, s.binding ≠ .overlay id) → ∀ id, (change s).binding ≠ .overlay id
  | .enter _ _ _ _ draw _ => draw.pixelStore = true

/-! ## What a call leaves -/

variable {b : GlBackend} {g : GlGame} {ctx : GlContext} {draw : DrawEnv} {current : Bool}

/-- The textures of all contexts. -/
def held (g : GlGame) : Multiset (Obj GlOwner) :=
  total (fun ctx => GlAvatarTextures.objects (g.owner ctx)) g.caches

/-- No texture of the overlay is bound outside it, and its textures are kept, deleted in
the context they were made in, or left to it. -/
structure Inv (g : GlGame) : Prop where
  binding : ∀ ctx id, (g.states ctx).binding ≠ .overlay id
  custody : Custody {} g.log.textures (g.held + g.left)
  uploads : ∀ u ∈ g.log.uploads, GlUpload.Clean u
  functions : ∀ ctx t, g.caches.lookup ctx = some t → t.textures ≠ [] → g.functions = some true

theorem held_getD (g : GlGame) (ctx : GlContext) :
    g.held = ((g.caches.lookup ctx).getD {}).objects (g.owner ctx) +
      total (fun ctx => GlAvatarTextures.objects (g.owner ctx)) (g.caches.erase ctx) := by
  cases h : g.caches.lookup ctx with
  | some t => exact total_erase h
  | none =>
    have hmissing : ctx ∉ g.caches := AList.lookup_eq_none.mp h
    have herase : g.caches.erase ctx = g.caches :=
      AList.ext (List.kerase_of_notMem_keys hmissing)
    rw [herase]
    exact (zero_add _).symm

theorem drawFor_spec (hb : b.Restores) (hdraw : draw.pixelStore = true) (h : g.Inv) :
    (g.drawFor b draw ctx).Inv ∧ (g.drawFor b draw ctx).states = g.states := by
  have henv :
      ({ draw with functions := g.functions.getD draw.functions } : DrawEnv).pixelStore = true :=
    hdraw
  obtain ⟨hstate, ⟨held, hheld, hobjects⟩, us, hus, hclean⟩ :=
    draw_spec hb henv (g.owner ctx) ((g.caches.lookup ctx).getD {}) g.log (g.states ctx)
  have hstates : (g.drawFor b draw ctx).states = g.states := by
    unfold drawFor
    simp only [hstate, Function.update_eq_self]
  refine ⟨⟨fun ctx id => hstates ▸ h.binding ctx id, ?_, fun u hu => ?_, ?_⟩, hstates⟩
  · have hcustody := h.custody.trans hheld
    rw [held_getD g ctx, add_right_comm _ _ held, add_right_comm _ _ held, ← hobjects] at hcustody
    have htotal : (g.drawFor b draw ctx).held = _ := total_insert
    rw [htotal]
    exact hcustody
  · have hall : (g.drawFor b draw ctx).log.uploads = us ++ g.log.uploads := hus
    rw [hall] at hu
    rcases List.mem_append.mp hu with hu | hu
    · exact hclean u hu
    · exact h.uploads u hu
  · -- textures that are there were made with the functions that are kept
    have hkept (hfound : g.functions = some true) :
        (g.drawFor b draw ctx).functions = some true := by
      simp only [drawFor, hfound, Option.getD_some, ite_self]
    intro ctx' t ht hne
    obtain ⟨rfl, rfl⟩ | ⟨-, ht⟩ := lookup_insert_cases ht
    · cases hold : (g.caches.lookup ctx').getD {} with
      | mk textures =>
        by_cases hempty : textures = []
        · subst hempty
          simp only [hold, GlRenderer.draw] at hne
          cases hloads : draw.loads with
          | nil =>
            rw [hloads] at hne
            exact absurd rfl hne
          | cons load loads =>
            cases hfound : g.functions.getD draw.functions with
            | false =>
              rw [hfound, GlAvatarTextures.loadAll_false] at hne
              exact absurd rfl hne
            | true => simp only [drawFor, hloads, hfound, List.isEmpty_cons, Bool.false_eq_true,
                if_false]
        · cases hlookup : g.caches.lookup ctx' with
          | none =>
            rw [hlookup] at hold
            cases hold
            exact absurd rfl hempty
          | some t =>
            rw [hlookup] at hold
            obtain rfl : t = ⟨textures⟩ := hold
            exact hkept (h.functions ctx' _ hlookup hempty)
    · exact hkept (h.functions ctx' t ht hne)

theorem dropFor_spec (h : g.Inv) :
    (g.dropFor current ctx).Inv ∧ (g.dropFor current ctx).states = g.states := by
  unfold dropFor
  split
  · exact ⟨h, rfl⟩
  rename_i t ht
  have hcustody := h.custody
  rw [held, total_erase ht, add_assoc, add_comm (t.objects _)] at hcustody
  have hleft : Custody {} g.log.textures
      (total (fun ctx => GlAvatarTextures.objects (g.owner ctx)) (g.caches.erase ctx) +
        (g.left + t.objects (g.owner ctx))) := by
    rw [← add_assoc]
    exact hcustody
  have hfunctions (ctx' : GlContext) (t' : GlAvatarTextures)
      (ht' : (g.caches.erase ctx).lookup ctx' = some t') (hne : t'.textures ≠ []) :
      g.functions = some true := h.functions ctx' t' (lookup_erase_cases ht').2 hne
  split
  · exact ⟨⟨h.binding, hleft, h.uploads, hfunctions⟩, rfl⟩
  unfold GlAvatarTextures.shutdown
  simp only
  split
  · obtain ⟨hstate, huploads, hgone⟩ :=
      GlAvatarTextures.deleteAll_spec (g.owner ctx) t.textures g.log (g.states ctx) (h.binding ctx)
    have hsame : Function.update g.states ctx
        (GlAvatarTextures.deleteAll (g.owner ctx) t.textures g.log (g.states ctx)).2 =
          g.states := by
      rw [hstate, Function.update_eq_self]
    refine ⟨⟨fun ctx id => ?_, hcustody.destroys hgone, fun u hu => ?_, hfunctions⟩, hsame⟩
    · exact (congrArg (fun states => (states ctx).binding) hsame).trans_ne (h.binding ctx id)
    · exact h.uploads u (huploads ▸ hu)
  · have hsame : Function.update g.states ctx (g.states ctx) = g.states :=
      Function.update_eq_self ..
    refine ⟨⟨fun ctx id => ?_, hleft, h.uploads, hfunctions⟩, hsame⟩
    exact (congrArg (fun states => (states ctx).binding) hsame).trans_ne (h.binding ctx id)

theorem drawFor_process (b : GlBackend) (draw : DrawEnv) (ctx : GlContext) (g : GlGame) :
    (g.drawFor b draw ctx).process = g.process := rfl

theorem dropFor_process (current : Bool) (ctx : GlContext) (g : GlGame) :
    (g.dropFor current ctx).process = g.process := by
  unfold dropFor
  split
  · rfl
  · split <;> rfl

/-- The hooks leave the contexts and their handles as they are. -/
theorem enter_spec (entry : GlEntry) (route : GlRoute) (ctx : GlContext) (env : SwapEnv)
    (p : GlProcess) : (p.step (.enter entry route ctx env)).live = p.live ∧
      ∀ ctx', (p.step (.enter entry route ctx env)).incarnation ctx' = p.incarnation ctx' := by
  change (ite _ (p.drawOverlayFor env ctx) _ : GlProcess).live = _ ∧
    ∀ ctx', (ite _ (p.drawOverlayFor env ctx) _ : GlProcess).incarnation ctx' = _
  unfold GlProcess.drawOverlayFor GlProcess.destroyCtx
  split
  · split
    · exact ⟨rfl, fun _ => rfl⟩
    · simp only
      split
      · exact ⟨rfl, fun _ => rfl⟩
      · split <;> exact ⟨rfl, fun _ => rfl⟩
  · split <;> exact ⟨rfl, fun _ => rfl⟩

/-- The hooks keep what holds of the textures. -/
theorem Inv.of_process {p : GlProcess} (h : g.Inv)
    (hp : ∀ ctx ∈ g.caches, p.incarnation ctx = g.process.incarnation ctx) :
    Inv { g with process := p } := by
  refine ⟨h.binding, ?_, h.uploads, h.functions⟩
  have hheld : held { g with process := p } = g.held := by
    refine total_congr fun ctx t ht => ?_
    have hctx : ctx ∈ g.caches := AList.lookup_isSome.mp (Option.isSome_iff_exists.mpr ⟨t, ht⟩)
    simp only [owner, hp ctx hctx]
  rw [hheld]
  exact h.custody

/-- Two runs are at the same point, as far as the game can tell. -/
structure Same (g g' : GlGame) : Prop where
  states : g.states = g'.states
  live : g.process.live = g'.process.live

theorem without_spec {call : Call} {g' : GlGame} (hcall : g.Proper call) (h : g.Inv)
    (hsame : g.Same g') : (g.without call).Inv ∧ (g.without call).Same (g'.without call) := by
  obtain ⟨hstates, hlive⟩ := hsame
  cases call with
  | create ctx =>
    simp only [without, GlProcess.step, ← hstates, ← hlive]
    split
    · exact ⟨h, rfl, hlive⟩
    · have hmade : Inv { g with process := { g.process with
          live := Function.update g.process.live ctx true
          history := .make ctx :: g.process.history } } := by
        refine h.of_process fun ctx' hctx' => ?_
        have hne : ctx ≠ ctx' := fun heq => hcall (heq ▸ hctx')
        exact if_neg hne
      refine ⟨⟨fun ctx' id => ?_, hmade.custody, h.uploads, h.functions⟩, rfl, rfl⟩
      simp only [Function.update_apply]
      split
      · exact GlTexture.noConfusion
      · exact h.binding ctx' id
  | free ctx =>
    refine ⟨⟨h.binding, h.custody, h.uploads, h.functions⟩, hstates, ?_⟩
    simp only [without, GlProcess.step, hlive]
  | own ctx change =>
    refine ⟨⟨fun ctx' id => ?_, h.custody, h.uploads, h.functions⟩, ?_, hlive⟩
    · simp only [without, Function.update_apply]
      split
      · exact hcall _ (h.binding ctx) id
      · exact h.binding ctx' id
    · simp only [without, hstates]
  | enter => exact ⟨h, hstates, hlive⟩

theorem step_spec {call : Call} {g' : GlGame} (hb : b.Restores) (hcall : g.Proper call) (h : g.Inv)
    (hsame : g.Same g') : (g.step b call).Inv ∧ (g.step b call).Same (g'.without call) := by
  cases call with
  | create ctx => exact without_spec hcall h hsame
  | free ctx => exact without_spec hcall h hsame
  | own ctx change => exact without_spec hcall h hsame
  | enter entry route ctx env draw current =>
    obtain ⟨next, ⟨hinv, hstates⟩, hprocess, hstep⟩ : ∃ next : GlGame,
        (next.Inv ∧ next.states = g.states) ∧ next.process = g.process ∧
          g.step b (.enter entry route ctx env draw current) =
            { next with process := g.process.step (.enter entry route ctx env) } := by
      refine ⟨_, ?_, ?_, rfl⟩
      · split
        · split
          · exact drawFor_spec hb hcall h
          · exact ⟨h, rfl⟩
        · split
          · exact dropFor_spec h
          · exact ⟨h, rfl⟩
      · split
        · split
          · exact drawFor_process b draw ctx g
          · rfl
        · split
          · exact dropFor_process current ctx g
          · rfl
    obtain ⟨hlive, hincarnation⟩ := enter_spec entry route ctx env g.process
    rw [hstep]
    refine ⟨hinv.of_process fun ctx' _ => ?_, hstates.trans hsame.states, hlive.trans hsame.live⟩
    rw [hprocess]
    exact hincarnation ctx'

theorem inv_init : ({} : GlGame).Inv where
  binding _ _ := GlTexture.noConfusion
  custody := .refl _
  uploads _ hu := absurd hu List.not_mem_nil
  functions _ _ ht := by cases ht

theorem run_spec {calls : List Call} (hb : b.Restores)
    (hcalls : Machine.Along (step b) Proper {} calls) :
    (Machine.run (step b) {} calls).Inv ∧
      (Machine.run (step b) {} calls).Same (Machine.run without {} calls) := by
  refine hcalls.related (R := fun g g' => g.Inv ∧ g.Same g') ?_ ?_
  · intro g g' call h hcall
    exact step_spec hb hcall h.1 h.2
  · exact ⟨inv_init, rfl, rfl⟩

/-! ## Results -/

/-- Whatever a game sets on its contexts and whenever it swaps, it finds its contexts as it
would without the library. -/
theorem contexts_unchanged (calls : List Call) (hb : b.Restores)
    (hcalls : Machine.Along (step b) Proper {} calls) :
    (Machine.run (step b) {} calls).states = (Machine.run without {} calls).states :=
  (run_spec hb hcalls).2.states

/-- A backend that leaves its own row length and alignment behind. -/
def messy : GlBackend where
  renderDrawData s := { s with unpack := { s.unpack with alignment := 1, rowLength := 512 } }

theorem messy_restores : messy.Restores := ⟨fun _ => rfl, fun _ => rfl, fun _ => rfl⟩

/-- A game that reads its pixels from a buffer, with one avatar to draw; it ends its
context, and the next one has the same handle. -/
def session : List Call :=
  let env : SwapEnv := { client := { latest := some { inVoice := true } } }
  let load : GlLoadEnv := { file := some (avatarFile 1 1 [255, 0, 0, 255]) }
  let change (s : GlState) : GlState :=
    { unpack := { s.unpack with buffer := 3, rowLength := 64 }, binding := .game 5 }
  [.create 1, .own 1 change,
    .enter .eglSwapBuffers .linked 1 env { loads := [(load, [7])] } false,
    .enter .eglDestroyContext .linked 1 {} {} true, .free 1, .create 1]

theorem session_proper : Machine.Along (step messy) Proper {} session := by
  refine ⟨AList.notMem_empty 1, fun s _ id => GlTexture.noConfusion, rfl, rfl, trivial, ?_, trivial⟩
  have hdropped :
      ((Machine.run (step messy) {} (session.take 5)).caches.lookup 1).isNone = true := by
    decide +kernel
  exact AList.lookup_eq_none.mp (Option.isNone_iff_eq_none.mp hdropped)

theorem contexts_unchanged_session :
    (Machine.run (step messy) {} session).states = (Machine.run without {} session).states :=
  contexts_unchanged session messy_restores session_proper

/-- A context that is destroyed is the current one. -/
def Call.OnCurrent : Call → Prop
  | .enter entry _ _ _ _ current => entry.isSwap = false → current = true
  | .create _ | .free _ | .own _ _ => True

theorem dropFor_left (h : g.Inv) : (g.dropFor true ctx).left = g.left := by
  unfold dropFor
  split
  · rfl
  rename_i t ht
  simp only [Bool.not_true, Bool.false_eq_true, if_false]
  split
  · rfl
  rename_i hmissing
  have hempty : t.textures = [] := by
    by_contra hne
    rw [h.functions ctx t ht hne] at hmissing
    exact hmissing rfl
  rw [GlAvatarTextures.objects, hempty]
  exact add_zero _

/-- Only a context that is destroyed while it is not current is left its textures. -/
theorem step_left {call : Call} (h : g.Inv) (hcall : call.OnCurrent) :
    (g.step b call).left = g.left := by
  cases call with
  | create | free | own => rfl
  | enter entry route ctx env draw current =>
    simp only [step]
    split
    · split <;> rfl
    split
    · rename_i hdestroys
      simp only [Bool.and_eq_true, Bool.not_eq_true'] at hdestroys
      rw [hcall hdestroys.2]
      exact dropFor_left h
    · rfl

/-- Every avatar is uploaded from its own pixels, whatever the game had set, and every
texture is deleted once and in the context it was made in, or still belongs to it. None is left
to a context as long as those that are destroyed are current. -/
theorem textures_accounted (calls : List Call) (hb : b.Restores)
    (hcalls : Machine.Along (step b) Proper {} calls) :
    (∀ u ∈ (Machine.run (step b) {} calls).log.uploads, u.Clean) ∧
      (∀ x, (Machine.run (step b) {} calls).log.textures.destroyed.count x +
          ((Machine.run (step b) {} calls).held.count x +
            (Machine.run (step b) {} calls).left.count x) =
        if x ∈ (Machine.run (step b) {} calls).log.textures.created then 1 else 0) ∧
      ((∀ call ∈ calls, call.OnCurrent) → (Machine.run (step b) {} calls).left = 0) := by
  have hinv := (run_spec hb hcalls).1
  refine ⟨hinv.uploads, fun x => ?_, fun hcurrent => ?_⟩
  · have hcount := hinv.custody.count_eq x
    rw [Multiset.count_add] at hcount
    exact hcount
  · have halong := hcalls.and (Machine.along_of_forall hcurrent)
    refine (halong.invariant (P := fun g => g.Inv ∧ g.left = 0) ?_ ⟨inv_init, rfl⟩).2
    rintro g call ⟨h, hleft⟩ ⟨hproper, hon⟩
    exact ⟨(step_spec hb hproper h ⟨rfl, rfl⟩).1, (step_left h hon).trans hleft⟩

theorem textures_accounted_session :
    (∀ u ∈ (Machine.run (step messy) {} session).log.uploads, u.Clean) ∧
      (Machine.run (step messy) {} session).log.uploads.length = 1 ∧
      (Machine.run (step messy) {} session).log.textures.destroyed = [⟨(1, 1), 0⟩] :=
  ⟨(textures_accounted session messy_restores session_proper).1, by decide +kernel,
    by decide +kernel⟩

end GlGame

end Choir
