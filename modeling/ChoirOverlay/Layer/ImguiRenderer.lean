-- SUMMARY: The ImGui backend of a swapchain: what it creates, and the calls it makes into ImGui.
import ChoirOverlay.Layer.AvatarTextures
import ChoirOverlay.Machine.Run
import Mathlib.Logic.Function.Basic

/-!
# ImguiRenderer

One ImGui context, one descriptor pool and the backend between them, with a
pipeline of its own on a swapchain that is not plain sRGB. ImGui keeps one
context current for the whole process and stops the process on a call it does
not expect; what it expects is an automaton here (`Imgui.step`).
-/

namespace Choir

open Ownership

/-! ## ImGui -/

/-- Where a context is with its frame. -/
inductive FramePhase where
  | idle
  /-- Behind `NewFrame`. -/
  | begun
  /-- Behind `Render` or `EndFrame`. -/
  | built
  deriving DecidableEq, Repr

/-- Where a context is with its backend. -/
inductive BackendPhase where
  | absent
  /-- Behind `ImGui_ImplVulkan_Init`. -/
  | up
  /-- Behind `ImGui_ImplVulkan_Shutdown`. -/
  | gone
  deriving DecidableEq, Repr

/-- The backend of a renderer that has or has not been initialised. -/
def BackendPhase.of (initDone : Bool) : BackendPhase := if initDone then .up else .absent

structure ImguiContext where
  backend : BackendPhase := .absent
  frame : FramePhase := .idle
  deriving DecidableEq, Repr

inductive ImguiCall where
  | createContext (ctx : Nat)
  | setCurrentContext (ctx : Nat)
  | vulkanInit
  | vulkanNewFrame
  | newFrame
  | render
  | endFrame
  | vulkanRenderDrawData
  | vulkanAddTexture
  | vulkanRemoveTexture
  | vulkanShutdown
  | destroyContext (ctx : Nat)
  deriving DecidableEq, Repr

structure Imgui where
  current : Option Nat := none
  contexts : Nat → Option ImguiContext := fun _ => none

namespace Imgui

/-- What the current context may do. A backend comes once and goes once, and `NewFrame` and
`Render` take turns. -/
def allows (c : ImguiContext) : ImguiCall → Option ImguiContext
  | .vulkanInit => if c.backend = .absent then some { c with backend := .up } else none
  | .vulkanNewFrame => if c.backend = .up then some c else none
  | .newFrame => if c.frame = .begun then none else some { c with frame := .begun }
  | .render => if c.frame = .begun then some { c with frame := .built } else none
  | .endFrame => if c.frame = .idle then none else some { c with frame := .built }
  | .vulkanRenderDrawData => if c.backend = .up ∧ c.frame = .built then some c else none
  | .vulkanAddTexture | .vulkanRemoveTexture => if c.backend = .up then some c else none
  | .vulkanShutdown => if c.backend = .up then some { c with backend := .gone } else none
  | .createContext _ | .setCurrentContext _ | .destroyContext _ => none

/-- One call; an error is a call that is not expected. -/
def step (g : Imgui) (call : ImguiCall) : Except ImguiCall Imgui :=
  match call with
  | .createContext ctx =>
    if (g.contexts ctx).isSome then .error call
    else .ok
      { current := g.current.or (some ctx)
        contexts := Function.update g.contexts ctx (some {}) }
  | .setCurrentContext ctx =>
    if (g.contexts ctx).isSome then .ok { g with current := some ctx } else .error call
  | .destroyContext ctx =>
    match g.contexts ctx with
    | none => .error call
    | some c =>
      if c.backend = .up then .error call
      else .ok
        { current := if g.current = some ctx then none else g.current
          contexts := Function.update g.contexts ctx none }
  | call =>
    match g.current with
    | none => .error call
    | some ctx =>
      match (g.contexts ctx).bind (allows · call) with
      | none => .error call
      | some c => .ok { g with contexts := Function.update g.contexts ctx (some c) }

end Imgui

/-! ## The renderer -/

/-- All functions of the device that are asked for. -/
structure FullDispatch extends Dispatch where
  getDeviceProcAddr : Bool := true
  createDescriptorPool : Bool := true
  destroyDescriptorPool : Bool := true
  /-- `GetDeviceProcAddr` finds `vkDestroyPipeline`. -/
  destroyPipeline : Bool := true

inductive ImguiKind where
  | descriptorPool | context | pipeline | shaderModule
  deriving DecidableEq, Repr

/-- What the renderers of a process have created and destroyed, and their calls
    into ImGui. -/
structure ImguiLog where
  objects : Ledger ImguiKind := {}
  calls : List ImguiCall := []

def ImguiLog.call (cs : List ImguiCall) (l : ImguiLog) : ImguiLog :=
    { l with calls := l.calls ++ cs }

structure ImguiRenderer where
  initDone : Bool := false
  frameStarted : Bool := false
  hdrPipeline : Option Nat := none
  ctx : Option Nat := none
  hasDevice : Bool := false
  descriptorPool : Option Nat := none
  disp : Option FullDispatch := none

namespace ImguiRenderer

def ready (r : ImguiRenderer) : Bool := r.initDone

/-- What the textures see of it. -/
def forTextures (r : ImguiRenderer) : Renderer where
  ready := r.ready
  dispatch := r.disp.map FullDispatch.toDispatch
  hasDevice := r.hasDevice

/-- What `init` meets. -/
structure InitEnv where
  /-- No handle is null, there are images, and `gipa` is there. -/
  handles : Bool := true
  createPool : Bool := true
  createContext : Bool := true
  /-- `load_overlay_font` throws. -/
  fontThrows : Bool := false
  loadFunctions : Bool := true
  vulkanInit : Bool := true
  /-- The transfer function is not `None`. -/
  hdr : Bool := false
  /-- The backend has its vertex shader and its pipeline layout. -/
  backendShader : Bool := true
  createShaderModule : Bool := true
  createPipeline : Bool := true

inductive InitResult where
  | ready
  | failed
  | threw
  deriving DecidableEq, Repr

structure Inited where
  renderer : ImguiRenderer
  log : ImguiLog
  result : InitResult

/-- The way out of `init` behind the descriptor pool. -/
def giveUp (r : ImguiRenderer) (l : ImguiLog) : Inited where
  renderer := { r with descriptorPool := none, ctx := none, hasDevice := false, disp := none }
  log := { l with objects := l.objects.free .descriptorPool r.descriptorPool }
  result := .failed

/-- The way out of `init` behind the context. -/
def dropContext (r : ImguiRenderer) (l : ImguiLog) : Inited :=
  giveUp r { objects := l.objects.free .context r.ctx
             calls := l.calls ++ r.ctx.toList.map .destroyContext }

/-- `create_hdr_pipeline`: the shader module goes as soon as the pipeline was asked for. -/
def createHdrPipeline (env : InitEnv) (l : Ledger ImguiKind) : Option Nat × Ledger ImguiKind :=
  if !env.backendShader then (none, l)
  else
    let frag := l.fresh env.createShaderModule
    let l := l.create .shaderModule env.createShaderModule
    if !env.createShaderModule then (none, l)
    else
      (l.fresh env.createPipeline,
        (l.create .pipeline env.createPipeline).free .shaderModule frag)

/-- From the backend on. -/
def initBackend (env : InitEnv) (r : ImguiRenderer) (l : ImguiLog) : Inited :=
  if !env.loadFunctions then dropContext r l
  else if !env.vulkanInit then dropContext r l
  else
    let l := l.call [.vulkanInit]
    if env.hdr then
      let made := createHdrPipeline env l.objects
      { renderer := { r with hdrPipeline := made.1, initDone := true }
        log := { l with objects := made.2 }
        result := .ready }
    else { renderer := { r with initDone := true }, log := l, result := .ready }

def init (env : InitEnv) (d : FullDispatch) (r : ImguiRenderer) (l : ImguiLog) : Inited :=
  if r.initDone then ⟨r, l, .ready⟩
  else if !env.handles || !d.getDeviceProcAddr || !d.createDescriptorPool ||
      !d.destroyDescriptorPool then ⟨r, l, .failed⟩
  else
    let r := { r with hasDevice := true, disp := some d
                      descriptorPool := l.objects.fresh env.createPool }
    let l := { l with objects := l.objects.create .descriptorPool env.createPool }
    if !env.createPool then
      ⟨{ r with descriptorPool := none, hasDevice := false, disp := none }, l, .failed⟩
    else
      let r := { r with ctx := l.objects.fresh env.createContext }
      let l : ImguiLog :=
        { objects := l.objects.create .context env.createContext
          calls := l.calls ++ r.ctx.toList.flatMap fun c =>
            [.createContext c, .setCurrentContext c] }
      if !env.createContext then giveUp r l
      else if env.fontThrows then ⟨r, l, .threw⟩
      else initBackend env r l

/-- `ImGui::SetCurrentContext(ctx_)` and then these calls. -/
def withContext (cs : List ImguiCall) (r : ImguiRenderer) : List ImguiCall :=
  r.ctx.toList.map .setCurrentContext ++ cs

/-- `begin_frame`, up to `draw_overlay`. -/
def newFrame (r : ImguiRenderer) (l : ImguiLog) : ImguiLog :=
  l.call (r.withContext [.vulkanNewFrame, .newFrame])

/-- `begin_frame`, behind `draw_overlay`. -/
def render (r : ImguiRenderer) (l : ImguiLog) : ImguiRenderer × ImguiLog :=
  ({ r with frameStarted := true }, l.call [.render])

/-- `frame_has_content`, where there is a frame. -/
def frameHasContent (r : ImguiRenderer) (l : ImguiLog) : ImguiLog :=
  if !r.initDone || !r.frameStarted then l else l.call (r.withContext [])

/-- `end_frame`: with a command buffer the draw data is recorded, which may
    throw. -/
def endFrame (cmd : Bool) (throws : Bool) (r : ImguiRenderer) (l : ImguiLog) :
    ImguiRenderer × ImguiLog :=
  if !r.initDone || !r.frameStarted then (r, l)
  else
    let l := l.call (r.withContext (if cmd then [.vulkanRenderDrawData] else []))
    (if cmd && throws then r else { r with frameStarted := false }, l)

/-- `add_texture` and `remove_texture`. -/
def onTexture (call : ImguiCall) (r : ImguiRenderer) (l : ImguiLog) : ImguiLog :=
  if !r.initDone then l else l.call (r.withContext [call])

/-- `shutdown` -/
def shutdown (r : ImguiRenderer) (l : ImguiLog) : ImguiRenderer × ImguiLog :=
  let l := l.call (r.withContext [])
  let l := if r.initDone && r.frameStarted then l.call [.endFrame] else l
  let drops := r.initDone && r.hasDevice && r.disp.any FullDispatch.getDeviceProcAddr
  let l : ImguiLog :=
    { objects :=
        if drops && r.disp.any FullDispatch.destroyPipeline then
          l.objects.free .pipeline r.hdrPipeline
        else l.objects
      calls := if r.initDone then l.calls ++ [.vulkanShutdown] else l.calls }
  let l : ImguiLog :=
    { objects := l.objects.free .context r.ctx
      calls := l.calls ++ r.ctx.toList.map .destroyContext }
  ({ frameStarted := r.frameStarted && !r.initDone
     hdrPipeline := if drops then none else r.hdrPipeline },
    { l with
      objects :=
        if r.hasDevice && r.disp.any FullDispatch.destroyDescriptorPool then
          l.objects.free .descriptorPool r.descriptorPool
        else l.objects })

/-- What it has created and not destroyed. -/
def objects (r : ImguiRenderer) : Multiset (Obj ImguiKind) :=
  owned .context r.ctx + owned .descriptorPool r.descriptorPool + owned .pipeline r.hdrPipeline

end ImguiRenderer

/-! ## Calls that ImGui expects -/

namespace Imgui

variable {g g' g'' : Imgui} {l l' l'' : ImguiLog} {c : Nat} {k k' : ImguiContext}

/-- A context after calls made while it is current. -/
def allowsAll (k : ImguiContext) (cs : List ImguiCall) : Option ImguiContext := cs.foldlM allows k

/-- The contexts after one of them has changed. -/
def set (g : Imgui) (c : Nat) (k : Option ImguiContext) : Nat → Option ImguiContext :=
  Function.update g.contexts c k

@[simp] theorem set_self : g.set c (some k) c = some k := Function.update_self ..

theorem set_other {other : Nat} (h : other ≠ c) (k : Option ImguiContext) :
    g.set c k other = g.contexts other := Function.update_of_ne h _ _

/-- A context is current, and this is where it has come to. -/
def put (g : Imgui) (c : Nat) (k : ImguiContext) : Imgui where
  current := some c
  contexts := g.set c (some k)

@[simp] theorem put_current : (g.put c k).current = some c := rfl

@[simp] theorem put_self : (g.put c k).contexts c = some k := set_self

theorem put_other {other : Nat} (h : other ≠ c) : (g.put c k).contexts other = g.contexts other :=
  set_other h _

@[simp] theorem set_put (o : Option ImguiContext) : (g.put c k).set c o = g.set c o :=
  Function.update_idem ..

@[simp] theorem put_put : (g.put c k).put c k' = g.put c k' := by
  rw [put, set_put, put]

/-- Nothing changes on the current context. -/
theorem put_same (hcur : g.current = some c) (hc : g.contexts c = some k) : g.put c k = g := by
  rw [put, set, ← hc, Function.update_eq_self, ← hcur]

/-- Between two points of the log ImGui is only called as it expects. -/
def Plays (l l' : ImguiLog) (g g' : Imgui) : Prop :=
  ∃ cs, l'.calls = l.calls ++ cs ∧ Machine.runM step g cs = .ok g'

theorem Plays.refl (l : ImguiLog) (g : Imgui) : Plays l l g g :=
  ⟨[], (List.append_nil _).symm, rfl⟩

theorem Plays.trans (h : Plays l l' g g') (h' : Plays l' l'' g' g'') : Plays l l'' g g'' := by
  obtain ⟨cs, hcs, hrun⟩ := h
  obtain ⟨cs', hcs', hrun'⟩ := h'
  refine ⟨cs ++ cs', ?_, Machine.runM_append_eq_ok.mpr ⟨g', hrun, hrun'⟩⟩
  rw [hcs', hcs, List.append_assoc]

/-- Only the calls of the log count. -/
theorem Plays.congr (h : Plays l l' g g') (hcalls : l''.calls = l'.calls) : Plays l l'' g g' := by
  obtain ⟨cs, hcs, hrun⟩ := h
  exact ⟨cs, hcalls.trans hcs, hrun⟩

theorem plays_one {call : ImguiCall} (h : g.step call = .ok g') :
    Plays l (l.call [call]) g g' := ⟨[call], rfl, (Machine.runM_singleton g call).trans h⟩

theorem step_of_allows {call : ImguiCall} (hcur : g.current = some c)
    (hc : g.contexts c = some k) (hk : allows k call = some k') :
    g.step call = .ok (g.put c k') := by
  cases call with
  | createContext | setCurrentContext | destroyContext => cases hk
  | vulkanInit | vulkanNewFrame | newFrame | render | endFrame | vulkanRenderDrawData |
      vulkanAddTexture | vulkanRemoveTexture | vulkanShutdown =>
    simp only [step, hcur, hc, Option.bind_some, hk, put, set]

/-- Calls on the context that is current. -/
theorem plays_current (cs : List ImguiCall) (hcur : g.current = some c)
    (hc : g.contexts c = some k) (hk : allowsAll k cs = some k') :
    Plays l (l.call cs) g (g.put c k') := by
  refine ⟨cs, rfl, ?_⟩
  induction cs generalizing g k with
  | nil =>
    obtain rfl := Option.some.inj hk
    rw [put_same hcur hc]
    rfl
  | cons call cs ih =>
    rw [allowsAll, List.foldlM_cons, Option.bind_eq_bind, Option.bind_eq_some_iff] at hk
    obtain ⟨k₁, hk₁, hrest⟩ := hk
    refine Machine.runM_cons_eq_ok.mpr ⟨_, step_of_allows hcur hc hk₁, ?_⟩
    have hrun := ih (g := g.put c k₁) put_current put_self hrest
    rwa [put_put] at hrun

theorem step_setCurrent (hc : g.contexts c = some k) :
    g.step (.setCurrentContext c) = .ok { g with current := some c } := by
  simp only [step, hc, Option.isSome_some, if_true]

/-- Calls on a context that is made current for them. -/
theorem plays_withContext {r : ImguiRenderer} {cs : List ImguiCall} (hr : r.ctx = some c)
    (hc : g.contexts c = some k) (hk : allowsAll k cs = some k') :
    Plays l (l.call (r.withContext cs)) g (g.put c k') := by
  have hfirst : Plays l (l.call [.setCurrentContext c]) g { g with current := some c } :=
    plays_one (step_setCurrent hc)
  refine (hfirst.trans (plays_current cs (g := { g with current := some c }) rfl hc hk)).congr ?_
  simp [ImguiLog.call, ImguiRenderer.withContext, hr]

theorem plays_destroyContext (hc : g.contexts c = some k) (hk : k.backend ≠ .up) :
    Plays l (l.call [.destroyContext c]) g
      { current := if g.current = some c then none else g.current, contexts := g.set c none } :=
  plays_one (by simp only [step, hc, if_neg hk, set])

end Imgui

/-! ## What the renderer does to them -/

namespace ImguiRenderer

open Imgui

variable {g : Imgui} {l : ImguiLog} {r : ImguiRenderer} {c : Nat} {k k' : ImguiContext}

/-- The renderer came as far as its context, and can give back what it has. -/
structure Lives (r : ImguiRenderer) (c : Nat) : Prop where
  ctx : r.ctx = some c
  hasDevice : r.hasDevice = true
  disp : ∃ d, r.disp = some d ∧ d.getDeviceProcAddr = true ∧ d.destroyDescriptorPool = true ∧
    d.destroyPipeline = true
  started : r.frameStarted = true → r.initDone = true
  pipeline : r.initDone = false → r.hdrPipeline = none

/-- What `init` comes to. -/
def InitEnv.outcome (env : InitEnv) (d : FullDispatch) : InitResult :=
  if !env.handles || !d.getDeviceProcAddr || !d.createDescriptorPool ||
      !d.destroyDescriptorPool then .failed
  else if !env.createPool || !env.createContext then .failed
  else if env.fontThrows then .threw
  else if !env.loadFunctions || !env.vulkanInit then .failed
  else .ready

/-- A new renderer behind `init`: after a failure nothing is left of it, otherwise it
lives in a context of its own, outside a frame. -/
structure Inited.Sound (l : ImguiLog) (g g' : Imgui) (i : Inited) : Prop where
  plays : Plays l i.log g g'
  old : ∀ c < l.objects.created.length, g'.contexts c = g.contexts c
  fresh : ∀ c, i.log.objects.created.length ≤ c → g'.contexts c = none
  custody : Custody l.objects i.log.objects (if i.result = .failed then 0 else i.renderer.objects)
  lives : i.result ≠ .failed → ∃ c, i.renderer.Lives c ∧ l.objects.created.length ≤ c ∧
    g'.contexts c = some ⟨.of i.renderer.initDone, .idle⟩
  ready : i.renderer.initDone = decide (i.result = .ready)
  started : i.renderer.frameStarted = false

section Init

variable {env : InitEnv} {d : FullDispatch}

/-- A context is created and made current. -/
theorem plays_createContext (hc : g.contexts c = none) :
    Plays l (l.call [.createContext c, .setCurrentContext c]) g (g.put c {}) := by
  have hcreate : g.step (.createContext c) =
      .ok { current := g.current.or (some c), contexts := g.set c (some {}) } := by
    simp only [step, hc, Option.isSome_none, Bool.false_eq_true, if_false, Imgui.set]
  refine ((plays_one hcreate).trans (plays_one (step_setCurrent set_self))).congr ?_
  simp [ImguiLog.call]

/-- A failure that ImGui has not seen, or has forgotten. -/
theorem Inited.sound_failed {r : ImguiRenderer} {l' : ImguiLog} {g' : Imgui}
    (hl : Custody l.objects l'.objects 0) (hplays : Plays l l' g g')
    (hg : ∀ c, l.objects.created.length ≤ c → g'.contexts c = none)
    (hold : ∀ c < l.objects.created.length, g'.contexts c = g.contexts c)
    (hdone : r.initDone = false) (hstarted : r.frameStarted = false) :
    Inited.Sound l g g' ⟨r, l', .failed⟩ :=
  ⟨hplays, hold, fun c hc => hg c (hl.length_le.trans hc), by simpa using hl, fun h => absurd rfl h,
    hdone, hstarted⟩

/-- A renderer with its pool and its context, and nothing else. -/
def opened (d : FullDispatch) (pool c : Nat) : ImguiRenderer where
  ctx := some c
  hasDevice := true
  descriptorPool := some pool
  disp := some d

theorem opened_objects (d : FullDispatch) (pool c : Nat) (done : Bool) (hdr : Option Nat) :
    ({ opened d pool c with initDone := done, hdrPipeline := hdr } : ImguiRenderer).objects =
      owned .descriptorPool (some pool) + owned .context (some c) + owned .pipeline hdr := by
  rw [objects, opened, add_comm (owned ImguiKind.context _)]

/-- The way out behind the context. -/
theorem dropContext_sound {pool : Nat} {l' : ImguiLog} (hc : l.objects.created.length ≤ c)
    (hlt : c < l'.objects.created.length)
    (hg : ∀ x, l.objects.created.length ≤ x → g.contexts x = none)
    (hplays : Plays l l' g (g.put c {}))
    (hl : Custody l.objects l'.objects (owned .descriptorPool (some pool) + owned .context (some
      c))) :
    ∃ g', (dropContext (opened d pool c) l').Sound l g g' := by
  have hgone : Custody l.objects
      ((l'.objects.free .context (some c)).free .descriptorPool (some pool)) 0 := by
    refine Custody.free (h := some pool) (Custody.free (h := some c) ?_)
    rwa [zero_add]
  have hdestroy := plays_destroyContext (l := l') (g := g.put c {}) put_self
    (by decide)
  rw [set_put] at hdestroy
  refine ⟨_, Inited.sound_failed hgone ((hplays.trans hdestroy).congr rfl) (fun x hx => ?_)
    (fun x hx => ?_) rfl rfl⟩
  · rcases eq_or_ne x c with rfl | hne
    · exact Function.update_self ..
    · exact (set_other hne _).trans (hg x hx)
  · have hne : x ≠ c := by omega
    exact set_other hne _

/-- A renderer that is kept behind its context. -/
theorem Inited.sound_kept {i : Inited} {frame : ImguiContext} (pool : Nat) (hdr : Option Nat)
    (hd : d.getDeviceProcAddr = true ∧ d.destroyDescriptorPool = true ∧ d.destroyPipeline = true)
    (hc : l.objects.created.length ≤ c) (hlt : c < i.log.objects.created.length)
    (hg : ∀ x, l.objects.created.length ≤ x → g.contexts x = none)
    (hframe : frame = ⟨.of i.renderer.initDone, .idle⟩)
    (hplays : Plays l i.log g (g.put c frame))
    (hr : i.renderer =
      { opened d pool c with initDone := decide (i.result = .ready), hdrPipeline := hdr })
    (hhdr : i.result = .threw → hdr = none) (hresult : i.result ≠ .failed)
    (hl : Custody l.objects i.log.objects i.renderer.objects) :
    i.Sound l g (g.put c frame) := by
  have hold : ∀ x, x ≠ c → g.set c (some frame) x = g.contexts x := fun x hx => set_other hx _
  refine ⟨hplays, fun x hx => hold x (by omega), fun x hx => ?_, ?_, fun _ => ?_, ?_, ?_⟩
  · exact (hold x (by omega)).trans (hg x (by omega))
  · rwa [if_neg hresult]
  · refine ⟨c, ⟨?_, ?_, ⟨d, ?_, hd⟩, ?_, ?_⟩, hc, ?_⟩
    · rw [hr, opened]
    · rw [hr, opened]
    · rw [hr, opened]
    · rw [hr, opened]
      exact fun h => (by cases h)
    · rw [hr]
      intro hdone
      refine hhdr ?_
      cases h : i.result with
      | threw => rfl
      | failed => exact absurd h hresult
      | ready => simp [h] at hdone
    · rw [← hframe]
      exact set_self
  · rw [hr]
  · rw [hr, opened]

/-- What was made for the HDR pipeline is the pipeline, or gone. -/
theorem createHdrPipeline_spec (env : InitEnv) (l : Ledger ImguiKind) :
    Custody l (createHdrPipeline env l).2 (owned .pipeline (createHdrPipeline env l).1) := by
  have hfrag := (Custody.refl l).create .shaderModule env.createShaderModule
  unfold createHdrPipeline
  split
  · exact .refl l
  cases hcreate : env.createShaderModule with
  | false =>
    rw [hcreate] at hfrag
    exact hfrag
  | true =>
    rw [hcreate] at hfrag
    have hpipeline := hfrag.create .pipeline env.createPipeline
    rw [zero_add, add_comm] at hpipeline
    exact hpipeline.free

/-- From the backend on. -/
theorem initBackend_sound {pool : Nat} {l' : ImguiLog}
    (hd : d.getDeviceProcAddr = true ∧ d.destroyDescriptorPool = true ∧ d.destroyPipeline = true)
    (hc : l.objects.created.length ≤ c) (hlt : c < l'.objects.created.length)
    (hg : ∀ x, l.objects.created.length ≤ x → g.contexts x = none)
    (hplays : Plays l l' g (g.put c {}))
    (hl : Custody l.objects l'.objects (owned .descriptorPool (some pool) + owned .context (some
      c))) :
    ∃ g', (initBackend env (opened d pool c) l').Sound l g g' := by
  unfold initBackend
  split
  · exact dropContext_sound hc hlt hg hplays hl
  split
  · exact dropContext_sound hc hlt hg hplays hl
  have hinit := plays_current [.vulkanInit] (l := l') (g := g.put c {})
    put_current put_self rfl
  rw [put_put] at hinit
  have hplayed := hplays.trans hinit
  refine ⟨g.put c ⟨.up, .idle⟩, ?_⟩
  split
  · have hmade := createHdrPipeline_spec env l'.objects
    have hpipeline := hl.trans hmade
    have hlonger := hmade.length_le
    refine Inited.sound_kept pool _ hd hc (hlt.trans_le hlonger) hg rfl
      (hplayed.congr rfl) rfl (fun h => (by cases h)) (fun h => (by cases h)) ?_
    exact (opened_objects d pool c true _).symm ▸ hpipeline
  · refine Inited.sound_kept pool none hd hc hlt hg rfl (hplayed.congr rfl) rfl
      (fun _ => rfl) (fun h => (by cases h)) ?_
    refine (opened_objects d pool c true none).symm ▸ ?_
    rwa [owned_none, add_zero]

/-- `init` of a new renderer. -/
theorem init_spec (env : InitEnv) (hd : d.destroyPipeline = true)
    (hg : ∀ c, l.objects.created.length ≤ c → g.contexts c = none) :
    ∃ g', (init env d {} l).Sound l g g' := by
  unfold init
  simp only [Bool.false_eq_true, if_false]
  split
  · exact ⟨g, Inited.sound_failed (.refl _) (.refl _ _) hg (fun _ _ => rfl) rfl rfl⟩
  rename_i hchecks
  simp only [Bool.or_eq_true, Bool.not_eq_true', not_or, Bool.not_eq_false] at hchecks
  obtain ⟨⟨⟨-, hproc⟩, -⟩, hpools⟩ := hchecks
  have hpool := (Custody.refl l.objects).create .descriptorPool env.createPool
  rw [zero_add] at hpool
  cases hcreate : env.createPool with
  | false =>
    rw [hcreate] at hpool
    exact ⟨g, Inited.sound_failed hpool ((Plays.refl l g).congr rfl) hg (fun _ _ => rfl) rfl rfl⟩
  | true =>
    rw [hcreate] at hpool
    have hctx := hpool.create .context env.createContext
    simp only [Bool.not_true, Bool.false_eq_true, if_false]
    cases hcreated : env.createContext with
    | false =>
      rw [hcreated] at hctx
      simp only [Ledger.fresh, Bool.false_eq_true, if_false, owned_none, add_zero] at hctx
      rw [← zero_add (owned _ _)] at hctx
      refine ⟨g, Inited.sound_failed (Custody.free hctx) ((Plays.refl l g).congr ?_) hg
        (fun _ _ => rfl) rfl rfl⟩
      exact List.append_nil _
    | true =>
      rw [hcreated] at hctx
      set pool := l.objects.created.length with hpoolId
      set c := (l.objects.create .descriptorPool true).created.length with hctxId
      have hc : pool ≤ c := hpool.length_le
      have hplays := plays_createContext (l := l) (hg c hc)
      have hlt : c < ((l.objects.create .descriptorPool true).create .context
        true).created.length := by
        simp [Ledger.create, hctxId]
      simp only [Bool.not_true, Bool.false_eq_true, if_false]
      split
      · exact ⟨_, Inited.sound_kept (d := d) pool none
          ⟨hproc, hpools, hd⟩ hc hlt hg rfl (hplays.congr rfl) rfl (fun _ => rfl)
          (fun h => (by cases h)) ((opened_objects d pool c false none).symm ▸ (by
            rwa [owned_none, add_zero]))⟩
      · exact initBackend_sound ⟨hproc, hpools, hd⟩ hc hlt hg (hplays.congr rfl) hctx

end Init

/-! ### Frames -/

/-- A context as its renderer takes it to be. Only where the overlay is latched off may a
frame be open. -/
structure Fits (r : ImguiRenderer) (latched : Bool) (k : ImguiContext) : Prop where
  backend : k.backend = .of r.initDone
  started : r.frameStarted = true → k.frame ≠ .idle
  closed : latched = false → r.frameStarted = false ∧ k.frame ≠ .begun

theorem Fits.weaken {latched latched' : Bool} (hk : r.Fits latched k)
    (h : latched = true → latched' = true) : r.Fits latched' k := by
  refine ⟨hk.backend, hk.started, fun hlatched => hk.closed ?_⟩
  cases hwas : latched with
  | false => rfl
  | true => rw [h hwas] at hlatched; cases hlatched

/-- `begin_frame` up to `draw_overlay`. -/
theorem newFrame_spec (hr : r.Lives c) (hc : g.contexts c = some k) (hk : r.Fits false k)
    (hdone : r.initDone = true) :
    Plays l (r.newFrame l) g (g.put c ⟨.up, .begun⟩) := by
  refine plays_withContext hr.ctx hc ?_
  have hopen := (hk.closed rfl).2
  simp [allowsAll, allows, hk.backend, hdone, hopen, BackendPhase.of]

/-- `begin_frame` behind `draw_overlay`. -/
theorem render_spec (hcur : g.current = some c) (hc : g.contexts c = some ⟨.up, .begun⟩) :
    Plays l (r.render l).2 g (g.put c ⟨.up, .built⟩) :=
  plays_current [.render] hcur hc rfl

theorem frameHasContent_objects : (r.frameHasContent l).objects = l.objects := by
  unfold frameHasContent
  split <;> rfl

theorem endFrame_objects {cmd throws : Bool} : (r.endFrame cmd throws l).2.objects = l.objects := by
  unfold endFrame
  split <;> rfl

theorem frameHasContent_spec (hr : r.Lives c) (hc : g.contexts c = some k)
    (hdone : r.initDone = true) (hstarted : r.frameStarted = true) :
    Plays l (r.frameHasContent l) g (g.put c k) := by
  simp only [frameHasContent, hdone, hstarted, Bool.not_true, Bool.or_self, Bool.false_eq_true,
    if_false]
  exact plays_withContext hr.ctx hc rfl

/-- `end_frame` behind `begin_frame`: only an exception leaves the frame pending. -/
theorem endFrame_spec (cmd throws : Bool) (hr : r.Lives c) (hc : g.contexts c = some ⟨.up, .built⟩)
    (hdone : r.initDone = true) (hstarted : r.frameStarted = true) :
    Plays l (r.endFrame cmd throws l).2 g (g.put c ⟨.up, .built⟩) ∧
      (r.endFrame cmd throws l).1 = { r with frameStarted := cmd && throws } := by
  obtain ⟨done, started, hdr, ctx, hasDevice, pool, disp⟩ := r
  obtain rfl : done = true := hdone
  obtain rfl : started = true := hstarted
  constructor
  · refine plays_withContext hr.ctx hc ?_
    cases cmd <;> rfl
  · cases cmd <;> cases throws <;> rfl

/-- The calls for one texture after the other. -/
theorem foldl_onTexture (r : ImguiRenderer) (calls : List ImguiCall) (l : ImguiLog) :
    calls.foldl (fun l call => r.onTexture call l) l =
      if r.initDone then l.call (calls.flatMap fun call => r.withContext [call]) else l := by
  induction calls generalizing l with
  | nil => cases r.initDone <;> simp [ImguiLog.call]
  | cons call calls ih =>
    rw [List.foldl_cons, ih]
    cases hdone : r.initDone <;> simp [onTexture, ImguiLog.call, hdone]

/-- Textures are registered or removed, in or outside a frame. -/
theorem onTextures_spec {calls : List ImguiCall} (hr : r.Lives c) (hc : g.contexts c = some k)
    (hback : k.backend = .up)
    (hcalls : ∀ x ∈ calls, x = .vulkanAddTexture ∨ x = .vulkanRemoveTexture) :
    ∃ current, Plays l (l.call (calls.flatMap fun x => r.withContext [x])) g
      { g with current } ∧ (g.current = some c → current = some c) := by
  induction calls generalizing l g with
  | nil => exact ⟨g.current, (Plays.refl l g).congr (List.append_nil _), id⟩
  | cons x calls ih =>
    have hone : Plays l (l.call (r.withContext [x])) g (g.put c k) := by
      refine plays_withContext hr.ctx hc ?_
      rcases hcalls x List.mem_cons_self with rfl | rfl <;> simp [allowsAll, allows, hback]
    obtain ⟨current, hrest, hcurrent⟩ := ih (l := l.call (r.withContext [x])) (g := g.put c k)
      put_self fun y hy => hcalls y (List.mem_cons_of_mem _ hy)
    have hsame : (g.put c k).contexts = g.contexts := by
      rw [put, Imgui.set, ← hc, Function.update_eq_self]
    rw [hsame] at hrest
    refine ⟨current, (hone.trans hrest).congr ?_, fun _ => hcurrent put_current⟩
    simp [ImguiLog.call]

/-- What `shutdown` calls before it gives up the context. -/
def closing (r : ImguiRenderer) : List ImguiCall :=
  (if r.initDone && r.frameStarted then [.endFrame] else []) ++
    if r.initDone then [.vulkanShutdown] else []

theorem shutdown_calls (hr : r.ctx = some c) : (r.shutdown l).2.calls =
    ((l.call (r.withContext r.closing)).call [.destroyContext c]).calls := by
  simp only [shutdown, ImguiLog.call, withContext, closing, hr, Option.toList_some, List.map_cons,
    List.map_nil, List.append_nil]
  cases r.initDone <;> cases r.frameStarted <;> simp

theorem allowsAll_closing {latched : Bool} (hk : r.Fits latched k) :
    ∃ k', allowsAll k r.closing = some k' ∧ k'.backend ≠ .up := by
  have hback := hk.backend
  rw [closing]
  cases hdone : r.initDone with
  | false =>
    rw [hdone] at hback
    exact ⟨k, rfl, by rw [hback]; decide⟩
  | true =>
    rw [hdone] at hback
    cases hstarted : r.frameStarted with
    | false =>
      refine ⟨⟨.gone, k.frame⟩, ?_, fun h => (by cases h)⟩
      simp [allowsAll, allows, hback, BackendPhase.of]
    | true =>
      have hframe := hk.started hstarted
      refine ⟨⟨.gone, .built⟩, ?_, by decide⟩
      simp [allowsAll, allows, hback, hframe, BackendPhase.of]

/-- `shutdown` gives back what the renderer has, and ends its context. -/
theorem shutdown_spec {latched : Bool} (hr : r.Lives c) (hc : g.contexts c = some k)
    (hk : r.Fits latched k) :
    Destroys l.objects (r.shutdown l).2.objects r.objects ∧
      ∃ current, Plays l (r.shutdown l).2 g { current, contexts := g.set c none } := by
  constructor
  · obtain ⟨d, hd, hproc, hpools, hpipelines⟩ := hr.disp
    have hctx : ∀ m : Ledger ImguiKind, Destroys m
        ((m.free .context r.ctx).free .descriptorPool r.descriptorPool)
        (owned .context r.ctx + owned .descriptorPool r.descriptorPool) :=
      fun m => (Destroys.free m .context r.ctx).trans (.free ..)
    rw [objects, add_comm]
    simp only [shutdown, ImguiLog.call, hr.hasDevice, hd, Option.any_some, hproc, hpools,
      hpipelines, Bool.and_true, if_true]
    cases hdone : r.initDone with
    | true =>
      simp only [if_true]
      have hpipeline := Destroys.free l.objects .pipeline r.hdrPipeline
      split <;> exact hpipeline.trans (hctx _)
    | false =>
      rw [hr.pipeline hdone, owned_none, zero_add]
      exact hctx _
  · obtain ⟨k', hclosing, hdown⟩ := allowsAll_closing hk
    have hclosed := plays_withContext (l := l) hr.ctx hc hclosing
    have hgone := hclosed.trans (plays_destroyContext (g := g.put c k') put_self hdown)
    rw [set_put] at hgone
    exact ⟨_, hgone.congr (shutdown_calls hr.ctx)⟩

end ImguiRenderer

end Choir
