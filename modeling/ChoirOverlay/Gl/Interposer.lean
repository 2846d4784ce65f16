-- SUMMARY: The OpenGL interposer: which calls of a game reach its hooks, and the state it keeps for each context.
import ChoirOverlay.Machine.Handles
import ChoirOverlay.Overlay.StateClient
import Mathlib.Data.List.AList

/-!
# The interposer

The library is preloaded, so that its exported symbols come before the
driver's. A game reaches an entry point by linking to it, or through a pointer
that a resolver gave it; the hooks of the resolvers hand out some of the
library's own. What the driver does with contexts is an input.
-/

namespace Choir

/-- A context handle; 0 is null. -/
abbrev GlContext := Nat

/-! ## Resolving -/

/-- The exported hooks, without the resolvers'. -/
inductive GlEntry where
  | eglSwapBuffers
  | eglSwapBuffersWithDamageKHR
  | eglSwapBuffersWithDamageEXT
  | eglDestroyContext
  | glXSwapBuffers
  | glXDestroyContext
  deriving DecidableEq, Repr

def GlEntry.name : GlEntry → String
  | .eglSwapBuffers => "eglSwapBuffers"
  | .eglSwapBuffersWithDamageKHR => "eglSwapBuffersWithDamageKHR"
  | .eglSwapBuffersWithDamageEXT => "eglSwapBuffersWithDamageEXT"
  | .eglDestroyContext => "eglDestroyContext"
  | .glXSwapBuffers => "glXSwapBuffers"
  | .glXDestroyContext => "glXDestroyContext"

def GlEntry.isSwap : GlEntry → Bool
  | .eglSwapBuffers | .eglSwapBuffersWithDamageKHR | .eglSwapBuffersWithDamageEXT
  | .glXSwapBuffers => true
  | .eglDestroyContext | .glXDestroyContext => false

/-- `hook_for`: the swap functions only. -/
def hookFor (name : String) : Option GlEntry :=
  if name = "eglSwapBuffers" then some .eglSwapBuffers
  else if name = "eglSwapBuffersWithDamageKHR" then some .eglSwapBuffersWithDamageKHR
  else if name = "eglSwapBuffersWithDamageEXT" then some .eglSwapBuffersWithDamageEXT
  else if name = "glXSwapBuffers" then some .glXSwapBuffers
  else none

/-- How a game came by the function it calls. -/
inductive GlRoute where
  | linked
  /-- `dlsym`; the real one may find the exported hook, when it is asked to look
      in the global scope. -/
  | dlsym (findsExport : Bool)
  /-- A `GetProcAddress` function: its hook, or the driver's. -/
  | getProcAddress (hooked : Bool)
  deriving DecidableEq, Repr

/-- The function the game calls is the library's. -/
def GlRoute.reachesHook (entry : GlEntry) : GlRoute → Bool
  | .linked => true
  | .dlsym findsExport => (hookFor entry.name).isSome || findsExport
  | .getProcAddress hooked => hooked && (hookFor entry.name).isSome

/-- The resolvers hand out the hook that was asked for, and only swap functions. -/
theorem hookFor_name (entry : GlEntry) :
    hookFor entry.name = if entry.isSwap then some entry else none := by
  cases entry <;> decide

/-! ## State -/

/-- `CtxState`. -/
structure CtxState where
  /-- `renderer.ready()`. -/
  ready : Bool := false
  skip : Bool := false
  /-- Which context of the handle `renderer.init` ran in, counted from one. -/
  initialisedFor : Option Nat := none
  deriving DecidableEq, Repr

/-- A draw: the context it was made in, and the one its renderer was initialised
    in. -/
structure GlDraw where
  context : GlContext
  incarnation : Nat
  initialisedFor : Option Nat
  deriving DecidableEq, Repr

structure GlProcess where
  /-- `g_ctxs`. -/
  ctxs : AList fun _ : GlContext => CtxState := ∅
  /-- The handles that stand for a context. -/
  live : GlContext → Bool := fun _ => false
  /-- What happened to the handles, newest first. -/
  history : List (Handles.Event GlContext) := []
  draws : List GlDraw := []

/-- What a swap meets. -/
structure SwapEnv where
  /-- `overlay_disabled()`. -/
  disabled : Bool := false
  client : StateClient := {}
  /-- What `renderer.init` returns. -/
  initOk : Bool := true

/-- The overlay is drawn: the gates of `draw_overlay_for` after the null check. -/
def SwapEnv.draws (env : SwapEnv) : Bool :=
  !env.disabled && !env.client.disabled && env.client.gate

namespace GlProcess

/-- Which context of the handle is the present one. -/
def incarnation (ctx : GlContext) (g : GlProcess) : Nat := Handles.incarnation ctx g.history

/-! ## Hooks -/

def drawOverlayFor (env : SwapEnv) (ctx : GlContext) (g : GlProcess) : GlProcess :=
  if ctx = 0 || !env.draws then g
  else
    let g := { g with history := .use ctx env.initOk :: g.history }
    let st := (g.ctxs.lookup ctx).getD {}
    if st.skip then { g with ctxs := g.ctxs.insert ctx st }
    else if !st.ready && !env.initOk then
      { g with ctxs := g.ctxs.insert ctx { st with skip := true } }
    else
      let st := if st.ready then st
        else { st with ready := true, initialisedFor := some (g.incarnation ctx) }
      { g with
        ctxs := g.ctxs.insert ctx st
        draws := ⟨ctx, g.incarnation ctx, st.initialisedFor⟩ :: g.draws }

/-- `destroy_ctx`. What it tears down or leaks is gone from the map either way. -/
def destroyCtx (ctx : GlContext) (g : GlProcess) : GlProcess :=
  { g with ctxs := g.ctxs.erase ctx, history := .drop ctx :: g.history }

inductive Call where
  /-- The driver makes a context, under a handle no context has. -/
  | create (ctx : GlContext)
  /-- The driver frees a context: at its destruction, or later where it was
      still current. -/
  | free (ctx : GlContext)
  /-- The game calls an entry point; a swap on its current context. -/
  | enter (entry : GlEntry) (route : GlRoute) (ctx : GlContext) (env : SwapEnv)

/-- The call runs the swap hook on a context. -/
def swaps (entry : GlEntry) (route : GlRoute) (ctx : GlContext) (g : GlProcess) : Bool :=
  route.reachesHook entry && entry.isSwap && g.live ctx

def step (g : GlProcess) : Call → GlProcess
  | .create ctx =>
    if ctx = 0 || g.live ctx then g
    else { g with live := Function.update g.live ctx true, history := .make ctx :: g.history }
  | .free ctx => { g with live := Function.update g.live ctx false }
  | .enter entry route ctx env =>
    if g.swaps entry route ctx then g.drawOverlayFor env ctx
    else if route.reachesHook entry && !entry.isSwap then g.destroyCtx ctx
    else g

end GlProcess

end Choir
