-- SUMMARY: All that the Vulkan layer has created in a process: over any calls of the game it is kept by one swapchain, or given back.
import ChoirOverlay.Layer.ImguiRenderer
import ChoirOverlay.Layer.SwapchainObjects
import ChoirOverlay.Layer.Lifecycle
import ChoirOverlay.Machine.Holders

/-!
# Estate

The hooks of a process with the objects they create, down to the textures and
the ImGui contexts. The devices are all there from the start, and a hook runs to
its end before the next one begins.
-/

namespace Choir

open Ownership

/-! ## State -/

/-- What is created and destroyed, and called. -/
structure EstateLog where
  vk : VkLog := {}
  im : ImguiLog := {}
  /-- The objects that an exception took along, with a state or with a texture. -/
  lost : Multiset (Obj VkKind) := 0

/-- The state of a swapchain with its objects. -/
structure Drawable where
  device : VkDevice
  /-- The functions of `dd`. -/
  dispatch : FullDispatch
  objects : Building.SwapchainState
  /-- `fence_in_flight` of each image. -/
  inFlight : List Bool := []
  imgui : Option ImguiRenderer := none
  imguiTried : Bool := false

structure Estate where
  devices : VkDevice → Option DeviceData := fun _ => none
  dispatch : VkDevice → FullDispatch := fun _ => {}
  /-- `overlay_disabled()`. -/
  disabled : Bool := false
  /-- `g_swapchains`. -/
  swapchains : AList fun _ : VkSwapchain => Drawable := ∅
  log : EstateLog := {}

/-! ## record_one -/

/-- What a call of `record_one` meets. `rendererThrows` is an exception before
    `init`; what `init` itself comes to is in `init`. -/
structure FrameEnv extends RecordEnv where
  init : ImguiRenderer.InitEnv := {}
  /-- The textures `draw_overlay` asks for. -/
  loads : List (LoadEnv × Bytes) := []
  /-- The load behind them in which `textures_.emplace` throws, if the frame ends so. -/
  unstored : Option (LoadEnv × Bytes) := none

inductive RecordKind where
  | drawn | skipped | failed | threw
  deriving DecidableEq, Repr

namespace AvatarTextures

/-- `get_or_load` comes to `add_texture`. -/
def registers (env : LoadEnv) (hash : Bytes) (a : AvatarTextures) (l : VkLog) : Bool :=
  hash ≠ [] && (a.textures.lookup hash).isNone && a.renderer.any Renderer.ready &&
    (readAvatarRgba env.file).any (fun (w, h, rgba) =>
      w ≠ 0 && h ≠ 0 && rgba.length == w.toNat * h.toNat * 4) &&
    (createTexture env.toTextureEnv a.renderer l).ok

/-- The calls of `add_texture`. -/
def added (a : AvatarTextures) (l : VkLog) : List (LoadEnv × Bytes) → List ImguiCall
  | [] => []
  | (env, hash) :: rest =>
    let r := a.getOrLoad env hash l
    (if a.registers env hash l then [.vulkanAddTexture] else []) ++ added r.1 r.2.1 rest

/-- What a load has made by the time it stores the texture. -/
def made (env : LoadEnv) (hash : Bytes) (a : AvatarTextures) (l : VkLog) : Multiset (Obj VkKind) :=
  (a.getOrLoad env hash l).1.objects - a.objects

/-- The calls of `remove_texture` in a shutdown. -/
def removed (a : AvatarTextures) : List ImguiCall :=
  a.textures.flatMap fun e => if e.2.descriptor.isSome then [.vulkanRemoveTexture] else []

end AvatarTextures

namespace Drawable

/-- What `record_one` leaves. -/
structure Recorded where
  state : Drawable
  log : EstateLog
  latched : Bool := false
  result : RecordKind

/-- What `begin_frame` leaves. -/
structure Begun where
  renderer : ImguiRenderer
  avatars : AvatarTextures
  log : EstateLog

/-- The textures of `draw_overlay`, which draws nothing outside a voice session. -/
def drawOverlay (env : FrameEnv) (r : ImguiRenderer) (a : AvatarTextures) (l : EstateLog) :
    AvatarTextures × EstateLog :=
  let loads := if env.client.gate then env.loads else []
  let loaded := a.loadAll l.vk loads
  (loaded.1,
    { l with
      vk := loaded.2
      im := (a.added l.vk loads).foldl (fun l call => r.onTexture call l) l.im })

/-- The last load of a frame that throws: the texture is made and registered, and in no map. -/
def loseTexture (env : FrameEnv) (r : ImguiRenderer) (a : AvatarTextures) (l : EstateLog) :
    EstateLog :=
  match (if env.client.gate then env.unstored else none) with
  | none => l
  | some (load, hash) =>
    { vk := (a.getOrLoad load hash l.vk).2.1
      im := (a.added l.vk [(load, hash)]).foldl (fun l call => r.onTexture call l) l.im
      lost := l.lost + a.made load hash l.vk }

/-- `begin_frame`; an exception comes out of `draw_overlay`. -/
def beginFrame (env : FrameEnv) (r : ImguiRenderer) (a : AvatarTextures) (l : EstateLog) : Begun :=
  if !r.initDone || r.frameStarted then ⟨r, a, l⟩
  else
    let drawn := drawOverlay env r a { l with im := r.newFrame l.im }
    if env.frameThrows then ⟨r, drawn.1, loseTexture env r drawn.1 drawn.2⟩
    else
      let rendered := r.render drawn.2.im
      ⟨rendered.1, drawn.1, { drawn.2 with im := rendered.2 }⟩

/-- The lazy init; an exception leaves what was set before it. -/
def initRenderer (env : FrameEnv) (s : Drawable) (l : EstateLog) : Drawable × EstateLog × Bool :=
  if env.client.gate && !s.imguiTried then
    if env.rendererThrows then ({ s with imguiTried := true }, l, false)
    else
      let i := ImguiRenderer.init env.init s.dispatch {} l.im
      let s := { s with
        imguiTried := true
        imgui := if i.result = .failed then none else some i.renderer }
      (s, { l with im := i.log }, i.result ≠ .threw)
  else (s, l, true)

/-- `end_frame`, and what `record_one` returns. -/
def endFrame (cmd throws latched : Bool) (result : RecordKind) (r : ImguiRenderer) (s : Drawable)
    (l : EstateLog) : Recorded :=
  let ended := r.endFrame cmd throws l.im
  { state := { s with imgui := some ended.1 }, log := { l with im := ended.2 }, latched, result }

/-- From the fence wait on. -/
def recordPass (env : FrameEnv) (imageIndex : Nat) (r : ImguiRenderer) (s : Drawable)
    (l : EstateLog) : Recorded :=
  if s.inFlight.getD imageIndex false && !env.waited then s.endFrame false false false .failed r l
  else if !env.begun then s.endFrame false false false .failed r l
  else
    s.endFrame true env.drawThrows env.drawThrows
      (if env.drawThrows || !env.ended then .failed else .drawn) r l

/-- From `begin_frame` on. -/
def recordFrame (env : FrameEnv) (imageIndex : Nat) (r : ImguiRenderer) (s : Drawable)
    (l : EstateLog) : Recorded :=
  let a := s.objects.avatars.getD { renderer := some r.forTextures }
  let f := beginFrame env r a l
  let s := { s with objects := s.objects.withAvatars f.avatars }
  if env.frameThrows then s.endFrame false false true .failed f.renderer f.log
  else
    let l := { f.log with im := f.renderer.frameHasContent f.log.im }
    if !env.frameHasContent then s.endFrame false false false .skipped f.renderer l
    else s.recordPass env imageIndex f.renderer l

/-- `record_one` -/
def recordOne (env : FrameEnv) (imageIndex : Nat) (s : Drawable) (l : EstateLog) : Recorded :=
  if !s.objects.ok || s.objects.images.length ≤ imageIndex then
    { state := s, log := l, result := .failed }
  else if env.startThrows then { state := s, log := l, result := .threw }
  else if env.client.disabled then { state := s, log := l, result := .skipped }
  else
    let i := s.initRenderer env l
    if !i.2.2 then { state := i.1, log := i.2.1, result := .threw }
    else
      match i.1.imgui with
      | none => { state := i.1, log := i.2.1, result := .skipped }
      | some r =>
        if !r.ready then { state := i.1, log := i.2.1, result := .skipped }
        else if i.1.objects.avatars.isNone && env.avatarsThrow then
          { state := i.1, log := i.2.1, result := .threw }
        else i.1.recordFrame env imageIndex r i.2.1

/-- `destroy_state` -/
def destroyState (s : Drawable) (l : EstateLog) : EstateLog where
  vk := (Building.destroyState s.objects l.vk).2
  im :=
    match s.imgui with
    | none => l.im
    | some r =>
      let removed := s.objects.avatars.elim [] AvatarTextures.removed
      (r.shutdown (removed.foldl (fun l call => r.onTexture call l) l.im)).2
  lost := l.lost

end Drawable

/-! ## The hooks -/

namespace Estate

/-- `mark_overlay_failed`. -/
def markOverlayFailed (device : VkDevice) (e : Estate) : Estate :=
  { e with
    devices := Function.update e.devices device
      ((e.devices device).map fun dd => { dd with overlayFailed := true }) }

structure PresentEnv extends Choir.PresentEnv where
  frames : List FrameEnv := []

/-- How the first phase ends, with the swapchains and images a command buffer was
    recorded for. -/
inductive Batch where
  | recorded (images : List (VkSwapchain × Nat))
  | failed
  | threw

/-- The first phase, with the images recorded so far. -/
def recordAll : List FrameEnv → List (VkSwapchain × Nat) → List (VkSwapchain × Nat) → Estate →
    Estate × Batch
  | _, recorded, [], e => (e, .recorded recorded)
  | envs, recorded, (swapchain, imageIndex) :: rest, e =>
    match e.swapchains.lookup swapchain with
    | none => (e, .failed)
    | some s =>
      let r := s.recordOne (envs.headD {}) imageIndex e.log
      let e := { e with swapchains := e.swapchains.insert swapchain r.state, log := r.log }
      let e := if r.latched then e.markOverlayFailed s.device else e
      match r.result with
      | .failed => (e, .failed)
      | .threw => (e, .threw)
      | .skipped => recordAll envs.tail recorded rest e
      | .drawn => recordAll envs.tail (recorded ++ [(swapchain, imageIndex)]) rest e

def setFenceInFlight (r : VkSwapchain × Nat) (b : Bool) (e : Estate) : Estate :=
  match e.swapchains.lookup r.1 with
  | none => e
  | some s =>
    { e with swapchains := e.swapchains.insert r.1 { s with inFlight := s.inFlight.set r.2 b } }

/-- The second phase from image `i` on. -/
def submitAll (device : VkDevice) : Nat → List SubmitEnv → List (VkSwapchain × Nat) → Estate →
    Estate
  | _, _, [], e => e
  | i, envs, r :: rest, e =>
    let env := envs.headD {}
    let e := e.setFenceInFlight r false
    if !env.reset then if i = 0 then e.markOverlayFailed device else e
    else if !env.submitted then e.markOverlayFailed device
    else submitAll device (i + 1) envs.tail rest (e.setFenceInFlight r true)

/-- The overlay block of `QueuePresentKHR`, behind the gates. -/
def overlayBlock (env : PresentEnv) (device : VkDevice) (info : PresentInfo) (e : Estate) :
    Estate :=
  if env.entryThrows then e.markOverlayFailed device
  else
    match e.recordAll env.frames [] info.swapchains with
    | (e, .threw) => e.markOverlayFailed device
    | (e, .failed) => e
    | (e, .recorded []) => e
    | (e, .recorded images) =>
      if env.stagesThrow then e.markOverlayFailed device
      else e.submitAll device 0 env.submits images

/-- The present hook on a queue of the device. -/
def queuePresentKHR (env : PresentEnv) (device : VkDevice) (queue : VkQueue)
    (info : Option PresentInfo) (e : Estate) : Estate :=
  match e.devices device, info with
  | some dd, some info =>
    if Layer.passes queue info { disabled := e.disabled } dd then e
    else e.overlayBlock env device info
  | _, _ => e

/-- Take the state of a swapchain out of the map and free it. -/
def retire (swapchain : VkSwapchain) (e : Estate) : Estate :=
  match e.swapchains.lookup swapchain with
  | none => e
  | some s => { e with swapchains := e.swapchains.erase swapchain, log := s.destroyState e.log }

structure CreateEnv extends LayerProcess.CreateEnv where
  built : Building.BuildEnv := {}
  /-- The exception in `build_state` comes behind the render pass and the pool. -/
  behindPool : Bool := false

/-- `build_state` up to an exception. -/
def buildThrown (behindPool : Bool) (d : Dispatch) (l : VkLog) : Building.SwapchainState × VkLog :=
  if behindPool then
    ({ dispatch := d, renderPass := l.fresh true, pool := (l.create .renderPass true).fresh true },
      (l.create .renderPass true).create .commandPool true)
  else ({ dispatch := d }, l)

/-- The overlay is off, and what the state had come to is lost. -/
def lose (device : VkDevice) (s : Building.SwapchainState) (l : VkLog) (e : Estate) : Estate :=
  { e with log := { e.log with vk := l, lost := e.log.lost + s.objects } }.markOverlayFailed device

/-- The bookkeeping of `CreateSwapchainKHR` after the old state is gone. -/
def track (env : CreateEnv) (device : VkDevice) (dd : DeviceData) (swapchain : VkSwapchain)
    (overlayCapable : Bool) (e : Estate) : Estate :=
  let dispatch := e.dispatch device
  let d := dispatch.toDispatch
  if dd.overlayDisabled then e
  else if overlayCapable && env.throws == some .building then
    let thrown := buildThrown env.behindPool d e.log.vk
    e.lose device thrown.1 thrown.2
  else
    let b :=
      if overlayCapable then Building.buildState env.built { dispatch := d } e.log.vk
      else ⟨{ dispatch := d }, e.log.vk, false⟩
    if env.throws = some .storing then e.lose device b.state b.log
    else
      { e with
        log := { e.log with vk := b.log }
        swapchains := e.swapchains.insert swapchain
          { device, dispatch, objects := b.state
            inFlight := b.state.images.map fun _ => false } }

def createSwapchainKHR (env : CreateEnv) (device : VkDevice) (old : Option VkSwapchain)
    (e : Estate) : Estate :=
  match e.devices device with
  | none => e
  | some dd =>
    if !env.canCreate then e
    else
      let (result, swapchain, overlayCapable) := env.outcome
      if result ≠ 0 then e
      else
        match old with
        | none => e.track env device dd swapchain overlayCapable
        | some old =>
          if env.throws = some .retiring then e.markOverlayFailed device
          else (e.retire old).track env device dd swapchain overlayCapable

def destroySwapchainKHR (env : LayerProcess.DestroyEnv) (device : VkDevice)
    (swapchain : VkSwapchain) (e : Estate) : Estate :=
  if env.throws then e.markOverlayFailed device else e.retire swapchain

/-- A call of the game. -/
inductive Call where
  | create (env : CreateEnv) (device : VkDevice) (old : Option VkSwapchain)
  | present (env : PresentEnv) (device : VkDevice) (queue : VkQueue) (info : Option PresentInfo)
  | destroy (env : LayerProcess.DestroyEnv) (device : VkDevice) (swapchain : VkSwapchain)

def step (e : Estate) : Call → Estate
  | .create env device old => e.createSwapchainKHR env device old
  | .present env device queue info => e.queuePresentKHR env device queue info
  | .destroy env device swapchain => e.destroySwapchainKHR env device swapchain

end Estate

namespace Estate

variable {e : Estate}

/-- What `record_one` leaves, in the estate. -/
def recording (r : Drawable.Recorded) (swapchain : VkSwapchain) (device : VkDevice) (e : Estate) :
    Estate :=
  let e := { e with swapchains := e.swapchains.insert swapchain r.state, log := r.log }
  if r.latched then e.markOverlayFailed device else e

/-- One round of the first phase. -/
theorem recordAll_cons {swapchain : VkSwapchain} (imageIndex : Nat) {s : Drawable}
    (envs : List FrameEnv) (recorded rest : List (VkSwapchain × Nat))
    (hs : e.swapchains.lookup swapchain = some s) :
    e.recordAll envs recorded ((swapchain, imageIndex) :: rest) =
      match (s.recordOne (envs.headD {}) imageIndex e.log).result with
      | .failed =>
        (e.recording (s.recordOne (envs.headD {}) imageIndex e.log) swapchain s.device, .failed)
      | .threw =>
        (e.recording (s.recordOne (envs.headD {}) imageIndex e.log) swapchain s.device, .threw)
      | .skipped =>
        (e.recording (s.recordOne (envs.headD {}) imageIndex e.log) swapchain s.device).recordAll
          envs.tail recorded rest
      | .drawn =>
        (e.recording (s.recordOne (envs.headD {}) imageIndex e.log) swapchain s.device).recordAll
          envs.tail (recorded ++ [(swapchain, imageIndex)]) rest := by
  simp only [recordAll, hs]
  rfl

end Estate

/-! ## The textures of a frame -/

namespace AvatarTextures

variable {a : AvatarTextures}

/-- Whatever the loads create is in the textures, or gone. -/
theorem loadAll_spec (loads : List (LoadEnv × Bytes)) (l : VkLog) (ha : a.Kept) :
    (a.loadAll l loads).1.Kept ∧ ∃ held, Custody l (a.loadAll l loads).2 held ∧
      (a.loadAll l loads).1.objects = a.objects + held := by
  induction loads generalizing a l with
  | nil => exact ⟨ha, 0, .refl l, (add_zero _).symm⟩
  | cons load loads ih =>
    obtain ⟨hkept, held, hheld, hobjects⟩ := custody_getOrLoad ha load.1 load.2 l
    obtain ⟨hlast, held', hheld', hobjects'⟩ := ih (a.getOrLoad load.1 load.2 l).2.1 hkept
    refine ⟨hlast, held + held', hheld.trans hheld', ?_⟩
    rw [← add_assoc, ← hobjects]
    exact hobjects'

/-- A load whose texture cannot be stored. -/
theorem made_spec (env : LoadEnv) (hash : Bytes) (l : VkLog) (ha : a.Kept) :
    Custody l (a.getOrLoad env hash l).2.1 (a.made env hash l) := by
  obtain ⟨-, held, hheld, hobjects⟩ := custody_getOrLoad ha env hash l
  rwa [made, hobjects, add_tsub_cancel_left]

theorem mem_added (loads : List (LoadEnv × Bytes)) (l : VkLog) :
    ∀ x ∈ a.added l loads, x = .vulkanAddTexture ∨ x = .vulkanRemoveTexture := by
  induction loads generalizing a l with
  | nil => exact fun _ hx => absurd hx List.not_mem_nil
  | cons load loads ih =>
    intro x hx
    rcases List.mem_append.mp hx with hx | hx
    · split at hx
      · exact .inl (List.mem_singleton.mp hx)
      · exact absurd hx List.not_mem_nil
    · exact ih _ x hx

theorem mem_removed : ∀ x ∈ a.removed, x = .vulkanAddTexture ∨ x = .vulkanRemoveTexture := by
  intro x hx
  obtain ⟨e, -, hx⟩ := List.mem_flatMap.mp hx
  split at hx
  · exact .inr (List.mem_singleton.mp hx)
  · exact absurd hx List.not_mem_nil

end AvatarTextures

/-! ## One swapchain -/

namespace Drawable

open Imgui

variable {s s' s'' : Drawable} {l l' l'' : EstateLog} {g g' g'' : Imgui} {r : ImguiRenderer}
    {c : Nat}
  {k : ImguiContext} {latched latched' : Bool} {env : FrameEnv}

def ctx (s : Drawable) : Option Nat := s.imgui.bind ImguiRenderer.ctx

/-- What its renderer has. -/
def backend (s : Drawable) : Multiset (Obj ImguiKind) := s.imgui.elim 0 ImguiRenderer.objects

/-- What the state holds can be given back, and ImGui is where the state says. -/
structure Sound (latched : Bool) (g : Imgui) (s : Drawable) : Prop where
  dispatch : s.dispatch.destroyPipeline = true
  kept : s.objects.Kept
  avatars : ∀ a ∈ s.objects.avatars, ∃ r, s.imgui = some r ∧ r.initDone = true
  imgui : ∀ r ∈ s.imgui, ∃ c k, r.Lives c ∧ g.contexts c = some k ∧ r.Fits latched k
  untried : s.imguiTried = false → s.imgui = none

/-- What a hook may do to a state: whatever it creates the state holds or is lost, and ImGui's
other contexts stay as they are. -/
structure Moves (s : Drawable) (l : EstateLog) (g : Imgui) (s' : Drawable) (l' : EstateLog)
    (g' : Imgui) (latched : Bool) : Prop where
  device : s'.device = s.device
  sound : s'.Sound latched g'
  plays : Plays l.im l'.im g g'
  vk : ∃ new, Custody l.vk l'.vk new ∧
    s'.objects.objects + l'.lost = s.objects.objects + l.lost + new
  im : ∃ held, Custody l.im.objects l'.im.objects held ∧ s'.backend = s.backend + held
  others : ∀ c < l.im.objects.created.length, s.ctx ≠ some c → g'.contexts c = g.contexts c
  fresh : ∀ c, l'.im.objects.created.length ≤ c → g'.contexts c = none
  ctx : ∀ c, s'.ctx = some c → s.ctx = some c ∨ l.im.objects.created.length ≤ c

theorem Moves.refl (hs : s.Sound latched g)
    (hg : ∀ c, l.im.objects.created.length ≤ c → g.contexts c = none) :
    s.Moves l g s l g latched :=
  ⟨rfl, hs, .refl _ _, ⟨0, .refl _, (add_zero _).symm⟩, ⟨0, .refl _, (add_zero _).symm⟩,
    fun _ _ _ => rfl, hg, fun _ h => .inl h⟩

theorem Moves.trans (h : s.Moves l g s' l' g' latched) (h' : s'.Moves l' g' s'' l'' g'' latched') :
    s.Moves l g s'' l'' g'' latched' := by
  obtain ⟨held, hheld, hobjects⟩ := h.vk
  obtain ⟨held', hheld', hobjects'⟩ := h'.vk
  obtain ⟨has, hhas, hbackend⟩ := h.im
  obtain ⟨has', hhas', hbackend'⟩ := h'.im
  have hle := hhas.length_le
  refine ⟨h'.device.trans h.device, h'.sound, h.plays.trans h'.plays,
    ⟨held + held', hheld.trans hheld', ?_⟩, ⟨has + has', hhas.trans hhas', ?_⟩, ?_, h'.fresh, ?_⟩
  · rw [hobjects', hobjects, add_assoc _ held]
  · rw [hbackend', hbackend, add_assoc]
  · intro c hc hne
    have hne' : s'.ctx ≠ some c := by
      intro hctx
      rcases h.ctx c hctx with hctx | hle
      · exact hne hctx
      · omega
    rw [h'.others c (by omega) hne', h.others c hc hne]
  · intro c hc
    rcases h'.ctx c hc with hc | hc
    · exact h.ctx c hc
    · exact .inr (hle.trans hc)

/-- The textures of a frame, registered while the context of the renderer is current. -/
theorem drawOverlay_spec (env : FrameEnv) {a : AvatarTextures} (hr : r.Lives c)
    (hdone : r.initDone = true) (hcur : g.current = some c) (hc : g.contexts c = some k)
    (hback : k.backend = .up) (ha : a.Kept) :
    Plays l.im (drawOverlay env r a l).2.im g g ∧
      (drawOverlay env r a l).2.im.objects = l.im.objects ∧ (drawOverlay env r a l).1.Kept ∧
      ∃ held, Custody l.vk (drawOverlay env r a l).2.vk held ∧
        (drawOverlay env r a l).1.objects = a.objects + held := by
  obtain ⟨current, hplays, hcurrent⟩ := ImguiRenderer.onTextures_spec (l := l.im) hr hc hback
    (AvatarTextures.mem_added (if env.client.gate then env.loads else []) l.vk)
  rw [hcurrent hcur, ← hcur] at hplays
  simp only [drawOverlay, ImguiRenderer.foldl_onTexture, hdone, if_true]
  exact ⟨hplays, rfl, AvatarTextures.loadAll_spec _ _ ha⟩

/-- The texture that cannot be stored, registered while the same context is current. -/
theorem loseTexture_spec (env : FrameEnv) {a : AvatarTextures} (hr : r.Lives c)
    (hdone : r.initDone = true) (hcur : g.current = some c) (hc : g.contexts c = some k)
    (hback : k.backend = .up) (ha : a.Kept) :
    Plays l.im (loseTexture env r a l).im g g ∧
      (loseTexture env r a l).im.objects = l.im.objects ∧
      ∃ new, Custody l.vk (loseTexture env r a l).vk new ∧
        (loseTexture env r a l).lost = l.lost + new := by
  unfold loseTexture
  split
  · exact ⟨.refl _ _, rfl, 0, .refl _, (add_zero _).symm⟩
  · rename_i load hash _
    obtain ⟨current, hplays, hcurrent⟩ := ImguiRenderer.onTextures_spec (l := l.im) hr hc hback
      (AvatarTextures.mem_added (a := a) [(load, hash)] l.vk)
    rw [hcurrent hcur, ← hcur] at hplays
    simp only [ImguiRenderer.foldl_onTexture, hdone, if_true]
    exact ⟨hplays, rfl, _, AvatarTextures.made_spec load hash l.vk ha, rfl⟩

/-- `begin_frame`: an exception leaves the frame open. -/
theorem beginFrame_spec (env : FrameEnv) {a : AvatarTextures} (hr : r.Lives c)
    (hc : g.contexts c = some k)
    (hk : r.Fits false k) (hdone : r.initDone = true) (ha : a.Kept) :
    (beginFrame env r a l).renderer = { r with frameStarted := !env.frameThrows } ∧
      Plays l.im (beginFrame env r a l).log.im g
        (g.put c ⟨.up, if env.frameThrows then .begun else .built⟩) ∧
      (beginFrame env r a l).log.im.objects = l.im.objects ∧ (beginFrame env r a l).avatars.Kept ∧
      ∃ new, Custody l.vk (beginFrame env r a l).log.vk new ∧
        (beginFrame env r a l).avatars.objects + (beginFrame env r a l).log.lost =
          a.objects + l.lost + new := by
  have hstarted := (hk.closed rfl).1
  have hnew := ImguiRenderer.newFrame_spec (l := l.im) hr hc hk hdone
  obtain ⟨hdraws, hobjects, hkept, held, hheld, hall⟩ :=
    drawOverlay_spec env (g := g.put c ⟨.up, .begun⟩) (l := { l with im := r.newFrame l.im }) hr
      hdone put_current put_self rfl ha
  set drawn := drawOverlay env r a { l with im := r.newFrame l.im } with hdrawn
  have hkeeps : drawn.2.lost = l.lost := rfl
  obtain ⟨hloses, hlostIm, new, hnew', hlost⟩ :=
    loseTexture_spec env (g := g.put c ⟨.up, .begun⟩) (a := drawn.1) (l := drawn.2) hr hdone
      put_current put_self rfl hkept
  have hrender (l' : ImguiLog) :
      Plays l' (r.render l').2 (g.put c ⟨.up, .begun⟩) (g.put c ⟨.up, .built⟩) := by
    have hput := ImguiRenderer.render_spec (r := r) (l := l') put_current
      (put_self (g := g) (c := c) (k := ⟨.up, .begun⟩))
    rwa [put_put] at hput
  obtain ⟨done, started, hdr, ctx, hasDevice, pool, disp⟩ := r
  obtain rfl : done = true := hdone
  obtain rfl : started = false := hstarted
  simp only [beginFrame, Bool.not_true, Bool.or_self, Bool.false_eq_true, if_false]
  cases env.frameThrows with
  | true =>
    refine ⟨rfl, (hnew.trans hdraws).trans hloses, hlostIm.trans hobjects, hkept, held + new,
      hheld.trans hnew', ?_⟩
    simp only [if_true]
    rw [hlost, hall, hkeeps, ← add_assoc, add_right_comm a.objects, ← add_assoc]
  | false =>
    refine ⟨rfl, (hnew.trans hdraws).trans (hrender _), hobjects, hkept, held, hheld, ?_⟩
    simp only [Bool.false_eq_true, if_false]
    rw [hall, hkeeps, add_right_comm]

/-- The renderer goes on in its context, and the textures may become more. -/
theorem Moves.put {r' : ImguiRenderer} {k' : ImguiContext} {o : Building.SwapchainState}
    (hs : s.Sound latched g) (hg : ∀ c, l.im.objects.created.length ≤ c → g.contexts c = none)
    (hr : s.imgui = some r) (hc : r.ctx = some c) (hk : g.contexts c = some k)
    (hlives : r'.Lives c) (hfits : r'.Fits latched' k') (hdone : r'.initDone = true)
    (hobjects : r'.objects = r.objects) (hplays : Plays l.im l'.im g (g.put c k'))
    (him : l'.im.objects = l.im.objects) (ho : o.Kept)
    (hvk : ∃ new, Custody l.vk l'.vk new ∧
      o.objects + l'.lost = s.objects.objects + l.lost + new) :
    s.Moves l g { s with imgui := some r', objects := o } l' (g.put c k') latched' := by
  have hold : s.ctx = some c := by rw [Drawable.ctx, hr, Option.bind_some, hc]
  refine ⟨rfl, ⟨hs.dispatch, ho, fun a _ => ⟨r', rfl, hdone⟩, ?_, ?_⟩, hplays, hvk,
    ⟨0, him ▸ .refl _, ?_⟩, ?_, ?_, ?_⟩
  · rintro _ ⟨⟩
    exact ⟨c, k', hlives, put_self, hfits⟩
  · intro huntried
    rw [hs.untried huntried] at hr
    cases hr
  · rw [add_zero, backend, backend, hr]
    exact hobjects
  · intro x _ hne
    exact put_other (fun h => hne (h ▸ hold))
  · intro x hx
    rw [him] at hx
    have hne : x ≠ c := by
      rintro rfl
      rw [hg x hx] at hk
      cases hk
    rw [put_other hne, hg x hx]
  · intro x hx
    rw [Drawable.ctx, Option.bind_some, hlives.ctx] at hx
    exact .inl (hold.trans hx)

/-- `end_frame` behind `begin_frame`. -/
theorem endFrame_moves (cmd throws : Bool) (result : RecordKind) (r' : ImguiRenderer)
    (l' : EstateLog) {o : Building.SwapchainState} (hs : s.Sound latched g)
    (hg : ∀ c, l.im.objects.created.length ≤ c → g.contexts c = none) (hr : s.imgui = some r)
    (hc : r.ctx = some c) (hk : g.contexts c = some k)
    (hlives : ∀ b, ({ r' with frameStarted := b } : ImguiRenderer).Lives c)
    (hdone : r'.initDone = true) (hstarted : r'.frameStarted = true) (hobjects : r'.objects =
      r.objects)
    (hplays : Plays l.im l'.im g (g.put c ⟨.up, .built⟩))
    (him : l'.im.objects = l.im.objects) (ho : o.Kept)
    (hvk : ∃ new, Custody l.vk l'.vk new ∧
      o.objects + l'.lost = s.objects.objects + l.lost + new) :
    s.Moves l g (endFrame cmd throws (cmd && throws) result r' { s with objects := o } l').state
      (endFrame cmd throws (cmd && throws) result r' { s with objects := o } l').log
      (g.put c ⟨.up, .built⟩) (cmd && throws) := by
  have hsame : ({ r' with frameStarted := true } : ImguiRenderer) = r' := by rw [← hstarted]
  obtain ⟨hended, hrenderer⟩ := ImguiRenderer.endFrame_spec cmd throws (l := l'.im)
    (g := g.put c ⟨.up, .built⟩) (hsame ▸ hlives true) put_self hdone hstarted
  rw [put_put] at hended
  simp only [endFrame, hrenderer]
  refine Moves.put hs hg hr hc hk (hlives _)
    ⟨congrArg BackendPhase.of hdone.symm, fun _ => by decide, ?_⟩ hdone hobjects
    (hplays.trans hended) (ImguiRenderer.endFrame_objects.trans him) ho hvk
  exact fun h => ⟨h, by decide⟩

/-- From `begin_frame` on: the frame is ended, or the overlay is latched off. -/
theorem recordFrame_moves (env : FrameEnv) (imageIndex : Nat) (hs : s.Sound false g)
    (hg : ∀ c, l.im.objects.created.length ≤ c → g.contexts c = none) (hr : s.imgui = some r)
    (hready : r.ready = true) :
    ∃ g', s.Moves l g (s.recordFrame env imageIndex r l).state
      (s.recordFrame env imageIndex r l).log g' (s.recordFrame env imageIndex r l).latched := by
  obtain ⟨c, k, hlives, hc, hk⟩ := hs.imgui r hr
  set a := s.objects.avatars.getD { renderer := some r.forTextures } with ha
  have hkept : a.Kept := by
    cases h : s.objects.avatars with
    | none => exact fun hne => absurd (by rw [ha, h]; rfl) hne
    | some a' =>
      rw [ha, h]
      exact hs.kept.avatars a' h
  obtain ⟨hrenderer, hbegins, him, hloaded, new, hnew, hobjects⟩ :=
    beginFrame_spec env (l := l) hlives hc hk hready hkept
  have ho : (s.objects.withAvatars (beginFrame env r a l).avatars).Kept := by
    refine ⟨hs.kept.built, ?_⟩
    rintro _ ⟨⟩
    exact hloaded
  have hvk : ∃ new, Custody l.vk (beginFrame env r a l).log.vk new ∧
      (s.objects.withAvatars (beginFrame env r a l).avatars).objects +
        (beginFrame env r a l).log.lost = s.objects.objects + l.lost + new := by
    refine ⟨new, hnew, ?_⟩
    have hhas : a.objects = s.objects.avatars.elim 0 AvatarTextures.objects := by
      rw [ha]
      cases s.objects.avatars <;> rfl
    change (beginFrame env r a l).avatars.objects + s.objects.built + _ = _
    rw [add_right_comm, hobjects, hhas, Building.SwapchainState.objects]
    abel
  have hlives' : ∀ b, ({ r with frameStarted := b } : ImguiRenderer).Lives c :=
    fun b => ⟨hlives.ctx, hlives.hasDevice, hlives.disp, fun _ => hready, hlives.pipeline⟩
  unfold recordFrame
  simp only [← ha]
  cases hthrows : env.frameThrows with
  | true =>
    rw [hthrows] at hrenderer hbegins
    have hended : (beginFrame env r a l).renderer.endFrame false false (beginFrame env r a
      l).log.im =
        ((beginFrame env r a l).renderer, (beginFrame env r a l).log.im) := by
      rw [hrenderer]
      simp [ImguiRenderer.endFrame]
    refine ⟨g.put c ⟨.up, .begun⟩, ?_⟩
    simp only [if_true, endFrame, hended]
    rw [hrenderer]
    exact Moves.put hs hg hr hlives.ctx hc (hlives' _)
      ⟨congrArg BackendPhase.of hready.symm, fun h => (by cases h), fun h => (by cases h)⟩ hready
      rfl hbegins him ho hvk
  | false =>
    rw [hthrows] at hrenderer hbegins
    have hcontent := ImguiRenderer.frameHasContent_spec (l := (beginFrame env r a l).log.im)
      (hlives' true) (put_self (g := g) (c := c) (k := ⟨.up, .built⟩)) hready rfl
    rw [put_put] at hcontent
    refine ⟨g.put c ⟨.up, .built⟩, ?_⟩
    simp only [Bool.false_eq_true, if_false]
    have hends : ∀ (cmd throws : Bool) (result : RecordKind), _ := fun cmd throws result =>
      endFrame_moves cmd throws result { r with frameStarted := true }
        { (beginFrame env r a l).log with
          im := ({ r with frameStarted := true } : ImguiRenderer).frameHasContent
            (beginFrame env r a l).log.im }
        hs hg hr hlives.ctx hc hlives' hready rfl rfl
        (hbegins.trans hcontent) (ImguiRenderer.frameHasContent_objects.trans him) ho hvk
    rw [hrenderer]
    split
    · exact hends false false .skipped
    · unfold recordPass
      split
      · exact hends false false .failed
      split
      · exact hends false false .failed
      · exact hends true env.drawThrows _

/-- The lazy init: a new renderer lives in a context of its own. -/
theorem initRenderer_moves (env : FrameEnv) (hs : s.Sound false g)
    (hg : ∀ c, l.im.objects.created.length ≤ c → g.contexts c = none) :
    ∃ g', s.Moves l g (s.initRenderer env l).1 (s.initRenderer env l).2.1 g' false := by
  unfold initRenderer
  split
  swap
  · exact ⟨g, .refl hs hg⟩
  rename_i hfirst
  simp only [Bool.and_eq_true, Bool.not_eq_true'] at hfirst
  have hnone := hs.untried hfirst.2
  split
  · refine ⟨g, rfl, ⟨hs.dispatch, hs.kept, hs.avatars, hs.imgui, fun h => (by cases h)⟩, .refl _ _,
      ⟨0, .refl _, (add_zero _).symm⟩, ⟨0, .refl _, (add_zero _).symm⟩, fun _ _ _ => rfl, hg,
      fun _ h => .inl h⟩
  obtain ⟨g', hsound⟩ := ImguiRenderer.init_spec env.init hs.dispatch hg
  have havatars : s.objects.avatars = none := by
    refine Option.eq_none_iff_forall_not_mem.mpr fun a ha => ?_
    obtain ⟨r, hr, -⟩ := hs.avatars a ha
    rw [hnone] at hr
    cases hr
  have hbackend : s.backend = 0 := by rw [backend, hnone, Option.elim_none]
  refine ⟨g', rfl, ⟨hs.dispatch, hs.kept, ?_, ?_, fun h => (by cases h)⟩, hsound.plays,
    ⟨0, .refl _, (add_zero _).symm⟩, ⟨_, hsound.custody, ?_⟩, fun c hc _ => hsound.old c hc,
    hsound.fresh, ?_⟩
  · intro a ha
    rw [havatars] at ha
    cases ha
  · intro r hr
    simp only at hr
    split at hr
    · cases hr
    rename_i hresult
    obtain rfl := Option.some.inj hr
    obtain ⟨c, hlives, -, hc⟩ := hsound.lives hresult
    exact ⟨c, _, hlives, hc, rfl, fun h => absurd h (by rw [hsound.started]; decide),
      fun _ => ⟨hsound.started, fun h => (by cases h)⟩⟩
  · rw [hbackend, zero_add]
    simp only [backend]
    split <;> rfl
  · intro c hc
    simp only [Drawable.ctx] at hc
    split at hc
    · cases hc
    rename_i hresult
    obtain ⟨c', hlives, hle, -⟩ := hsound.lives hresult
    rw [Option.bind_some, hlives.ctx] at hc
    cases hc
    exact .inr hle

/-- `record_one` of a swapchain whose overlay is not latched off. -/
theorem recordOne_moves (env : FrameEnv) (imageIndex : Nat) (hs : s.Sound false g)
    (hg : ∀ c, l.im.objects.created.length ≤ c → g.contexts c = none) :
    ∃ g', s.Moves l g (s.recordOne env imageIndex l).state (s.recordOne env imageIndex l).log g'
      (s.recordOne env imageIndex l).latched := by
  unfold recordOne
  split
  · exact ⟨g, .refl hs hg⟩
  split
  · exact ⟨g, .refl hs hg⟩
  split
  · exact ⟨g, .refl hs hg⟩
  obtain ⟨g₁, hinit⟩ := initRenderer_moves env hs hg
  simp only
  split
  · exact ⟨g₁, hinit⟩
  split
  · exact ⟨g₁, hinit⟩
  rename_i r hr
  split
  · exact ⟨g₁, hinit⟩
  rename_i hready
  split
  · exact ⟨g₁, hinit⟩
  obtain ⟨g₂, hframe⟩ := recordFrame_moves env imageIndex hinit.sound hinit.fresh hr
    (by simpa using hready)
  exact ⟨g₂, hinit.trans hframe⟩

theorem recordFrame_latched {imageIndex : Nat} :
    (s.recordFrame env imageIndex r l).latched = true →
      (s.recordFrame env imageIndex r l).result = .failed := by
  unfold recordFrame
  simp only
  split
  · exact fun _ => rfl
  split
  · exact fun h => (by cases h)
  unfold recordPass
  split
  · exact fun _ => rfl
  split
  · exact fun _ => rfl
  · intro hthrows
    have hdraw : env.drawThrows = true := hthrows
    simp [endFrame, hdraw]

/-- The overlay is latched off only where `record_one` fails. -/
theorem recordOne_latched {imageIndex : Nat} :
    (s.recordOne env imageIndex l).latched = true →
      (s.recordOne env imageIndex l).result = .failed := by
  unfold recordOne
  split
  · exact fun _ => rfl
  split
  · exact fun h => (by cases h)
  split
  · exact fun h => (by cases h)
  simp only
  split
  · exact fun h => (by cases h)
  split
  · exact fun h => (by cases h)
  split
  · exact fun h => (by cases h)
  split
  · exact fun h => (by cases h)
  · exact recordFrame_latched

/-- `destroy_state` gives back what the state holds, and ends its context. -/
theorem destroyState_spec (hs : s.Sound latched g) (l : EstateLog) :
    Destroys l.vk (s.destroyState l).vk s.objects.objects ∧
      Destroys l.im.objects (s.destroyState l).im.objects s.backend ∧
      ∃ g', Plays l.im (s.destroyState l).im g g' ∧
        (∀ c, s.ctx ≠ some c → g'.contexts c = g.contexts c) := by
  refine ⟨Building.destroyState_spec hs.kept l.vk, ?_⟩
  unfold destroyState backend Drawable.ctx
  cases hr : s.imgui with
  | none => exact ⟨.refl _, g, .refl _ _, fun _ _ => rfl⟩
  | some r =>
    obtain ⟨c, k, hlives, hc, hk⟩ := hs.imgui r hr
    have hremoved (calls : List ImguiCall)
        (hcalls : ∀ x ∈ calls, x = .vulkanAddTexture ∨ x = .vulkanRemoveTexture) :
        ∃ current, Plays l.im (calls.foldl (fun l call => r.onTexture call l) l.im) g
          { g with current } := by
      rw [ImguiRenderer.foldl_onTexture]
      split
      · rename_i hdone
        have hback : k.backend = .up := hk.backend.trans (congrArg BackendPhase.of hdone)
        obtain ⟨current, hplays, -⟩ :=
          ImguiRenderer.onTextures_spec (l := l.im) hlives hc hback hcalls
        exact ⟨current, hplays⟩
      · exact ⟨g.current, .refl _ _⟩
    obtain ⟨current, hplays⟩ := hremoved (s.objects.avatars.elim [] AvatarTextures.removed) (by
      cases s.objects.avatars with
      | none => exact fun _ hx => absurd hx List.not_mem_nil
      | some a => exact AvatarTextures.mem_removed)
    have hobjects : ((s.objects.avatars.elim [] AvatarTextures.removed).foldl
        (fun l call => r.onTexture call l) l.im).objects = l.im.objects := by
      rw [ImguiRenderer.foldl_onTexture]
      split <;> rfl
    obtain ⟨hgone, current', hends⟩ := ImguiRenderer.shutdown_spec (g := { g with current }) hlives
      hc hk
    rw [hobjects] at hgone
    refine ⟨hgone, _, hplays.trans hends, fun x hx => ?_⟩
    have hne : x ≠ c := fun h => hx (h ▸ hlives.ctx)
    exact set_other hne _

end Drawable

end Choir
