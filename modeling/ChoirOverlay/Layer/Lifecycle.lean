-- SUMMARY: The life of a swapchain in the layer: what its hooks build for one, and what they wait for before they free it.
import ChoirOverlay.Layer.Swapchain

/-!
# CreateSwapchainKHR and DestroySwapchainKHR

The hooks of a process, over all of its devices. What the driver answers and
what throws are inputs. The hooks never look into a handle of an image's own
objects: these objects carry the number of the image, counted over the process.
-/

namespace Choir

abbrev VkDevice := Nat

/-- A call on a device. -/
inductive DeviceCall where
  /-- A call of the present hook, or a wait before objects are freed. -/
  | hook (call : VkCall)
  /-- View, framebuffer, fence and semaphore of an image. -/
  | createImage (img : ImageState)
  /-- `DestroySemaphore`, `DestroyFence`, `DestroyFramebuffer` and
      `DestroyImageView` for an image. -/
  | destroyImage (img : ImageState)
  /-- `DestroyCommandPool`, which frees the command buffers. -/
  | destroyPool (cmds : List VkCommandBuffer)
  /-- The application's own swapchain. -/
  | destroySwapchain (swapchain : VkSwapchain)
  deriving DecidableEq, Repr

structure LayerProcess where
  /-- `device_data`. -/
  devices : VkDevice → Option DeviceData := fun _ => none
  /-- `overlay_disabled()`. -/
  disabled : Bool := false
  /-- `g_swapchains`. -/
  swapchains : AList fun _ : VkSwapchain => SwapchainState := ∅
  /-- How many images had objects made for them. -/
  made : Nat := 0
  /-- The calls on the devices, newest first. -/
  log : List DeviceCall := []

namespace LayerProcess

def call (c : DeviceCall) (p : LayerProcess) : LayerProcess := { p with log := c :: p.log }

/-- `mark_overlay_failed`. -/
def markOverlayFailed (device : VkDevice) (p : LayerProcess) : LayerProcess :=
  { p with
    devices := Function.update p.devices device
      ((p.devices device).map fun dd => { dd with overlayFailed := true }) }

/-! ## Freeing -/

/-- `wait_overlay_idle`, on the images from some point on. Images are there only
    where `build_state` found `WaitForFences`. -/
def waitOverlayIdle : List (ImageState × Bool) → LayerProcess → LayerProcess
  | [], p => p
  | (img, waited) :: rest, p =>
    waitOverlayIdle rest
      (if img.fenceInFlight then p.call (.hook (.waitForFences img.fence waited)) else p)

def destroyImages : List ImageState → LayerProcess → LayerProcess
  | [], p => p
  | img :: rest, p => destroyImages rest (p.call (.destroyImage img))

/-- `destroy_state`; `pool` tells whether the state has one. -/
def destroyState (s : SwapchainState) (pool : Bool) (p : LayerProcess) : LayerProcess :=
  let p := destroyImages s.images p
  if pool then p.call (.destroyPool (s.images.map ImageState.cmd)) else p

/-- Wait and free; `waits` tells what each wait returns. A state has a pool with its images. -/
def release (s : SwapchainState) (waits : List Bool) (p : LayerProcess) : LayerProcess :=
  (p.waitOverlayIdle (s.images.zipIdx.map fun e => (e.1, waits.getD e.2 true))).destroyState s
    !s.images.isEmpty

/-- Take the state of a swapchain out of the map, wait and free. -/
def retire (swapchain : VkSwapchain) (waits : List Bool) (p : LayerProcess) : LayerProcess :=
  match p.swapchains.lookup swapchain with
  | none => p
  | some s => { p with swapchains := p.swapchains.erase swapchain }.release s waits

/-! ## Building -/

/-- What the calls of `build_state` answer. -/
structure BuildEnv where
  /-- The dispatch functions, the queue family, the images, the render pass, the
      pool and the command buffers are all there. -/
  ready : Bool := true
  /-- One entry an image: its objects can be made. -/
  images : List Bool := []
  deriving DecidableEq, Repr

/-- The objects of the `n`-th image of the process. -/
def newImage (n : Nat) : ImageState := { cmd := n, fence := n, overlayDone := n }

/-- The loop of `build_state`, with the images built so far; `none` when the
    objects of one cannot be made. -/
def buildImages : List Bool → List ImageState → LayerProcess →
    LayerProcess × List ImageState × Bool
  | [], built, p => (p, built, true)
  | false :: _, built, p => (p, built, false)
  | true :: rest, built, p =>
    let img := newImage p.made
    buildImages rest (built ++ [img]) ({ p with made := p.made + 1 }.call (.createImage img))

/-- `build_state`: on a failure what was built is freed again. -/
def buildState (env : BuildEnv) (p : LayerProcess) : LayerProcess × SwapchainState :=
  if !env.ready || env.images.isEmpty then (p, {})
  else
    match p.buildImages env.images [] with
    | (p, images, true) => (p, { images, ok := true })
    | (p, images, false) => (p.destroyState { images } true, {})

/-! ## The hooks -/

/-- Where the bookkeeping of a hook throws. -/
inductive CreateThrow where
  /-- At the lock, before the old state is taken out. -/
  | retiring
  /-- In `build_state`, before the first image. -/
  | building
  /-- When the new state is put into the map. -/
  | storing
  deriving DecidableEq, Repr

structure CreateEnv where
  /-- The down-chain `CreateSwapchainKHR` is there. -/
  canCreate : Bool := true
  /-- The usage bit the overlay needs was not asked for by the application. -/
  usageAdded : Bool := false
  /-- What the driver returns, with the new swapchain. -/
  result : VkResult := 0
  swapchain : VkSwapchain := 0
  /-- The same for the application's own request. -/
  retryResult : VkResult := 0
  retrySwapchain : VkSwapchain := 0
  throws : Option CreateThrow := none
  waits : List Bool := []
  build : BuildEnv := {}

/-- The new swapchain, and whether the overlay can draw on it. -/
def CreateEnv.outcome (env : CreateEnv) : VkResult × VkSwapchain × Bool :=
  if env.result ≠ 0 ∧ env.usageAdded = true then (env.retryResult, env.retrySwapchain, false)
  else (env.result, env.swapchain, true)

/-- The bookkeeping after the old state is gone. -/
def track (env : CreateEnv) (device : VkDevice) (dd : DeviceData) (swapchain : VkSwapchain)
    (overlayCapable : Bool) (p : LayerProcess) : LayerProcess :=
  if dd.overlayDisabled then p
  else if overlayCapable && env.throws == some .building then p.markOverlayFailed device
  else
    let (p, s) := if overlayCapable then p.buildState env.build else (p, {})
    if env.throws = some .storing then p.markOverlayFailed device
    else { p with swapchains := p.swapchains.insert swapchain s }

def createSwapchainKHR (env : CreateEnv) (device : VkDevice) (old : Option VkSwapchain)
    (p : LayerProcess) : LayerProcess × VkResult :=
  match p.devices device with
  | none => (p, vkErrorInitializationFailed)
  | some dd =>
    if !env.canCreate then (p, vkErrorInitializationFailed)
    else
      let (result, swapchain, overlayCapable) := env.outcome
      if result ≠ 0 then (p, result)
      else
        match old with
        | none => (p.track env device dd swapchain overlayCapable, result)
        | some old =>
          if env.throws = some .retiring then (p.markOverlayFailed device, result)
          else ((p.retire old env.waits).track env device dd swapchain overlayCapable, result)

structure DestroyEnv where
  /-- The lock throws. -/
  throws : Bool := false
  waits : List Bool := []
  /-- The down-chain `DestroySwapchainKHR` is there. -/
  canDestroy : Bool := true

def destroySwapchainKHR (env : DestroyEnv) (device : VkDevice) (swapchain : VkSwapchain)
    (p : LayerProcess) : LayerProcess :=
  let p := if env.throws then p.markOverlayFailed device else p.retire swapchain env.waits
  if (p.devices device).isSome && env.canDestroy then p.call (.destroySwapchain swapchain) else p

/-- The present hook on a queue of the device. -/
def queuePresentKHR (env : PresentEnv) (device : VkDevice) (queue : VkQueue)
    (info : Option PresentInfo) (p : LayerProcess) : LayerProcess × VkResult :=
  let (l, result) := Layer.queuePresentKHR env queue info
    { dd := p.devices device, disabled := p.disabled, swapchains := p.swapchains }
  ({ p with
      devices := Function.update p.devices device l.dd
      swapchains := l.swapchains
      log := l.calls.reverse.map .hook ++ p.log }, result)

/-- A call of the game. -/
inductive Call where
  | create (env : CreateEnv) (device : VkDevice) (old : Option VkSwapchain)
  | present (env : PresentEnv) (device : VkDevice) (queue : VkQueue) (info : Option PresentInfo)
  | destroy (env : DestroyEnv) (device : VkDevice) (swapchain : VkSwapchain)

def step (p : LayerProcess) : Call → LayerProcess
  | .create env device old => (p.createSwapchainKHR env device old).1
  | .present env device queue info => (p.queuePresentKHR env device queue info).1
  | .destroy env device swapchain => p.destroySwapchainKHR env device swapchain

end LayerProcess

end Choir
