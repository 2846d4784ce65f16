-- SUMMARY: The Vulkan layer's present hook: what it records and submits for a frame, and the present it passes on.
import ChoirOverlay.Overlay.StateClient
import Mathlib.Data.List.AList

/-!
# The present hook

What the driver answers and what throws are inputs. `calls` lists the Vulkan
calls the hook makes that wait, signal or submit anything, in order.
-/

namespace Choir

abbrev VkSemaphore := Nat
abbrev VkFence := Nat
abbrev VkCommandBuffer := Nat
abbrev VkSwapchain := Nat
abbrev VkQueue := Nat
abbrev VkResult := Int

/-- `VK_ERROR_INITIALIZATION_FAILED`. -/
def vkErrorInitializationFailed : VkResult := -3

/-- `VkPresentInfoKHR`: a swapchain with its image index, for each. `pNext`
    stands for the rest of it. -/
structure PresentInfo where
  waitSemaphores : List VkSemaphore := []
  swapchains : List (VkSwapchain × Nat) := []
  pNext : Nat := 0
  deriving DecidableEq, Repr

/-! ## State -/

structure ImageState where
  cmd : VkCommandBuffer
  fence : VkFence
  overlayDone : VkSemaphore
  /-- A submit with `fence` is out and not yet waited for. -/
  fenceInFlight : Bool := false
  deriving DecidableEq, Repr

structure SwapchainState where
  images : List ImageState := []
  ok : Bool := false
  /-- `imgui` is there and ready. -/
  imguiReady : Bool := false
  imguiTried : Bool := false
  /-- `avatars` is there. -/
  avatars : Bool := false
  deriving DecidableEq, Repr

structure DeviceData where
  /-- The down-chain `QueuePresentKHR` is there. -/
  canPresent : Bool := true
  overlayDisabled : Bool := false
  overlayFailed : Bool := false
  /-- `graphics_queue_family`, when there is one. -/
  graphicsQueueFamily : Option Nat := none
  queueFamilies : List (VkQueue × Nat) := []
  deriving DecidableEq, Repr

/-- A call down the chain, with what it returns where that is looked at. -/
inductive VkCall where
  | waitForFences (fence : VkFence) (ok : Bool)
  | beginCommandBuffer (cmd : VkCommandBuffer) (ok : Bool)
  | endCommandBuffer (cmd : VkCommandBuffer)
  | resetFences (fence : VkFence) (ok : Bool)
  | queueSubmit (waits : List VkSemaphore) (cmd : VkCommandBuffer) (signal : VkSemaphore)
      (fence : VkFence) (ok : Bool)
  /-- The info is none where the application passes none. -/
  | queuePresent (info : Option PresentInfo)
  deriving DecidableEq, Repr

structure Layer where
  /-- The data of the queue's device, when the layer knows it. -/
  dd : Option DeviceData := none
  /-- `overlay_disabled()`: the environment turns the overlay off. -/
  disabled : Bool := false
  swapchains : AList fun _ : VkSwapchain => SwapchainState := ∅
  calls : List VkCall := []

namespace Layer

def call (c : VkCall) (l : Layer) : Layer := { l with calls := l.calls ++ [c] }

/-- `mark_overlay_failed`. -/
def markOverlayFailed (l : Layer) : Layer :=
  { l with dd := l.dd.map fun dd => { dd with overlayFailed := true } }

end Layer

/-! ## record_one -/

inductive RecordResult where
  | drawn (img : ImageState)
  | skipped
  | failed
  /-- An exception leaves the function. -/
  | threw
  deriving DecidableEq, Repr

/-- What a call of `record_one` meets. -/
structure RecordEnv where
  client : StateClient := {}
  startThrows : Bool := false
  rendererThrows : Bool := false
  /-- `init` returns true. -/
  rendererReady : Bool := true
  avatarsThrow : Bool := false
  frameThrows : Bool := false
  /-- The panel or a toast of a snapshot in voice is visible. -/
  hasContent : Bool := true
  waited : Bool := true
  begun : Bool := true
  drawThrows : Bool := false
  ended : Bool := true

/-- `frame_has_content`: `draw_overlay` draws nothing outside a voice session. -/
def RecordEnv.frameHasContent (env : RecordEnv) : Bool := env.client.gate && env.hasContent

/-- What `record_one` leaves. -/
structure Recording where
  state : SwapchainState
  calls : List VkCall := []
  /-- The overlay was latched off. -/
  latched : Bool := false
  result : RecordResult

/-- The lazy init; an exception leaves what was set before it. -/
def SwapchainState.initRenderer (env : RecordEnv) (s : SwapchainState) : SwapchainState × Bool :=
  if env.client.gate && !s.imguiTried then
    if env.rendererThrows then ({ s with imguiTried := true, imguiReady := false }, false)
    else ({ s with imguiTried := true, imguiReady := env.rendererReady }, true)
  else (s, true)

/-- From the fence wait on. -/
def SwapchainState.recordPass (env : RecordEnv) (img : ImageState) (s : SwapchainState) :
    Recording :=
  let waits := if img.fenceInFlight then [VkCall.waitForFences img.fence env.waited] else []
  if img.fenceInFlight && !env.waited then { state := s, calls := waits, result := .failed }
  else
    let begins := waits ++ [.beginCommandBuffer img.cmd env.begun]
    if !env.begun then { state := s, calls := begins, result := .failed }
    else
      let calls := begins ++ [.endCommandBuffer img.cmd]
      if env.drawThrows then { state := s, calls, latched := true, result := .failed }
      else if !env.ended then { state := s, calls, result := .failed }
      else { state := s, calls, result := .drawn img }

def SwapchainState.recordOne (env : RecordEnv) (imageIndex : Nat) (s : SwapchainState) :
    Recording :=
  match if s.ok then s.images[imageIndex]? else none with
  | none => { state := s, result := .failed }
  | some img =>
    if env.startThrows then { state := s, result := .threw }
    else if env.client.disabled then { state := s, result := .skipped }
    else match s.initRenderer env with
      | (s, false) => { state := s, result := .threw }
      | (s, true) =>
        if !s.imguiReady then { state := s, result := .skipped }
        else if !s.avatars && env.avatarsThrow then { state := s, result := .threw }
        else
          let s := { s with avatars := true }
          if env.frameThrows then { state := s, latched := true, result := .failed }
          else if !env.frameHasContent then { state := s, result := .skipped }
          else s.recordPass env img

/-! ## QueuePresentKHR -/

/-- A reset and a submit. -/
structure SubmitEnv where
  reset : Bool := true
  submitted : Bool := true

structure PresentEnv where
  /-- The lock or the first allocation throws. -/
  entryThrows : Bool := false
  records : List RecordEnv := []
  /-- An allocation between recording and submitting throws. -/
  stagesThrow : Bool := false
  submits : List SubmitEnv := []
  /-- What the down-chain present returns. -/
  result : VkResult := 0

/-- An image a command buffer was recorded for: `ImageState*`, with what it
    points to. -/
structure Recorded where
  swapchain : VkSwapchain
  imageIndex : Nat
  img : ImageState

/-- How the first phase ends. -/
inductive Batch where
  | recorded (images : List Recorded)
  | failed
  | threw

namespace Layer

def setFenceInFlight (r : Recorded) (b : Bool) (l : Layer) : Layer :=
  match l.swapchains.lookup r.swapchain with
  | none => l
  | some s =>
    { l with
      swapchains := l.swapchains.insert r.swapchain
        { s with images := s.images.modify r.imageIndex ({ · with fenceInFlight := b }) } }

/-- `forward`. -/
def forward (env : PresentEnv) (info : Option PresentInfo) (l : Layer) : Layer × VkResult :=
  match l.dd with
  | none => (l, vkErrorInitializationFailed)
  | some dd =>
    if dd.canPresent then (l.call (.queuePresent info), env.result)
    else (l, vkErrorInitializationFailed)

/-- The first phase, with the images recorded so far. -/
def recordAll : List RecordEnv → List Recorded → List (VkSwapchain × Nat) → Layer → Layer × Batch
  | _, recorded, [], l => (l, .recorded recorded)
  | envs, recorded, (swapchain, imageIndex) :: rest, l =>
    match l.swapchains.lookup swapchain with
    | none => (l, .failed)
    | some s =>
      let r := s.recordOne (envs.headD {}) imageIndex
      let l := { l with
        swapchains := l.swapchains.insert swapchain r.state
        calls := l.calls ++ r.calls }
      let l := if r.latched then l.markOverlayFailed else l
      match r.result with
      | .failed => (l, .failed)
      | .threw => (l, .threw)
      | .skipped => recordAll envs.tail recorded rest l
      | .drawn img => recordAll envs.tail (recorded ++ [⟨swapchain, imageIndex, img⟩]) rest l

/-- The second phase from image `i` on, with the semaphores of the submits so
    far: the semaphores the present waits for, or `none` to forward it. -/
def submitAll (appWaits : List VkSemaphore) :
    Nat → List SubmitEnv → List VkSemaphore → VkSemaphore → List Recorded → Layer →
      Layer × Option (List VkSemaphore)
  | _, _, overlaySems, _, [], l => (l, some overlaySems)
  | i, envs, overlaySems, prevDone, r :: rest, l =>
    let env := envs.headD {}
    let waits := if i = 0 then appWaits else [prevDone]
    let l := l.setFenceInFlight r false
    let l := l.call (.resetFences r.img.fence env.reset)
    if !env.reset then
      if i = 0 then (l.markOverlayFailed, none) else (l, some overlaySems)
    else
      let l := l.call (.queueSubmit waits r.img.cmd r.img.overlayDone r.img.fence env.submitted)
      if !env.submitted then
        if i = 0 then (l.markOverlayFailed, none) else (l.markOverlayFailed, some overlaySems)
      else
        submitAll appWaits (i + 1) envs.tail (overlaySems ++ [r.img.overlayDone])
          r.img.overlayDone rest (l.setFenceInFlight r true)

/-- The hook draws nothing on this queue and passes the present on. -/
def passes (queue : VkQueue) (info : PresentInfo) (l : Layer) (dd : DeviceData) : Bool :=
  !dd.canPresent || dd.overlayDisabled || l.disabled || dd.overlayFailed ||
    info.swapchains.isEmpty ||
    dd.graphicsQueueFamily.isNone || dd.queueFamilies.lookup queue != dd.graphicsQueueFamily

/-- The overlay block, behind the gates. -/
def overlayBlock (env : PresentEnv) (info : PresentInfo) (l : Layer) : Layer × VkResult :=
  if env.entryThrows then l.markOverlayFailed.forward env (some info)
  else
    match l.recordAll env.records [] info.swapchains with
    | (l, .threw) => l.markOverlayFailed.forward env (some info)
    | (l, .failed) => l.forward env (some info)
    | (l, .recorded []) => l.forward env (some info)
    | (l, .recorded images) =>
      if env.stagesThrow then l.markOverlayFailed.forward env (some info)
      else
        match l.submitAll info.waitSemaphores 0 env.submits [] 0 images with
        | (l, none) => l.forward env (some info)
        | (l, some overlaySems) =>
          (l.call (.queuePresent (some { info with waitSemaphores := overlaySems })), env.result)

def queuePresentKHR (env : PresentEnv) (queue : VkQueue) (info : Option PresentInfo) (l : Layer) :
    Layer × VkResult :=
  match l.dd, info with
  | some dd, some info =>
    if l.passes queue info dd then l.forward env (some info) else l.overlayBlock env info
  | _, _ => l.forward env info

end Layer

end Choir
