-- SUMMARY: Instances, devices and the functions a game gets of the layer: every call reaches the next layer of its own object.
import ChoirOverlay.Layer.Devices
import ChoirOverlay.Layer.Lifecycle
import ChoirOverlay.Machine.Keyed
import ChoirOverlay.Machine.Run

/-!
# Dispatch

What the layer knows of an instance or a device lies under the first word of its
handle. A process may have several instances, each with other layers below. `VkApp`
is the same process as its loader sees it: each object has its own next layer.
-/

namespace Choir

open Keyed

/-! ## Handles -/

/-- A dispatchable handle that is not null. -/
structure VkHandle where
  /-- `dispatch_key`, where the loader keeps its table. -/
  dispatchKey : Nat
  id : Nat
  deriving DecidableEq, Repr

/-- It shares the table of its instance. -/
structure VkPhysicalDevice where
  instance' : VkHandle
  id : Nat
  deriving DecidableEq, Repr

def VkPhysicalDevice.dispatchKey (p : VkPhysicalDevice) : Nat := p.instance'.dispatchKey

/-- A layer or a driver below, by its functions. -/
abbrev NextLayer := Nat

/-! ## The chain -/

/-- An element of a `pNext` chain. -/
inductive PNext where
  /-- The loader's, with `VK_LAYER_LINK_INFO`: the layers still below, the next one first. -/
  | layerLink (layers : List NextLayer)
  | other
  deriving DecidableEq, Repr

/-- `find_instance_link` and `find_device_link`: the layers of the first link. -/
def findLink : List PNext → Option (List NextLayer)
  | [] => none
  | .layerLink layers :: _ => some layers
  | .other :: rest => findLink rest

/-- `link->u.pLayerInfo = link->u.pLayerInfo->pNext` -/
def advanceLink : List PNext → List PNext
  | [] => []
  | .layerLink layers :: rest => .layerLink layers.tail :: rest
  | .other :: rest => .other :: advanceLink rest

/-- What comes to the next layer. -/
inductive BelowCall where
  | createInstance (pNext : List PNext)
  | destroyInstance (handle : VkHandle)
  | createDevice (physical : VkPhysicalDevice) (pNext : List PNext)
  | destroyDevice (handle : VkHandle)
  deriving DecidableEq, Repr

/-- A function pointer. -/
inductive VkFunction where
  | null
  | hook (name : String)
  /-- What the next layer's function of this kind gives for the name. -/
  | below (layer : NextLayer) (handle : VkHandle) (name : String)
  deriving DecidableEq, Repr

inductive VkAnswer where
  | void
  | result (res : VkResult) (handle : Option VkHandle)
  | function (f : VkFunction)
  deriving DecidableEq, Repr

/-! ## What is known -/

/-- `VK_API_VERSION_1_0` -/
def vkApiVersion10 : Nat := 0x400000

structure InstanceData where
  /-- `disp.GetInstanceProcAddr`, which all of `disp` is loaded with. -/
  next : NextLayer
  instance' : VkHandle
  apiVersion : Nat
  overlayDisabled : Bool
  deriving DecidableEq, Repr

/-- `DeviceData`, with what ImGui is set up with. -/
structure KnownDevice where
  next : NextLayer
  device : VkHandle
  physicalDevice : VkPhysicalDevice
  instance' : Option VkHandle := none
  apiVersion : Nat := vkApiVersion10
  /-- `instance_gipa` -/
  instanceNext : Option NextLayer := none
  data : DeviceData := {}
  graphicsQueue : VkQueue := 0
  deriving DecidableEq, Repr

/-- The calls to the layers below, and what the layer answered. -/
structure ChainLog where
  below : List (NextLayer × BelowCall) := []
  answers : List VkAnswer := []

namespace ChainLog

def answer (a : VkAnswer) (l : ChainLog) : ChainLog := { l with answers := l.answers ++ [a] }

def call (next : NextLayer) (c : BelowCall) (l : ChainLog) : ChainLog :=
  { l with below := l.below ++ [(next, c)] }

/-- `CreateInstance` and `CreateDevice` up to the bookkeeping, and the layer the object was made
through. What the bookkeeping throws is caught, and the answer is the same. -/
def create (pNext : List PNext) (created : Option VkResult) (handle : VkHandle) (c : BelowCall)
    (l : ChainLog) : ChainLog × Option NextLayer :=
  match findLink pNext with
  | none | some [] => (l.answer (.result vkErrorInitializationFailed none), none)
  | some (next :: _) =>
    match created with
    | none => (l.answer (.result vkErrorInitializationFailed none), none)
    | some res =>
      let l := l.call next c
      if res ≠ 0 then (l.answer (.result res none), none)
      else (l.answer (.result 0 (some handle)), some next)

/-- An object was made below. -/
theorem created_of_create {l l' : ChainLog} {pNext : List PNext} {created : Option VkResult}
    {handle : VkHandle} {c : BelowCall} {next : NextLayer}
    (h : l.create pNext created handle c = (l', some next)) : created = some 0 := by
  unfold create at h
  split at h
  · cases h
  · cases h
  split at h
  · cases h
  · simp only at h
    split at h
    · cases h
    · rename_i res hres
      rw [Decidable.not_not.mp hres]

end ChainLog

structure LayerMaps where
  /-- `g_instances` -/
  instances : AList fun _ : Nat => InstanceData := ∅
  /-- `g_devices` -/
  devices : AList fun _ : Nat => KnownDevice := ∅
  log : ChainLog := {}

/-! ## Calls -/

structure InstanceEnv where
  /-- What the next `vkCreateInstance` returns, when there is one. -/
  created : Option VkResult := some 0
  handle : VkHandle
  /-- `apiVersion` of the application, 0 where it does not tell. -/
  apiVersion : Nat := 0
  overlayDisabled : Bool := false
  /-- The entry cannot be made. -/
  throws : Bool := false

/-- Where setting up a device throws. -/
inductive DeviceThrow where
  | entry
  /-- At the queue family properties. -/
  | families
  /-- At a queue, after some. -/
  | queues (n : Nat)
  deriving DecidableEq, Repr

structure KnownDeviceEnv where
  /-- What the next `vkCreateDevice` returns, when there is one. -/
  created : Option VkResult := some 0
  handle : VkHandle
  overlayDisabled : Bool := false
  canPresent : Bool := true
  /-- `queueFlags` of each family, when the instance has the function. -/
  families : Option (List UInt32) := none
  getDeviceQueue : Option (Nat → Nat → VkQueue) := none
  throws : Option DeviceThrow := none

/-- What it meets in setting up the queues. -/
def KnownDeviceEnv.deviceEnv (env : KnownDeviceEnv) (known : Bool) : DeviceEnv :=
  { created := env.created, overlayDisabled := env.overlayDisabled, canPresent := env.canPresent
    families := if known then env.families else none, getDeviceQueue := env.getDeviceQueue }

inductive LoaderCall where
  | createInstance (pNext : List PNext) (env : InstanceEnv)
  | destroyInstance (handle : Option VkHandle)
  | createDevice (physical : VkPhysicalDevice) (pNext : List PNext) (queues : List QueueCreateInfo)
      (env : KnownDeviceEnv)
  | destroyDevice (handle : Option VkHandle)
  | getInstanceProcAddr (handle : Option VkHandle) (name : String)
  | getDeviceProcAddr (handle : Option VkHandle) (name : String)

/-- The names `choir_GetInstanceProcAddr` keeps. -/
def instanceHooks : List String :=
  ["vkGetInstanceProcAddr", "vkCreateInstance", "vkDestroyInstance", "vkCreateDevice",
    "vkDestroyDevice", "vkCreateSwapchainKHR", "vkDestroySwapchainKHR", "vkQueuePresentKHR",
    "vkGetDeviceProcAddr"]

/-- The names `choir_GetDeviceProcAddr` keeps. -/
def deviceHooks : List String :=
  ["vkGetDeviceProcAddr", "vkDestroyDevice", "vkCreateSwapchainKHR", "vkDestroySwapchainKHR",
    "vkQueuePresentKHR"]

namespace LayerMaps

/-- `CreateInstance` -/
def createInstance (pNext : List PNext) (env : InstanceEnv) (m : LayerMaps) : LayerMaps :=
  match m.log.create pNext env.created env.handle (.createInstance (advanceLink pNext)) with
  | (log, none) => { m with log }
  | (log, some next) =>
    let data : InstanceData :=
      { next, instance' := env.handle
        apiVersion := if env.apiVersion = 0 then vkApiVersion10 else env.apiVersion
        overlayDisabled := env.overlayDisabled }
    { m with
      log
      instances := if env.throws then m.instances else m.instances.insert env.handle.dispatchKey
        data }

/-- `DestroyInstance` -/
def destroyInstance (handle : Option VkHandle) (m : LayerMaps) : LayerMaps :=
  match handle with
  | none => { m with log := m.log.answer .void }
  | some h =>
    match m.instances.lookup h.dispatchKey with
    | none => { m with log := m.log.answer .void }
    | some data =>
      { m with
        instances := m.instances.erase h.dispatchKey
        log := (m.log.call data.next (.destroyInstance h)).answer .void }

/-- What `CreateDevice` writes into the entry of the device, which is new. -/
def knownDevice (next : NextLayer) (physical : VkPhysicalDevice) (queues : List QueueCreateInfo)
    (env : KnownDeviceEnv) (m : LayerMaps) : KnownDevice :=
  let known := m.instances.lookup physical.dispatchKey
  let full := (env.deviceEnv known.isSome).setUp queues
  let entry : KnownDevice :=
    { next, device := env.handle, physicalDevice := physical
      instance' := known.map InstanceData.instance'
      apiVersion := (known.map InstanceData.apiVersion).getD vkApiVersion10
      instanceNext := known.map InstanceData.next }
  match env.throws with
  | none | some .entry => { entry with data := full.data, graphicsQueue := full.graphicsQueue }
  | some .families =>
    { entry with
      data := { canPresent := env.canPresent, overlayDisabled := env.overlayDisabled } }
  | some (.queues n) =>
    { entry with
      data := { full.data with queueFamilies := full.data.queueFamilies.take n }
      graphicsQueue := full.graphicsQueue }

/-- `CreateDevice` -/
def createDevice (physical : VkPhysicalDevice) (pNext : List PNext) (queues : List QueueCreateInfo)
    (env : KnownDeviceEnv) (m : LayerMaps) : LayerMaps :=
  match m.log.create pNext env.created env.handle (.createDevice physical (advanceLink pNext)) with
  | (log, none) => { m with log }
  | (log, some next) =>
    let data := m.knownDevice next physical queues env
    { m with
      log
      devices := if env.throws = some .entry then m.devices
        else m.devices.insert env.handle.dispatchKey data }

/-- `DestroyDevice` -/
def destroyDevice (handle : Option VkHandle) (m : LayerMaps) : LayerMaps :=
  match handle with
  | none => { m with log := m.log.answer .void }
  | some h =>
    match m.devices.lookup h.dispatchKey with
    | none => { m with log := m.log.answer .void }
    | some data =>
      { m with
        devices := m.devices.erase h.dispatchKey
        log := (m.log.call data.next (.destroyDevice h)).answer .void }

/-- `choir_GetInstanceProcAddr` -/
def getInstanceProcAddr (handle : Option VkHandle) (name : String) (m : LayerMaps) : VkFunction :=
  if name ∈ instanceHooks then .hook name
  else
    match handle with
    | none => .null
    | some h =>
      match m.instances.lookup h.dispatchKey with
      | none => .null
      | some data => .below data.next h name

/-- `choir_GetDeviceProcAddr` -/
def getDeviceProcAddr (handle : Option VkHandle) (name : String) (m : LayerMaps) : VkFunction :=
  if name ∈ deviceHooks then .hook name
  else
    match handle with
    | none => .null
    | some h =>
      match m.devices.lookup h.dispatchKey with
      | none => .null
      | some data => .below data.next h name

def step (m : LayerMaps) : LoaderCall → LayerMaps
  | .createInstance pNext env => m.createInstance pNext env
  | .destroyInstance handle => m.destroyInstance handle
  | .createDevice physical pNext queues env => m.createDevice physical pNext queues env
  | .destroyDevice handle => m.destroyDevice handle
  | .getInstanceProcAddr handle name =>
    { m with log := m.log.answer (.function (m.getInstanceProcAddr handle name)) }
  | .getDeviceProcAddr handle name =>
    { m with log := m.log.answer (.function (m.getDeviceProcAddr handle name)) }

end LayerMaps

/-! ## As the loader sees it -/

/-- What a device was made through: its own next layer, and the instance with its. -/
structure DeviceOrigin where
  next : NextLayer
  instance' : Option (VkHandle × NextLayer)
  deriving DecidableEq, Repr

/-- An object of the game, and whether the layer could make its entry. -/
structure GameObject (γ : Type) where
  origin : γ
  known : Bool
  deriving DecidableEq, Repr

/-- The objects that have an entry. -/
def knownOf {γ : Type} (held : VkHandle → Option (GameObject γ)) (h : VkHandle) : Option γ :=
  (held h).bind fun o => if o.known then some o.origin else none

section

variable {γ : Type} {held : VkHandle → Option (GameObject γ)} {h : VkHandle}

theorem knownOf_none (hheld : held h = none) : knownOf held h = none := by
  simp only [knownOf, hheld, Option.bind_none]

theorem knownOf_some {o : GameObject γ} (hheld : held h = some o) :
    knownOf held h = if o.known then some o.origin else none := by
  simp only [knownOf, hheld, Option.bind_some]

/-- An object comes or goes. -/
theorem knownOf_update (held : VkHandle → Option (GameObject γ)) (h : VkHandle)
    (o : Option (GameObject γ)) :
    knownOf (Function.update held h o) = Function.update (knownOf held) h
      (o.bind fun o => if o.known then some o.origin else none) := by
  funext h'
  by_cases hh : h' = h
  · subst hh
    simp only [knownOf, Function.update_self]
  · simp only [knownOf, Function.update_of_ne hh]

theorem knownOf_update_unknown {o : Option (GameObject γ)} (hknown : knownOf held h = none)
    (ho : (o.bind fun o => if o.known then some o.origin else none) = none) :
    knownOf (Function.update held h o) = knownOf held := by
  rw [knownOf_update, ho, ← hknown, Function.update_eq_self]

end

/-- A process with all its objects, those without an entry as well. -/
structure VkApp where
  heldInstances : VkHandle → Option (GameObject NextLayer) := fun _ => none
  heldDevices : VkHandle → Option (GameObject DeviceOrigin) := fun _ => none
  log : ChainLog := {}

namespace VkApp

/-- The instances the layer knows of. -/
def instances (s : VkApp) : VkHandle → Option NextLayer := knownOf s.heldInstances

/-- The devices the layer knows of. -/
def devices (s : VkApp) : VkHandle → Option DeviceOrigin := knownOf s.heldDevices

def createInstance (pNext : List PNext) (env : InstanceEnv) (s : VkApp) : VkApp :=
  match s.log.create pNext env.created env.handle (.createInstance (advanceLink pNext)) with
  | (log, none) => { s with log }
  | (log, some next) =>
    { s with
      log
      heldInstances := Function.update s.heldInstances env.handle
        (some { origin := next, known := !env.throws }) }

/-- It comes to the layer the object was made through, or to none where it has no entry. -/
def destroyed {γ : Type} (next : γ → NextLayer) (c : BelowCall) (o : GameObject γ) (l : ChainLog) :
    ChainLog :=
  (if o.known then l.call (next o.origin) c else l).answer .void

def destroyInstance (handle : Option VkHandle) (s : VkApp) : VkApp :=
  match handle with
  | none => { s with log := s.log.answer .void }
  | some h =>
    match s.heldInstances h with
    | none => { s with log := s.log.answer .void }
    | some o =>
      { s with
        heldInstances := Function.update s.heldInstances h none
        log := destroyed id (.destroyInstance h) o s.log }

def createDevice (physical : VkPhysicalDevice) (pNext : List PNext) (env : KnownDeviceEnv)
    (s : VkApp) : VkApp :=
  match s.log.create pNext env.created env.handle (.createDevice physical (advanceLink pNext)) with
  | (log, none) => { s with log }
  | (log, some next) =>
    let owner := (s.instances physical.instance').map fun next => (physical.instance', next)
    { s with
      log
      heldDevices := Function.update s.heldDevices env.handle
        (some { origin := ⟨next, owner⟩, known := !decide (env.throws = some .entry) }) }

def destroyDevice (handle : Option VkHandle) (s : VkApp) : VkApp :=
  match handle with
  | none => { s with log := s.log.answer .void }
  | some h =>
    match s.heldDevices h with
    | none => { s with log := s.log.answer .void }
    | some o =>
      { s with
        heldDevices := Function.update s.heldDevices h none
        log := destroyed DeviceOrigin.next (.destroyDevice h) o s.log }

/-- A function that is not the layer's own is asked of the next layer of the object. -/
def function {γ : Type} (hooks : List String) (next : γ → NextLayer)
    (held : VkHandle → Option (GameObject γ)) (handle : Option VkHandle) (name : String) :
    VkFunction :=
  if name ∈ hooks then .hook name
  else
    match handle with
    | none => .null
    | some h =>
      match held h with
      | none => .null
      | some o => if o.known then .below (next o.origin) h name else .null

def step (s : VkApp) : LoaderCall → VkApp
  | .createInstance pNext env => s.createInstance pNext env
  | .destroyInstance handle => s.destroyInstance handle
  | .createDevice physical pNext _ env => s.createDevice physical pNext env
  | .destroyDevice handle => s.destroyDevice handle
  | .getInstanceProcAddr handle name =>
    { s with log := s.log.answer (.function (function instanceHooks id s.heldInstances handle
        name)) }
  | .getDeviceProcAddr handle name =>
    { s with log := s.log.answer (.function (function deviceHooks DeviceOrigin.next s.heldDevices
        handle name)) }

section

variable {γ : Type} (live : VkHandle → Option γ) (h : VkHandle)

/-- No other object has the handle's table. -/
def Apart : Prop := ∀ h' c, live h' = some c → h'.dispatchKey = h.dispatchKey → h' = h

/-- No object has the new handle's table. -/
def New : Prop := ∀ h' c, live h' = some c → h'.dispatchKey ≠ h.dispatchKey

end

/-- Each object has its own table, and an instance goes after its devices. -/
def Proper (s : VkApp) : LoaderCall → Prop
  | .createInstance _ env => env.created = some 0 → New s.instances env.handle
  | .destroyInstance handle =>
    ∀ h ∈ handle, Apart s.instances h ∧
      ∀ d o, s.devices d = some o → ∀ next, o.instance' ≠ some (h, next)
  | .createDevice physical _ _ env =>
    Apart s.instances physical.instance' ∧ (env.created = some 0 → New s.devices env.handle)
  | .destroyDevice handle | .getDeviceProcAddr handle _ => ∀ h ∈ handle, Apart s.devices h
  | .getInstanceProcAddr handle _ => ∀ h ∈ handle, Apart s.instances h

section

variable {γ : Type} {held : VkHandle → Option (GameObject γ)} {h : VkHandle}

/-- A destruction reaches the layer of an object that has an entry, and no other. -/
theorem destroyed_eq {o : GameObject γ} (hheld : held h = some o) (next : γ → NextLayer)
    (c : BelowCall) (l : ChainLog) :
    destroyed next c o l = ((knownOf held h).elim l fun a => l.call (next a) c).answer .void := by
  rw [knownOf_some hheld, destroyed]
  cases o.known <;> rfl

/-- So does a query. -/
theorem function_some (hooks : List String) (next : γ → NextLayer)
    (held : VkHandle → Option (GameObject γ)) (h : VkHandle) (name : String) :
    function hooks next held (some h) name =
      if name ∈ hooks then .hook name
      else (knownOf held h).elim .null fun a => .below (next a) h name := by
  unfold function
  congr 1
  cases hheld : held h with
  | none => simp only [hheld, knownOf_none hheld, Option.elim_none]
  | some o =>
    obtain ⟨origin, known⟩ := o
    simp only [hheld, knownOf_some hheld]
    cases known <;> rfl

/-- An object that is not there is not known. -/
theorem knownOf_gone (hheld : held h = none) :
    knownOf held = Function.update (knownOf held) h none := by
  rw [← knownOf_none hheld, Function.update_eq_self]

end

theorem destroyInstance_some (h : VkHandle) (s : VkApp) :
    (s.destroyInstance (some h)).log =
        ((s.instances h).elim s.log fun next => s.log.call next (.destroyInstance h)).answer .void ∧
      (s.destroyInstance (some h)).instances = Function.update s.instances h none ∧
      (s.destroyInstance (some h)).devices = s.devices := by
  unfold destroyInstance
  cases hheld : s.heldInstances h with
  | none =>
    have hlive : s.instances h = none := knownOf_none hheld
    simp only [hheld, hlive]
    exact ⟨rfl, knownOf_gone hheld, rfl⟩
  | some o =>
    simp only [hheld]
    exact ⟨destroyed_eq hheld .., knownOf_update .., rfl⟩

theorem destroyDevice_some (h : VkHandle) (s : VkApp) :
    (s.destroyDevice (some h)).log =
        ((s.devices h).elim s.log fun o => s.log.call o.next (.destroyDevice h)).answer .void ∧
      (s.destroyDevice (some h)).devices = Function.update s.devices h none ∧
      (s.destroyDevice (some h)).instances = s.instances := by
  unfold destroyDevice
  cases hheld : s.heldDevices h with
  | none =>
    have hlive : s.devices h = none := knownOf_none hheld
    simp only [hheld, hlive]
    exact ⟨rfl, knownOf_gone hheld, rfl⟩
  | some o =>
    simp only [hheld]
    exact ⟨destroyed_eq hheld .., knownOf_update .., rfl⟩

end VkApp

/-! ## The maps tell the same -/

/-- What is known of an instance. -/
def InstanceData.Of (h : VkHandle) (data : InstanceData) (next : NextLayer) : Prop :=
  data.instance' = h ∧ data.next = next

/-- What is known of a device. -/
structure KnownDevice.Of (h : VkHandle) (data : KnownDevice) (o : DeviceOrigin) : Prop where
  device : data.device = h
  next : data.next = o.next
  instance' : data.instance' = o.instance'.map Prod.fst
  instanceNext : data.instanceNext = o.instance'.map Prod.snd

structure VkApp.Tracks (s : VkApp) (m : LayerMaps) : Prop where
  log : m.log = s.log
  instances : Represents VkHandle.dispatchKey InstanceData.Of m.instances s.instances
  devices : Represents VkHandle.dispatchKey KnownDevice.Of m.devices s.devices
  /-- The instance of a device is there as long as the device. -/
  owners : ∀ d o, s.devices d = some o → ∀ h next, o.instance' = some (h, next) →
    s.instances h = some next

namespace VkApp.Tracks

open VkApp

variable {s : VkApp} {m : LayerMaps}

theorem unknown_of_new {γ : Type} {live : VkHandle → Option γ} {i : VkHandle} (hnew : New live i) :
    live i = none :=
  Option.eq_none_iff_forall_ne_some.mpr fun c hc => hnew i c hc rfl

theorem createInstance (h : s.Tracks m) (pNext : List PNext) (env : InstanceEnv)
    (hproper : s.Proper (.createInstance pNext env)) :
    (s.createInstance pNext env).Tracks (m.createInstance pNext env) := by
  unfold LayerMaps.createInstance VkApp.createInstance
  rw [h.log]
  split
  · exact ⟨rfl, h.instances, h.devices, h.owners⟩
  · rename_i log next hlog
    have hnew := hproper (ChainLog.created_of_create hlog)
    cases env.throws with
    | true =>
      have hsame : knownOf (Function.update s.heldInstances env.handle (some ⟨next, false⟩)) =
          s.instances := knownOf_update_unknown (unknown_of_new hnew) rfl
      refine ⟨rfl, ?_, h.devices, fun d o hd i n ho => ?_⟩
      · exact h.instances.of_eq hsame
      · exact (congrFun hsame i).trans (h.owners d o hd i n ho)
    | false =>
      have hinsert : knownOf (Function.update s.heldInstances env.handle (some ⟨next, true⟩)) =
          Function.update s.instances env.handle (some next) := knownOf_update ..
      refine ⟨rfl, ?_, h.devices, fun d o hd i n ho => ?_⟩
      · exact (h.instances.insert hnew ⟨rfl, rfl⟩).of_eq hinsert
      · have hi := h.owners d o hd i n ho
        have hne : i ≠ env.handle := fun heq => hnew i n hi (heq ▸ rfl)
        exact (congrFun hinsert i).trans ((Function.update_of_ne hne ..).trans hi)

theorem destroyInstance (h : s.Tracks m) (handle : Option VkHandle)
    (hproper : s.Proper (.destroyInstance handle)) :
    (s.destroyInstance handle).Tracks (m.destroyInstance handle) := by
  cases handle with
  | none => exact ⟨congrArg (ChainLog.answer .void) h.log, h.instances, h.devices, h.owners⟩
  | some i =>
    obtain ⟨hapart, hdevices⟩ := hproper i rfl
    obtain ⟨hlog, hinstances, hsame⟩ := destroyInstance_some i s
    have howners (d : VkHandle) (o : DeviceOrigin)
        (hd : (s.destroyInstance (some i)).devices d = some o) (j : VkHandle) (n : NextLayer)
        (ho : o.instance' = some (j, n)) : (s.destroyInstance (some i)).instances j = some n := by
      have hd := (congrFun hsame d).symm.trans hd
      have hne : j ≠ i := fun heq => hdevices d o hd n (heq ▸ ho)
      exact (congrFun hinstances j).trans
        ((Function.update_of_ne hne ..).trans (h.owners d o hd j n ho))
    unfold LayerMaps.destroyInstance
    cases hlive : s.instances i with
    | none =>
      have hgone : (s.destroyInstance (some i)).instances = s.instances := by
        rw [hinstances, ← hlive, Function.update_eq_self]
      simp only [h.instances.lookup_none hlive hapart]
      refine ⟨?_, h.instances.of_eq hgone, h.devices.of_eq hsame, howners⟩
      rw [hlog, hlive, h.log]
      rfl
    | some next =>
      obtain ⟨data, hlookup, -, rfl⟩ := h.instances.found i next hlive
      simp only [hlookup]
      refine ⟨?_, (h.instances.erase hlive).of_eq hinstances, h.devices.of_eq hsame, howners⟩
      rw [hlog, hlive, h.log]
      rfl

/-- The entry of a device names its instance. -/
theorem knownDevice_of (h : s.Tracks m) {physical : VkPhysicalDevice} (next : NextLayer)
    (queues : List QueueCreateInfo) (env : KnownDeviceEnv)
    (hapart : Apart s.instances physical.instance') :
    (m.knownDevice next physical queues env).Of env.handle
      ⟨next, (s.instances physical.instance').map fun next => (physical.instance', next)⟩ := by
  have hknown : (m.instances.lookup physical.dispatchKey).map InstanceData.instance' =
        ((s.instances physical.instance').map fun next => (physical.instance', next)).map Prod.fst ∧
      (m.instances.lookup physical.dispatchKey).map InstanceData.next =
        ((s.instances physical.instance').map fun next => (physical.instance', next)).map
          Prod.snd := by
    cases hlive : s.instances physical.instance' with
    | none =>
      have hlookup : m.instances.lookup physical.dispatchKey = none :=
        h.instances.lookup_none hlive hapart
      rw [hlookup]
      exact ⟨rfl, rfl⟩
    | some n =>
      obtain ⟨data, hlookup, hi, hn⟩ := h.instances.found _ n hlive
      have hlookup : m.instances.lookup physical.dispatchKey = some data := hlookup
      rw [hlookup]
      exact ⟨congrArg some hi, congrArg some hn⟩
  unfold LayerMaps.knownDevice
  split <;> exact ⟨rfl, rfl, hknown.1, hknown.2⟩

theorem createDevice (h : s.Tracks m) (physical : VkPhysicalDevice) (pNext : List PNext)
    (queues : List QueueCreateInfo) (env : KnownDeviceEnv)
    (hproper : s.Proper (.createDevice physical pNext queues env)) :
    (s.createDevice physical pNext env).Tracks (m.createDevice physical pNext queues env) := by
  obtain ⟨hapart, hnew⟩ := hproper
  unfold LayerMaps.createDevice VkApp.createDevice
  rw [h.log]
  split
  · exact ⟨rfl, h.instances, h.devices, h.owners⟩
  · rename_i log next hlog
    have hnew := hnew (ChainLog.created_of_create hlog)
    by_cases hthrows : env.throws = some .entry
    · have hsame (o : DeviceOrigin) :
          knownOf (Function.update s.heldDevices env.handle (some ⟨o, false⟩)) = s.devices :=
        knownOf_update_unknown (unknown_of_new hnew) rfl
      simp only [hthrows, if_true, decide_true, Bool.not_true]
      refine ⟨rfl, h.instances, ?_, fun d o hd i n ho => ?_⟩
      · exact h.devices.of_eq (hsame _)
      · exact h.owners d o ((congrFun (hsame _) d).symm.trans hd) i n ho
    · have hinsert (o : DeviceOrigin) :
          knownOf (Function.update s.heldDevices env.handle (some ⟨o, true⟩)) =
            Function.update s.devices env.handle (some o) := knownOf_update ..
      simp only [hthrows, if_false, decide_false, Bool.not_false]
      refine ⟨rfl, h.instances, ?_, fun d o hd i n ho => ?_⟩
      · have hentry := h.knownDevice_of next queues env hapart
        exact (h.devices.insert hnew hentry).of_eq (hinsert _)
      · have hd := (congrFun (hinsert _) d).symm.trans hd
        rw [Function.update_apply] at hd
        split at hd
        · obtain rfl := Option.some.inj hd
          obtain ⟨n', hn', hpair⟩ := Option.map_eq_some_iff.mp ho
          obtain ⟨rfl, rfl⟩ := Prod.mk.inj hpair
          exact hn'
        · exact h.owners d o hd i n ho

theorem destroyDevice (h : s.Tracks m) (handle : Option VkHandle)
    (hproper : s.Proper (.destroyDevice handle)) :
    (s.destroyDevice handle).Tracks (m.destroyDevice handle) := by
  cases handle with
  | none => exact ⟨congrArg (ChainLog.answer .void) h.log, h.instances, h.devices, h.owners⟩
  | some d =>
    obtain ⟨hlog, hdevices, hsame⟩ := destroyDevice_some d s
    have howners (d' : VkHandle) (o : DeviceOrigin)
        (hd : (s.destroyDevice (some d)).devices d' = some o) (i : VkHandle) (n : NextLayer)
        (ho : o.instance' = some (i, n)) : (s.destroyDevice (some d)).instances i = some n := by
      have hd := (congrFun hdevices d').symm.trans hd
      rw [Function.update_apply] at hd
      split at hd
      · cases hd
      · exact (congrFun hsame i).trans (h.owners d' o hd i n ho)
    unfold LayerMaps.destroyDevice
    cases hlive : s.devices d with
    | none =>
      have hgone : (s.destroyDevice (some d)).devices = s.devices := by
        rw [hdevices, ← hlive, Function.update_eq_self]
      simp only [h.devices.lookup_none hlive (hproper d rfl)]
      refine ⟨?_, h.instances.of_eq hsame, h.devices.of_eq hgone, howners⟩
      rw [hlog, hlive, h.log]
      rfl
    | some origin =>
      obtain ⟨data, hlookup, hdata⟩ := h.devices.found d origin hlive
      simp only [hlookup, hdata.next]
      refine ⟨?_, h.instances.of_eq hsame, (h.devices.erase hlive).of_eq hdevices, howners⟩
      rw [hlog, hlive, h.log]
      rfl

theorem getInstanceProcAddr (h : s.Tracks m) (handle : Option VkHandle) (name : String)
    (hproper : s.Proper (.getInstanceProcAddr handle name)) :
    m.getInstanceProcAddr handle name =
      function instanceHooks id s.heldInstances handle name := by
  cases handle with
  | none => rfl
  | some i =>
    rw [function_some]
    unfold LayerMaps.getInstanceProcAddr
    congr 1
    cases hlive : s.instances i with
    | none =>
      have hknown : knownOf s.heldInstances i = none := hlive
      simp only [hknown, h.instances.lookup_none hlive (hproper i rfl)]
      rfl
    | some next =>
      have hknown : knownOf s.heldInstances i = some next := hlive
      obtain ⟨data, hlookup, -, rfl⟩ := h.instances.found i next hlive
      simp only [hknown, hlookup]
      rfl

theorem getDeviceProcAddr (h : s.Tracks m) (handle : Option VkHandle) (name : String)
    (hproper : s.Proper (.getDeviceProcAddr handle name)) :
    m.getDeviceProcAddr handle name =
      function deviceHooks DeviceOrigin.next s.heldDevices handle name := by
  cases handle with
  | none => rfl
  | some d =>
    rw [function_some]
    unfold LayerMaps.getDeviceProcAddr
    congr 1
    cases hlive : s.devices d with
    | none =>
      have hknown : knownOf s.heldDevices d = none := hlive
      simp only [hknown, h.devices.lookup_none hlive (hproper d rfl)]
      rfl
    | some origin =>
      have hknown : knownOf s.heldDevices d = some origin := hlive
      obtain ⟨data, hlookup, hdata⟩ := h.devices.found d origin hlive
      simp only [hknown, hlookup, hdata.next]
      rfl

theorem step (h : s.Tracks m) (call : LoaderCall) (hproper : s.Proper call) :
    (s.step call).Tracks (m.step call) := by
  cases call with
  | createInstance pNext env => exact h.createInstance pNext env hproper
  | destroyInstance handle => exact h.destroyInstance handle hproper
  | createDevice physical pNext queues env => exact h.createDevice physical pNext queues env hproper
  | destroyDevice handle => exact h.destroyDevice handle hproper
  | getInstanceProcAddr handle name =>
    refine ⟨?_, h.instances, h.devices, h.owners⟩
    simp only [LayerMaps.step, VkApp.step, h.log, h.getInstanceProcAddr handle name hproper]
  | getDeviceProcAddr handle name =>
    refine ⟨?_, h.instances, h.devices, h.owners⟩
    simp only [LayerMaps.step, VkApp.step, h.log, h.getDeviceProcAddr handle name hproper]

end VkApp.Tracks

namespace LayerMaps

theorem tracks_run {calls : List LoaderCall}
    (hcalls : Machine.Along VkApp.step VkApp.Proper {} calls) :
    (Machine.run VkApp.step {} calls).Tracks (Machine.run step {} calls) :=
  hcalls.related (fun _ _ call h hproper => h.step call hproper)
    ⟨rfl, .empty, .empty, fun _ _ hd => by cases hd⟩

/-- A game with an instance, and after it another, through other layers and with a device. The
loader uses the table of the first again. -/
def oneAfterTheOther : List LoaderCall :=
  [.createInstance [.other, .layerLink [5, 6]] { handle := ⟨1, 10⟩ },
    .getInstanceProcAddr (some ⟨1, 10⟩) "vkCreateBuffer",
    .destroyInstance (some ⟨1, 10⟩),
    .createInstance [.layerLink [6]] { handle := ⟨1, 20⟩ },
    .createDevice ⟨⟨1, 20⟩, 0⟩ [.layerLink [6]] [] { handle := ⟨3, 40⟩ },
    .destroyDevice (some ⟨3, 40⟩),
    .destroyInstance (some ⟨1, 20⟩)]

theorem live_update {γ : Type} {held : VkHandle → Option (GameObject γ)} {h h' : VkHandle}
    {v : Option (GameObject γ)} {c : γ} (hc : knownOf (Function.update held h v) h' = some c) :
    h' = h ∧ v.isSome = true ∨ h' ≠ h ∧ knownOf held h' = some c := by
  rw [knownOf_update, Function.update_apply] at hc
  split at hc
  · rename_i heq
    cases v with
    | none => cases hc
    | some _ => exact .inl ⟨heq, rfl⟩
  · rename_i hne
    exact .inr ⟨hne, hc⟩

theorem oneAfterTheOther_proper : Machine.Along VkApp.step VkApp.Proper {} oneAfterTheOther := by
  have hfirst : VkApp.Apart (Machine.run VkApp.step {} (oneAfterTheOther.take 1)).instances ⟨1,
    10⟩ := by
    intro h c hc hkey
    obtain ⟨rfl, -⟩ | ⟨-, hc⟩ := live_update hc
    · rfl
    · cases hc
  have hgone : VkApp.New (Machine.run VkApp.step {} (oneAfterTheOther.take 3)).instances
      ⟨1, 20⟩ := by
    intro h c hc
    obtain ⟨-, hnone⟩ | ⟨hne, hc⟩ := live_update hc
    · cases hnone
    · obtain ⟨rfl, -⟩ | ⟨-, hc⟩ := live_update hc
      · exact absurd rfl hne
      · cases hc
  have hsecond : VkApp.Apart (Machine.run VkApp.step {} (oneAfterTheOther.take 4)).instances
      ⟨1, 20⟩ := by
    intro h c hc hkey
    obtain ⟨rfl, -⟩ | ⟨-, hc⟩ := live_update hc
    · rfl
    · exact absurd hkey (hgone h c hc)
  refine ⟨fun _ h c hc => (by cases hc), ?_, ?_, fun _ => hgone,
    ⟨hsecond, fun _ h c hc => (by cases hc)⟩, ?_, ?_, trivial⟩
  · rintro _ ⟨⟩
    exact hfirst
  · rintro _ ⟨⟩
    exact ⟨hfirst, fun d o hd => (by cases hd)⟩
  · rintro _ ⟨⟩ h c hc hkey
    obtain ⟨rfl, -⟩ | ⟨-, hc⟩ := live_update hc
    · rfl
    · cases hc
  · rintro _ ⟨⟩
    refine ⟨hsecond, fun d o hd => ?_⟩
    obtain ⟨-, hnone⟩ | ⟨hne, hd⟩ := live_update hd
    · cases hnone
    · obtain ⟨rfl, -⟩ | ⟨-, hd⟩ := live_update hd
      · exact absurd rfl hne
      · cases hd

/-- What the hooks find under a device or a queue of it is of this device, and what it tells of
the instance is of one that is still there; nothing is kept of a device that is gone. -/
theorem device_data_current (calls : List LoaderCall)
    (hcalls : Machine.Along VkApp.step VkApp.Proper {} calls) :
    (∀ d o, (Machine.run VkApp.step {} calls).devices d = some o →
        ∃ data, (Machine.run step {} calls).devices.lookup d.dispatchKey = some data ∧
          data.device = d ∧ data.next = o.next ∧
          ∀ i, data.instance' = some i →
            ∃ idata, (Machine.run step {} calls).instances.lookup i.dispatchKey = some idata ∧
              idata.instance' = i ∧ data.instanceNext = some idata.next) ∧
      ∀ k data, (Machine.run step {} calls).devices.lookup k = some data →
        data.device.dispatchKey = k ∧
          ((Machine.run VkApp.step {} calls).devices data.device).isSome = true := by
  have h := tracks_run hcalls
  refine ⟨fun d o hd => ?_, fun k data hdata => ?_⟩
  · obtain ⟨data, hlookup, hof⟩ := h.devices.found d o hd
    refine ⟨data, hlookup, hof.device, hof.next, fun i hi => ?_⟩
    obtain ⟨⟨j, n⟩, howner, rfl⟩ := Option.map_eq_some_iff.mp (hof.instance'.symm.trans hi)
    obtain ⟨idata, hidata, hinstance, rfl⟩ := h.instances.found j n (h.owners d o hd j n howner)
    exact ⟨idata, hidata, hinstance, by rw [hof.instanceNext, howner]; rfl⟩
  · obtain ⟨d, o, rfl, hd⟩ := h.devices.only k data hdata
    obtain ⟨data', hlookup, hof⟩ := h.devices.found d o hd
    obtain rfl := Option.some.inj (hdata.symm.trans hlookup)
    rw [hof.device]
    exact ⟨rfl, Option.isSome_iff_exists.mpr ⟨o, hd⟩⟩

theorem device_data_current_oneAfterTheOther :
    ∃ data, (Machine.run step {} (oneAfterTheOther.take 5)).devices.lookup 3 = some data ∧
      data.instance' = some ⟨1, 20⟩ := by
  have h := device_data_current (oneAfterTheOther.take 5)
    (oneAfterTheOther_proper.of_prefix (List.take_prefix 5 _))
  obtain ⟨data, hlookup, -⟩ := h.1 ⟨3, 40⟩ ⟨6, some (⟨1, 20⟩, 6)⟩ (by decide +kernel)
  refine ⟨data, hlookup, ?_⟩
  have hdata : ((Machine.run step {} (oneAfterTheOther.take 5)).devices.lookup 3).map
      KnownDevice.instance' = some (some ⟨1, 20⟩) := by decide +kernel
  rw [hlookup] at hdata
  exact Option.some.inj hdata

end LayerMaps

end Choir
