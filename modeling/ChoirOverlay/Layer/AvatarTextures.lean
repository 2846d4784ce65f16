-- SUMMARY: The textures of avatar images: what is created on the device for one, and what becomes of it when a call fails.
import ChoirOverlay.Ipc.AvatarFile
import ChoirOverlay.Machine.Custody
import Mathlib.Tactic.Abel

/-!
# Avatar textures

An image is uploaded through a staging buffer and a command pool of its own.
What each call returns is an input; the log has every object that is created and
every one that is destroyed.
-/

namespace Choir

open Ownership

/-! ## The device -/

inductive VkKind where
  | renderPass | commandPool | framebuffer | imageView | fence | semaphore
  | image | memory | buffer | sampler | descriptorSet
  deriving DecidableEq, Repr

abbrev VkLog := Ledger VkKind

/-- Which functions the device has: the one that destroys an object of a kind, and
all others that are asked for. -/
structure Dispatch where
  destroys : VkKind → Bool := fun _ => true
  others : Bool := true

namespace Dispatch

/-- Destroy an object, where there is one and the function for it. -/
def free (d : Dispatch) (l : VkLog) (k : VkKind) (h : Option Nat) : VkLog :=
  if d.destroys k then l.free k h else l

/-- The entry points `create_texture` asks for. -/
def forTextures (d : Dispatch) : Bool :=
  d.others && [.image, .buffer, .memory, .sampler, .imageView, .commandPool, .fence].all d.destroys

end Dispatch

/-- What the textures see of an `ImguiRenderer`. -/
structure Renderer where
  ready : Bool := true
  dispatch : Option Dispatch := some {}
  /-- `device()` is no null handle. -/
  hasDevice : Bool := true

structure Texture where
  image : Option Nat := none
  memory : Option Nat := none
  view : Option Nat := none
  sampler : Option Nat := none
  descriptor : Option Nat := none
  deriving DecidableEq, Repr

/-- What it is made of. -/
def Texture.objects (t : Texture) : Multiset (Obj VkKind) :=
  owned .descriptorSet t.descriptor + owned .sampler t.sampler + owned .imageView t.view +
    owned .image t.image + owned .memory t.memory

@[simp] theorem Texture.objects_default : ({} : Texture).objects = 0 := rfl

/-- `find_memory_type`: none is `UINT32_MAX`. -/
def findMemoryType (types : List UInt32) (bits want : UInt32) : Option Nat :=
  (types.zipIdx.find? fun t => bits.toNat.testBit t.2 && t.1 &&& want == want).map Prod.snd

/-- What `create_texture` meets: true where a call returns `VK_SUCCESS`. -/
structure TextureEnv where
  /-- `device_data` has a graphics queue and the physical device. -/
  deviceData : Bool := true
  /-- `propertyFlags` of the memory types. -/
  memoryTypes : List UInt32 := []
  createImage : Bool := true
  imageBits : UInt32 := 0
  allocateImage : Bool := true
  bindImage : Bool := true
  createBuffer : Bool := true
  bufferBits : UInt32 := 0
  allocateBuffer : Bool := true
  bindBuffer : Bool := true
  /-- The memory is mapped, at an address that is not null. -/
  mapMemory : Bool := true
  createPool : Bool := true
  allocateCmd : Bool := true
  beginCmd : Bool := true
  endCmd : Bool := true
  createFence : Bool := true
  submit : Bool := true
  waitFence : Bool := true
  createView : Bool := true
  createSampler : Bool := true

/-! ## One texture -/

/-- `destroy_texture` -/
def destroyTexture (renderer : Option Renderer) (t : Texture) (l : VkLog) : Texture × VkLog :=
  match renderer with
  | none => (t, l)
  | some r =>
    match r.dispatch with
    | none => ({}, l)
    | some d =>
      if !r.hasDevice then ({}, l)
      else
        let l := d.free l .sampler t.sampler
        let l := d.free l .imageView t.view
        let l := d.free l .image t.image
        ({}, d.free l .memory t.memory)

/-- How far a texture has come. -/
structure Upload where
  texture : Texture
  log : VkLog
  ok : Bool

def Upload.fail (renderer : Option Renderer) (t : Texture) (l : VkLog) : Upload :=
  let gone := destroyTexture renderer t l
  ⟨gone.1, gone.2, false⟩

/-- The image and its memory. -/
def makeImage (env : TextureEnv) (renderer : Option Renderer) (l : VkLog) : Upload :=
  let t : Texture := { image := l.fresh env.createImage }
  let l := l.create .image env.createImage
  if !env.createImage then ⟨{ t with image := none }, l, false⟩
  else
    let imgType := (findMemoryType env.memoryTypes env.imageBits 0x1).or
      (findMemoryType env.memoryTypes env.imageBits 0)
    if imgType.isNone then .fail renderer t l
    else
      let t := { t with memory := l.fresh env.allocateImage }
      let l := l.create .memory env.allocateImage
      if !env.allocateImage then .fail renderer { t with memory := none } l
      else if !env.bindImage then .fail renderer t l
      else ⟨t, l, true⟩

/-- `free_staging` -/
def freeStaging (staging stagingMem : Option Nat) (l : VkLog) : VkLog :=
  (l.free .memory stagingMem).free .buffer staging

structure Staging where
  buffer : Option Nat := none
  memory : Option Nat := none
  log : VkLog
  ok : Bool

/-- The staging buffer with the pixels. -/
def stage (env : TextureEnv) (l : VkLog) : Staging :=
  let buffer := l.fresh env.createBuffer
  let l := l.create .buffer env.createBuffer
  if !env.createBuffer then { log := l, ok := false }
  else if (findMemoryType env.memoryTypes env.bufferBits 0x6).isNone then
    { log := freeStaging buffer none l, ok := false }
  else
    let memory := l.fresh env.allocateBuffer
    let l := l.create .memory env.allocateBuffer
    if !env.allocateBuffer || !env.bindBuffer || !env.mapMemory then
      { log := freeStaging buffer memory l, ok := false }
    else { buffer, memory, log := l, ok := true }

/-- The one-shot command buffer that copies the pixels. -/
def copyPixels (env : TextureEnv) (l : VkLog) : VkLog × Bool :=
  let pool := l.fresh env.createPool
  let l := l.create .commandPool env.createPool
  if !env.createPool then (l, false)
  else if !env.allocateCmd then (l.free .commandPool pool, false)
  else
    -- The command buffer goes with the pool.
    let l := l.addParts .commandPool pool 1
    if !env.beginCmd || !env.endCmd then (l.free .commandPool pool, false)
    else
      let fence := l.fresh env.createFence
      let l := l.create .fence env.createFence
      if !env.createFence then (l.free .commandPool pool, false)
      else ((l.free .fence fence).free .commandPool pool, env.submit && env.waitFence)

/-- The view and the sampler. -/
def addView (env : TextureEnv) (renderer : Option Renderer) (t : Texture) (l : VkLog) : Upload :=
  let t := { t with view := l.fresh env.createView }
  let l := l.create .imageView env.createView
  if !env.createView then .fail renderer { t with view := none } l
  else
    let t := { t with sampler := l.fresh env.createSampler }
    let l := l.create .sampler env.createSampler
    if !env.createSampler then .fail renderer { t with sampler := none } l
    else ⟨t, l, true⟩

/-- `create_texture`, behind its checks. -/
def upload (env : TextureEnv) (renderer : Option Renderer) (l : VkLog) : Upload :=
  let image := makeImage env renderer l
  if !image.ok then image
  else
    let staging := stage env image.log
    if !staging.ok then .fail renderer image.texture staging.log
    else
      let copied := copyPixels env staging.log
      let l := freeStaging staging.buffer staging.memory copied.1
      if !copied.2 then .fail renderer image.texture l
      else addView env renderer image.texture l

/-- `create_texture` -/
def createTexture (env : TextureEnv) (renderer : Option Renderer) (l : VkLog) : Upload :=
  match renderer with
  | none => ⟨{}, l, false⟩
  | some r =>
    match r.dispatch with
    | none => ⟨{}, l, false⟩
    | some d =>
      if !r.hasDevice || !d.forTextures || !env.deviceData then ⟨{}, l, false⟩
      else upload env renderer l

/-! ## What becomes of it -/

/-- It has a device, with all that `create_texture` asks for. -/
def Renderer.Usable (r : Renderer) : Prop :=
  r.hasDevice = true ∧ ∃ d, r.dispatch = some d ∧ d.forTextures = true

theorem Dispatch.free_of_destroys {d : Dispatch} {k : VkKind} (hk : d.destroys k = true) (l : VkLog)
    (h : Option Nat) : Destroys l (d.free l k h) (owned k h) := by
  rw [Dispatch.free, if_pos hk]
  exact .free l k h

variable {env : TextureEnv} {r : Renderer} {t : Texture} {l base : VkLog}

/-- All that a texture is made of is destroyed, but for a descriptor. -/
theorem destroyTexture_spec (hr : r.Usable) (ht : t.descriptor = none) (l : VkLog) :
    (destroyTexture (some r) t l).1 = {} ∧
      Destroys l (destroyTexture (some r) t l).2 t.objects := by
  obtain ⟨hdevice, d, hd, hall⟩ := hr
  simp only [Dispatch.forTextures, List.all_cons, List.all_nil, Bool.and_eq_true] at hall
  obtain ⟨-, himage, -, hmemory, hsampler, hview, -⟩ := hall
  simp only [destroyTexture, hd, hdevice, Texture.objects, ht, owned_none, zero_add,
    Bool.not_true, Bool.false_eq_true, if_false, true_and]
  exact (((Dispatch.free_of_destroys hsampler l _).trans
    (Dispatch.free_of_destroys hview _ _)).trans (Dispatch.free_of_destroys himage _ _)).trans
      (Dispatch.free_of_destroys hmemory _ _)

theorem Upload.fail_texture (hr : r.Usable) (ht : t.descriptor = none) (l : VkLog) :
    (Upload.fail (some r) t l).texture = {} := (destroyTexture_spec hr ht l).1

/-- What was made is in the texture, which is empty after a failure. -/
structure Upload.Sound (base : VkLog) (u : Upload) : Prop where
  custody : Custody base u.log u.texture.objects
  descriptor : u.texture.descriptor = none
  failed : u.ok = false → u.texture = {}

theorem Upload.sound_fail (hr : r.Usable) (ht : t.descriptor = none)
    (hl : Custody base l t.objects) : (Upload.fail (some r) t l).Sound base := by
  have hempty := Upload.fail_texture hr ht l
  rw [← zero_add t.objects] at hl
  have hnone := hl.destroys (destroyTexture_spec hr ht l).2
  refine ⟨?_, ?_, fun _ => hempty⟩
  · rw [hempty]
    exact hnone
  · rw [hempty]

theorem makeImage_sound (hr : r.Usable) (l : VkLog) : (makeImage env (some r) l).Sound l := by
  have himage := (Custody.refl l).create .image env.createImage
  rw [zero_add] at himage
  have hboth := himage.create .memory env.allocateImage
  unfold makeImage
  cases hcreate : env.createImage with
  | false =>
    rw [hcreate] at himage
    exact ⟨himage, rfl, fun _ => rfl⟩
  | true =>
    rw [hcreate] at himage hboth
    simp only [Bool.not_true, Bool.false_eq_true, if_false]
    split
    · exact Upload.sound_fail hr rfl (by simpa [Texture.objects] using himage)
    cases hallocate : env.allocateImage with
    | false =>
      rw [hallocate] at hboth
      exact Upload.sound_fail hr rfl (by simpa [Texture.objects, Ledger.fresh] using hboth)
    | true =>
      rw [hallocate] at hboth
      simp only [Bool.not_true, Bool.false_eq_true, if_false]
      split
      · exact Upload.sound_fail hr rfl (by simpa [Texture.objects] using hboth)
      · exact ⟨by simpa [Texture.objects] using hboth, rfl, fun h => by cases h⟩

theorem freeStaging_custody {buffer memory : Option Nat} {held : Multiset (Obj VkKind)}
    (hl : Custody base l (held + owned .buffer buffer + owned .memory memory)) :
    Custody base (freeStaging buffer memory l) held := hl.free.free

/-- The staging buffer and its memory are there, or nothing is left of them. -/
theorem stage_custody (l : VkLog) : Custody l (stage env l).log
    (owned .buffer (stage env l).buffer + owned .memory (stage env l).memory) := by
  have hbuffer := (Custody.refl l).create .buffer env.createBuffer
  have hboth := hbuffer.create .memory env.allocateBuffer
  unfold stage
  cases hcreate : env.createBuffer with
  | false =>
    rw [hcreate] at hbuffer
    exact hbuffer
  | true =>
    rw [hcreate] at hbuffer hboth
    simp only [Bool.not_true, Bool.false_eq_true, if_false]
    split
    · exact freeStaging_custody hbuffer
    split
    · exact freeStaging_custody hboth
    · rwa [zero_add] at hboth

/-- Nothing is left of the pool and the fence. -/
theorem copyPixels_custody (l : VkLog) : Custody l (copyPixels env l).1 0 := by
  have hpool := (Custody.refl l).create .commandPool env.createPool
  unfold copyPixels
  cases hcreate : env.createPool with
  | false =>
    rw [hcreate] at hpool
    exact hpool
  | true =>
    rw [hcreate] at hpool
    have hcmd := hpool.addParts 1
    have hfence := hcmd.create .fence env.createFence
    simp only [Bool.not_true, Bool.false_eq_true, if_false]
    split
    · exact hpool.free
    split
    · exact hcmd.free
    cases hcreated : env.createFence with
    | false =>
      rw [hcreated] at hfence
      exact Custody.free hfence
    | true =>
      rw [hcreated] at hfence
      exact hfence.free.free

theorem addView_sound (hr : r.Usable) (hview : t.view = none) (hsampler : t.sampler = none)
    (ht : t.descriptor = none) (hl : Custody base l t.objects) :
    (addView env (some r) t l).Sound base := by
  have hone := hl.create .imageView env.createView
  have hboth := hone.create .sampler env.createSampler
  unfold addView
  cases hcreate : env.createView with
  | false =>
    rw [hcreate] at hone
    exact Upload.sound_fail hr ht (by simpa [Texture.objects, Ledger.fresh, hview] using hone)
  | true =>
    rw [hcreate] at hone hboth
    simp only [Bool.not_true, Bool.false_eq_true, if_false]
    have hobjects : ∀ view sampler,
        ({ t with view := view, sampler := sampler } : Texture).objects =
          t.objects + owned .imageView view + owned .sampler sampler := by
      intro view sampler
      simp only [Texture.objects, hview, hsampler, ht, owned_none, zero_add]
      abel
    cases hcreated : env.createSampler with
    | false =>
      refine Upload.sound_fail hr ht ?_
      rw [hobjects _ none]
      simpa [Ledger.create, hcreated] using hone
    | true =>
      rw [hcreated] at hboth
      exact ⟨(hobjects _ _).symm ▸ hboth, ht, fun h => by cases h⟩

theorem makeImage_empty (hr : r.Usable) (l : VkLog) :
    (makeImage env (some r) l).texture.view = none ∧
      (makeImage env (some r) l).texture.sampler = none := by
  have hfail : ∀ (t : Texture) (l : VkLog), t.descriptor = none →
      (Upload.fail (some r) t l).texture.view = none ∧
        (Upload.fail (some r) t l).texture.sampler = none := by
    intro t l ht
    rw [Upload.fail_texture hr ht l]
    exact ⟨rfl, rfl⟩
  unfold makeImage
  cases env.createImage with
  | false => exact ⟨rfl, rfl⟩
  | true =>
    simp only [Bool.not_true, Bool.false_eq_true, if_false]
    split
    · exact hfail _ _ rfl
    split
    · exact hfail _ _ rfl
    split
    · exact hfail _ _ rfl
    · exact ⟨rfl, rfl⟩

theorem stage_failed {l : VkLog} (hfailed : (stage env l).ok = false) :
    (stage env l).buffer = none ∧ (stage env l).memory = none := by
  unfold stage at hfailed ⊢
  cases hcreate : env.createBuffer with
  | false => exact ⟨rfl, rfl⟩
  | true =>
    simp only [hcreate, Bool.not_true, Bool.false_eq_true, if_false] at hfailed ⊢
    split at hfailed
    · rename_i htype
      rw [if_pos htype]
      exact ⟨rfl, rfl⟩
    rename_i htype
    rw [if_neg htype]
    split at hfailed
    · rename_i hcalls
      rw [if_pos hcalls]
      exact ⟨rfl, rfl⟩
    · cases hfailed

theorem upload_sound (hr : r.Usable) (l : VkLog) : (upload env (some r) l).Sound l := by
  have himage := @makeImage_sound env r hr l
  obtain ⟨hview, hsampler⟩ := @makeImage_empty env r hr l
  have hstaged := himage.custody.trans (@stage_custody env (makeImage env (some r) l).log)
  rw [← add_assoc] at hstaged
  unfold upload
  dsimp only
  split
  · exact himage
  split
  · rename_i hfailed
    obtain ⟨hbuffer, hmemory⟩ := stage_failed (by simpa using hfailed)
    rw [hbuffer, hmemory, owned_none, owned_none, add_zero, add_zero] at hstaged
    exact Upload.sound_fail hr himage.descriptor hstaged
  · have hcopied :=
      hstaged.trans (@copyPixels_custody env (stage env (makeImage env (some r) l).log).log)
    rw [add_zero] at hcopied
    have hfreed := freeStaging_custody hcopied
    split
    · exact Upload.sound_fail hr himage.descriptor hfreed
    · exact addView_sound hr hview hsampler himage.descriptor hfreed

/-- Behind the checks stands a renderer that can destroy what is made. -/
theorem createTexture_cases (env : TextureEnv) (renderer : Option Renderer) (l : VkLog) :
    createTexture env renderer l = ⟨{}, l, false⟩ ∨
      ∃ r, renderer = some r ∧ r.Usable ∧
        createTexture env renderer l = upload env renderer l := by
  unfold createTexture
  cases renderer with
  | none => exact .inl rfl
  | some r =>
    dsimp only
    cases hd : r.dispatch with
    | none => exact .inl rfl
    | some d =>
      dsimp only
      split
      · exact .inl rfl
      · rename_i hchecks
        simp only [Bool.or_eq_true, Bool.not_eq_true', not_or, Bool.not_eq_false] at hchecks
        exact .inr ⟨r, rfl, ⟨hchecks.1.1, d, hd, hchecks.1.2⟩, rfl⟩

/-- Whatever fails, what is created for a texture is destroyed or in the texture, and
after a failure the texture is empty. -/
theorem createTexture_sound (env : TextureEnv) (renderer : Option Renderer) (l : VkLog) :
    (createTexture env renderer l).Sound l := by
  rcases createTexture_cases env renderer l with hnothing | ⟨r, rfl, hr, hupload⟩
  · rw [hnothing]
    exact ⟨.refl l, rfl, fun _ => rfl⟩
  · rw [hupload]
    exact upload_sound hr l

/-! ## The textures of a swapchain -/

structure LoadEnv extends TextureEnv where
  /-- The file of the request. -/
  file : Option Bytes := none
  /-- `add_texture` gives a descriptor. -/
  addTexture : Bool := true

structure AvatarTextures where
  renderer : Option Renderer := none
  textures : List (Bytes × Texture) := []

namespace AvatarTextures

/-- The part of `get_or_load` behind `create_texture`. -/
def register (env : LoadEnv) (hash : Bytes) (u : Upload) (a : AvatarTextures) :
    AvatarTextures × VkLog × Option Nat :=
  if !u.ok then (a, u.log, none)
  else
    let t := { u.texture with descriptor := u.log.fresh env.addTexture }
    let l := u.log.create .descriptorSet env.addTexture
    if !env.addTexture then (a, (destroyTexture a.renderer t l).2, none)
    else ({ a with textures := (hash, t) :: a.textures }, l, t.descriptor)

/-- `get_or_load` -/
def getOrLoad (env : LoadEnv) (hash : Bytes) (a : AvatarTextures) (l : VkLog) :
    AvatarTextures × VkLog × Option Nat :=
  if hash = [] then (a, l, none)
  else
    match a.textures.lookup hash with
    | some t => (a, l, t.descriptor)
    | none =>
      if !a.renderer.any Renderer.ready then (a, l, none)
      else
        match readAvatarRgba env.file with
        | none => (a, l, none)
        | some (w, h, rgba) =>
          if w = 0 ∨ h = 0 ∨ rgba.length ≠ w.toNat * h.toNat * 4 then (a, l, none)
          else a.register env hash (createTexture env.toTextureEnv a.renderer l)

/-- `remove_texture` -/
def removeTexture (renderer : Option Renderer) (descriptor : Option Nat) (l : VkLog) : VkLog :=
  if renderer.any Renderer.ready then l.free .descriptorSet descriptor else l

/-- The loop of `shutdown`. -/
def removeAll (renderer : Option Renderer) : List (Bytes × Texture) → VkLog → VkLog
  | [], l => l
  | (_, t) :: rest, l =>
    let l := removeTexture renderer t.descriptor l
    removeAll renderer rest (destroyTexture renderer { t with descriptor := none } l).2

/-- `shutdown` -/
def shutdown (a : AvatarTextures) (l : VkLog) : AvatarTextures × VkLog :=
  ({}, removeAll a.renderer a.textures l)

def objects (a : AvatarTextures) : Multiset (Obj VkKind) :=
  (a.textures.map fun e => e.2.objects).sum

/-- Where there are textures, what they were made with is there still. -/
def Kept (a : AvatarTextures) : Prop :=
  a.textures ≠ [] → ∃ r, a.renderer = some r ∧ r.ready = true ∧ r.Usable

/-- Nothing changes, and nothing is left of what was created. -/
def Unchanged (a : AvatarTextures) (l : VkLog) (r : AvatarTextures × VkLog × Option Nat) : Prop :=
  r.1 = a ∧ Custody l r.2.1 0

/-- One texture is added, made of what was created. -/
def Adds (a : AvatarTextures) (hash : Bytes) (l : VkLog)
    (r : AvatarTextures × VkLog × Option Nat) : Prop :=
  ∃ t, r.1 = { a with textures := (hash, t) :: a.textures } ∧ r.2.2 = t.descriptor ∧
    t.descriptor.isSome = true ∧ Custody l r.2.1 t.objects

end AvatarTextures

/-- A descriptor is one object more. -/
theorem Texture.objects_withDescriptor (t : Texture) (descriptor : Option Nat) :
    ({ t with descriptor := descriptor } : Texture).objects =
      ({ t with descriptor := none } : Texture).objects + owned .descriptorSet descriptor := by
  simp only [Texture.objects, owned_none]
  abel

/-- A texture is only made with a renderer that can destroy it. -/
theorem usable_of_createTexture {renderer : Option Renderer}
    (hok : (createTexture env renderer l).ok = true) : ∃ r, renderer = some r ∧ r.Usable := by
  rcases createTexture_cases env renderer l with hnothing | ⟨r, hrenderer, hr, -⟩
  · rw [hnothing] at hok
    cases hok
  · exact ⟨r, hrenderer, hr⟩

namespace AvatarTextures

variable {a : AvatarTextures}

/-- What `create_texture` made is registered, or nothing is left of it. -/
theorem register_spec (env : LoadEnv) (hash : Bytes) (l : VkLog)
    (hready : a.renderer.any Renderer.ready = true) :
    Unchanged a l (a.register env hash (createTexture env.toTextureEnv a.renderer l)) ∨
      (∃ r, a.renderer = some r ∧ r.ready = true ∧ r.Usable) ∧
        Adds a hash l (a.register env hash (createTexture env.toTextureEnv a.renderer l)) := by
  have hmade := createTexture_sound env.toTextureEnv a.renderer l
  rw [register]
  cases hok : (createTexture env.toTextureEnv a.renderer l).ok with
  | false =>
    have hnothing := hmade.custody
    rw [hmade.failed hok] at hnothing
    exact .inl ⟨rfl, hnothing⟩
  | true =>
    obtain ⟨r, hrenderer, hr⟩ := usable_of_createTexture hok
    have hplain : ∀ u : Upload, u.texture.descriptor = none →
        ({ u.texture with descriptor := none } : Texture) = u.texture := by
      intro u hu
      rw [← hu]
    have hadded := hmade.custody.create .descriptorSet env.addTexture
    rw [← hplain _ hmade.descriptor, ← Texture.objects_withDescriptor] at hadded
    simp only [Bool.not_true, Bool.false_eq_true, if_false]
    cases hadd : env.addTexture with
    | false =>
      rw [hadd] at hadded
      rw [← zero_add (Texture.objects _)] at hadded
      refine .inl ⟨rfl, hadded.destroys ?_⟩
      rw [hrenderer]
      exact (destroyTexture_spec hr rfl _).2
    | true =>
      rw [hadd] at hadded
      exact .inr ⟨⟨r, hrenderer, by simpa [hrenderer] using hready, hr⟩, _, rfl, rfl, rfl, hadded⟩

/-- A load adds a texture or leaves no trace. -/
theorem getOrLoad_spec (env : LoadEnv) (hash : Bytes) (a : AvatarTextures) (l : VkLog) :
    Unchanged a l (a.getOrLoad env hash l) ∨
      (∃ r, a.renderer = some r ∧ r.ready = true ∧ r.Usable) ∧
        Adds a hash l (a.getOrLoad env hash l) := by
  have hunchanged : ∀ id, Unchanged a l (a, l, id) := fun _ => ⟨rfl, .refl l⟩
  rw [getOrLoad]
  split
  · exact .inl (hunchanged _)
  split
  · exact .inl (hunchanged _)
  split
  · exact .inl (hunchanged _)
  rename_i hready
  split
  · exact .inl (hunchanged _)
  split
  · exact .inl (hunchanged _)
  exact register_spec env hash l (by simpa using hready)

/-- The loop removes just what the textures are made of. -/
theorem removeAll_spec {r : Renderer} (hready : r.ready = true) (hr : r.Usable)
    (textures : List (Bytes × Texture)) (l : VkLog) :
    Destroys l (removeAll (some r) textures l) (textures.map fun e => e.2.objects).sum := by
  induction textures generalizing l with
  | nil => exact .refl l
  | cons e textures ih =>
    have hremoved : Destroys l (removeTexture (some r) e.2.descriptor l)
        (owned .descriptorSet e.2.descriptor) := by
      rw [removeTexture, if_pos (by simpa using hready)]
      exact .free ..
    have hgone := hremoved.trans (@destroyTexture_spec r { e.2 with descriptor := none } hr rfl _).2
    rw [add_comm, ← Texture.objects_withDescriptor] at hgone
    rw [List.map_cons, List.sum_cons]
    exact hgone.trans (ih _)

/-- A shutdown destroys just what the textures are made of. -/
theorem shutdown_spec (ha : a.Kept) (l : VkLog) : Destroys l (a.shutdown l).2 a.objects := by
  rw [shutdown, objects]
  cases htextures : a.textures with
  | nil => exact .refl l
  | cons e textures =>
    obtain ⟨r, hrenderer, hready, hr⟩ := ha (by rw [htextures]; exact List.cons_ne_nil e textures)
    rw [hrenderer]
    exact removeAll_spec hready hr (e :: textures) l

/-! ## Runs -/

/-- Textures loaded one after the other. -/
def loadAll (a : AvatarTextures) (l : VkLog) : List (LoadEnv × Bytes) → AvatarTextures × VkLog
  | [] => (a, l)
  | (env, hash) :: rest =>
    let r := a.getOrLoad env hash l
    loadAll r.1 r.2.1 rest

/-- Where the loads come to, whatever else is created and destroyed in between. -/
inductive Reached : AvatarTextures → Prop where
  | init (renderer : Option Renderer) : Reached { renderer }
  | load {a : AvatarTextures} (env : LoadEnv) (hash : Bytes) (l : VkLog) (ha : Reached a) :
      Reached (a.getOrLoad env hash l).1
  | shutdown {a : AvatarTextures} (l : VkLog) (ha : Reached a) : Reached (a.shutdown l).1

/-- One load: whatever was created is one texture more, or gone. -/
theorem custody_getOrLoad (ha : a.Kept) (env : LoadEnv) (hash : Bytes) (l : VkLog) :
    (a.getOrLoad env hash l).1.Kept ∧ ∃ held, Custody l (a.getOrLoad env hash l).2.1 held ∧
      (a.getOrLoad env hash l).1.objects = a.objects + held := by
  rcases getOrLoad_spec env hash a l with ⟨hsame, hl⟩ | ⟨⟨r, hr⟩, t, hadds, -, -, hl⟩
  · rw [hsame]
    exact ⟨ha, 0, hl, (add_zero _).symm⟩
  · rw [hadds]
    refine ⟨fun _ => ⟨r, hr⟩, t.objects, hl, ?_⟩
    rw [objects, List.map_cons, List.sum_cons, add_comm, objects]

theorem Reached.kept (ha : Reached a) : a.Kept := by
  induction ha with
  | init renderer => exact fun h => absurd rfl h
  | load env hash l _ ih => exact (custody_getOrLoad ih env hash l).1
  | shutdown l _ _ => exact fun h => absurd rfl h

/-- Many loads. -/
theorem custody_loadAll {base : VkLog} (loads : List (LoadEnv × Bytes)) (ha : a.Kept)
    (hl : Custody base l a.objects) : (a.loadAll l loads).1.Kept ∧
      Custody base (a.loadAll l loads).2 (a.loadAll l loads).1.objects := by
  induction loads generalizing a l with
  | nil => exact ⟨ha, hl⟩
  | cons load loads ih =>
    obtain ⟨hkept, held, hheld, hobjects⟩ := custody_getOrLoad ha load.1 load.2 l
    exact ih hkept (hobjects ▸ hl.trans hheld)

end AvatarTextures

end Choir
