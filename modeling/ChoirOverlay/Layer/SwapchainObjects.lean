-- SUMMARY: The objects of a swapchain's overlay: whatever call fails, what was created is in the state or destroyed.
import ChoirOverlay.Layer.AvatarTextures

/-!
# The objects of a swapchain

A render pass, a command pool and four objects for each image. The objects of
the ImGui backend are its own and are not among them.
-/

namespace Choir

open Ownership

namespace Building

/-! ## The state -/

structure ImageState where
  image : Nat := 0
  view : Option Nat := none
  framebuffer : Option Nat := none
  /-- Which command buffer of the pool; it goes with the pool. -/
  cmd : Option Nat := none
  fence : Option Nat := none
  overlayDone : Option Nat := none
  deriving DecidableEq, Repr

structure SwapchainState where
  /-- The functions of `dd`. -/
  dispatch : Dispatch
  renderPass : Option Nat := none
  pool : Option Nat := none
  images : List ImageState := []
  ok : Bool := false
  avatars : Option AvatarTextures := none

def ImageState.objects (img : ImageState) : Multiset (Obj VkKind) :=
  owned .imageView img.view + owned .framebuffer img.framebuffer + owned .fence img.fence +
    owned .semaphore img.overlayDone

/-- What the state holds, without the textures. -/
def SwapchainState.built (s : SwapchainState) : Multiset (Obj VkKind) :=
  (s.images.map ImageState.objects).sum + owned .commandPool s.pool + owned .renderPass s.renderPass

def SwapchainState.objects (s : SwapchainState) : Multiset (Obj VkKind) :=
  s.avatars.elim 0 AvatarTextures.objects + s.built

/-- `record_one` has the textures once there is a renderer. -/
def SwapchainState.withAvatars (s : SwapchainState) (a : AvatarTextures) : SwapchainState :=
  { s with avatars := some a }

/-- The entry points `build_state` asks for. -/
def forSwapchains (d : Dispatch) : Bool :=
  d.others &&
    [.imageView, .renderPass, .framebuffer, .commandPool, .fence, .semaphore].all d.destroys

/-! ## Tearing down -/

/-- The loop of `destroy_state`. -/
def destroyImages (d : Dispatch) : List ImageState → VkLog → VkLog
  | [], l => l
  | img :: rest, l =>
    let l := d.free l .semaphore img.overlayDone
    let l := d.free l .fence img.fence
    let l := d.free l .framebuffer img.framebuffer
    destroyImages d rest (d.free l .imageView img.view)

/-- `destroy_state` -/
def destroyState (s : SwapchainState) (l : VkLog) : SwapchainState × VkLog :=
  let l := s.avatars.elim l fun a => (a.shutdown l).2
  let l := destroyImages s.dispatch s.images l
  let l := s.dispatch.free l .commandPool s.pool
  let l := s.dispatch.free l .renderPass s.renderPass
  ({ s with avatars := none, images := [], pool := none, renderPass := none, ok := false }, l)

/-! ## Building -/

/-- What the calls for one image return. -/
structure ImageEnv where
  createView : Bool := true
  createFramebuffer : Bool := true
  createFence : Bool := true
  createSemaphore : Bool := true

/-- What `build_state` meets. -/
structure BuildEnv where
  hasGraphicsQueueFamily : Bool := true
  /-- The count `vkGetSwapchainImagesKHR` gives, and then the images. -/
  count : Option Nat := none
  images : Option (List Nat) := none
  createRenderPass : Bool := true
  createPool : Bool := true
  allocateCmds : Bool := true
  image : Nat → ImageEnv := fun _ => {}

structure Built where
  state : SwapchainState
  log : VkLog
  ok : Bool

def Built.fail (s : SwapchainState) (l : VkLog) : Built :=
  let gone := destroyState s l
  ⟨gone.1, gone.2, false⟩

/-- The body of the loop, up to the first failure. -/
def buildImage (env : ImageEnv) (img : ImageState) (l : VkLog) : ImageState × VkLog × Bool :=
  let img := { img with view := l.fresh env.createView }
  let l := l.create .imageView env.createView
  if !env.createView then (img, l, false)
  else
    let img := { img with framebuffer := l.fresh env.createFramebuffer }
    let l := l.create .framebuffer env.createFramebuffer
    if !env.createFramebuffer then (img, l, false)
    else
      let img := { img with fence := l.fresh env.createFence }
      let l := l.create .fence env.createFence
      if !env.createFence then (img, l, false)
      else
        let img := { img with overlayDone := l.fresh env.createSemaphore }
        (img, l.create .semaphore env.createSemaphore, env.createSemaphore)

/-- The loop of `build_state`, with the images that are done. -/
def buildImages (env : Nat → ImageEnv) (s : SwapchainState) :
    List ImageState → List Nat → VkLog → Built
  | done, [], l => ⟨{ s with images := done, ok := true }, l, true⟩
  | done, image :: rest, l =>
    let r := buildImage (env done.length) { image, cmd := some done.length } l
    if !r.2.2 then .fail { s with images := done ++ r.1 :: rest.map fun _ => {} } r.2.1
    else buildImages env s (done ++ [r.1]) rest r.2.1

/-- `build_state` -/
def buildState (env : BuildEnv) (s : SwapchainState) (l : VkLog) : Built :=
  if !forSwapchains s.dispatch || !env.hasGraphicsQueueFamily then ⟨s, l, false⟩
  else if env.count.all (· = 0) then ⟨s, l, false⟩
  else
    match env.images with
    | none => ⟨s, l, false⟩
    | some images =>
      let s := { s with renderPass := l.fresh env.createRenderPass }
      let l := l.create .renderPass env.createRenderPass
      if !env.createRenderPass then ⟨s, l, false⟩
      else
        let s := { s with pool := l.fresh env.createPool }
        let l := l.create .commandPool env.createPool
        if !env.createPool then
          ⟨{ s with renderPass := none }, l.free .renderPass s.renderPass, false⟩
        else if !env.allocateCmds then .fail s l
        else buildImages env.image s [] images (l.addParts .commandPool s.pool images.length)

/-! ## What becomes of it -/

variable {d : Dispatch} {s : SwapchainState} {l base : VkLog} {held : Multiset (Obj VkKind)}

/-- What the state holds can be destroyed. -/
structure SwapchainState.Kept (s : SwapchainState) : Prop where
  built : forSwapchains s.dispatch = true ∨ s.images = [] ∧ s.pool = none ∧ s.renderPass = none
  avatars : ∀ a ∈ s.avatars, a.Kept

theorem destroys_of_forSwapchains (hd : forSwapchains d = true) :
    ∀ k ∈ [VkKind.imageView, .renderPass, .framebuffer, .commandPool, .fence, .semaphore],
      d.destroys k = true := by
  rw [forSwapchains, Bool.and_eq_true] at hd
  exact List.all_eq_true.mp hd.2

theorem destroyImages_spec (hd : forSwapchains d = true) (images : List ImageState) (l : VkLog) :
    Destroys l (destroyImages d images l) (images.map ImageState.objects).sum := by
  have hall := destroys_of_forSwapchains hd
  induction images generalizing l with
  | nil => exact .refl l
  | cons img images ih =>
    have hdone := Dispatch.free_of_destroys (hall .semaphore (by decide)) l img.overlayDone
    have hfenced := hdone.trans
      (Dispatch.free_of_destroys (hall .fence (by decide)) _ img.fence)
    have hframed := hfenced.trans
      (Dispatch.free_of_destroys (hall .framebuffer (by decide)) _ img.framebuffer)
    have hgone := hframed.trans
      (Dispatch.free_of_destroys (hall .imageView (by decide)) _ img.view)
    have hobjects : img.objects = owned .semaphore img.overlayDone + owned .fence img.fence +
        owned .framebuffer img.framebuffer + owned .imageView img.view := by
      rw [ImageState.objects]
      abel
    rw [List.map_cons, List.sum_cons, hobjects]
    exact hgone.trans (ih _)

theorem free_none (d : Dispatch) (l : VkLog) (k : VkKind) : d.free l k none = l := by
  rw [Dispatch.free]
  split <;> rfl

/-- `destroy_state` destroys just what the state holds. -/
theorem destroyState_spec (hs : s.Kept) (l : VkLog) :
    Destroys l (destroyState s l).2 s.objects := by
  have havatars : Destroys l (s.avatars.elim l fun a => (a.shutdown l).2)
      (s.avatars.elim 0 AvatarTextures.objects) := by
    cases h : s.avatars with
    | none => exact .refl l
    | some a => exact AvatarTextures.shutdown_spec (hs.avatars a h) l
  have hbuilt : ∀ l', Destroys l' (s.dispatch.free (s.dispatch.free
      (destroyImages s.dispatch s.images l') .commandPool s.pool) .renderPass s.renderPass)
      s.built := by
    intro l'
    rw [SwapchainState.built]
    rcases hs.built with hd | ⟨himages, hpool, hpass⟩
    · have hall := destroys_of_forSwapchains hd
      exact ((destroyImages_spec hd s.images l').trans
        (Dispatch.free_of_destroys (hall .commandPool (by decide)) _ s.pool)).trans
          (Dispatch.free_of_destroys (hall .renderPass (by decide)) _ s.renderPass)
    · rw [himages, hpool, hpass, destroyImages, free_none, free_none]
      exact .refl l'
  exact havatars.trans (hbuilt _)

/-- Whatever is built, everything that was created is in the state; after a failure
that is as it was before. -/
structure Built.Sound (base : VkLog) (d : Dispatch) (b : Built) : Prop where
  custody : Custody base b.log b.state.built
  avatars : b.state.avatars = none
  ok : b.state.ok = b.ok
  failed : b.ok = false → b.state = { dispatch := d }
  kept : b.state.Kept

theorem Built.sound_fail (hd : forSwapchains s.dispatch = true) (havatars : s.avatars = none)
    (hl : Custody base l s.built) : (Built.fail s l).Sound base s.dispatch := by
  have hobjects : s.objects = s.built := by
    rw [SwapchainState.objects, havatars]
    exact zero_add _
  have hgone := destroyState_spec ⟨.inl hd, by simp [havatars]⟩ l
  rw [hobjects] at hgone
  rw [← zero_add s.built] at hl
  exact ⟨hl.destroys hgone, rfl, rfl, fun _ => rfl,
    ⟨.inr ⟨rfl, rfl, rfl⟩, by simp [fail, destroyState]⟩⟩

theorem buildImage_custody (env : ImageEnv) (image : Nat) (cmd : Option Nat)
    (hl : Custody base l held) : Custody base (buildImage env { image, cmd } l).2.1
      (held + (buildImage env { image, cmd } l).1.objects) := by
  have hview := hl.create .imageView env.createView
  have hframebuffer := hview.create .framebuffer env.createFramebuffer
  have hfence := hframebuffer.create .fence env.createFence
  have hall := hfence.create .semaphore env.createSemaphore
  unfold buildImage
  simp only [ImageState.objects, ← add_assoc]
  split
  · simpa using hview
  split
  · simpa using hframebuffer
  split
  · simpa using hfence
  · exact hall

theorem objects_untouched (images : List Nat) :
    ((images.map fun _ => ({} : ImageState)).map ImageState.objects).sum = 0 := by
  induction images with
  | nil => rfl
  | cons image images ih =>
    rw [List.map_cons, List.map_cons, List.sum_cons, ih]
    rfl

/-- The loop keeps what is created in the images that are done. -/
theorem buildImages_sound (env : Nat → ImageEnv) (hd : forSwapchains s.dispatch = true)
    (havatars : s.avatars = none) (done : List ImageState) (images : List Nat) (l : VkLog)
    (hl : Custody base l ({ s with images := done } : SwapchainState).built) :
    (buildImages env s done images l).Sound base s.dispatch := by
  induction images generalizing done l with
  | nil =>
    exact ⟨hl, havatars, rfl, fun h => (by cases h),
      ⟨.inl hd, by simp [havatars, buildImages]⟩⟩
  | cons image images ih =>
    have himage := buildImage_custody (env done.length) image (some done.length) hl
    rw [buildImages]
    generalize buildImage (env done.length) { image, cmd := some done.length } l = r at himage ⊢
    split
    · have hfail : ∀ imgs, Custody base r.2.1 ({ s with images := imgs } : SwapchainState).built →
          (Built.fail { s with images := imgs } r.2.1).Sound base s.dispatch :=
        fun imgs h => Built.sound_fail (s := { s with images := imgs }) hd havatars h
      refine hfail _ ?_
      simp only [SwapchainState.built, List.map_append, List.map_cons, List.sum_append,
        List.sum_cons, objects_untouched, add_zero] at himage ⊢
      rwa [add_right_comm, add_right_comm (List.sum _)] at himage
    · refine ih _ _ ?_
      simp only [SwapchainState.built, List.map_append, List.map_cons, List.map_nil,
        List.sum_append, List.sum_cons, List.sum_nil, add_zero] at himage ⊢
      rwa [add_right_comm, add_right_comm (List.sum _)] at himage

/-- Whatever fails, `build_state` keeps in the state what it created, or destroys it. -/
theorem buildState_sound (env : BuildEnv) (d : Dispatch) (l : VkLog) :
    (buildState env { dispatch := d } l).Sound l d := by
  have hnothing : Built.Sound l d ⟨{ dispatch := d }, l, false⟩ :=
    ⟨.refl l, rfl, rfl, fun _ => rfl, ⟨.inr ⟨rfl, rfl, rfl⟩, by simp⟩⟩
  unfold buildState
  split
  · exact hnothing
  rename_i hchecks
  have hd : forSwapchains d = true := by
    by_contra h
    exact hchecks (by simp [h])
  split
  · exact hnothing
  split
  · exact hnothing
  rename_i images himages
  have hpass := (Custody.refl l).create .renderPass env.createRenderPass
  cases hcreate : env.createRenderPass with
  | false =>
    rw [hcreate] at hpass
    exact ⟨hpass, rfl, rfl, fun _ => rfl, ⟨.inr ⟨rfl, rfl, rfl⟩, by simp⟩⟩
  | true =>
    rw [hcreate] at hpass
    have hpool := hpass.create .commandPool env.createPool
    simp only [Bool.not_true, Bool.false_eq_true, if_false]
    cases hcreated : env.createPool with
    | false =>
      rw [hcreated] at hpool
      exact ⟨Custody.free hpool, rfl, rfl, fun _ => rfl, ⟨.inr ⟨rfl, rfl, rfl⟩, by simp⟩⟩
    | true =>
      rw [hcreated] at hpool
      have hbuffers := hpool.addParts images.length
      rw [zero_add, add_comm] at hpool hbuffers
      simp only [Bool.not_true, Bool.false_eq_true, if_false]
      split
      · refine Built.sound_fail (s := { dispatch := d, renderPass := _, pool := _ }) hd rfl ?_
        simpa [SwapchainState.built] using hpool
      · refine buildImages_sound (s := { dispatch := d, renderPass := _, pool := _ }) env.image hd
          rfl [] images _ ?_
        simpa [SwapchainState.built] using hbuffers

/-! ## The life of a swapchain -/

theorem kept_withAvatars {b : Built} (hb : b.Sound base d) {a : AvatarTextures} (ha : a.Kept) :
    (b.state.withAvatars a).Kept := by
  refine ⟨hb.kept.built, fun a' ha' => ?_⟩
  cases ha'
  exact ha

/-- For any number of images and whatever call fails, what `build_state` creates it
keeps or destroys, and after a failure the state is empty. A texture that
`create_texture` fails at is empty too, and `get_or_load` adds a texture with all that
it created or leaves no trace. What is kept is destroyed, once, by `destroy_state` or
`shutdown`, at whatever time that comes; if nothing comes in between, then all that was
created has been destroyed once. -/
theorem objects_accounted (env : BuildEnv) (d : Dispatch) (l : VkLog) :
    let b := buildState env { dispatch := d } l
    (Custody l b.log b.state.objects ∧ b.state.ok = b.ok ∧
        (b.ok = false → b.state = { dispatch := d })) ∧
      (∀ env renderer l, Custody l (createTexture env renderer l).log
          (createTexture env renderer l).texture.objects ∧
        ((createTexture env renderer l).ok = false → (createTexture env renderer l).texture = {})) ∧
      (∀ env hash (a : AvatarTextures) l, AvatarTextures.Unchanged a l (a.getOrLoad env hash l) ∨
        AvatarTextures.Adds a hash l (a.getOrLoad env hash l)) ∧
      (∀ a later, AvatarTextures.Reached a →
        Destroys later (destroyState b.state later).2 b.state.objects ∧
          Destroys later (destroyState (b.state.withAvatars a) later).2
            (a.objects + b.state.objects) ∧
          Destroys later (a.shutdown later).2 a.objects) ∧
      ∀ renderer loads,
        let r := AvatarTextures.loadAll { renderer } b.log loads
        let gone := (destroyState (b.state.withAvatars r.1) r.2).2
        ∀ x, (gone.destroyed.drop l.destroyed.length).count x =
          if x ∈ gone.created.drop l.created.length then 1 else 0 := by
  intro b
  have hb := buildState_sound env d l
  have hobjects : b.state.objects = b.state.built := by
    rw [SwapchainState.objects, hb.avatars]
    exact zero_add _
  refine ⟨⟨hobjects ▸ hb.custody, hb.ok, hb.failed⟩, fun env renderer l => ?_,
    fun env hash a l => ?_, fun a later ha => ?_, ?_⟩
  · have hmade := createTexture_sound env renderer l
    exact ⟨hmade.custody, hmade.failed⟩
  · exact (AvatarTextures.getOrLoad_spec env hash a l).imp_right And.right
  · refine ⟨destroyState_spec hb.kept later, ?_, AvatarTextures.shutdown_spec ha.kept later⟩
    rw [hobjects]
    exact destroyState_spec (kept_withAvatars hb ha.kept) later
  · intro renderer loads r gone x
    obtain ⟨hloaded, hloads⟩ :=
      AvatarTextures.custody_loadAll loads (AvatarTextures.Reached.init renderer).kept
        (Custody.refl b.log)
    have hall := hb.custody.trans hloads
    rw [add_comm, ← zero_add (_ + _)] at hall
    simpa using
      (hall.destroys (destroyState_spec (kept_withAvatars hb hloaded) r.2)).count_eq x

/-- Three images, where the semaphore of the last one is not created. -/
def lastFails : BuildEnv where
  count := some 3
  images := some [10, 11, 12]
  image i := { createSemaphore := i != 2 }

theorem objects_accounted_lastFails : (buildState lastFails { dispatch := {} } {}).ok = false ∧
    (buildState lastFails { dispatch := {} } {}).state = { dispatch := {} } ∧
    (buildState lastFails { dispatch := {} } {}).log.created.length = 13 := by
  have hfailed : (buildState lastFails { dispatch := {} } {}).ok = false := by decide +kernel
  exact ⟨hfailed, (objects_accounted lastFails {} {}).1.2.2 hfailed, by decide +kernel⟩

end Building

end Choir
