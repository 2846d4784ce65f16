-- SUMMARY: Over any calls of the game, what the layer has created is kept by one swapchain or given back, and ImGui is never misused.
import ChoirOverlay.Layer.Estate

/-!
# Accounts

The invariant of the estate. The game uses the hooks as Vulkan lets it: a present
names swapchains of its queue's device, and the driver does not hand out a
swapchain that is still there.
-/

namespace Choir

open Ownership

namespace Drawable

variable {s : Drawable} {g g' : Imgui} {latched latched' : Bool}

theorem Sound.mono (hs : s.Sound latched g) (hlatched : latched = true → latched' = true)
    (hg : ∀ c, s.ctx = some c → g'.contexts c = g.contexts c) : s.Sound latched' g' := by
  refine ⟨hs.dispatch, hs.kept, hs.avatars, fun r hr => ?_, hs.untried⟩
  obtain ⟨c, k, hlives, hc, hk⟩ := hs.imgui r hr
  have hctx : s.ctx = some c := by
    rw [Drawable.ctx, hr, Option.bind_some, hlives.ctx]
  exact ⟨c, k, hlives, (hg c hctx).trans hc, hk.weaken hlatched⟩

/-- The context of a renderer is one of ImGui's. -/
theorem Sound.context (hs : s.Sound latched g) {c : Nat} (hc : s.ctx = some c) :
    (g.contexts c).isSome = true := by
  obtain ⟨r, hr, hrc⟩ := Option.bind_eq_some_iff.mp hc
  obtain ⟨c', k, hlives, hk, -⟩ := hs.imgui r hr
  obtain rfl : c' = c := Option.some.inj (hlives.ctx.symm.trans hrc)
  rw [hk, Option.isSome_some]

end Drawable

/-! ## What a frame loses -/

/-- An exception takes a texture along. -/
def FrameEnv.loses (env : FrameEnv) : Bool := env.frameThrows && env.unstored.isSome

namespace Drawable

variable {s : Drawable} {l : EstateLog} {r : ImguiRenderer} {a : AvatarTextures} {env : FrameEnv}

theorem loseTexture_lost (h : env.unstored = none) : (loseTexture env r a l).lost = l.lost := by
  unfold loseTexture
  rw [h, ite_self]

theorem beginFrame_lost (h : env.loses = false) : (beginFrame env r a l).log.lost = l.lost := by
  unfold beginFrame
  split
  · rfl
  simp only
  split
  · rename_i hthrows
    rw [FrameEnv.loses, hthrows, Bool.true_and] at h
    exact loseTexture_lost (Option.not_isSome_iff_eq_none.mp (ne_true_of_eq_false h))
  · rfl

theorem recordPass_lost {imageIndex : Nat} :
    (s.recordPass env imageIndex r l).log.lost = l.lost := by
  unfold recordPass
  split
  · rfl
  split <;> rfl

theorem recordFrame_lost {imageIndex : Nat} (h : env.loses = false) :
    (s.recordFrame env imageIndex r l).log.lost = l.lost := by
  unfold recordFrame
  simp only
  split
  · exact beginFrame_lost h
  split
  · exact beginFrame_lost h
  · exact recordPass_lost.trans (beginFrame_lost h)

theorem initRenderer_lost : (s.initRenderer env l).2.1.lost = l.lost := by
  unfold initRenderer
  split
  · split <;> rfl
  · rfl

theorem recordOne_lost {imageIndex : Nat} (h : env.loses = false) :
    (s.recordOne env imageIndex l).log.lost = l.lost := by
  unfold recordOne
  split
  · rfl
  split
  · rfl
  split
  · rfl
  simp only
  split
  · exact initRenderer_lost
  split
  · exact initRenderer_lost
  split
  · exact initRenderer_lost
  split
  · exact initRenderer_lost
  · exact (recordFrame_lost h).trans initRenderer_lost

end Drawable

namespace Estate

variable {e e' : Estate} {g g' : Imgui} {swapchain : VkSwapchain} {s s' : Drawable} {l : EstateLog}
  {device : VkDevice} {off : Bool}

/-! ## The invariant -/

/-- `overlay_failed` of a device. -/
def latched (e : Estate) (device : VkDevice) : Bool :=
  (e.devices device).any DeviceData.overlayFailed

/-- What the tracked swapchains hold. -/
def held (e : Estate) : Multiset (Obj VkKind) := total (fun _ s => s.objects.objects) e.swapchains

/-- What their renderers hold. -/
def backends (e : Estate) : Multiset (Obj ImguiKind) := total (fun _ => Drawable.backend)
    e.swapchains

structure Inv (e : Estate) (g : Imgui) : Prop where
  dispatch : ∀ device, (e.dispatch device).destroyPipeline = true
  plays : Machine.runM Imgui.step {} e.log.im.calls = .ok g
  known : ∀ swapchain s, e.swapchains.lookup swapchain = some s → (e.devices s.device).isSome = true
  sound : ∀ swapchain s, e.swapchains.lookup swapchain = some s → s.Sound (e.latched s.device) g
  apart : ∀ swapchain swapchain' s s' c, e.swapchains.lookup swapchain = some s →
    e.swapchains.lookup swapchain' = some s' → s.ctx = some c → s'.ctx = some c →
    swapchain = swapchain'
  fresh : ∀ c, e.log.im.objects.created.length ≤ c → g.contexts c = none
  vk : Custody {} e.log.vk (e.held + e.log.lost)
  im : Custody {} e.log.im.objects e.backends

/-- The contexts that are kept were created. -/
theorem Inv.below (he : e.Inv g) (hs : e.swapchains.lookup swapchain = some s) {c : Nat}
    (hc : s.ctx = some c) : c < e.log.im.objects.created.length := by
  by_contra hle
  have hsome := (he.sound swapchain s hs).context hc
  rw [he.fresh c (Nat.le_of_not_lt hle)] at hsome
  cases hsome

/-- From one estate to another no device is lost, and none gets its overlay back. -/
structure Onward (e e' : Estate) : Prop where
  dispatch : e'.dispatch = e.dispatch
  known : ∀ device, (e.devices device).isSome = true → (e'.devices device).isSome = true
  latched : ∀ device, e.latched device = true → e'.latched device = true

theorem Onward.of_eq (hdispatch : e'.dispatch = e.dispatch) (hdevices : e'.devices = e.devices) :
    e.Onward e' :=
  ⟨hdispatch, fun _ h => hdevices ▸ h, fun _ h => by rwa [Estate.latched, hdevices]⟩

theorem Onward.trans {e'' : Estate} (h : e.Onward e') (h' : e'.Onward e'') : e.Onward e'' :=
  ⟨h'.dispatch.trans h.dispatch, fun d hd => h'.known d (h.known d hd),
    fun d hd => h'.latched d (h.latched d hd)⟩

theorem onward_markOverlayFailed (e : Estate) (device : VkDevice) :
    e.Onward (e.markOverlayFailed device) := by
  refine ⟨rfl, fun d hd => ?_, fun d hd => ?_⟩
  · rcases eq_or_ne d device with rfl | hne
    · simpa [markOverlayFailed] using hd
    · simpa [markOverlayFailed, Function.update_of_ne hne] using hd
  · rcases eq_or_ne d device with rfl | hne
    · rw [Estate.latched, Option.any_eq_true] at hd
      obtain ⟨dd, hdd, -⟩ := hd
      simp [Estate.latched, markOverlayFailed, hdd]
    · simpa [Estate.latched, markOverlayFailed, Function.update_of_ne hne] using hd

theorem latched_markOverlayFailed (hknown : (e.devices device).isSome = true) :
    (e.markOverlayFailed device).latched device = true := by
  obtain ⟨dd, hdd⟩ := Option.isSome_iff_exists.mp hknown
  simp [Estate.latched, markOverlayFailed, hdd]

/-- Only the devices change. -/
theorem Inv.onward (he : e.Inv g) (h : e.Onward e') (hswapchains : e'.swapchains = e.swapchains)
    (hlog : e'.log = e.log) : e'.Inv g := by
  refine ⟨fun d => h.dispatch ▸ he.dispatch d, hlog ▸ he.plays, ?_, ?_, hswapchains ▸ he.apart,
    hlog ▸ he.fresh, ?_, ?_⟩
  · rw [hswapchains]
    exact fun sc s hs => h.known _ (he.known sc s hs)
  · rw [hswapchains]
    exact fun sc s hs => (he.sound sc s hs).mono (h.latched _) fun _ _ => rfl
  · rw [held, hlog, hswapchains]
    exact he.vk
  · rw [backends, hlog, hswapchains]
    exact he.im

theorem Inv.mark (he : e.Inv g) (device : VkDevice) : (e.markOverlayFailed device).Inv g :=
  he.onward (onward_markOverlayFailed e device) rfl rfl

/-! ## What the hooks do to a state -/

/-- The state of one swapchain moves on. -/
theorem Inv.move (he : e.Inv g) (hs : e.swapchains.lookup swapchain = some s)
    (hm : s.Moves e.log g s' l g' off) (h : e.Onward e')
    (hswapchains : e'.swapchains = e.swapchains.insert swapchain s') (hlog : e'.log = l)
    (hoff : off = true → e'.latched s.device = true) :
    e'.Inv g' := by
  have hlookup : ∀ sc t, e'.swapchains.lookup sc = some t →
      sc = swapchain ∧ t = s' ∨ sc ≠ swapchain ∧ e.swapchains.lookup sc = some t := by
    intro sc t ht
    rw [hswapchains] at ht
    exact lookup_insert_cases ht
  obtain ⟨new, hnew, hobjects⟩ := hm.vk
  obtain ⟨newIm, hnewIm, hbackend⟩ := hm.im
  refine ⟨fun d => h.dispatch ▸ he.dispatch d, ?_, ?_, ?_, ?_, ?_, ?_, ?_⟩
  · obtain ⟨cs, hcs, hrun⟩ := hm.plays
    rw [hlog, hcs]
    exact Machine.runM_append_eq_ok.mpr ⟨g, he.plays, hrun⟩
  · intro sc t ht
    rcases hlookup sc t ht with ⟨rfl, rfl⟩ | ⟨-, ht⟩
    · exact hm.device ▸ h.known _ (he.known sc s hs)
    · exact h.known _ (he.known sc t ht)
  · intro sc t ht
    rcases hlookup sc t ht with ⟨rfl, rfl⟩ | ⟨hne, ht⟩
    · exact hm.sound.mono (fun hl => hm.device ▸ hoff hl) fun _ _ => rfl
    · refine (he.sound sc t ht).mono (h.latched _) fun c hc => ?_
      exact hm.others c (he.below ht hc) fun hsc => hne (he.apart _ _ _ _ c ht hs hc hsc)
  · -- a context that is not the old one is new
    have hapart : ∀ sc t c, sc ≠ swapchain → e.swapchains.lookup sc = some t → t.ctx = some c →
        s'.ctx ≠ some c := by
      intro sc t c hne ht hc hc'
      rcases hm.ctx c hc' with hsc | hle
      · exact hne (he.apart _ _ _ _ c ht hs hc hsc)
      · exact absurd (he.below ht hc) (Nat.not_lt.mpr hle)
    intro sc sc' t t' c ht ht' hc hc'
    rcases hlookup sc t ht with ⟨rfl, rfl⟩ | ⟨hne, ht⟩
    · rcases hlookup sc' t' ht' with ⟨rfl, rfl⟩ | ⟨hne', ht'⟩
      · rfl
      · exact absurd hc (hapart sc' t' c hne' ht' hc')
    · rcases hlookup sc' t' ht' with ⟨rfl, rfl⟩ | ⟨hne', ht'⟩
      · exact absurd hc' (hapart sc t c hne ht hc)
      · exact he.apart sc sc' t t' c ht ht' hc hc'
  · rw [hlog]
    exact hm.fresh
  · have htotal : e'.held + e'.log.lost = e.held + e.log.lost + new := by
      rw [held, held, hswapchains, total_insert, total_erase hs, hlog, add_right_comm, hobjects]
      abel
    rw [htotal, hlog]
    exact he.vk.trans hnew
  · have htotal : e'.backends = e.backends + newIm := by
      rw [backends, backends, hswapchains, total_insert, total_erase hs, hbackend, add_right_comm]
    rw [htotal, hlog]
    exact he.im.trans hnewIm

/-- The state of a swapchain is taken out and torn down. -/
theorem Inv.retire (he : e.Inv g) (swapchain : VkSwapchain) :
    ∃ g', (e.retire swapchain).Inv g' := by
  unfold Estate.retire
  split
  · exact ⟨g, he⟩
  rename_i s hs
  obtain ⟨hgone, hgoneIm, g', ⟨cs, hcs, hrun⟩, hothers⟩ :=
    Drawable.destroyState_spec (he.sound swapchain s hs) e.log
  refine ⟨g', he.dispatch, ?_, fun sc t ht => he.known sc t (lookup_erase_cases ht).2, ?_, ?_, ?_,
    ?_, ?_⟩
  · rw [hcs]
    exact Machine.runM_append_eq_ok.mpr ⟨g, he.plays, hrun⟩
  · intro sc t ht
    obtain ⟨hne, ht⟩ := lookup_erase_cases ht
    refine (he.sound sc t ht).mono id fun c hc => hothers c fun hsc => hne ?_
    exact he.apart _ _ _ _ c ht hs hc hsc
  · intro sc sc' t t' c ht ht'
    exact he.apart sc sc' t t' c (lookup_erase_cases ht).2 (lookup_erase_cases ht').2
  · intro c hc
    rw [hgoneIm.created] at hc
    rw [hothers c, he.fresh c hc]
    exact fun hsc => absurd (he.below hs hsc) (Nat.not_lt.mpr hc)
  · have htotal := he.vk
    rw [held, total_erase hs, add_assoc, add_comm s.objects.objects] at htotal
    exact htotal.destroys hgone
  · have htotal := he.im
    rw [backends, total_erase hs, add_comm] at htotal
    exact htotal.destroys hgoneIm

/-! ## QueuePresentKHR -/

theorem Inv.setFenceInFlight (he : e.Inv g) (r : VkSwapchain × Nat) (b : Bool) :
    (e.setFenceInFlight r b).Inv g := by
  unfold Estate.setFenceInFlight
  split
  · exact he
  rename_i s hs
  have hsound := he.sound r.1 s hs
  have hm : s.Moves e.log g { s with inFlight := s.inFlight.set r.2 b } e.log g
      (e.latched s.device) :=
    ⟨rfl, ⟨hsound.dispatch, hsound.kept, hsound.avatars, hsound.imgui, hsound.untried⟩, .refl _ _,
      ⟨0, .refl _, (add_zero _).symm⟩, ⟨0, .refl _, (add_zero _).symm⟩, fun _ _ _ => rfl, he.fresh,
      fun _ h => .inl h⟩
  exact he.move hs hm (.of_eq rfl rfl) rfl rfl id

theorem Inv.submitAll (he : e.Inv g) (device : VkDevice) (i : Nat) (envs : List SubmitEnv)
    (images : List (VkSwapchain × Nat)) : (e.submitAll device i envs images).Inv g := by
  induction images generalizing i envs e with
  | nil => exact he
  | cons r rest ih =>
    have hclear := he.setFenceInFlight r false
    unfold Estate.submitAll
    simp only
    split
    · split
      · exact hclear.mark device
      · exact hclear
    split
    · exact hclear.mark device
    · exact ih (hclear.setFenceInFlight r true) _ _

/-- The swapchains of a present that the layer knows are of this device. -/
def OfDevice (e : Estate) (device : VkDevice) (swapchains : List (VkSwapchain × Nat)) : Prop :=
  ∀ p ∈ swapchains, ∀ s, e.swapchains.lookup p.1 = some s → s.device = device

theorem OfDevice.recording {swapchain : VkSwapchain} {imageIndex : Nat} {s : Drawable}
    {r : Drawable.Recorded} {rest : List (VkSwapchain × Nat)}
    (h : e.OfDevice device ((swapchain, imageIndex) :: rest))
    (hs : e.swapchains.lookup swapchain = some s) (hdevice : r.state.device = s.device) :
    (e.recording r swapchain s.device).OfDevice device rest := by
  intro p hp t ht
  have ht' : (e.swapchains.insert swapchain r.state).lookup p.1 = some t := by
    unfold Estate.recording at ht
    simp only at ht
    split at ht <;> exact ht
  rcases lookup_insert_cases ht' with ⟨-, rfl⟩ | ⟨-, ht'⟩
  · rw [hdevice]
    exact h _ List.mem_cons_self s hs
  · exact h p (List.mem_cons_of_mem _ hp) t ht'

/-- `record_one` in the estate. -/
theorem Inv.recording {r : Drawable.Recorded} (he : e.Inv g)
    (hs : e.swapchains.lookup swapchain = some s) (hm : s.Moves e.log g r.state r.log g'
      r.latched) :
    (e.recording r swapchain s.device).Inv g' := by
  have hmoved : e.Onward
      { e with swapchains := e.swapchains.insert swapchain r.state, log := r.log } := .of_eq rfl rfl
  unfold Estate.recording
  simp only
  split
  · exact he.move hs hm (hmoved.trans (onward_markOverlayFailed _ s.device)) rfl rfl fun _ =>
      latched_markOverlayFailed (he.known swapchain s hs)
  · rename_i hoff
    exact he.move hs hm hmoved rfl rfl fun h => absurd h hoff

/-- The first phase, on a device whose overlay is not latched off. -/
theorem Inv.recordAll (he : e.Inv g) (envs : List FrameEnv) (recorded : List (VkSwapchain × Nat))
    (swapchains : List (VkSwapchain × Nat)) (hlatched : e.latched device = false)
    (hdevice : e.OfDevice device swapchains) :
    ∃ g', (e.recordAll envs recorded swapchains).1.Inv g' := by
  induction swapchains generalizing envs recorded e g with
  | nil => exact ⟨g, he⟩
  | cons p rest ih =>
    obtain ⟨swapchain, imageIndex⟩ := p
    cases hs : e.swapchains.lookup swapchain with
    | none =>
      unfold Estate.recordAll
      rw [hs]
      exact ⟨g, he⟩
    | some s =>
      have hsound := he.sound swapchain s hs
      rw [hdevice _ List.mem_cons_self s hs, hlatched] at hsound
      obtain ⟨g', hm⟩ := Drawable.recordOne_moves (envs.headD {}) imageIndex hsound he.fresh
      have hnext := he.recording hs hm
      have hrest := hdevice.recording hs hm.device
      rw [recordAll_cons imageIndex envs recorded rest hs]
      -- the overlay goes on only where `record_one` has not failed
      have hgoes : (s.recordOne (envs.headD {}) imageIndex e.log).result ≠ .failed →
          (e.recording (s.recordOne (envs.headD {}) imageIndex e.log) swapchain s.device).latched
            device = false := by
        intro hresult
        have hoff : (s.recordOne (envs.headD {}) imageIndex e.log).latched = false :=
          eq_false_of_ne_true fun h => hresult (Drawable.recordOne_latched h)
        unfold Estate.recording
        rw [hoff]
        exact hlatched
      split
      · exact ⟨g', hnext⟩
      · exact ⟨g', hnext⟩
      · rename_i hresult
        exact ih hnext _ _ (hgoes (by rw [hresult]; decide)) hrest
      · rename_i hresult
        exact ih hnext _ _ (hgoes (by rw [hresult]; decide)) hrest

/-- The overlay block, on a device whose overlay is not latched off. -/
theorem Inv.overlayBlock (he : e.Inv g) (env : PresentEnv) (info : PresentInfo)
    (hlatched : e.latched device = false) (hdevice : e.OfDevice device info.swapchains) :
    ∃ g', (e.overlayBlock env device info).Inv g' := by
  unfold Estate.overlayBlock
  split
  · exact ⟨g, he.mark device⟩
  obtain ⟨g', hrecorded⟩ := he.recordAll env.frames [] info.swapchains hlatched hdevice
  generalize e.recordAll env.frames [] info.swapchains = r at hrecorded
  split
  · exact ⟨g', hrecorded.mark device⟩
  · exact ⟨g', hrecorded⟩
  · exact ⟨g', hrecorded⟩
  split
  · exact ⟨g', hrecorded.mark device⟩
  · exact ⟨g', hrecorded.submitAll device 0 env.submits _⟩

theorem Inv.queuePresentKHR (he : e.Inv g) (env : PresentEnv) (queue : VkQueue)
    (info : Option PresentInfo) (hdevice : ∀ i ∈ info, e.OfDevice device i.swapchains) :
    ∃ g', (e.queuePresentKHR env device queue info).Inv g' := by
  unfold Estate.queuePresentKHR
  split
  · rename_i dd info' hdd
    split
    · exact ⟨g, he⟩
    rename_i hpasses
    refine he.overlayBlock env info' ?_ (hdevice _ rfl)
    simp only [Layer.passes, Bool.or_eq_true, not_or, Bool.not_eq_true] at hpasses
    rw [Estate.latched, hdd, Option.any_some]
    exact hpasses.1.1.1.2
  · exact ⟨g, he⟩

/-! ## CreateSwapchainKHR -/

/-- A state of a new swapchain is put into the map. -/
theorem Inv.store {o : Building.SwapchainState} {l : VkLog} {inFlight : List Bool} (he : e.Inv g)
    (hnew : swapchain ∉ e.swapchains) (hknown : (e.devices device).isSome = true)
    (hl : Custody e.log.vk l o.built) (ho : o.Kept) (havatars : o.avatars = none) :
    ({ e with
        log := { e.log with vk := l }
        swapchains := e.swapchains.insert swapchain
          { device, dispatch := e.dispatch device, objects := o, inFlight } } : Estate).Inv g := by
  set t : Drawable := { device, dispatch := e.dispatch device, objects := o, inFlight } with ht
  have hlookup : ∀ sc u, (e.swapchains.insert swapchain t).lookup sc = some u →
      u = t ∨ e.swapchains.lookup sc = some u := by
    exact fun sc u hu => (lookup_insert_cases hu).imp And.right And.right
  have hctx : ∀ c, t.ctx ≠ some c := fun c h => (by cases h)
  refine ⟨he.dispatch, he.plays, ?_, ?_, ?_, he.fresh, ?_, ?_⟩
  · intro sc u hu
    rcases hlookup sc u hu with rfl | hu
    · exact hknown
    · exact he.known sc u hu
  · intro sc u hu
    rcases hlookup sc u hu with rfl | hu
    · refine ⟨he.dispatch device, ho, ?_, fun r hr => (by cases hr), fun _ => rfl⟩
      intro a ha
      have hnone : t.objects.avatars = none := havatars
      rw [hnone] at ha
      cases ha
    · exact he.sound sc u hu
  · intro sc sc' u u' c hu hu' hc hc'
    rcases hlookup sc u hu with rfl | hu
    · exact absurd hc (hctx c)
    rcases hlookup sc' u' hu' with rfl | hu'
    · exact absurd hc' (hctx c)
    · exact he.apart sc sc' u u' c hu hu' hc hc'
  · have htotal : o.objects = o.built := by
      rw [Building.SwapchainState.objects, havatars, Option.elim_none, zero_add]
    rw [held, total_insert_new hnew, htotal, add_assoc, add_comm o.built]
    exact he.vk.trans hl
  · rw [backends, total_insert_new hnew]
    refine (zero_add (total (fun _ => Drawable.backend) e.swapchains)).symm ▸ ?_
    exact he.im

/-- What a state had come to is lost. -/
theorem Inv.lose {o : Building.SwapchainState} {l : VkLog} (he : e.Inv g)
    (hl : Custody e.log.vk l o.objects) : (e.lose device o l).Inv g := by
  have hlost : Inv
      { e with log := { e.log with vk := l, lost := e.log.lost + o.objects } } g := by
    refine ⟨he.dispatch, he.plays, he.known, he.sound, he.apart, he.fresh, ?_, he.im⟩
    rw [held, ← add_assoc]
    exact he.vk.trans hl
  exact hlost.mark device

theorem buildThrown_custody (behindPool : Bool) (d : Dispatch) (l : VkLog) :
    Custody l (buildThrown behindPool d l).2 (buildThrown behindPool d l).1.objects := by
  unfold buildThrown
  split
  · have hboth := ((Custody.refl l).create .renderPass true).create .commandPool true
    rw [zero_add, add_comm] at hboth
    simpa [Building.SwapchainState.objects, Building.SwapchainState.built] using hboth
  · exact .refl l

theorem Inv.track (he : e.Inv g) (env : CreateEnv) {dd : DeviceData}
    (hdd : e.devices device = some dd) (overlayCapable : Bool) (hnew : swapchain ∉ e.swapchains) :
    (e.track env device dd swapchain overlayCapable).Inv g := by
  have hknown : (e.devices device).isSome = true := by rw [hdd, Option.isSome_some]
  have hbuilt := Building.buildState_sound env.built (e.dispatch device).toDispatch e.log.vk
  have hnothing : Building.Built.Sound e.log.vk (e.dispatch device).toDispatch
      ⟨{ dispatch := (e.dispatch device).toDispatch }, e.log.vk, false⟩ :=
    ⟨.refl _, rfl, rfl, fun _ => rfl, ⟨.inr ⟨rfl, rfl, rfl⟩, fun a ha => (by cases ha)⟩⟩
  have hsound : ∀ b : Bool, Building.Built.Sound e.log.vk (e.dispatch device).toDispatch
      (if b then Building.buildState env.built { dispatch := (e.dispatch device).toDispatch }
        e.log.vk
        else ⟨{ dispatch := (e.dispatch device).toDispatch }, e.log.vk, false⟩) := by
    intro b
    cases b with
    | false => exact hnothing
    | true => exact hbuilt
  have hb := hsound overlayCapable
  unfold Estate.track
  simp only
  split
  · exact he
  split
  · exact he.lose (buildThrown_custody ..)
  split
  · refine he.lose ?_
    rw [Building.SwapchainState.objects, hb.avatars, Option.elim_none, zero_add]
    exact hb.custody
  · exact he.store hnew hknown hb.custody hb.kept hb.avatars

theorem notMem_retire (swapchain' : VkSwapchain) (hnew : swapchain ∉ e.swapchains) :
    swapchain ∉ (e.retire swapchain').swapchains := by
  unfold Estate.retire
  split
  · exact hnew
  · exact fun h => hnew (AList.mem_erase.mp h).2

theorem retire_devices (swapchain : VkSwapchain) : (e.retire swapchain).devices = e.devices := by
  unfold Estate.retire
  split <;> rfl

theorem Inv.createSwapchainKHR (he : e.Inv g) (env : CreateEnv) (old : Option VkSwapchain)
    (hnew : env.outcome.2.1 ∉ e.swapchains) :
    ∃ g', (e.createSwapchainKHR env device old).Inv g' := by
  unfold Estate.createSwapchainKHR
  split
  · exact ⟨g, he⟩
  rename_i dd hdd
  split
  · exact ⟨g, he⟩
  simp only
  split
  · exact ⟨g, he⟩
  split
  · exact ⟨g, he.track env hdd _ hnew⟩
  rename_i old
  split
  · exact ⟨g, he.mark device⟩
  obtain ⟨g', hretired⟩ := he.retire old
  exact ⟨g', hretired.track env ((retire_devices old).symm ▸ hdd) _ (notMem_retire old hnew)⟩

/-! ## Any calls of the game -/

/-- The game and the driver keep to what Vulkan asks of them. -/
def Proper (e : Estate) : Call → Prop
  | .create env _ _ => env.outcome.2.1 ∉ e.swapchains
  | .present _ device _ info => ∀ i ∈ info, e.OfDevice device i.swapchains
  | .destroy _ _ _ => True

theorem Inv.step {call : Call} (he : e.Inv g) (hcall : e.Proper call) : ∃ g', (e.step call).Inv
    g' := by
  cases call with
  | create env device old => exact he.createSwapchainKHR env old hcall
  | present env device queue info => exact he.queuePresentKHR env queue info hcall
  | destroy env device swapchain =>
    change ∃ g', (e.destroySwapchainKHR env device swapchain).Inv g'
    unfold Estate.destroySwapchainKHR
    split
    · exact ⟨g, he.mark device⟩
    · exact he.retire swapchain

/-- A process before its first swapchain. -/
def start (devices : VkDevice → Option DeviceData) (dispatch : VkDevice → FullDispatch)
    (disabled : Bool) : Estate := { devices, dispatch, disabled }

theorem inv_start {devices : VkDevice → Option DeviceData} {dispatch : VkDevice → FullDispatch}
    (disabled : Bool) (hdispatch : ∀ device, (dispatch device).destroyPipeline = true) :
    (start devices dispatch disabled).Inv {} := by
  refine ⟨hdispatch, rfl, ?_, ?_, ?_, fun _ _ => rfl, .refl _, .refl _⟩
  all_goals
    intro sc s
    simp [start]

theorem inv_run {devices : VkDevice → Option DeviceData} {dispatch : VkDevice → FullDispatch}
    {disabled : Bool} {calls : List Call}
    (hdispatch : ∀ device, (dispatch device).destroyPipeline = true)
    (hcalls : Machine.Along Estate.step Proper (start devices dispatch disabled) calls) :
    ∃ g, (Machine.run Estate.step (start devices dispatch disabled) calls).Inv g := by
  refine hcalls.invariant (P := fun e => ∃ g, e.Inv g) (fun e call he hcall => ?_)
    ⟨{}, inv_start disabled hdispatch⟩
  obtain ⟨g, he⟩ := he
  exact he.step hcall

/-! ## What is lost -/

/-- The bookkeeping of a new swapchain ends in an exception, or that of a new texture. -/
def Call.loses : Call → Bool
  | .create env _ _ => env.throws == some .building || env.throws == some .storing
  | .present env _ _ _ => env.frames.any FrameEnv.loses
  | .destroy .. => false

theorem setFenceInFlight_lost (r : VkSwapchain × Nat) (b : Bool) :
    (e.setFenceInFlight r b).log.lost = e.log.lost := by
  unfold Estate.setFenceInFlight
  split <;> rfl

theorem submitAll_lost (i : Nat) (envs : List SubmitEnv) (images : List (VkSwapchain × Nat)) :
    (e.submitAll device i envs images).log.lost = e.log.lost := by
  induction images generalizing i envs e with
  | nil => rfl
  | cons r rest ih =>
    have hclear := setFenceInFlight_lost (e := e) r false
    unfold Estate.submitAll
    simp only
    split
    · split <;> exact hclear
    split
    · exact hclear
    · rw [ih, setFenceInFlight_lost, hclear]

theorem recording_lost (r : Drawable.Recorded) :
    (e.recording r swapchain device).log.lost = r.log.lost := by
  unfold Estate.recording
  simp only
  split <;> rfl

theorem recordAll_lost (envs : List FrameEnv) (henvs : ∀ env ∈ envs, env.loses = false)
    (recorded swapchains : List (VkSwapchain × Nat)) :
    (e.recordAll envs recorded swapchains).1.log.lost = e.log.lost := by
  induction swapchains generalizing envs recorded e with
  | nil => rfl
  | cons p rest ih =>
    obtain ⟨swapchain, imageIndex⟩ := p
    cases hs : e.swapchains.lookup swapchain with
    | none =>
      unfold Estate.recordAll
      rw [hs]
    | some s =>
      have hfirst : (envs.headD {}).loses = false := by
        cases envs with
        | nil => rfl
        | cons env _ => exact henvs env List.mem_cons_self
      have hone : (e.recording (s.recordOne (envs.headD {}) imageIndex e.log) swapchain
          s.device).log.lost = e.log.lost :=
        (recording_lost _).trans (Drawable.recordOne_lost hfirst)
      have hrest (env : FrameEnv) (henv : env ∈ envs.tail) : env.loses = false :=
        henvs env (List.mem_of_mem_tail henv)
      rw [recordAll_cons imageIndex envs recorded rest hs]
      split
      · exact hone
      · exact hone
      · exact (ih _ hrest _).trans hone
      · exact (ih _ hrest _).trans hone

theorem overlayBlock_lost (env : PresentEnv) (henv : ∀ f ∈ env.frames, f.loses = false)
    (info : PresentInfo) : (e.overlayBlock env device info).log.lost = e.log.lost := by
  have hrecorded := recordAll_lost (e := e) env.frames henv [] info.swapchains
  unfold Estate.overlayBlock
  split
  · rfl
  generalize e.recordAll env.frames [] info.swapchains = r at hrecorded
  split
  · exact hrecorded
  · exact hrecorded
  · exact hrecorded
  split
  · exact hrecorded
  · exact (submitAll_lost ..).trans hrecorded

theorem retire_lost (swapchain : VkSwapchain) : (e.retire swapchain).log.lost = e.log.lost := by
  unfold Estate.retire
  split <;> rfl

theorem track_lost {env : CreateEnv} {dd : DeviceData} {overlayCapable : Bool}
    (hbuilding : env.throws ≠ some .building) (hstoring : env.throws ≠ some .storing) :
    (e.track env device dd swapchain overlayCapable).log.lost = e.log.lost := by
  unfold Estate.track
  simp only [beq_iff_eq, hbuilding, hstoring, Bool.and_eq_true, and_false, if_false]
  split <;> rfl

theorem step_lost {call : Call} (h : call.loses = false) : (e.step call).log.lost = e.log.lost := by
  cases call with
  | create env device old =>
    simp only [Call.loses, Bool.or_eq_false_iff, beq_eq_false_iff_ne] at h
    obtain ⟨hbuilding, hstoring⟩ := h
    change (e.createSwapchainKHR env device old).log.lost = e.log.lost
    unfold Estate.createSwapchainKHR
    split
    · rfl
    split
    · rfl
    simp only
    split
    · rfl
    split
    · exact track_lost hbuilding hstoring
    split
    · rfl
    · exact (track_lost hbuilding hstoring).trans (retire_lost _)
  | present env device queue info =>
    change (e.queuePresentKHR env device queue info).log.lost = e.log.lost
    unfold Estate.queuePresentKHR
    split
    · split
      · rfl
      · have henv : ∀ f ∈ env.frames, f.loses = false := fun f hf =>
          eq_false_of_ne_true (List.any_eq_false.mp h f hf)
        exact overlayBlock_lost env henv _
    · rfl
  | destroy env device swapchain =>
    change (e.destroySwapchainKHR env device swapchain).log.lost = e.log.lost
    unfold Estate.destroySwapchainKHR
    split
    · rfl
    · exact retire_lost swapchain

/-! ## The results -/

section Results

variable {devices : VkDevice → Option DeviceData} {dispatch : VkDevice → FullDispatch}
  {disabled : Bool}

/-- Each object ever created was destroyed once, or one tracked swapchain holds it, or it
was lost with a state or a texture. -/
structure Accounted (e : Estate) : Prop where
  vk : ∀ x, e.log.vk.destroyed.count x + (e.held.count x + e.log.lost.count x) =
    if x ∈ e.log.vk.created then 1 else 0
  im : ∀ x, e.log.im.objects.destroyed.count x + e.backends.count x =
    if x ∈ e.log.im.objects.created then 1 else 0

/-- Over any calls of the game nothing is freed twice and nothing is forgotten, but for
what an exception in the bookkeeping of a new swapchain or a new texture takes along. -/
theorem everything_accounted (calls : List Call)
    (hdispatch : ∀ device, (dispatch device).destroyPipeline = true)
    (hcalls : Machine.Along step Proper (start devices dispatch disabled) calls) :
    (Machine.run step (start devices dispatch disabled) calls).Accounted ∧
      ((∀ call ∈ calls, call.loses = false) →
        (Machine.run step (start devices dispatch disabled) calls).log.lost = 0) := by
  obtain ⟨g, hinv⟩ := inv_run hdispatch hcalls
  refine ⟨⟨fun x => ?_, fun x => ?_⟩, fun hloses => ?_⟩
  · have hcount := hinv.vk.count_eq x
    rw [Multiset.count_add] at hcount
    exact hcount
  · exact hinv.im.count_eq x
  · have halong : Machine.Along step (fun _ call => call.loses = false)
        (start devices dispatch disabled) calls := Machine.along_of_forall hloses
    exact halong.invariant (P := fun e => e.log.lost = 0)
      (fun e call h hl => (step_lost hl).trans h) rfl

/-- A swapchain of two images, drawn on in a voice session, and gone again. -/
def session : List Call :=
  [.create { swapchain := 7, built := { count := some 2, images := some [1, 2] } } 0 none,
   .present { frames := [{ client := { latest := some { inVoice := true } } }] } 0 0
     (some { swapchains := [(7, 1)] }),
   .destroy {} 0 7]

def sessionDevices : VkDevice → Option DeviceData :=
  fun _ => some { graphicsQueueFamily := some 0, queueFamilies := [(0, 0)] }

theorem session_proper :
    Machine.Along step Proper (start sessionDevices (fun _ => {}) false) session := by
  refine ⟨AList.notMem_empty 7, ?_, trivial, trivial⟩
  rintro _ ⟨⟩ p hp s hs
  obtain rfl := List.mem_singleton.mp hp
  have hdevice : (((start sessionDevices (fun _ => {}) false).step session[0]).swapchains.lookup
      7).all (·.device = 0) = true := by decide +kernel
  have hs' : ((start sessionDevices (fun _ => {}) false).step session[0]).swapchains.lookup 7 =
      some s := hs
  rw [hs'] at hdevice
  simpa using hdevice

theorem everything_accounted_session :
    (Machine.run step (start sessionDevices (fun _ => {}) false) session).Accounted ∧
      (Machine.run step (start sessionDevices (fun _ => {}) false) session).log.vk.created.length =
        10 := by
  have h := everything_accounted session (fun _ => rfl) session_proper
  exact ⟨h.1, by decide +kernel⟩

end Results

end Estate

end Choir
