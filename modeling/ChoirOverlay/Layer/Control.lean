-- SUMMARY: The estate and the process without objects go together: what the layer does for a game does not hang on the objects.
import ChoirOverlay.Layer.Accounts
import ChoirOverlay.Layer.Present

/-!
# Control

`LayerProcess` decides what to draw, submit and wait for; `Estate` keeps the
objects. A call of the game takes both on in step, when the control is told how
the calls that create objects come out.
-/

namespace Choir

/-! ## The outcomes -/

def RecordResult.kind : RecordResult → RecordKind
  | .drawn _ => .drawn
  | .skipped => .skipped
  | .failed => .failed
  | .threw => .threw

/-- What the control sees of a frame. -/
def FrameEnv.control (d : FullDispatch) (env : FrameEnv) : RecordEnv :=
  { env.toRecordEnv with
    rendererThrows := env.rendererThrows || env.init.outcome d == .threw
    rendererReady := env.init.outcome d == .ready }

/-- What it sees of the frames of `n` swapchains. -/
def FrameEnv.controls (d : FullDispatch) : Nat → List FrameEnv → List RecordEnv
  | 0, _ => []
  | n + 1, envs => (envs.headD {}).control d :: controls d n envs.tail

/-- All calls for one image succeed. -/
def Building.ImageEnv.ready (env : ImageEnv) : Bool :=
  env.createView && env.createFramebuffer && env.createFence && env.createSemaphore

/-- What it sees of `build_state`. -/
def Building.BuildEnv.control (d : Dispatch) (env : BuildEnv) : LayerProcess.BuildEnv where
  ready := forSwapchains d && env.hasGraphicsQueueFamily && !env.count.all (· = 0) &&
    env.createRenderPass && env.createPool && env.allocateCmds
  images := (List.range (env.images.getD []).length).map fun i => (env.image i).ready

/-- What it sees of a call. -/
def Estate.Call.control (dispatch : VkDevice → FullDispatch) : Estate.Call → LayerProcess.Call
  | .create env device old =>
    .create { env.toCreateEnv with build := env.built.control (dispatch device).toDispatch }
      device old
  | .present env device queue info =>
    .present
      { env.toPresentEnv with
        records := FrameEnv.controls (dispatch device)
          (info.elim 0 fun i => i.swapchains.length) env.frames }
      device queue info
  | .destroy env device swapchain => .destroy env device swapchain

/-! ## One swapchain -/

/-- The two states of a swapchain. Where there are no images it does not matter whether
they are drawn on. -/
structure Drawable.Matches (s : Drawable) (c : SwapchainState) : Prop where
  inFlight : (if c.ok then c.images.map ImageState.fenceInFlight else []) =
    if s.objects.ok then s.inFlight else []
  length : s.inFlight.length = s.objects.images.length
  ready : c.imguiReady = s.imgui.any ImguiRenderer.ready
  tried : c.imguiTried = s.imguiTried
  untried : s.imguiTried = false → s.imgui = none
  avatars : c.avatars = s.objects.avatars.isSome

theorem ImguiRenderer.init_outcome (env : InitEnv) (d : FullDispatch) (l : ImguiLog) :
    (init env d {} l).result = env.outcome d ∧
      (init env d {} l).renderer.initDone = (env.outcome d == .ready) := by
  unfold init InitEnv.outcome
  simp only [Bool.false_eq_true, if_false]
  split
  · exact ⟨rfl, rfl⟩
  cases env.createPool with
  | false => exact ⟨rfl, rfl⟩
  | true =>
    cases env.createContext with
    | false => exact ⟨rfl, rfl⟩
    | true =>
      simp only [Bool.not_true, Bool.false_eq_true, if_false, Bool.or_self]
      split
      · exact ⟨rfl, rfl⟩
      unfold initBackend
      cases env.loadFunctions with
      | false => exact ⟨rfl, rfl⟩
      | true =>
        cases env.vulkanInit with
        | false => exact ⟨rfl, rfl⟩
        | true =>
          cases env.hdr with
          | false => exact ⟨rfl, rfl⟩
          | true => exact ⟨rfl, rfl⟩

theorem ImguiRenderer.endFrame_initDone {cmd throws : Bool} {r : ImguiRenderer} {l : ImguiLog} :
    (r.endFrame cmd throws l).1.initDone = r.initDone := by
  unfold endFrame
  split
  · rfl
  · simp only
    split <;> rfl

namespace Drawable

variable {s : Drawable} {c : SwapchainState} {env : FrameEnv} {l : EstateLog} {i : Nat}
  {r : ImguiRenderer}

theorem beginFrame_initDone {a : AvatarTextures} :
    (beginFrame env r a l).renderer.initDone = r.initDone := by
  unfold beginFrame
  split
  · rfl
  · simp only
    split <;> rfl

/-- The lazy init. -/
theorem initRenderer_matches (env : FrameEnv) (l : EstateLog) (h : s.Matches c) :
    (s.initRenderer env l).1.Matches (c.initRenderer (env.control s.dispatch)).1 ∧
      (s.initRenderer env l).2.2 = (c.initRenderer (env.control s.dispatch)).2 := by
  obtain ⟨hresult, hdone⟩ := ImguiRenderer.init_outcome env.init s.dispatch l.im
  unfold initRenderer SwapchainState.initRenderer
  have hgate : ((env.control s.dispatch).client.gate && !c.imguiTried) =
      (env.client.gate && !s.imguiTried) := by rw [h.tried]; rfl
  rw [hgate]
  split
  swap
  · exact ⟨h, rfl⟩
  rename_i hfirst
  simp only [Bool.and_eq_true, Bool.not_eq_true'] at hfirst
  have hnone := h.untried hfirst.2
  have hthrows : (env.control s.dispatch).rendererThrows =
      (env.rendererThrows || env.init.outcome s.dispatch == .threw) := rfl
  have hready : (env.control s.dispatch).rendererReady = (env.init.outcome s.dispatch == .ready) :=
    rfl
  rw [hthrows, hready]
  cases hthrew : env.rendererThrows with
  | true =>
    refine ⟨⟨h.inFlight, h.length, ?_, rfl, fun h => (by cases h), h.avatars⟩, rfl⟩
    simp [hnone]
  | false =>
    simp only [Bool.false_or, Bool.false_eq_true, if_false]
    rw [hresult]
    cases houtcome : env.init.outcome s.dispatch with
    | ready =>
      rw [houtcome] at hdone
      refine ⟨⟨h.inFlight, h.length, ?_, rfl, fun h => (by cases h), h.avatars⟩, rfl⟩
      simpa [ImguiRenderer.ready] using hdone.symm
    | failed =>
      exact ⟨⟨h.inFlight, h.length, rfl, rfl, fun h => (by cases h), h.avatars⟩, rfl⟩
    | threw =>
      rw [houtcome] at hdone
      exact ⟨⟨h.inFlight, h.length, hdone.symm, rfl, fun h => (by cases h), h.avatars⟩, rfl⟩

/-- Both leave the same, as far as the control goes. -/
structure Recorded.Agrees (r : Drawable.Recorded) (q : Recording) : Prop where
  state : r.state.Matches q.state
  latched : r.latched = q.latched
  result : r.result = q.result.kind

/-- `end_frame` leaves a renderer that is ready. -/
theorem Matches.ended {o : Building.SwapchainState} (cmd throws : Bool) (l : EstateLog)
    (h : s.Matches c)
    (hok : o.ok = s.objects.ok) (hlength : o.images = s.objects.images)
    (havatars : o.avatars.isSome = true) (hr : s.imgui.any ImguiRenderer.ready = true)
    (hdone : r.initDone = true) :
    Matches { s with objects := o, imgui := some (r.endFrame cmd throws l.im).1 }
      { c with avatars := true } := by
  refine ⟨?_, ?_, ?_, h.tried, fun htried => ?_, havatars.symm⟩
  · rw [hok]
    exact h.inFlight
  · rw [hlength]
    exact h.length
  · refine h.ready.trans (hr.trans ?_)
    rw [Option.any_some, ImguiRenderer.ready, ImguiRenderer.endFrame_initDone, hdone]
  · rw [h.untried htried] at hr
    cases hr

/-- From `begin_frame` on. -/
theorem recordFrame_agrees {img : ImageState} (h : s.Matches c) (hr : s.imgui = some r)
    (hready : r.ready = true) (himg : s.inFlight.getD i false = img.fenceInFlight) :
    (s.recordFrame env i r l).Agrees
      (if env.frameThrows then
        { state := { c with avatars := true }, latched := true, result := .failed }
      else if !(env.control s.dispatch).frameHasContent then
        { state := { c with avatars := true }, result := .skipped }
      else ({ c with avatars := true } : SwapchainState).recordPass (env.control s.dispatch)
        img) := by
  have hany : s.imgui.any ImguiRenderer.ready = true := by rw [hr, Option.any_some, hready]
  have hdone : (beginFrame env r (s.objects.avatars.getD { renderer := some r.forTextures })
      l).renderer.initDone = true := beginFrame_initDone.trans hready
  have hends : ∀ (cmd throws : Bool) (l' : EstateLog), _ := fun cmd throws l' =>
    Matches.ended cmd throws l'
      (o := s.objects.withAvatars (beginFrame env r
        (s.objects.avatars.getD { renderer := some r.forTextures }) l).avatars) h rfl rfl rfl hany
          hdone
  have hcontent : (env.control s.dispatch).frameHasContent = env.frameHasContent := rfl
  unfold recordFrame
  rw [hcontent]
  simp only
  split
  · exact ⟨hends .., rfl, rfl⟩
  split
  · exact ⟨hends .., rfl, rfl⟩
  unfold recordPass SwapchainState.recordPass
  have hwaited : (env.control s.dispatch).waited = env.waited := rfl
  have hbegun : (env.control s.dispatch).begun = env.begun := rfl
  have hdraw : (env.control s.dispatch).drawThrows = env.drawThrows := rfl
  have hended : (env.control s.dispatch).ended = env.ended := rfl
  rw [hwaited, hbegun, hdraw, hended]
  simp only [himg]
  split
  · exact ⟨hends .., rfl, rfl⟩
  split
  · exact ⟨hends .., rfl, rfl⟩
  cases env.drawThrows with
  | true => exact ⟨hends .., rfl, rfl⟩
  | false =>
    cases env.ended with
    | false => exact ⟨hends .., rfl, rfl⟩
    | true => exact ⟨hends .., rfl, rfl⟩

/-- Both find the image, or neither does. -/
theorem Matches.image (h : s.Matches c) :
    (if c.ok then c.images[i]? else none).map ImageState.fenceInFlight =
      if s.objects.ok then s.inFlight[i]? else none := by
  have hget := congrArg (fun flags : List Bool => flags[i]?) h.inFlight
  cases hc : c.ok with
  | false =>
    cases hs : s.objects.ok with
    | false => rfl
    | true => simpa [hc, hs] using hget
  | true =>
    cases hs : s.objects.ok with
    | false => simpa [hc, hs] using hget
    | true => simpa [hc, hs] using hget

theorem Matches.image_missing (h : s.Matches c)
    (hc : (if c.ok then c.images[i]? else none) = none) :
    (!s.objects.ok || decide (s.objects.images.length ≤ i)) = true := by
  have himage := h.image (i := i)
  rw [hc, Option.map_none] at himage
  cases hok : s.objects.ok with
  | false => rfl
  | true =>
    rw [hok, if_pos rfl] at himage
    simpa [← h.length] using himage.symm

/-- The image is there, and its fence is in the same state for both. -/
theorem Matches.image_found {img : ImageState} (h : s.Matches c)
    (hc : (if c.ok then c.images[i]? else none) = some img) :
    ¬(!s.objects.ok || decide (s.objects.images.length ≤ i)) = true ∧
      s.inFlight.getD i false = img.fenceInFlight := by
  have himage := h.image (i := i)
  rw [hc, Option.map_some] at himage
  have hok : s.objects.ok = true := by
    by_contra hok
    rw [if_neg hok] at himage
    cases himage
  rw [if_pos hok] at himage
  obtain ⟨hlt, hflag⟩ := List.getElem?_eq_some_iff.mp himage.symm
  refine ⟨?_, ?_⟩
  · rw [hok, ← h.length]
    simpa using hlt
  · rw [List.getD_eq_getElem?_getD, List.getElem?_eq_getElem hlt, Option.getD_some, hflag]

theorem initRenderer_keeps (env : FrameEnv) (l : EstateLog) (s : Drawable) :
    (s.initRenderer env l).1.dispatch = s.dispatch ∧
      (s.initRenderer env l).1.inFlight = s.inFlight ∧
      (s.initRenderer env l).1.device = s.device := by
  unfold initRenderer
  split
  · split <;> exact ⟨rfl, rfl, rfl⟩
  · exact ⟨rfl, rfl, rfl⟩

theorem recordOne_keeps (env : FrameEnv) (i : Nat) (l : EstateLog) (s : Drawable) :
    (s.recordOne env i l).state.dispatch = s.dispatch ∧
      (s.recordOne env i l).state.device = s.device := by
  obtain ⟨hdispatch, -, hdevice⟩ := initRenderer_keeps env l s
  unfold recordOne
  split
  · exact ⟨rfl, rfl⟩
  split
  · exact ⟨rfl, rfl⟩
  split
  · exact ⟨rfl, rfl⟩
  simp only
  split
  · exact ⟨hdispatch, hdevice⟩
  split
  · exact ⟨hdispatch, hdevice⟩
  split
  · exact ⟨hdispatch, hdevice⟩
  split
  · exact ⟨hdispatch, hdevice⟩
  unfold recordFrame recordPass
  simp only
  split
  · exact ⟨hdispatch, hdevice⟩
  split
  · exact ⟨hdispatch, hdevice⟩
  split
  · exact ⟨hdispatch, hdevice⟩
  split
  · exact ⟨hdispatch, hdevice⟩
  · exact ⟨hdispatch, hdevice⟩

/-- `record_one` -/
theorem recordOne_agrees (env : FrameEnv) (i : Nat) (l : EstateLog) (h : s.Matches c) :
    (s.recordOne env i l).Agrees (c.recordOne (env.control s.dispatch) i) := by
  unfold recordOne SwapchainState.recordOne
  cases hc : (if c.ok then c.images[i]? else none) with
  | none =>
    rw [if_pos (by simpa using h.image_missing hc)]
    exact ⟨h, rfl, rfl⟩
  | some img =>
    obtain ⟨hthere, hflag⟩ := h.image_found hc
    rw [if_neg hthere]
    have hstart : (env.control s.dispatch).startThrows = env.startThrows := rfl
    have hdisabled : (env.control s.dispatch).client = env.client := rfl
    simp only [hstart, hdisabled]
    split
    · exact ⟨h, rfl, rfl⟩
    split
    · exact ⟨h, rfl, rfl⟩
    obtain ⟨hstate, hgoes⟩ := initRenderer_matches env l h
    obtain ⟨hdispatch, hflags, -⟩ := initRenderer_keeps env l s
    generalize c.initRenderer (env.control s.dispatch) = q at hstate hgoes
    obtain ⟨c₁, ready⟩ := q
    generalize s.initRenderer env l = r₁ at hstate hgoes hdispatch hflags
    obtain ⟨s₁, l₁, ready'⟩ := r₁
    obtain rfl : ready' = ready := hgoes
    cases ready' with
    | false => exact ⟨hstate, rfl, rfl⟩
    | true =>
      have hready := hstate.ready
      simp only [Bool.not_true, Bool.false_eq_true, if_false]
      cases hr : s₁.imgui with
      | none =>
        rw [hr, Option.any_none] at hready
        rw [hready]
        exact ⟨hstate, rfl, rfl⟩
      | some r =>
        rw [hr, Option.any_some] at hready
        have hboth : (!c₁.imguiReady) = !r.ready := congrArg Bool.not hready
        simp only
        rw [hboth]
        split
        · exact ⟨hstate, rfl, rfl⟩
        rename_i hdone
        have hmissing : (!c₁.avatars && (env.control s.dispatch).avatarsThrow) =
            (s₁.objects.avatars.isNone && env.avatarsThrow) := by
          rw [hstate.avatars, Option.not_isSome]
          rfl
        rw [hmissing]
        split
        · exact ⟨hstate, rfl, rfl⟩
        have hflag' : s₁.inFlight.getD i false = img.fenceInFlight := by
          have hsame : s₁.inFlight = s.inFlight := hflags
          rw [hsame, hflag]
        have hdispatch' : s.dispatch = s₁.dispatch := hdispatch.symm
        have hframe : (env.control s.dispatch).frameThrows = env.frameThrows := rfl
        rw [hframe, hdispatch']
        exact recordFrame_agrees hstate hr (by simpa using hdone) hflag'

end Drawable

theorem fenceInFlight_modify (images : List ImageState) (i : Nat) (b : Bool) :
    (images.modify i ({ · with fenceInFlight := b })).map ImageState.fenceInFlight =
      (images.map ImageState.fenceInFlight).set i b := by
  induction images generalizing i with
  | nil => rw [List.modify_nil, List.map_nil, List.set_nil]
  | cons img images ih =>
    cases i with
    | zero => rfl
    | succ i =>
      rw [List.modify_succ_cons, List.map_cons, List.map_cons, List.set_cons_succ, ih]

theorem Drawable.Matches.setFenceInFlight {s : Drawable} {c : SwapchainState} (h : s.Matches c)
    (i : Nat) (b : Bool) :
    Matches { s with inFlight := s.inFlight.set i b }
      { c with images := c.images.modify i ({ · with fenceInFlight := b }) } := by
  refine ⟨?_, List.length_set.trans h.length, h.ready, h.tried, h.untried, h.avatars⟩
  have hflags := h.inFlight
  cases hc : c.ok with
  | false =>
    cases hs : s.objects.ok with
    | false => rfl
    | true =>
      rw [hc, hs] at hflags
      simp only [Bool.false_eq_true, if_false, if_true] at hflags ⊢
      rw [← hflags, List.set_nil]
  | true =>
    rw [hc] at hflags
    simp only [if_true] at hflags ⊢
    rw [fenceInFlight_modify, hflags]
    split
    · rfl
    · rw [List.set_nil]

/-! ## build_state -/

namespace Building

variable {d : Dispatch} {s : SwapchainState} {l : VkLog}

/-- All images from `first` on. -/
def allReady (image : Nat → ImageEnv) (first n : Nat) : Bool :=
  (List.range' first n).all fun i => (image i).ready

/-- How many images there are in the end. -/
def BuildEnv.imageCount (d : Dispatch) (env : BuildEnv) : Nat :=
  if (env.control d).ready && allReady env.image 0 (env.images.getD []).length then
    (env.images.getD []).length
  else 0

theorem buildImage_ready (env : ImageEnv) (img : ImageState) (l : VkLog) :
    (buildImage env img l).2.2 = env.ready := by
  unfold buildImage ImageEnv.ready
  cases env.createView with
  | false => rfl
  | true =>
    cases env.createFramebuffer with
    | false => rfl
    | true =>
      cases env.createFence with
      | false => rfl
      | true => rfl

theorem buildImages_length (image : Nat → ImageEnv) (done : List ImageState) (images : List Nat)
    (l : VkLog) : (buildImages image s done images l).state.images.length =
      if allReady image done.length images.length then done.length + images.length else 0 := by
  induction images generalizing done l with
  | nil => rfl
  | cons img images ih =>
    rw [buildImages, allReady, List.length_cons, List.range'_succ, List.all_cons]
    simp only [buildImage_ready]
    cases hready : (image done.length).ready with
    | false => rfl
    | true =>
      simp only [Bool.not_true, Bool.false_eq_true, if_false, Bool.true_and]
      rw [ih, List.length_append, List.length_singleton, allReady, Nat.add_assoc,
        Nat.add_comm 1 images.length]

theorem buildState_length (env : BuildEnv) (l : VkLog) :
    (buildState env { dispatch := d } l).state.images.length = env.imageCount d := by
  unfold buildState BuildEnv.imageCount BuildEnv.control
  cases forSwapchains d with
  | false => rfl
  | true =>
    cases env.hasGraphicsQueueFamily with
    | false => rfl
    | true =>
      cases env.count.all (· = 0) with
      | true => rfl
      | false =>
        cases env.images with
        | none => simp
        | some images =>
          cases env.createRenderPass with
          | false => rfl
          | true =>
            cases env.createPool with
            | false => rfl
            | true =>
              cases env.allocateCmds with
              | false => rfl
              | true =>
                simp [buildImages_length]

end Building

namespace LayerProcess

variable {p p' : LayerProcess}

/-- Only the log and the number of images made differ. -/
structure Same (p p' : LayerProcess) : Prop where
  devices : p'.devices = p.devices
  disabled : p'.disabled = p.disabled
  swapchains : p'.swapchains = p.swapchains

theorem waitOverlayIdle_same (images : List (ImageState × Bool)) (p : LayerProcess) :
    p.Same (p.waitOverlayIdle images) := by
  induction images generalizing p with
  | nil => exact ⟨rfl, rfl, rfl⟩
  | cons e rest ih =>
    obtain ⟨img, waited⟩ := e
    have hrest := ih (if img.fenceInFlight then p.call (.hook (.waitForFences img.fence waited))
      else p)
    rw [waitOverlayIdle]
    split
    · rename_i hflag
      rw [if_pos hflag] at hrest
      exact ⟨hrest.devices, hrest.disabled, hrest.swapchains⟩
    · rename_i hflag
      rw [if_neg hflag] at hrest
      exact hrest

theorem destroyImages_same (images : List ImageState) (p : LayerProcess) :
    p.Same (p.destroyImages images) := by
  induction images generalizing p with
  | nil => exact ⟨rfl, rfl, rfl⟩
  | cons img rest ih =>
    have hrest := ih (p.call (.destroyImage img))
    exact ⟨hrest.devices, hrest.disabled, hrest.swapchains⟩

theorem destroyState_same (s : SwapchainState) (pool : Bool) (p : LayerProcess) :
    p.Same (p.destroyState s pool) := by
  have himages := destroyImages_same s.images p
  cases pool <;> exact ⟨himages.devices, himages.disabled, himages.swapchains⟩

theorem release_same (s : SwapchainState) (waits : List Bool) (p : LayerProcess) :
    p.Same (p.release s waits) := by
  have hwaited := waitOverlayIdle_same (s.images.zipIdx.map fun e => (e.1, waits.getD e.2 true)) p
  have hgone := destroyState_same s (!s.images.isEmpty)
    (p.waitOverlayIdle (s.images.zipIdx.map fun e => (e.1, waits.getD e.2 true)))
  exact ⟨hgone.devices.trans hwaited.devices, hgone.disabled.trans hwaited.disabled,
    hgone.swapchains.trans hwaited.swapchains⟩

theorem buildImages_same (oks : List Bool) (built : List ImageState) (p : LayerProcess) :
    p.Same (p.buildImages oks built).1 ∧ (p.buildImages oks built).2.2 = oks.all id ∧
      ((p.buildImages oks built).2.2 = true →
        (p.buildImages oks built).2.1.map ImageState.fenceInFlight =
          built.map ImageState.fenceInFlight ++ List.replicate oks.length false) := by
  induction oks generalizing built p with
  | nil => exact ⟨⟨rfl, rfl, rfl⟩, rfl, fun _ => (List.append_nil _).symm⟩
  | cons ok rest ih =>
    cases ok with
    | false => exact ⟨⟨rfl, rfl, rfl⟩, rfl, fun h => (by cases h)⟩
    | true =>
      obtain ⟨hsame, hok, hflags⟩ := ih (built ++ [newImage p.made])
        ({ p with made := p.made + 1 }.call (.createImage (newImage p.made)))
      refine ⟨⟨hsame.devices, hsame.disabled, hsame.swapchains⟩, hok, fun h => (hflags h).trans ?_⟩
      rw [List.map_append, List.append_assoc, List.length_cons, List.replicate_succ]
      rfl

/-- A new state has its images, none of them in flight, or no images. -/
theorem buildState_same (env : BuildEnv) (p : LayerProcess) :
    p.Same (p.buildState env).1 ∧
      (p.buildState env).2 =
        { images := (p.buildState env).2.images, ok := (p.buildState env).2.ok } ∧
      (if (p.buildState env).2.ok then (p.buildState env).2.images.map ImageState.fenceInFlight
        else []) =
        List.replicate (if env.ready && env.images.all id then env.images.length else 0) false := by
  unfold buildState
  cases env.ready with
  | false => exact ⟨⟨rfl, rfl, rfl⟩, rfl, rfl⟩
  | true =>
    cases himages : env.images with
    | nil => exact ⟨⟨rfl, rfl, rfl⟩, rfl, rfl⟩
    | cons first rest =>
      obtain ⟨hsame, hok, hflags⟩ := buildImages_same (first :: rest) [] p
      simp only [Bool.not_true, List.isEmpty_cons, Bool.or_self, Bool.false_eq_true, if_false,
        Bool.true_and]
      rw [← hok]
      generalize p.buildImages (first :: rest) [] = r at hsame hflags
      obtain ⟨p', images, ok⟩ := r
      cases ok with
      | true => exact ⟨hsame, rfl, hflags rfl⟩
      | false =>
        have hgone := destroyState_same { images } true p'
        exact ⟨⟨hgone.devices.trans hsame.devices, hgone.disabled.trans hsame.disabled,
          hgone.swapchains.trans hsame.swapchains⟩, rfl, rfl⟩

end LayerProcess

/-! ## QueuePresentKHR -/

namespace Estate

variable {e e₀ : Estate} {l : Layer} {p : LayerProcess} {device : VkDevice}

/-- The estate and the present hook are at the same point. -/
structure Abreast (e₀ e : Estate) (device : VkDevice) (l : Layer) : Prop where
  devices : e.devices = Function.update e₀.devices device l.dd
  disabled : e.disabled = e₀.disabled
  dispatch : e.dispatch = e₀.dispatch
  swapchains : ∀ swapchain, Option.Rel Drawable.Matches (e.swapchains.lookup swapchain)
    (l.swapchains.lookup swapchain)
  shared : ∀ swapchain s, e.swapchains.lookup swapchain = some s → s.dispatch = e.dispatch s.device

theorem Abreast.mark (h : Abreast e₀ e device l) :
    Abreast e₀ (e.markOverlayFailed device) device l.markOverlayFailed := by
  refine ⟨?_, h.disabled, h.dispatch, h.swapchains, h.shared⟩
  simp only [markOverlayFailed, Layer.markOverlayFailed, h.devices, Function.update_self,
    Function.update_idem]

/-- Only the calls of the hook differ. -/
theorem Abreast.congr {l' : Layer} (h : Abreast e₀ e device l) (hdd : l'.dd = l.dd)
    (hswapchains : l'.swapchains = l.swapchains) : Abreast e₀ e device l' :=
  ⟨hdd ▸ h.devices, h.disabled, h.dispatch, hswapchains ▸ h.swapchains, h.shared⟩

/-- The state of one swapchain changes in both. -/
theorem Abreast.insert {swapchain : VkSwapchain} {s s' : Drawable} {c' : SwapchainState}
    (log : EstateLog) (calls : List VkCall) (h : Abreast e₀ e device l)
    (hs : e.swapchains.lookup swapchain = some s) (hdevice : s'.device = s.device)
    (hdispatch : s'.dispatch = s.dispatch) (hm : s'.Matches c') :
    Abreast e₀ { e with swapchains := e.swapchains.insert swapchain s', log } device
      { l with swapchains := l.swapchains.insert swapchain c', calls } := by
  refine ⟨h.devices, h.disabled, h.dispatch, fun sc => ?_, fun sc t ht => ?_⟩
  · rcases eq_or_ne sc swapchain with rfl | hne
    · simp only [AList.lookup_insert]
      exact .some hm
    · simp only [AList.lookup_insert_ne hne]
      exact h.swapchains sc
  · rcases Ownership.lookup_insert_cases ht with ⟨-, rfl⟩ | ⟨-, ht⟩
    · rw [hdispatch, hdevice]
      exact h.shared swapchain s hs
    · exact h.shared sc t ht

theorem Abreast.setFenceInFlight (h : Abreast e₀ e device l) (r : Recorded) (b : Bool) :
    Abreast e₀ (e.setFenceInFlight (r.swapchain, r.imageIndex) b) device (l.setFenceInFlight r
      b) := by
  have hrel := h.swapchains r.swapchain
  unfold Estate.setFenceInFlight Layer.setFenceInFlight
  simp only
  cases hs : e.swapchains.lookup r.swapchain with
  | none =>
    rw [hs] at hrel
    cases hc : l.swapchains.lookup r.swapchain with
    | none => exact h
    | some c => rw [hc] at hrel; cases hrel
  | some s =>
    rw [hs] at hrel
    cases hc : l.swapchains.lookup r.swapchain with
    | none => rw [hc] at hrel; cases hrel
    | some c =>
      rw [hc] at hrel
      cases hrel with
      | some hm => exact h.insert e.log l.calls hs rfl rfl (hm.setFenceInFlight r.imageIndex b)

/-- Where an image was recorded. -/
def place (r : Recorded) : VkSwapchain × Nat := (r.swapchain, r.imageIndex)

/-- The second phase. -/
theorem Abreast.submitAll (h : Abreast e₀ e device l) (appWaits : List VkSemaphore) (i : Nat)
    (envs : List SubmitEnv) (sems : List VkSemaphore) (prevDone : VkSemaphore)
    (images : List Recorded) : Abreast e₀ (e.submitAll device i envs (images.map place)) device
      (l.submitAll appWaits i envs sems prevDone images).1 := by
  induction images generalizing i envs sems prevDone e l with
  | nil => exact h
  | cons r rest ih =>
    have hclear := h.setFenceInFlight r false
    rw [List.map_cons]
    unfold Estate.submitAll Layer.submitAll
    simp only
    split
    · split
      · exact hclear.mark.congr rfl rfl
      · exact hclear.congr rfl rfl
    split
    · split
      · exact hclear.mark.congr rfl rfl
      · exact hclear.mark.congr rfl rfl
    · refine ih ?_ _ _ _ _
      exact Abreast.setFenceInFlight (by exact hclear.congr rfl rfl) r true

/-- How the first phase ends, without the images. -/
def outline : Choir.Batch → Batch
  | .recorded images => .recorded (images.map place)
  | .failed => .failed
  | .threw => .threw

theorem Abreast.recording {swapchain : VkSwapchain} {s : Drawable} {r : Drawable.Recorded}
    {q : Choir.Recording} (h : Abreast e₀ e device l) (hs : e.swapchains.lookup swapchain = some s)
    (hs' : s.device = device) (hdevice : r.state.device = s.device)
    (hdispatch : r.state.dispatch = s.dispatch) (hagrees : r.Agrees q) :
    Abreast e₀ (e.recording r swapchain s.device) device (l.recording q swapchain) := by
  have hinsert := h.insert r.log (l.calls ++ q.calls) hs hdevice hdispatch
    hagrees.state
  unfold Estate.recording Layer.recording
  rw [hagrees.latched, hs']
  simp only
  split
  · exact hinsert.mark
  · exact hinsert

/-- The first phase. -/
theorem Abreast.recordAll (h : Abreast e₀ e device l) (envs : List FrameEnv)
    (recorded : List Recorded) (swapchains : List (VkSwapchain × Nat))
    (hdevice : e.OfDevice device swapchains) :
    Abreast e₀ (e.recordAll envs (recorded.map place) swapchains).1 device
        (l.recordAll (FrameEnv.controls (e₀.dispatch device) swapchains.length envs) recorded
          swapchains).1 ∧
      (e.recordAll envs (recorded.map place) swapchains).2 =
        outline (l.recordAll (FrameEnv.controls (e₀.dispatch device) swapchains.length envs)
          recorded
          swapchains).2 := by
  induction swapchains generalizing envs recorded e l with
  | nil => exact ⟨h, rfl⟩
  | cons p rest ih =>
    obtain ⟨swapchain, imageIndex⟩ := p
    have hrel := h.swapchains swapchain
    rw [List.length_cons, FrameEnv.controls]
    cases hs : e.swapchains.lookup swapchain with
    | none =>
      rw [hs] at hrel
      unfold Estate.recordAll Layer.recordAll
      rw [hs]
      cases hc : l.swapchains.lookup swapchain with
      | none => exact ⟨h, rfl⟩
      | some c => rw [hc] at hrel; cases hrel
    | some s =>
      rw [hs] at hrel
      cases hc : l.swapchains.lookup swapchain with
      | none => rw [hc] at hrel; cases hrel
      | some c =>
        rw [hc] at hrel
        cases hrel with
        | some hm =>
          have hs' := hdevice _ List.mem_cons_self s hs
          have hshared : s.dispatch = e₀.dispatch device := by
            rw [h.shared swapchain s hs, hs', h.dispatch]
          have hagrees := Drawable.recordOne_agrees (envs.headD {}) imageIndex e.log hm
          rw [hshared] at hagrees
          obtain ⟨hdispatch', hdevice'⟩ := Drawable.recordOne_keeps (envs.headD {}) imageIndex
            e.log s
          have hnext := h.recording hs hs' hdevice' hdispatch' hagrees
          have hrest := hdevice.recording hs hdevice'
          rw [recordAll_cons imageIndex envs _ rest hs,
            Layer.recordAll_cons imageIndex _ recorded rest hc, List.headD_cons, List.tail_cons,
            hagrees.result]
          cases hresult : (c.recordOne ((envs.headD {}).control (e₀.dispatch device))
              imageIndex).result with
          | skipped => exact ih hnext _ recorded hrest
          | failed => exact ⟨hnext, rfl⟩
          | threw => exact ⟨hnext, rfl⟩
          | drawn img =>
            have hdrawn := ih hnext envs.tail (recorded ++ [⟨swapchain, imageIndex, img⟩]) hrest
            rw [List.map_append, List.map_singleton] at hdrawn
            exact hdrawn

theorem Abreast.forward (h : Abreast e₀ e device l) (env : Choir.PresentEnv)
    (info : Option PresentInfo) : Abreast e₀ e device (l.forward env info).1 := by
  unfold Layer.forward
  split
  · exact h
  · split
    · exact h.congr rfl rfl
    · exact h

/-- The overlay block. -/
theorem Abreast.overlayBlock (h : Abreast e₀ e device l) (env : PresentEnv) (info : PresentInfo)
    (hdevice : e.OfDevice device info.swapchains) :
    Abreast e₀ (e.overlayBlock env device info) device
      (l.overlayBlock
        { env.toPresentEnv with
          records := FrameEnv.controls (e₀.dispatch device) info.swapchains.length env.frames }
        info).1 := by
  obtain ⟨hrecorded, hbatch⟩ := h.recordAll env.frames [] info.swapchains hdevice
  rw [List.map_nil] at hrecorded hbatch
  unfold Estate.overlayBlock Layer.overlayBlock
  simp only
  split
  · exact h.mark.forward ..
  generalize e.recordAll env.frames [] info.swapchains = r at hrecorded hbatch
  generalize l.recordAll (FrameEnv.controls (e₀.dispatch device) info.swapchains.length env.frames)
    []
    info.swapchains = q at hrecorded hbatch
  obtain ⟨e₁, batch⟩ := r
  obtain ⟨l₁, batch'⟩ := q
  obtain rfl : batch = outline batch' := hbatch
  cases batch' with
  | threw => exact hrecorded.mark.forward ..
  | failed => exact hrecorded.forward ..
  | recorded images =>
    cases images with
    | nil => exact hrecorded.forward ..
    | cons image images =>
      simp only [outline, List.map_cons]
      split
      · exact hrecorded.mark.forward ..
      have hsubmitted := hrecorded.submitAll info.waitSemaphores 0 env.submits [] 0 (image ::
        images)
      generalize l₁.submitAll info.waitSemaphores 0 env.submits [] 0 (image :: images) = q
        at hsubmitted
      obtain ⟨l₂, sems⟩ := q
      cases sems with
      | none => exact hsubmitted.forward ..
      | some sems => exact hsubmitted.congr rfl rfl

/-! ## Any call -/

/-- The estate and the process without objects are at the same point. -/
structure Tracks (dispatch : VkDevice → FullDispatch) (e : Estate) (p : LayerProcess) : Prop where
  functions : e.dispatch = dispatch
  devices : p.devices = e.devices
  disabled : p.disabled = e.disabled
  swapchains : ∀ swapchain, Option.Rel Drawable.Matches (e.swapchains.lookup swapchain)
    (p.swapchains.lookup swapchain)
  shared : ∀ swapchain s, e.swapchains.lookup swapchain = some s → s.dispatch = e.dispatch s.device

variable {dispatch : VkDevice → FullDispatch}

/-- The present hook. -/
theorem Abreast.queuePresentKHR (h : Abreast e e device l) (hdd : l.dd = e.devices device)
    (hdisabled : l.disabled = e.disabled) (env : PresentEnv) (queue : VkQueue)
    (info : Option PresentInfo) (hdevice : ∀ i ∈ info, e.OfDevice device i.swapchains) :
    Abreast e (e.queuePresentKHR env device queue info) device
      (l.queuePresentKHR
        { env.toPresentEnv with
          records := FrameEnv.controls (e.dispatch device)
            (info.elim 0 fun i => i.swapchains.length) env.frames }
        queue info).1 := by
  unfold Estate.queuePresentKHR Layer.queuePresentKHR
  rw [hdd]
  cases e.devices device with
  | none => exact h.forward ..
  | some dd =>
    cases info with
    | none => exact h.forward ..
    | some info =>
      have hpasses : l.passes queue info dd =
          Layer.passes queue info { disabled := e.disabled } dd := by
        simp only [Layer.passes, hdisabled]
      simp only [hpasses]
      split
      · exact h.forward ..
      · exact h.overlayBlock env info (hdevice info rfl)

theorem Tracks.queuePresentKHR (h : Tracks dispatch e p) (env : PresentEnv) (queue : VkQueue)
    (info : Option PresentInfo) (hdevice : ∀ i ∈ info, e.OfDevice device i.swapchains) :
    Tracks dispatch (e.queuePresentKHR env device queue info)
      (p.queuePresentKHR
        { env.toPresentEnv with
          records := FrameEnv.controls (e.dispatch device)
            (info.elim 0 fun i => i.swapchains.length) env.frames }
        device queue info).1 := by
  have hstart : Abreast e e device
      { dd := p.devices device, disabled := p.disabled, swapchains := p.swapchains } :=
    ⟨by simp only [h.devices, Function.update_eq_self], rfl, rfl, h.swapchains, h.shared⟩
  have hend := hstart.queuePresentKHR (congrFun h.devices device) h.disabled env queue info hdevice
  exact ⟨hend.dispatch.trans h.functions, by rw [hend.devices, ← h.devices]; rfl, h.disabled.trans
    hend.disabled.symm,
    hend.swapchains, hend.shared⟩

theorem Tracks.mark (h : Tracks dispatch e p) (device : VkDevice) :
    Tracks dispatch (e.markOverlayFailed device) (p.markOverlayFailed device) := by
  refine ⟨h.functions, ?_, h.disabled, h.swapchains, h.shared⟩
  simp only [Estate.markOverlayFailed, LayerProcess.markOverlayFailed, h.devices]

theorem Tracks.same {p' : LayerProcess} (h : Tracks dispatch e p) (hsame : p.Same p') :
    Tracks dispatch e p' :=
  ⟨h.functions, hsame.devices.trans h.devices, hsame.disabled.trans h.disabled, hsame.swapchains ▸
    h.swapchains,
    h.shared⟩

theorem Tracks.retire (h : Tracks dispatch e p) (swapchain : VkSwapchain) (waits : List Bool) :
    Tracks dispatch (e.retire swapchain) (p.retire swapchain waits) := by
  have hrel := h.swapchains swapchain
  unfold Estate.retire LayerProcess.retire
  cases hs : e.swapchains.lookup swapchain with
  | none =>
    rw [hs] at hrel
    cases hc : p.swapchains.lookup swapchain with
    | none => exact h
    | some c => rw [hc] at hrel; cases hrel
  | some s =>
    rw [hs] at hrel
    cases hc : p.swapchains.lookup swapchain with
    | none => rw [hc] at hrel; cases hrel
    | some c =>
      refine Tracks.same (p := { p with swapchains := p.swapchains.erase swapchain }) ?_
        (LayerProcess.release_same ..)
      refine ⟨h.functions, h.devices, h.disabled, fun sc => ?_, fun sc t ht => ?_⟩
      · rcases eq_or_ne sc swapchain with rfl | hne
        · simp only [AList.lookup_erase]
          exact .none
        · simp only [AList.lookup_erase_ne hne]
          exact h.swapchains sc
      · rcases eq_or_ne sc swapchain with rfl | hne
        · simp only [AList.lookup_erase] at ht
          cases ht
        · simp only [AList.lookup_erase_ne hne] at ht
          exact h.shared sc t ht

/-- A new state goes into both maps. -/
theorem Tracks.store {p' : LayerProcess} {c : SwapchainState} {s : Drawable} {log : EstateLog}
    (h : Tracks dispatch e p) (hsame : p.Same p') (swapchain : VkSwapchain) (hm : s.Matches c)
    (hshared : s.dispatch = e.dispatch s.device) :
    Tracks dispatch { e with log, swapchains := e.swapchains.insert swapchain s }
      { p' with swapchains := p'.swapchains.insert swapchain c } := by
  refine ⟨h.functions, hsame.devices.trans h.devices, hsame.disabled.trans h.disabled,
    fun sc => ?_, fun sc t ht => ?_⟩
  · rcases eq_or_ne sc swapchain with rfl | hne
    · simp only [AList.lookup_insert]
      exact .some hm
    · simp only [AList.lookup_insert_ne hne, hsame.swapchains]
      exact h.swapchains sc
  · rcases Ownership.lookup_insert_cases ht with ⟨-, rfl⟩ | ⟨-, ht⟩
    · exact hshared
    · exact h.shared sc t ht

/-- What `build_state` leaves in both. -/
theorem buildState_matches (env : Building.BuildEnv) (device : VkDevice) (d : FullDispatch)
    (l : VkLog) (p : LayerProcess) :
    Drawable.Matches
      { device, dispatch := d
        objects := (Building.buildState env { dispatch := d.toDispatch } l).state
        inFlight := (Building.buildState env { dispatch := d.toDispatch } l).state.images.map
          fun _ => false }
      (p.buildState (env.control d.toDispatch)).2 := by
  obtain ⟨-, hplain, hflags⟩ := LayerProcess.buildState_same (env.control d.toDispatch) p
  have hsound := Building.buildState_sound env d.toDispatch l
  have hlength := Building.buildState_length (d := d.toDispatch) env l
  rw [hplain]
  refine ⟨?_, List.length_map .., rfl, rfl, fun _ => rfl, ?_⟩
  · have hcount : (if (env.control d.toDispatch).ready && (env.control d.toDispatch).images.all
      id then
        (env.control d.toDispatch).images.length else 0) = env.imageCount d.toDispatch := by
      have himages : (env.control d.toDispatch).images =
          (List.range (env.images.getD []).length).map fun i => (env.image i).ready := rfl
      rw [himages, List.all_map, List.length_map, List.length_range, List.range_eq_range']
      rfl
    have hidle : (if (Building.buildState env { dispatch := d.toDispatch } l).state.ok then
        (Building.buildState env { dispatch := d.toDispatch } l).state.images.map fun _ => false
        else []) = List.replicate (env.imageCount d.toDispatch) false := by
      rw [← hlength]
      split
      · exact List.map_const' ..
      · rename_i hok
        rw [hsound.ok, Bool.not_eq_true] at hok
        rw [hsound.failed hok]
        rfl
    simp only
    rw [hflags, hcount, hidle]
  · rw [hsound.avatars]
    rfl

theorem Tracks.track (h : Tracks dispatch e p) (device : VkDevice) (env : CreateEnv)
    (dd : DeviceData) (swapchain : VkSwapchain)
    (overlayCapable : Bool) :
    Tracks dispatch (e.track env device dd swapchain overlayCapable)
      (p.track { env.toCreateEnv with build := env.built.control (e.dispatch device).toDispatch }
        device dd swapchain overlayCapable) := by
  have hsame := (LayerProcess.buildState_same (env.built.control (e.dispatch device).toDispatch)
    p).1
  have hbuilt := buildState_matches env.built device (e.dispatch device) e.log.vk p
  have hlost : ∀ (o : Building.SwapchainState) (l : VkLog) (p' : LayerProcess), p.Same p' →
      Tracks dispatch (e.lose device o l) (p'.markOverlayFailed device) := by
    intro o l p' hsame
    have hnext : Tracks dispatch
        { e with log := { e.log with vk := l, lost := e.log.lost + o.objects } } p' :=
      Tracks.same (p := p) ⟨h.functions, h.devices, h.disabled, h.swapchains, h.shared⟩ hsame
    exact hnext.mark device
  unfold Estate.track LayerProcess.track
  simp only
  split
  · exact h
  split
  · exact hlost _ _ _ ⟨rfl, rfl, rfl⟩
  cases overlayCapable with
  | true =>
    simp only [if_true]
    split
    · exact hlost _ _ _ hsame
    · exact h.store hsame swapchain hbuilt rfl
  | false =>
    simp only [Bool.false_eq_true, if_false]
    split
    · exact hlost _ _ _ ⟨rfl, rfl, rfl⟩
    · exact h.store ⟨rfl, rfl, rfl⟩ swapchain ⟨rfl, rfl, rfl, rfl, fun _ => rfl, rfl⟩ rfl

theorem retire_dispatch (swapchain : VkSwapchain) : (e.retire swapchain).dispatch = e.dispatch := by
  unfold Estate.retire
  split <;> rfl

theorem Tracks.createSwapchainKHR (h : Tracks dispatch e p) (env : CreateEnv)
    (old : Option VkSwapchain) :
    Tracks dispatch (e.createSwapchainKHR env device old)
      (p.createSwapchainKHR
        { env.toCreateEnv with build := env.built.control (e.dispatch device).toDispatch } device
        old).1 := by
  unfold Estate.createSwapchainKHR LayerProcess.createSwapchainKHR
  rw [h.devices]
  cases e.devices device with
  | none => exact h
  | some dd =>
    simp only
    split
    · exact h
    have houtcome : LayerProcess.CreateEnv.outcome
        { env.toCreateEnv with build := env.built.control (e.dispatch device).toDispatch } =
        env.outcome := rfl
    rw [houtcome]
    split
    · exact h
    cases old with
    | none => exact h.track device env dd _ _
    | some old =>
      simp only
      split
      · exact h.mark device
      · have hretired := (h.retire old env.waits).track device env dd env.outcome.2.1
          env.outcome.2.2
        rw [retire_dispatch] at hretired
        exact hretired

/-- Whatever the game calls, the estate and the process without objects go together. -/
theorem Tracks.step (h : Tracks dispatch e p) {call : Call} (hcall : e.Proper call) :
    Tracks dispatch (e.step call) (p.step (call.control dispatch)) := by
  cases call with
  | create env device old => exact h.functions ▸ h.createSwapchainKHR env old
  | present env device queue info => exact h.functions ▸ h.queuePresentKHR env queue info hcall
  | destroy env device swapchain =>
    have hbefore : Tracks dispatch (e.destroySwapchainKHR env device swapchain)
        (if env.throws then p.markOverlayFailed device else p.retire swapchain env.waits) := by
      unfold Estate.destroySwapchainKHR
      split
      · exact h.mark device
      · exact h.retire swapchain env.waits
    have hcall : ∀ (b : Bool) (q : LayerProcess),
        q.Same (if b then q.call (.destroySwapchain swapchain) else q) := by
      intro b q
      cases b <;> exact ⟨rfl, rfl, rfl⟩
    exact hbefore.same (hcall _ _)

/-- The estate does for a game what the process without objects does: over any calls, both
have the same swapchains and the same devices latched off, draw on the same images, and
hold a renderer and textures for the same swapchains. -/
theorem control_tracks (devices : VkDevice → Option DeviceData)
    (dispatch : VkDevice → FullDispatch) (disabled : Bool) (calls : List Call)
    (hcalls : Machine.Along Estate.step Proper (start devices dispatch disabled) calls) :
    Tracks dispatch (Machine.run Estate.step (start devices dispatch disabled) calls)
      (Machine.run LayerProcess.step { devices, disabled }
        (calls.map (Call.control dispatch))) := by
  suffices h : ∀ (e : Estate) (p : LayerProcess), Tracks dispatch e p →
      Machine.Along Estate.step Proper e calls → Tracks dispatch (Machine.run Estate.step e calls)
        (Machine.run LayerProcess.step p (calls.map (Call.control dispatch))) by
    refine h _ _ ⟨rfl, rfl, rfl, fun _ => ?_, fun sc s hs => ?_⟩ hcalls
    · exact .none
    · simp [start] at hs
  clear hcalls
  induction calls with
  | nil => exact fun _ _ h _ => h
  | cons call calls ih =>
    intro e p h halong
    exact ih _ _ (h.step halong.1) halong.2

theorem control_tracks_session :
    Tracks (fun _ => {})
      (Machine.run Estate.step (start sessionDevices (fun _ => {}) false) session)
      (Machine.run LayerProcess.step { devices := sessionDevices, disabled := false }
        (session.map (Call.control fun _ => {}))) :=
  control_tracks sessionDevices (fun _ => {}) false session session_proper

end Estate

end Choir
