-- SUMMARY: The fence of an image is waited for only while a submit is out, and its objects are used again only after that wait.
import ChoirOverlay.Layer.Lifecycle
import ChoirOverlay.Layer.Present
import ChoirOverlay.Machine.Fences
import ChoirOverlay.Machine.Run

/-!
# Fences of the images

`fence_in_flight` of a tracked image mirrors the calls made with its fence. The
present hook takes an image that is to be submitted through a stretch where the
flag may be up though the image is idle (`Staged`); everywhere else the flag
says all there is to know (`Sound`).
-/

namespace Choir

abbrev FenceLog := List (Fences.Event VkCommandBuffer VkFence)

/-! ## Events -/

/-- What a call does with fences and command buffers, newest event first. A
    reset counts also when it fails. -/
def VkCall.fenceEvents : VkCall → FenceLog
  | .waitForFences fence _ => [.wait fence]
  | .beginCommandBuffer cmd _ => [.use cmd]
  | .resetFences fence _ => [.reset fence]
  | .queueSubmit _ cmd _ fence true => [.submit cmd fence]
  | .queueSubmit _ _ _ _ false | .endCommandBuffer _ | .queuePresent _ => []

/-- Freeing the objects of an image takes its command buffer out of use. -/
def DeviceCall.fenceEvents : DeviceCall → FenceLog
  | .hook call => call.fenceEvents
  | .destroyImage img => [.use img.cmd]
  | .destroyPool cmds => (cmds.map .use).reverse
  | .createImage _ | .destroySwapchain _ => []

/-- The events of calls, newest first, that were made in this order. -/
def fenceEvents (calls : List VkCall) : FenceLog := calls.reverse.flatMap VkCall.fenceEvents

@[simp] theorem fenceEvents_append (calls calls' : List VkCall) :
    fenceEvents (calls ++ calls') = fenceEvents calls' ++ fenceEvents calls := by
  simp [fenceEvents]

/-- The events of a log, newest first. -/
def fenceLog (log : List DeviceCall) : FenceLog := log.flatMap DeviceCall.fenceEvents

/-- Every wait is for a fence that was submitted since its latest reset, and
    whatever is recorded anew or freed is idle. -/
def FencesLawful (log : List DeviceCall) : Prop := Log.Each Fences.Lawful (fenceLog log)

/-! ## The invariant -/

/-- The image stands in the map at this place. -/
def Tracks (m : AList fun _ : VkSwapchain => SwapchainState) (swapchain : VkSwapchain)
    (imageIndex : Nat) (img : ImageState) : Prop :=
  ∃ s, m.lookup swapchain = some s ∧ s.images[imageIndex]? = some img

/-- The tracked images are those made so far, no two of them share their
    objects, and their flags mirror the log. -/
structure Sound (made : Nat) (m : AList fun _ : VkSwapchain => SwapchainState)
    (log : FenceLog) : Prop where
  lawful : Log.Each Fences.Lawful log
  mirrors : ∀ {swapchain i img}, Tracks m swapchain i img →
    Fences.Mirrors img.fenceInFlight img.cmd img.fence log
  numbered : ∀ {swapchain i img}, Tracks m swapchain i img →
    img.cmd = img.fence ∧ img.fence < made
  own : ∀ {swapchain i img swapchain' i' img'}, Tracks m swapchain i img →
    Tracks m swapchain' i' img' → img.fence = img'.fence → swapchain = swapchain' ∧ i = i'
  paired : ∀ n, Fences.Paired n n log
  fresh : ∀ n, made ≤ n → Fences.Idle n log

variable {made made' : Nat} {m m' : AList fun _ : VkSwapchain => SwapchainState}
  {log log' : FenceLog}
  {swapchain : VkSwapchain} {i : Nat} {img : ImageState}

theorem sound_empty (made : Nat) : Sound made ∅ [] where
  lawful := Log.each_nil
  mirrors := fun ⟨_, hs, _⟩ => by simp at hs
  numbered := fun ⟨_, hs, _⟩ => by simp at hs
  own := fun ⟨_, hs, _⟩ => by simp at hs
  paired := fun _ _ h => h.elim
  fresh := fun _ _ _ h => h

/-- A map that tracks nothing else. -/
theorem Sound.mono (h : Sound made m log)
    (hm : ∀ {swapchain i img}, Tracks m' swapchain i img → Tracks m swapchain i img)
    (hmade : made ≤ made') : Sound made' m' log where
  lawful := h.lawful
  mirrors := fun ht => h.mirrors (hm ht)
  numbered := fun ht => ⟨(h.numbered (hm ht)).1, Nat.lt_of_lt_of_le (h.numbered (hm ht)).2 hmade⟩
  own := fun ht ht' => h.own (hm ht) (hm ht')
  paired := h.paired
  fresh := fun n hn => h.fresh n (Nat.le_trans hmade hn)

theorem Sound.wait (h : Sound made m log) {fence : VkFence} (hf : Fences.Armed fence log) :
    Sound made m (.wait fence :: log) where
  lawful := ⟨hf, h.lawful⟩
  mirrors := fun ht => (h.mirrors ht).wait fence
  numbered := h.numbered
  own := h.own
  paired := fun n => (h.paired n).wait fence
  fresh := fun n hn => (h.fresh n hn).wait fence

theorem Sound.use (h : Sound made m log) {cmd : VkCommandBuffer} (hcmd : Fences.Idle cmd log) :
    Sound made m (.use cmd :: log) where
  lawful := ⟨hcmd, h.lawful⟩
  mirrors := fun ht => (h.mirrors ht).use cmd
  numbered := h.numbered
  own := h.own
  paired := h.paired
  fresh := h.fresh

/-- After the wait for its fence an image is idle. -/
theorem Sound.idle_wait (h : Sound made m log) (hn : img.cmd = img.fence) :
    Fences.Idle img.cmd (.wait img.fence :: log) := by
  rw [← hn]
  exact (h.paired img.cmd).idle_wait

/-! ## The first phase -/

/-- What the calls of a recording do to buffers: none is submitted. -/
def Unsubmitted (events : FenceLog) : Prop :=
  ∀ cmd log, Fences.Idle cmd log → Fences.Idle cmd (events ++ log)

theorem unsubmitted_nil : Unsubmitted [] := fun _ _ h => h

/-- A recording leaves the images as they are, waits before it records, and
    leaves an image that it drew on idle. -/
structure Records (made : Nat) (m : AList fun _ : VkSwapchain => SwapchainState)
    (log : FenceLog) (imageIndex : Nat) (s : SwapchainState) (r : Recording) : Prop where
  images : r.state.images = s.images
  sound : Sound made m (fenceEvents r.calls ++ log)
  unsubmitted : Unsubmitted (fenceEvents r.calls)
  drawn : ∀ img, r.result = .drawn img →
    s.images[imageIndex]? = some img ∧ Fences.Idle img.cmd (fenceEvents r.calls ++ log)

/-- A recording that makes no call and draws nothing. -/
theorem records_quiet (h : Sound made m log) {s : SwapchainState} {r : Recording}
    (hi : r.state.images = s.images) (hc : r.calls = []) (hr : ∀ img, r.result ≠ .drawn img) :
    Records made m log i s r := by
  refine ⟨hi, ?_, ?_, fun img hd => absurd hd (hr img)⟩
  · rw [hc]
    exact h
  · rw [hc]
    exact unsubmitted_nil

theorem Unsubmitted.use {events : FenceLog} (h : Unsubmitted events) (cmd : VkCommandBuffer) :
    Unsubmitted (.use cmd :: events) := fun cmd' log hidle => h cmd' log hidle

/-- The wait of a recording, which is made only while a submit is out. -/
theorem Sound.waits (h : Sound made m log) (ht : Tracks m swapchain i img) (ok : Bool) :
    let waits := fenceEvents (if img.fenceInFlight then [.waitForFences img.fence ok] else [])
    Sound made m (waits ++ log) ∧ Unsubmitted waits ∧ Fences.Idle img.cmd (waits ++ log) := by
  have hmirrors := h.mirrors ht
  cases hflag : img.fenceInFlight with
  | false => exact ⟨h, unsubmitted_nil, hmirrors.idle hflag⟩
  | true =>
    have hidle := h.idle_wait (h.numbered ht).1
    exact ⟨h.wait (hmirrors.armed hflag), fun _ _ hcmd => hcmd.wait _, hidle⟩

theorem SwapchainState.recordPass_records (env : RecordEnv) {s : SwapchainState}
    (h : Sound made m log) (ht : Tracks m swapchain i img) (hi : s.images[i]? = some img) :
    Records made m log i s (s.recordPass env img) := by
  obtain ⟨hsound, hun, hidle⟩ := h.waits ht env.waited
  have huse := hsound.use hidle
  unfold recordPass
  simp only
  generalize (if img.fenceInFlight then [VkCall.waitForFences img.fence env.waited] else []) =
    waits at *
  split_ifs with hwait hbegin hdraw hend
  · exact ⟨rfl, hsound, hun, nofun⟩
  · refine ⟨rfl, ?_, ?_, nofun⟩ <;> rw [fenceEvents_append]
    · exact huse
    · exact hun.use img.cmd
  all_goals
    refine ⟨rfl, ?_, ?_, ?_⟩ <;> rw [fenceEvents_append, fenceEvents_append]
    · exact huse
    · exact hun.use img.cmd
  · exact nofun
  · exact nofun
  · rintro img' himg
    obtain rfl : img = img' := RecordResult.drawn.inj himg
    exact ⟨hi, hidle⟩

theorem SwapchainState.initRenderer_images (env : RecordEnv) (s : SwapchainState) :
    (s.initRenderer env).1.images = s.images := by
  unfold initRenderer
  split_ifs <;> rfl

theorem SwapchainState.recordOne_records (env : RecordEnv) {s : SwapchainState}
    (h : Sound made m log) (hs : m.lookup swapchain = some s) :
    Records made m log i s (s.recordOne env i) := by
  unfold recordOne
  split
  · exact records_quiet h rfl rfl nofun
  rename_i img himg
  have hi : s.images[i]? = some img := by
    split at himg
    · exact himg
    · cases himg
  split
  · exact records_quiet h rfl rfl nofun
  split
  · exact records_quiet h rfl rfl nofun
  have himages := s.initRenderer_images env
  split
  · rename_i s' hinit
    rw [hinit] at himages
    exact records_quiet h himages rfl nofun
  rename_i s' hinit
  rw [hinit] at himages
  split
  · exact records_quiet h himages rfl nofun
  split
  · exact records_quiet h himages rfl nofun
  simp only
  split
  · exact records_quiet h himages rfl nofun
  split
  · exact records_quiet h himages rfl nofun
  · have himages' : s'.images = s.images := himages
    have hpass := SwapchainState.recordPass_records env (s := { s' with avatars := true }) h
      ⟨s, hs, hi⟩ (himages' ▸ hi)
    refine ⟨hpass.images.trans himages', hpass.sound, hpass.unsubmitted, fun img hd => ?_⟩
    obtain ⟨hdrawn, hidle⟩ := hpass.drawn img hd
    exact ⟨himages' ▸ hdrawn, hidle⟩

/-! ## Staged images -/

/-- An image that is recorded and not yet submitted: idle, whatever its flag
    says. -/
def Staged (m : AList fun _ : VkSwapchain => SwapchainState) (log : FenceLog) (r : Recorded) :
    Prop :=
  ∃ img, Tracks m r.swapchain r.imageIndex img ∧ img.cmd = r.img.cmd ∧
    img.fence = r.img.fence ∧ Fences.Idle r.img.cmd log

/-- Replacing a swapchain's state by one with the same images. -/
theorem tracks_insert {s s' : SwapchainState} (hs : m.lookup swapchain = some s)
    (himages : s'.images = s.images) {other : VkSwapchain} :
    Tracks (m.insert swapchain s') other i img ↔ Tracks m other i img := by
  by_cases ho : other = swapchain
  · subst ho
    simp only [Tracks, AList.lookup_insert, hs, Option.some.injEq, exists_eq_left', himages]
  · simp only [Tracks, AList.lookup_insert_ne ho]

namespace Layer

variable {l : Layer}

theorem recording_swapchains (r : Recording) (swapchain : VkSwapchain) :
    (l.recording r swapchain).swapchains = l.swapchains.insert swapchain r.state := by
  unfold recording
  simp only
  split <;> rfl

/-- The first phase waits before it records, and what it hands on is staged. -/
theorem recordAll_sound (envs : List RecordEnv) (recorded : List Recorded)
    (targets : List (VkSwapchain × Nat))
    (h : Sound made l.swapchains (fenceEvents l.calls ++ log))
    (hstaged : ∀ r ∈ recorded, Staged l.swapchains (fenceEvents l.calls ++ log) r) :
    let out := l.recordAll envs recorded targets
    Sound made out.1.swapchains (fenceEvents out.1.calls ++ log) ∧
      ∀ images, out.2 = .recorded images →
        (∀ r ∈ images, Staged out.1.swapchains (fenceEvents out.1.calls ++ log) r) ∧
          (images.map Recorded.swapchain).Sublist
            (recorded.map Recorded.swapchain ++ targets.map Prod.fst) := by
  induction targets generalizing l envs recorded with
  | nil =>
    refine ⟨h, fun images himages => ?_⟩
    obtain rfl := Batch.recorded.inj himages
    exact ⟨hstaged, by simp⟩
  | cons target rest ih =>
    obtain ⟨swapchain, imageIndex⟩ := target
    cases hs : l.swapchains.lookup swapchain with
    | none =>
      simp only [recordAll, hs]
      exact ⟨h, fun images himages => Batch.noConfusion himages⟩
    | some s =>
      have hone := SwapchainState.recordOne_records (i := imageIndex) (envs.headD {}) h hs
      rw [recordAll_cons imageIndex envs recorded rest hs]
      have hcalls := recording_calls (l := l) (s.recordOne (envs.headD {}) imageIndex) swapchain
      have hmap := recording_swapchains (l := l) (s.recordOne (envs.headD {}) imageIndex) swapchain
      generalize l.recording (s.recordOne (envs.headD {}) imageIndex) swapchain = l' at *
      generalize s.recordOne (envs.headD {}) imageIndex = r at *
      have htracks : ∀ {other i img}, Tracks l'.swapchains other i img ↔
          Tracks l.swapchains other i img := by
        intro other i img
        rw [hmap]
        exact tracks_insert hs hone.images
      have hlog : fenceEvents l'.calls ++ log =
          fenceEvents r.calls ++ (fenceEvents l.calls ++ log) := by
        rw [hcalls, fenceEvents_append, List.append_assoc]
      have hsound : Sound made l'.swapchains (fenceEvents l'.calls ++ log) := by
        rw [hlog]
        exact hone.sound.mono htracks.mp (Nat.le_refl made)
      have hkeep : ∀ r ∈ recorded, Staged l'.swapchains (fenceEvents l'.calls ++ log) r := by
        intro r' hr'
        obtain ⟨img, ht, hcmd, hfence, hidle⟩ := hstaged r' hr'
        exact ⟨img, htracks.mpr ht, hcmd, hfence, hlog ▸ hone.unsubmitted _ _ hidle⟩
      simp only
      cases hresult : r.result with
      | failed => exact ⟨hsound, fun images himages => Batch.noConfusion himages⟩
      | threw => exact ⟨hsound, fun images himages => Batch.noConfusion himages⟩
      | skipped =>
        obtain ⟨hs', himages⟩ := ih envs.tail recorded hsound hkeep
        refine ⟨hs', fun images hi => ⟨(himages images hi).1, (himages images hi).2.trans ?_⟩⟩
        exact (List.sublist_cons_self _ _).append_left _
      | drawn img =>
        obtain ⟨hi, hidle⟩ := hone.drawn img hresult
        have hnew : Staged l'.swapchains (fenceEvents l'.calls ++ log)
            ⟨swapchain, imageIndex, img⟩ :=
          ⟨img, htracks.mpr ⟨s, hs, hi⟩, rfl, rfl, hlog ▸ hidle⟩
        obtain ⟨hs', himages⟩ := ih envs.tail (recorded ++ [⟨swapchain, imageIndex, img⟩]) hsound
          (by
            intro r' hr'
            rcases List.mem_append.mp hr' with hr' | hr'
            · exact hkeep r' hr'
            · obtain rfl := List.mem_singleton.mp hr'
              exact hnew)
        refine ⟨hs', fun images hi' => ⟨(himages images hi').1, ?_⟩⟩
        simpa using (himages images hi').2

/-! ## The second phase -/

/-- The flag of one image changes and no other image does. -/
theorem tracks_setFenceInFlight {r : Recorded} (b : Bool) {other : VkSwapchain} {i : Nat}
    {img img' : ImageState} (hr : Tracks l.swapchains r.swapchain r.imageIndex img)
    (ht : Tracks (l.setFenceInFlight r b).swapchains other i img') :
    (other = r.swapchain ∧ i = r.imageIndex ∧ img' = { img with fenceInFlight := b }) ∨
      (¬ (other = r.swapchain ∧ i = r.imageIndex) ∧ Tracks l.swapchains other i img') := by
  obtain ⟨s, hs, hi⟩ := hr
  obtain ⟨s', hs', hi'⟩ := ht
  simp only [setFenceInFlight, hs] at hs'
  by_cases ho : other = r.swapchain
  · subst ho
    simp only [AList.lookup_insert, Option.some.injEq] at hs'
    subst hs'
    rw [List.getElem?_modify] at hi'
    by_cases hj : r.imageIndex = i
    · subst hj
      simp only [if_true, hi, Option.map_eq_map, Option.map_some, Option.some.injEq] at hi'
      exact .inl ⟨rfl, rfl, hi'.symm⟩
    · refine .inr ⟨fun h => hj h.2.symm, s, hs, ?_⟩
      simpa [hj] using hi'
  · rw [AList.lookup_insert_ne ho] at hs'
    exact .inr ⟨fun h => ho h.1, s', hs', hi'⟩

/-- The staged image itself after its flag changed. -/
theorem tracks_setFenceInFlight_self {r : Recorded} (b : Bool) {img : ImageState}
    (hr : Tracks l.swapchains r.swapchain r.imageIndex img) :
    Tracks (l.setFenceInFlight r b).swapchains r.swapchain r.imageIndex
      { img with fenceInFlight := b } := by
  obtain ⟨s, hs, hi⟩ := hr
  simp only [setFenceInFlight, hs]
  exact ⟨_, AList.lookup_insert _, by simp [hi]⟩

/-- Other swapchains are as they were. -/
theorem tracks_setFenceInFlight_ne {r : Recorded} (b : Bool) {other : VkSwapchain} {i : Nat}
    {img : ImageState} (ho : other ≠ r.swapchain) (ht : Tracks l.swapchains other i img) :
    Tracks (l.setFenceInFlight r b).swapchains other i img := by
  obtain ⟨s, hs, hi⟩ := ht
  unfold setFenceInFlight
  split
  · exact ⟨s, hs, hi⟩
  · exact ⟨s, (AList.lookup_insert_ne ho).trans hs, hi⟩

/-- An event that concerns one image, which leaves the flag of the image right. -/
theorem sound_setFenceInFlight {r : Recorded} {b : Bool} {img : ImageState} {log log' : FenceLog}
    (h : Sound made l.swapchains log)
    (ht : Tracks l.swapchains r.swapchain r.imageIndex img)
    (hlawful : Log.Each Fences.Lawful log') (hself : Fences.Mirrors b img.cmd img.fence log')
    (hother : ∀ {flag : Bool} {cmd fence : Nat}, fence ≠ img.fence → cmd ≠ img.cmd →
      Fences.Mirrors flag cmd fence log → Fences.Mirrors flag cmd fence log')
    (hpaired : ∀ n, Fences.Paired n n log') (hfresh : ∀ n, made ≤ n → Fences.Idle n log') :
    Sound made (l.setFenceInFlight r b).swapchains log' where
  lawful := hlawful
  paired := hpaired
  fresh := hfresh
  mirrors := by
    intro other i img' ht'
    rcases tracks_setFenceInFlight b ht ht' with ⟨-, -, rfl⟩ | ⟨hne, ht'⟩
    · exact hself
    · have hfence : img'.fence ≠ img.fence := fun heq => hne (h.own ht' ht heq)
      have hcmd : img'.cmd ≠ img.cmd := by
        rwa [(h.numbered ht').1, (h.numbered ht).1]
      exact hother hfence hcmd (h.mirrors ht')
  numbered := by
    intro other i img' ht'
    have hnumbered := h.numbered ht
    rcases tracks_setFenceInFlight b ht ht' with ⟨-, -, rfl⟩ | ⟨-, ht'⟩
    · exact hnumbered
    · exact h.numbered ht'
  own := by
    -- An image keeps its place and its fence.
    have hback : ∀ {other i img'}, Tracks (l.setFenceInFlight r b).swapchains other i img' →
        ∃ img₀, Tracks l.swapchains other i img₀ ∧ img₀.fence = img'.fence := by
      intro other i img' ht'
      rcases tracks_setFenceInFlight b ht ht' with ⟨rfl, rfl, rfl⟩ | ⟨-, ht'⟩
      · exact ⟨img, ht, rfl⟩
      · exact ⟨img', ht', rfl⟩
    intro other i img' other' i' img'' ht' ht'' heq
    obtain ⟨img₀, h₀, hf₀⟩ := hback ht'
    obtain ⟨img₁, h₁, hf₁⟩ := hback ht''
    exact h.own h₀ h₁ (hf₀.trans (heq.trans hf₁.symm))

/-- The reset before a submit: the image is idle, and its flag comes down. -/
theorem sound_lower {r : Recorded} {log : FenceLog} (h : Sound made l.swapchains log)
    (hr : Staged l.swapchains log r) :
    Sound made (l.setFenceInFlight r false).swapchains (.reset r.img.fence :: log) := by
  obtain ⟨img, ht, hcmd, hfence, hidle⟩ := hr
  refine sound_setFenceInFlight h ht ⟨trivial, h.lawful⟩ ?_ ?_ h.paired h.fresh
  · exact Fences.mirrors_false (hcmd ▸ hidle)
  · intro flag cmd fence hf _ hm
    exact hm.reset_ne (hfence ▸ hf.symm)

/-- The submit: the flag of the image goes up. -/
theorem sound_raise {r : Recorded} {log : FenceLog} (h : Sound made l.swapchains log)
    (hr : Staged l.swapchains log r) :
    Sound made (l.setFenceInFlight r true).swapchains (.submit r.img.cmd r.img.fence :: log) := by
  obtain ⟨img, ht, hcmd, hfence, hidle⟩ := hr
  obtain ⟨hnum, hlt⟩ := h.numbered ht
  have hsame : r.img.cmd = r.img.fence := by rw [← hcmd, ← hfence, hnum]
  refine sound_setFenceInFlight h ht ⟨trivial, h.lawful⟩ ?_ ?_ ?_ ?_
  · rw [hcmd, hfence]
    exact Fences.mirrors_submit
  · intro flag cmd fence _ hc hm
    exact hm.submit_ne (hcmd ▸ hc.symm)
  · intro n
    refine (h.paired n).submit fun hn => ?_
    rw [← hsame, hn]
  · intro n hn
    refine (h.fresh n hn).submit_ne ?_
    rw [← hcmd, hnum]
    exact Nat.ne_of_lt (Nat.lt_of_lt_of_le hlt hn)

/-- A staged image stays staged while the flag of another swapchain's changes. -/
theorem staged_other {r r' : Recorded} {log log' : FenceLog} (b : Bool)
    (hr : Staged l.swapchains log r) (hne : r.swapchain ≠ r'.swapchain)
    (hidle : Fences.Idle r.img.cmd log → Fences.Idle r.img.cmd log') :
    Staged (l.setFenceInFlight r' b).swapchains log' r := by
  obtain ⟨img, ht, hcmd, hfence, hi⟩ := hr
  exact ⟨img, tracks_setFenceInFlight_ne b hne ht, hcmd, hfence, hidle hi⟩

/-- Staged images of different swapchains have different command buffers. -/
theorem staged_cmd_ne {r r' : Recorded} {log : FenceLog} (h : Sound made l.swapchains log)
    (hr : Staged l.swapchains log r) (hr' : Staged l.swapchains log r')
    (hne : r.swapchain ≠ r'.swapchain) : r'.img.cmd ≠ r.img.cmd := by
  obtain ⟨img, ht, hcmd, -, -⟩ := hr
  obtain ⟨img', ht', hcmd', -, -⟩ := hr'
  intro heq
  refine hne (h.own ht ht' ?_).1
  rw [← (h.numbered ht).1, ← (h.numbered ht').1, hcmd, hcmd', heq]

/-- The events of one submit: a reset, and the submit when it goes out. -/
theorem submitting_events (first : List VkSemaphore) (r : Recorded) (env : SubmitEnv) :
    fenceEvents (l.submitting first r env).calls =
      (if env.goesOut then [.submit r.img.cmd r.img.fence] else []) ++
        .reset r.img.fence :: fenceEvents l.calls := by
  obtain ⟨reset, submitted⟩ := env
  cases reset <;> cases submitted <;>
    simp [submitting, SubmitEnv.goesOut, call, fenceEvents, VkCall.fenceEvents]

theorem submitting_swapchains (first : List VkSemaphore) (r : Recorded) (env : SubmitEnv) :
    (l.submitting first r env).swapchains = (l.setFenceInFlight r false).swapchains := by
  unfold submitting
  simp only
  split <;> rfl

/-- The calls of one submit leave the images sound, with the flag raised when
    the submit goes out. -/
theorem submitting_sound (first : List VkSemaphore) {r : Recorded} (env : SubmitEnv)
    (h : Sound made l.swapchains (fenceEvents l.calls ++ log))
    (hr : Staged l.swapchains (fenceEvents l.calls ++ log) r) :
    let l' := l.submitting first r env
    let l' := if env.goesOut then l'.setFenceInFlight r true else l'
    Sound made l'.swapchains (fenceEvents l'.calls ++ log) ∧
      ∀ other, Staged l.swapchains (fenceEvents l.calls ++ log) other →
        other.swapchain ≠ r.swapchain →
        Staged l'.swapchains (fenceEvents l'.calls ++ log) other := by
  have hevents := submitting_events (l := l) first r env
  have hmap := submitting_swapchains (l := l) first r env
  have hlower := sound_lower h hr
  have hkeep : ∀ other, Staged l.swapchains (fenceEvents l.calls ++ log) other →
      other.swapchain ≠ r.swapchain → Staged (l.setFenceInFlight r false).swapchains
        (.reset r.img.fence :: (fenceEvents l.calls ++ log)) other :=
    fun other ho hne => staged_other false ho hne id
  have hself : Staged (l.setFenceInFlight r false).swapchains
      (.reset r.img.fence :: (fenceEvents l.calls ++ log)) r := by
    obtain ⟨img, ht, hcmd, hfence, hidle⟩ := hr
    exact ⟨_, tracks_setFenceInFlight_self false ht, hcmd, hfence, hidle⟩
  rw [← hmap] at hlower hkeep hself
  generalize l.submitting first r env = l₁ at *
  simp only
  cases hgoes : env.goesOut with
  | false =>
    rw [hgoes] at hevents
    simp only [Bool.false_eq_true, if_false, List.nil_append] at hevents ⊢
    rw [hevents]
    exact ⟨hlower, hkeep⟩
  | true =>
    rw [hgoes] at hevents
    simp only [if_true, setFenceInFlight_calls, List.singleton_append] at hevents ⊢
    rw [hevents]
    refine ⟨sound_raise hlower hself, fun other ho hne => ?_⟩
    have hother := hkeep other ho hne
    exact staged_other true hother hne fun hidle =>
      hidle.submit_ne (staged_cmd_ne hlower hother hself hne)

/-- The second phase, on staged images of different swapchains. -/
theorem submitAll_sound (appWaits : List VkSemaphore) (i : Nat) (envs : List SubmitEnv)
    (overlaySems : List VkSemaphore) (prevDone : VkSemaphore) (images : List Recorded)
    (h : Sound made l.swapchains (fenceEvents l.calls ++ log))
    (hstaged : ∀ r ∈ images, Staged l.swapchains (fenceEvents l.calls ++ log) r)
    (hnodup : (images.map Recorded.swapchain).Nodup) :
    let l' := (l.submitAll appWaits i envs overlaySems prevDone images).1
    Sound made l'.swapchains (fenceEvents l'.calls ++ log) := by
  induction images generalizing l i envs overlaySems prevDone with
  | nil => exact h
  | cons r rest ih =>
    obtain ⟨hnot, hnodup⟩ := List.nodup_cons.mp hnodup
    obtain ⟨hsound, hkeep⟩ := submitting_sound (if i = 0 then appWaits else [prevDone])
      (envs.headD {}) h (hstaged r List.mem_cons_self)
    rw [submitAll_cons]
    simp only at hsound hkeep ⊢
    split
    · rename_i hgoes
      rw [if_pos hgoes] at hsound hkeep
      refine ih _ _ _ _ hsound (fun r' hr' => ?_) hnodup
      refine hkeep r' (hstaged r' (List.mem_cons_of_mem _ hr')) fun heq => hnot ?_
      exact heq ▸ List.mem_map_of_mem hr'
    · rename_i hgoes
      rw [if_neg hgoes] at hsound
      simp only
      split <;> exact hsound

/-! ## The hook -/

theorem forward_sound (env : PresentEnv) (info : Option PresentInfo)
    (h : Sound made l.swapchains (fenceEvents l.calls ++ log)) :
    Sound made (l.forward env info).1.swapchains
      (fenceEvents (l.forward env info).1.calls ++ log) := by
  unfold forward
  split
  · exact h
  · split
    · simpa [call, fenceEvents, VkCall.fenceEvents] using h
    · exact h

/-- A present, with pairwise distinct swapchains, keeps the images sound. -/
theorem queuePresentKHR_sound (env : PresentEnv) (queue : VkQueue) {info : Option PresentInfo}
    (hdistinct : ∀ i ∈ info, (i.swapchains.map Prod.fst).Nodup)
    (h : Sound made l.swapchains (fenceEvents l.calls ++ log)) :
    let l' := (queuePresentKHR env queue info l).1
    Sound made l'.swapchains (fenceEvents l'.calls ++ log) := by
  unfold queuePresentKHR
  split
  · rename_i dd info hdd
    split
    · exact forward_sound env _ h
    · unfold overlayBlock
      split
      · exact forward_sound env _ h
      · obtain ⟨hrec, himages⟩ := recordAll_sound env.records [] info.swapchains h (by simp)
        split
        all_goals
          rename_i hall
          rw [hall] at hrec himages
        · exact forward_sound env _ hrec
        · exact forward_sound env _ hrec
        · exact forward_sound env _ hrec
        · split
          · exact forward_sound env _ hrec
          · obtain ⟨hstaged, hsub⟩ := himages _ rfl
            have hsubmit := submitAll_sound info.waitSemaphores 0 env.submits [] 0 _ hrec hstaged
              (hsub.nodup (by simpa using hdistinct info rfl))
            split
            all_goals
              rename_i hout
              rw [hout] at hsubmit
            · exact forward_sound env _ hsubmit
            · simpa [call, fenceEvents, VkCall.fenceEvents] using hsubmit
  · exact forward_sound env _ h

end Layer

namespace LayerProcess

variable {p : LayerProcess}

/-- The tracked images of a process, and its log. -/
def SoundNow (p : LayerProcess) : Prop := Sound p.made p.swapchains (fenceLog p.log)

/-! ## Freeing -/

/-- The images wait for whatever is out, and are idle then. -/
theorem waitOverlayIdle_sound (images : List (ImageState × Bool)) (h : p.SoundNow)
    (himages : ∀ e ∈ images, e.1.cmd = e.1.fence ∧
      Fences.Mirrors e.1.fenceInFlight e.1.cmd e.1.fence (fenceLog p.log))
    {done : List VkCommandBuffer} (hdone : ∀ cmd ∈ done, Fences.Idle cmd (fenceLog p.log)) :
    let p' := p.waitOverlayIdle images
    p'.SoundNow ∧ (∀ e ∈ images, Fences.Idle e.1.cmd (fenceLog p'.log)) ∧
      ∀ cmd ∈ done, Fences.Idle cmd (fenceLog p'.log) := by
  induction images generalizing p done with
  | nil => exact ⟨h, by simp, hdone⟩
  | cons e rest ih =>
    obtain ⟨img, waited⟩ := e
    obtain ⟨⟨hnum, hmirrors⟩, hrest⟩ := List.forall_mem_cons.mp himages
    rw [waitOverlayIdle]
    cases hflag : img.fenceInFlight with
    | false =>
      rw [hflag] at hmirrors
      have hall : ∀ cmd ∈ img.cmd :: done, Fences.Idle cmd (fenceLog p.log) :=
        List.forall_mem_cons.mpr ⟨hmirrors.idle rfl, hdone⟩
      obtain ⟨hsound, hothers, hd⟩ := ih h hrest hall
      obtain ⟨himg, hd⟩ := List.forall_mem_cons.mp hd
      exact ⟨hsound, List.forall_mem_cons.mpr ⟨himg, hothers⟩, hd⟩
    | true =>
      rw [hflag] at hmirrors
      have hwait : (p.call (.hook (.waitForFences img.fence waited))).SoundNow :=
        Sound.wait h (hmirrors.armed rfl)
      have hidle : Fences.Idle img.cmd (.wait img.fence :: fenceLog p.log) := Sound.idle_wait h hnum
      have hall : ∀ cmd ∈ img.cmd :: done, Fences.Idle cmd (.wait img.fence :: fenceLog p.log) :=
        List.forall_mem_cons.mpr ⟨hidle, fun cmd hc => (hdone cmd hc).wait img.fence⟩
      obtain ⟨hsound, hothers, hd⟩ := ih hwait
        (fun e he => ⟨(hrest e he).1, (hrest e he).2.wait img.fence⟩) hall
      obtain ⟨himg, hd⟩ := List.forall_mem_cons.mp hd
      exact ⟨hsound, List.forall_mem_cons.mpr ⟨himg, hothers⟩, hd⟩

/-- Taking idle buffers out of use. -/
theorem sound_uses {made : Nat} {m : AList fun _ : VkSwapchain => SwapchainState} {log : FenceLog}
    (h : Sound made m log) {cmds : List VkCommandBuffer}
    (hidle : ∀ cmd ∈ cmds, Fences.Idle cmd log) :
    Sound made m (cmds.map .use ++ log) ∧
      ∀ cmd, Fences.Idle cmd log → Fences.Idle cmd (cmds.map .use ++ log) := by
  induction cmds with
  | nil => exact ⟨h, fun _ => id⟩
  | cons cmd rest ih =>
    obtain ⟨hcmd, hrest⟩ := List.forall_mem_cons.mp hidle
    obtain ⟨hsound, hkeep⟩ := ih hrest
    exact ⟨hsound.use (hkeep cmd hcmd), hkeep⟩

theorem destroyImages_sound (images : List ImageState) (h : p.SoundNow)
    (hidle : ∀ img ∈ images, Fences.Idle img.cmd (fenceLog p.log)) :
    let p' := p.destroyImages images
    p'.SoundNow ∧ ∀ cmd, Fences.Idle cmd (fenceLog p.log) → Fences.Idle cmd (fenceLog p'.log) := by
  induction images generalizing p with
  | nil => exact ⟨h, fun _ => id⟩
  | cons img rest ih =>
    obtain ⟨himg, hrest⟩ := List.forall_mem_cons.mp hidle
    have hcall : (p.call (.destroyImage img)).SoundNow := Sound.use h himg
    obtain ⟨hsound, hkeep⟩ := ih hcall hrest
    exact ⟨hsound, hkeep⟩

theorem destroyState_sound (s : SwapchainState) (pool : Bool) (h : p.SoundNow)
    (hidle : ∀ img ∈ s.images, Fences.Idle img.cmd (fenceLog p.log)) :
    (p.destroyState s pool).SoundNow := by
  obtain ⟨hsound, hkeep⟩ := destroyImages_sound s.images h hidle
  have hcmds : ∀ cmd ∈ (s.images.map ImageState.cmd).reverse,
      Fences.Idle cmd (fenceLog (p.destroyImages s.images).log) := by
    intro cmd hc
    obtain ⟨img, himg, rfl⟩ := List.mem_map.mp (List.mem_reverse.mp hc)
    exact hkeep img.cmd (hidle img himg)
  have huses := (sound_uses hsound hcmds).1
  cases pool with
  | false => exact hsound
  | true =>
    have hlog : fenceLog (p.destroyState s true).log =
        (s.images.map ImageState.cmd).reverse.map .use ++
          fenceLog (p.destroyImages s.images).log := by
      simp [destroyState, call, fenceLog, DeviceCall.fenceEvents]
    rw [SoundNow, hlog]
    exact huses

/-- A swapchain's state is taken out, waited for and freed. -/
theorem retire_sound (swapchain : VkSwapchain) (waits : List Bool) (h : p.SoundNow) :
    (p.retire swapchain waits).SoundNow := by
  unfold retire
  split
  · exact h
  · rename_i s hs
    have herase : SoundNow { p with swapchains := p.swapchains.erase swapchain } := by
      refine Sound.mono h (fun ht => ?_) (Nat.le_refl _)
      obtain ⟨s', hs', hi⟩ := ht
      rename_i other _ _
      have hne : other ≠ swapchain := by
        rintro rfl
        rw [AList.lookup_erase] at hs'
        cases hs'
      exact ⟨s', (AList.lookup_erase_ne hne).symm.trans hs', hi⟩
    have himages : ∀ e ∈ s.images.zipIdx.map fun e => (e.1, waits.getD e.2 true),
        e.1.cmd = e.1.fence ∧
          Fences.Mirrors e.1.fenceInFlight e.1.cmd e.1.fence (fenceLog p.log) := by
      intro e he
      obtain ⟨⟨img, i⟩, hmem, rfl⟩ := List.mem_map.mp he
      have ht : Tracks p.swapchains swapchain i img := ⟨s, hs, List.mem_zipIdx_iff_getElem?.mp hmem⟩
      exact ⟨(h.numbered ht).1, h.mirrors ht⟩
    have hnone : ∀ cmd ∈ ([] : List VkCommandBuffer), Fences.Idle cmd (fenceLog p.log) := by simp
    obtain ⟨hsound, hidle, -⟩ := waitOverlayIdle_sound _ herase himages hnone
    refine destroyState_sound s _ hsound fun img himg => ?_
    obtain ⟨i, hi⟩ := List.mem_iff_getElem?.mp himg
    exact hidle (img, waits.getD i true)
      (List.mem_map.mpr ⟨(img, i), List.mem_zipIdx_iff_getElem?.mpr hi, rfl⟩)

/-! ## Building -/

/-- The images built are numbered on from the first of them. -/
theorem buildImages_spec (oks : List Bool) (p : LayerProcess) {first : Nat}
    {built : List ImageState} (hbuilt : built = (List.range' first built.length).map newImage)
    (hmade : p.made = first + built.length) :
    let out := p.buildImages oks built
    out.2.1 = (List.range' first out.2.1.length).map newImage ∧
      out.1.made = first + out.2.1.length ∧ out.1.swapchains = p.swapchains ∧
      fenceLog out.1.log = fenceLog p.log := by
  induction oks generalizing p built with
  | nil => exact ⟨hbuilt, hmade, rfl, rfl⟩
  | cons ok rest ih =>
    cases ok with
    | false => exact ⟨hbuilt, hmade, rfl, rfl⟩
    | true =>
      refine ih ({ p with made := p.made + 1 }.call (.createImage (newImage p.made))) ?_ ?_
      · rw [List.length_append, List.length_singleton, List.range'_concat, List.map_append,
          ← hbuilt, hmade]
        simp
      · simp only [call, hmade, List.length_append, List.length_singleton, Nat.add_assoc]

/-- New images, numbered on from the images made so far, under some swapchain. -/
theorem sound_insert {made made' : Nat} {m : AList fun _ : VkSwapchain => SwapchainState}
    {log : FenceLog} (h : Sound made m log) (swapchain : VkSwapchain) {s : SwapchainState}
    (himages : s.images = (List.range' made s.images.length).map newImage)
    (hmade : made + s.images.length ≤ made') : Sound made' (m.insert swapchain s) log := by
  -- An image of the new map is a new one, or stood in the old map.
  have hcases : ∀ {other i img}, Tracks (m.insert swapchain s) other i img →
      (other = swapchain ∧ img = newImage (made + i) ∧ i < s.images.length) ∨
        (other ≠ swapchain ∧ Tracks m other i img) := by
    rintro other i img ⟨s', hs', hi⟩
    by_cases ho : other = swapchain
    · subst ho
      rw [AList.lookup_insert, Option.some.injEq] at hs'
      subst hs'
      have hlt := (List.getElem?_eq_some_iff.mp hi).1
      rw [himages, List.getElem?_map, List.getElem?_range' hlt, Option.map_some,
        Option.some.injEq, Nat.one_mul] at hi
      exact .inl ⟨rfl, hi.symm, hlt⟩
    · exact .inr ⟨ho, s', (AList.lookup_insert_ne ho).symm.trans hs', hi⟩
  have hle : made ≤ made' := Nat.le_trans (Nat.le_add_right made _) hmade
  refine ⟨h.lawful, ?_, ?_, ?_, h.paired, fun n hn => h.fresh n (Nat.le_trans hle hn)⟩
  · intro other i img ht
    rcases hcases ht with ⟨-, rfl, -⟩ | ⟨-, ht⟩
    · exact Fences.mirrors_false (h.fresh (made + i) (Nat.le_add_right made i))
    · exact h.mirrors ht
  · intro other i img ht
    rcases hcases ht with ⟨-, rfl, hlt⟩ | ⟨-, ht⟩
    · exact ⟨rfl, Nat.lt_of_lt_of_le (Nat.add_lt_add_left hlt made) hmade⟩
    · obtain ⟨hnum, hlt⟩ := h.numbered ht
      exact ⟨hnum, Nat.lt_of_lt_of_le hlt hle⟩
  · intro other i img other' i' img' ht ht' heq
    rcases hcases ht with ⟨ho, rfl, -⟩ | ⟨-, hold⟩ <;>
      rcases hcases ht' with ⟨ho', rfl, -⟩ | ⟨-, hold'⟩
    · exact ⟨ho.trans ho'.symm, Nat.add_left_cancel heq⟩
    · have hlt : made + i < made := Nat.lt_of_le_of_lt (Nat.le_of_eq heq) (h.numbered hold').2
      exact absurd hlt (Nat.not_lt.mpr (Nat.le_add_right made i))
    · have hlt : made + i' < made := Nat.lt_of_le_of_lt (Nat.le_of_eq heq.symm) (h.numbered hold).2
      exact absurd hlt (Nat.not_lt.mpr (Nat.le_add_right made i'))
    · exact h.own hold hold' heq

/-- What `build_state` hands on: nothing, or images numbered on. -/
theorem buildState_sound (env : BuildEnv) (h : p.SoundNow) :
    let out := p.buildState env
    out.1.SoundNow ∧ ∀ swapchain : VkSwapchain,
      SoundNow { out.1 with swapchains := out.1.swapchains.insert swapchain out.2 } := by
  have hempty : ∀ {p : LayerProcess}, p.SoundNow → ∀ swapchain : VkSwapchain,
      SoundNow { p with swapchains := p.swapchains.insert swapchain {} } :=
    fun h swapchain => sound_insert h swapchain rfl (Nat.le_refl _)
  unfold buildState
  split
  · exact ⟨h, hempty h⟩
  · have hnone : ([] : List ImageState) = (List.range' p.made 0).map newImage := rfl
    obtain ⟨himages, hmade, hmap, hlog⟩ := buildImages_spec env.images p hnone rfl
    have hsound : (p.buildImages env.images []).1.SoundNow := by
      rw [SoundNow, hlog, hmap, hmade]
      exact Sound.mono h id (Nat.le_add_right _ _)
    split
    all_goals
      rename_i p' images hout
      rw [hout] at himages hmade hmap hlog hsound
      simp only at himages hmade hmap hlog hsound ⊢
    · refine ⟨hsound, fun swapchain => ?_⟩
      rw [SoundNow, hlog, hmap, hmade]
      exact sound_insert h swapchain himages (Nat.le_refl _)
    · have hidle : ∀ img ∈ images, Fences.Idle img.cmd (fenceLog p'.log) := by
        intro img himg
        rw [himages] at himg
        obtain ⟨n, hn, rfl⟩ := List.mem_map.mp himg
        rw [hlog]
        exact h.fresh n (List.mem_range'_1.mp hn).1
      have hfreed := destroyState_sound { images } true hsound hidle
      exact ⟨hfreed, hempty hfreed⟩

/-! ## Steps -/

theorem track_sound (env : CreateEnv) (device : VkDevice) (dd : DeviceData)
    (swapchain : VkSwapchain) (overlayCapable : Bool) (h : p.SoundNow) :
    (p.track env device dd swapchain overlayCapable).SoundNow := by
  unfold track
  split
  · exact h
  split
  · exact h
  cases overlayCapable with
  | false =>
    simp only [Bool.false_eq_true, if_false]
    split
    · exact h
    · exact sound_insert h swapchain rfl (Nat.le_refl _)
  | true =>
    obtain ⟨hbuilt, hstored⟩ := buildState_sound env.build h
    simp only [if_true]
    split
    · exact hbuilt
    · exact hstored swapchain

/-- The swapchains of a present are pairwise distinct. -/
def Call.Distinct : Call → Prop
  | .present _ _ _ (some info) => (info.swapchains.map Prod.fst).Nodup
  | .present _ _ _ none | .create .. | .destroy .. => True

instance : DecidablePred Call.Distinct := fun c => by
  unfold Call.Distinct
  split <;> infer_instance

theorem step_sound {c : Call} (hc : c.Distinct) (h : p.SoundNow) : (p.step c).SoundNow := by
  cases c with
  | create env device old =>
    simp only [step, createSwapchainKHR]
    split
    · exact h
    split
    · exact h
    obtain ⟨result, swapchain, overlayCapable⟩ := env.outcome
    by_cases hresult : result = 0
    · simp only [hresult, ne_eq, not_true_eq_false, if_false]
      split
      · exact track_sound env device _ _ _ h
      split
      · exact h
      · exact track_sound env device _ _ _ (retire_sound _ _ h)
    · simp only [ne_eq, hresult, not_false_eq_true, if_true]
      exact h
  | present env device queue info =>
    have hdistinct : ∀ i ∈ info, (i.swapchains.map Prod.fst).Nodup := by
      rintro i rfl
      exact hc
    let l : Layer := { dd := p.devices device, disabled := p.disabled, swapchains := p.swapchains }
    have hstart : Sound p.made l.swapchains (fenceEvents l.calls ++ fenceLog p.log) := h
    have hpresent := Layer.queuePresentKHR_sound env queue hdistinct hstart
    have hlog : ∀ calls : List VkCall, fenceLog (calls.reverse.map DeviceCall.hook ++ p.log) =
        fenceEvents calls ++ fenceLog p.log := by
      intro calls
      rw [fenceLog, List.flatMap_append, List.flatMap_map]
      rfl
    simp only [step, queuePresentKHR, SoundNow, hlog]
    exact hpresent
  | destroy env device swapchain =>
    simp only [step, destroySwapchainKHR]
    have hretired : (if env.throws then p.markOverlayFailed device
        else p.retire swapchain env.waits).SoundNow := by
      split
      · exact h
      · exact retire_sound swapchain env.waits h
    generalize (if env.throws then p.markOverlayFailed device
        else p.retire swapchain env.waits) = p' at *
    split
    · exact hretired
    · exact hretired

/-- Over any calls of a game from the start on, whatever the driver answers:
    fences are waited for only while a submit is out, and an image's objects are
    used again or freed only when every submit of it was waited for. -/
theorem run_fencesLawful (devices : VkDevice → Option DeviceData) (disabled : Bool)
    (calls : List Call) (hdistinct : ∀ c ∈ calls, c.Distinct) :
    FencesLawful (Machine.run step { devices, disabled } calls).log := by
  have hrun : (Machine.run step { devices, disabled } calls).SoundNow :=
    (Machine.along_of_forall hdistinct).invariant (fun p c hp hc => step_sound hc hp)
      (sound_empty 0)
  exact hrun.lawful

/-- A window with one image, presented twice in a voice session and closed. -/
def oneWindow : List Call :=
  let env : PresentEnv := { records := [{ client := { latest := some { inVoice := true } } }] }
  let info : PresentInfo := { waitSemaphores := [7], swapchains := [(1, 0)] }
  [.create { swapchain := 1, build := { images := [true] } } 0 none,
    .present env 0 0 (some info), .present env 0 0 (some info), .destroy {} 0 1]

def oneDevice : VkDevice → Option DeviceData :=
  fun _ => some { graphicsQueueFamily := some 0, queueFamilies := [(0, 0)] }

/-- The second present and the destroy each wait for the submit before them. -/
theorem run_fencesLawful_oneWindow :
    fenceLog (Machine.run step { devices := oneDevice } oneWindow).log =
      [.use 0, .use 0, .wait 0, .submit 0 0, .reset 0, .use 0, .wait 0, .submit 0 0, .reset 0,
        .use 0] ∧
    FencesLawful (Machine.run step { devices := oneDevice } oneWindow).log :=
  ⟨rfl, run_fencesLawful oneDevice false oneWindow (by decide)⟩

end LayerProcess

end Choir
