-- SUMMARY: Every present goes down the chain once, and untouched where there is nothing to draw.
import ChoirOverlay.Layer.Present

/-!
# The present of a frame

Whatever fails or throws, the hook makes one present, with the application's
info or with that info on other semaphores. A process that is host-disabled or
outside a voice session sees no other call.
-/

namespace Choir

/-- The infos of the presents among the calls. -/
def presents (calls : List VkCall) : List (Option PresentInfo) :=
  calls.filterMap fun | .queuePresent info => some info | _ => none

@[simp] theorem presents_append (calls calls' : List VkCall) :
    presents (calls ++ calls') = presents calls ++ presents calls' := List.filterMap_append ..

/-- The process is host-disabled, or the snapshot is absent or not in voice. -/
def RecordEnv.Idle (env : RecordEnv) : Prop :=
  env.client.disabled = true ∨ env.client.gate = false

instance (env : RecordEnv) : Decidable env.Idle := inferInstanceAs (Decidable (_ ∨ _))

/-! ## Recording -/

theorem SwapchainState.recordPass_presents (env : RecordEnv) (img : ImageState)
    (s : SwapchainState) : presents (s.recordPass env img).calls = [] := by
  unfold recordPass
  simp only
  split_ifs <;> simp [presents]

theorem SwapchainState.recordOne_presents (env : RecordEnv) (imageIndex : Nat)
    (s : SwapchainState) : presents (s.recordOne env imageIndex).calls = [] := by
  unfold recordOne
  split
  · rfl
  split
  · rfl
  split
  · rfl
  split
  · rfl
  split
  · rfl
  split
  · rfl
  simp only
  split
  · rfl
  split
  · rfl
  · exact recordPass_presents env _ _

/-- An idle process draws nothing and calls nothing. -/
theorem SwapchainState.recordOne_idle {env : RecordEnv} (h : env.Idle) (imageIndex : Nat)
    (s : SwapchainState) :
    (s.recordOne env imageIndex).calls = [] ∧
      ∀ img, (s.recordOne env imageIndex).result ≠ .drawn img := by
  have hempty : env.client.disabled = false → env.frameHasContent = false := by
    intro henabled
    rw [RecordEnv.frameHasContent, h.resolve_left (by rw [henabled]; nofun), Bool.false_and]
  unfold recordOne
  split
  · exact ⟨rfl, nofun⟩
  split
  · exact ⟨rfl, nofun⟩
  split
  · exact ⟨rfl, nofun⟩
  rename_i hdisabled
  split
  · exact ⟨rfl, nofun⟩
  split
  · exact ⟨rfl, nofun⟩
  split
  · exact ⟨rfl, nofun⟩
  simp only
  split
  · exact ⟨rfl, nofun⟩
  split
  · exact ⟨rfl, nofun⟩
  · rename_i hcontent
    exact absurd (hempty (Bool.eq_false_iff.mpr hdisabled)) (by simpa using hcontent)

namespace Layer

variable {l l' l'' : Layer}

/-- An operation that presents nothing. -/
structure Withholds (l l' : Layer) : Prop where
  presents : presents l'.calls = presents l.calls
  canPresent : l.CanPresent → l'.CanPresent

theorem Withholds.refl (l : Layer) : Withholds l l := ⟨rfl, id⟩

theorem Withholds.trans (h : Withholds l l') (h' : Withholds l' l'') : Withholds l l'' :=
  ⟨h'.presents.trans h.presents, fun hcan => h'.canPresent (h.canPresent hcan)⟩

theorem withholds_markOverlayFailed : Withholds l l.markOverlayFailed :=
  ⟨rfl, CanPresent.markOverlayFailed⟩

theorem withholds_setFenceInFlight (r : Recorded) (b : Bool) :
    Withholds l (l.setFenceInFlight r b) :=
  ⟨by rw [setFenceInFlight_calls], fun hcan => hcan.setFenceInFlight r b⟩

theorem withholds_call {c : VkCall} (hc : Choir.presents [c] = []) : Withholds l (l.call c) := by
  refine ⟨?_, id⟩
  rw [call, presents_append, hc, List.append_nil]

/-! ## The two phases -/

theorem withholds_recordAll (envs : List RecordEnv) (recorded : List Recorded)
    (targets : List (VkSwapchain × Nat)) :
    Withholds l (l.recordAll envs recorded targets).1 := by
  induction targets generalizing l envs recorded with
  | nil => exact .refl l
  | cons target rest ih =>
    obtain ⟨swapchain, imageIndex⟩ := target
    cases hs : l.swapchains.lookup swapchain with
    | none =>
      rw [recordAll, hs]
      exact .refl l
    | some s =>
      have hone : Withholds l (l.recording (s.recordOne (envs.headD {}) imageIndex) swapchain) := by
        refine ⟨?_, fun hcan => hcan.recording _ swapchain⟩
        rw [recording_calls, presents_append, s.recordOne_presents, List.append_nil]
      rw [recordAll_cons imageIndex envs recorded rest hs]
      cases (s.recordOne (envs.headD {}) imageIndex).result with
      | failed => exact hone
      | threw => exact hone
      | skipped => exact hone.trans (ih _ _)
      | drawn img => exact hone.trans (ih _ _)

theorem idle_headD {envs : List RecordEnv} (h : ∀ env ∈ envs, env.Idle) : (envs.headD {}).Idle := by
  cases envs with
  | nil => exact .inr rfl
  | cons env envs => exact h env List.mem_cons_self

/-- The first phase of an idle process: no calls, and nothing to submit. -/
theorem recordAll_idle {envs : List RecordEnv} (h : ∀ env ∈ envs, env.Idle)
    (recorded : List Recorded) (targets : List (VkSwapchain × Nat)) :
    (l.recordAll envs recorded targets).1.calls = l.calls ∧
      ∀ images, (l.recordAll envs recorded targets).2 = .recorded images → images = recorded := by
  induction targets generalizing l envs with
  | nil => exact ⟨rfl, fun images himages => (Batch.recorded.inj himages).symm⟩
  | cons target rest ih =>
    obtain ⟨swapchain, imageIndex⟩ := target
    cases hs : l.swapchains.lookup swapchain with
    | none =>
      rw [recordAll, hs]
      exact ⟨rfl, fun images himages => Batch.noConfusion himages⟩
    | some s =>
      obtain ⟨hcalls, hdrawn⟩ := s.recordOne_idle (idle_headD h) imageIndex
      have hsame : (l.recording (s.recordOne (envs.headD {}) imageIndex) swapchain).calls =
          l.calls := by rw [recording_calls, hcalls, List.append_nil]
      rw [recordAll_cons imageIndex envs recorded rest hs]
      cases hresult : (s.recordOne (envs.headD {}) imageIndex).result with
      | failed => exact ⟨hsame, fun images himages => Batch.noConfusion himages⟩
      | threw => exact ⟨hsame, fun images himages => Batch.noConfusion himages⟩
      | skipped =>
        obtain ⟨hrest, himages⟩ := ih (l := l.recording _ swapchain)
          fun env hmem => h env (List.mem_of_mem_tail hmem)
        exact ⟨hrest.trans hsame, himages⟩
      | drawn img => exact absurd hresult (hdrawn img)

theorem withholds_submitting (first : List VkSemaphore) (r : Recorded) (env : SubmitEnv) :
    Withholds l (l.submitting first r env) := by
  have hreset : Withholds l ((l.setFenceInFlight r false).call
      (.resetFences r.img.fence env.reset)) :=
    (withholds_setFenceInFlight r false).trans (withholds_call rfl)
  unfold submitting
  simp only
  split
  · exact hreset.trans (withholds_call rfl)
  · exact hreset

theorem withholds_submitAll (appWaits : List VkSemaphore) (i : Nat) (envs : List SubmitEnv)
    (overlaySems : List VkSemaphore) (prevDone : VkSemaphore) (images : List Recorded) :
    Withholds l (l.submitAll appWaits i envs overlaySems prevDone images).1 := by
  induction images generalizing l i envs overlaySems prevDone with
  | nil => exact .refl l
  | cons r rest ih =>
    have hone := withholds_submitting (l := l) (if i = 0 then appWaits else [prevDone]) r
      (envs.headD {})
    rw [submitAll_cons]
    simp only
    split
    · exact (hone.trans (withholds_setFenceInFlight r true)).trans (ih _ _ _ _)
    · simp only
      split
      · exact hone.trans withholds_markOverlayFailed
      · exact hone

/-! ## The frame -/

theorem forward_calls (env : PresentEnv) (info : Option PresentInfo) (hcan : l.CanPresent) :
    (l.forward env info).1.calls = l.calls ++ [.queuePresent info] := by
  obtain ⟨dd, hdd, hpresent⟩ := hcan
  simp only [forward, hdd, hpresent, if_true, call]

/-- Where the first phase leads to no submit, the present goes on as it came. -/
theorem overlayBlock_idle {env : PresentEnv} (info : PresentInfo) (hcan : l.CanPresent)
    (hidle : ∀ r ∈ env.records, r.Idle) :
    (l.overlayBlock env info).1.calls = l.calls ++ [.queuePresent (some info)] := by
  have hphase := (withholds_recordAll (l := l) env.records [] info.swapchains).canPresent hcan
  obtain ⟨hcalls, himages⟩ := recordAll_idle (l := l) hidle [] info.swapchains
  unfold overlayBlock
  split
  · exact forward_calls env _ hcan.markOverlayFailed
  split
  · rename_i l' hphases
    rw [hphases] at hphase hcalls
    rw [forward_calls env _ hphase.markOverlayFailed, ← hcalls]
    rfl
  · rename_i l' hphases
    rw [hphases] at hphase hcalls
    rw [forward_calls env _ hphase, ← hcalls]
  · rename_i l' hphases
    rw [hphases] at hphase hcalls
    rw [forward_calls env _ hphase, ← hcalls]
  · rename_i l' images hnonempty hphases
    rw [hphases] at himages
    exact absurd (himages images rfl) (by simpa using hnonempty)

/-- An info that differs from another in its wait semaphores only. -/
def SameBesidesWaits (info info' : Option PresentInfo) : Prop :=
  info' = info ∨ ∃ i sems, info = some i ∧ info' = some { i with waitSemaphores := sems }

theorem forward_presents (env : PresentEnv) (info : Option PresentInfo) (hcan : l.CanPresent) :
    presents (l.forward env info).1.calls = presents l.calls ++ [info] := by
  rw [forward_calls env info hcan, presents_append]
  rfl

/-- The info goes down as it came after operations that present nothing. -/
theorem presents_withheld (h : Withholds l l') (env : PresentEnv) (info : PresentInfo)
    (hcan : l.CanPresent) :
    ∃ info', SameBesidesWaits (some info) info' ∧
      presents (l'.forward env (some info)).1.calls = presents l.calls ++ [info'] := by
  refine ⟨some info, .inl rfl, ?_⟩
  rw [forward_presents env _ (h.canPresent hcan), h.presents]

theorem overlayBlock_presents (env : PresentEnv) (info : PresentInfo) (hcan : l.CanPresent) :
    ∃ info', SameBesidesWaits (some info) info' ∧
      presents (l.overlayBlock env info).1.calls = presents l.calls ++ [info'] := by
  have hphase := withholds_recordAll (l := l) env.records [] info.swapchains
  unfold overlayBlock
  split
  · exact presents_withheld withholds_markOverlayFailed env info hcan
  split
  · rename_i l' hphases
    rw [hphases] at hphase
    exact presents_withheld (hphase.trans withholds_markOverlayFailed) env info hcan
  · rename_i l' hphases
    rw [hphases] at hphase
    exact presents_withheld hphase env info hcan
  · rename_i l' hphases
    rw [hphases] at hphase
    exact presents_withheld hphase env info hcan
  · rename_i l' images _ hphases
    rw [hphases] at hphase
    have hsubmits := hphase.trans
      (withholds_submitAll info.waitSemaphores 0 env.submits [] 0 images)
    split
    · exact presents_withheld (hphase.trans withholds_markOverlayFailed) env info hcan
    split
    · rename_i l'' hsubmit
      rw [hsubmit] at hsubmits
      exact presents_withheld hsubmits env info hcan
    · rename_i l'' overlaySems hsubmit
      rw [hsubmit] at hsubmits
      refine ⟨some { info with waitSemaphores := overlaySems },
        .inr ⟨info, overlaySems, rfl, rfl⟩, ?_⟩
      rw [call, presents_append, hsubmits.presents]
      rfl

/-- The calls of the hook. -/
def hookCalls (env : PresentEnv) (queue : VkQueue) (info : Option PresentInfo) (l : Layer) :
    List VkCall :=
  (queuePresentKHR env queue info { l with calls := [] }).1.calls

/-- On a device with a down-chain present, the hook presents once, with the
    application's info or with that info on other semaphores; and when the
    process is idle in every recording, that is all it does, with the info as
    it came. -/
theorem present_once (env : PresentEnv) (queue : VkQueue) (info : Option PresentInfo) (l : Layer)
    (hcan : l.CanPresent) :
    (∃ info', SameBesidesWaits info info' ∧ presents (hookCalls env queue info l) = [info']) ∧
      ((∀ r ∈ env.records, r.Idle) → hookCalls env queue info l = [.queuePresent info]) := by
  have hcan₀ : CanPresent { l with calls := [] } := hcan
  have hpassed : hookCalls env queue info l = ({ l with calls := [] }.forward env info).1.calls →
      hookCalls env queue info l = [.queuePresent info] := fun h =>
    h.trans (forward_calls env info hcan₀)
  have honce : hookCalls env queue info l = [.queuePresent info] →
      ∃ info', SameBesidesWaits info info' ∧ presents (hookCalls env queue info l) = [info'] := by
    intro h
    exact ⟨info, .inl rfl, by rw [h]; rfl⟩
  obtain ⟨dd, hdd, -⟩ := hcan
  cases info with
  | none =>
    have hnone := hpassed (by simp only [hookCalls, queuePresentKHR, hdd])
    exact ⟨honce hnone, fun _ => hnone⟩
  | some info =>
    have hsome : hookCalls env queue (some info) l = _ :=
      congrArg (fun r : Layer × VkResult => r.1.calls)
        (queuePresentKHR_some env queue info (l := { l with calls := [] }) hdd)
    by_cases hpasses : passes queue info { l with calls := [] } dd = true
    · rw [if_pos hpasses] at hsome
      exact ⟨honce (hpassed hsome), fun _ => hpassed hsome⟩
    · rw [if_neg hpasses] at hsome
      rw [hsome]
      obtain ⟨info', hsame, hpresents⟩ := overlayBlock_presents env info hcan₀
      exact ⟨⟨info', hsame, hpresents⟩, fun hidle => overlayBlock_idle info hcan₀ hidle⟩

/-- A game with two windows, whose snapshot is not in voice for the one and
    which is disabled before the other. -/
theorem present_once_idle :
    hookCalls
      { records := [{ client := { latest := some {} } }, { client := { disabled := true } }] }
        0 (some twoWindowsPresent) twoWindows =
      [.queuePresent (some twoWindowsPresent)] :=
  (present_once _ 0 (some twoWindowsPresent) twoWindows ⟨_, rfl, rfl⟩).2 (by decide)

end Layer

end Choir
