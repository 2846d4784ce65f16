-- SUMMARY: When every semaphore of a presented frame is waited for exactly as often as it is handed over.
import ChoirOverlay.Layer.Swapchain
import Mathlib.Data.List.Nodup
import Mathlib.Data.List.Perm.Basic
import Mathlib.Tactic.ByContra
import Mathlib.Tactic.SplitIfs

/-!
# Semaphores of a frame

The first submit takes over the application's semaphores and each submit signals
one that the next takes over. The present then waits for all that were signalled,
also for those a submit has waited for already.
-/

namespace Choir

/-! ## Traffic -/

/-- The semaphores a call waits for, when it is one that waits. -/
def VkCall.waited : VkCall → Option (List VkSemaphore)
  | .queueSubmit waits _ _ _ true => some waits
  | .queuePresent (some info) => some info.waitSemaphores
  | _ => none

/-- The semaphore a call signals. -/
def VkCall.signalled : VkCall → Option VkSemaphore
  | .queueSubmit _ _ signal _ true => some signal
  | _ => none

def waits (calls : List VkCall) : List (List VkSemaphore) := calls.filterMap VkCall.waited

def signals (calls : List VkCall) : List VkSemaphore := calls.filterMap VkCall.signalled

@[simp] theorem waits_append (calls calls' : List VkCall) :
    waits (calls ++ calls') = waits calls ++ waits calls' := List.filterMap_append ..

@[simp] theorem signals_append (calls calls' : List VkCall) :
    signals (calls ++ calls') = signals calls ++ signals calls' := List.filterMap_append ..

/-- The first call that waits takes the application's semaphores, and every
    semaphore is waited for once for each time it is handed over, by the
    application or by a submit. -/
structure Balanced (appWaits : List VkSemaphore) (calls : List VkCall) : Prop where
  first : (waits calls).headD [] = appWaits
  once : ∀ sem, (waits calls).flatten.count sem =
    appWaits.count sem + (signals calls).count sem

/-- What submits that signal these semaphores wait for, each for the one before. -/
def chainWaits (first : List VkSemaphore) : List VkSemaphore → List (List VkSemaphore)
  | [] => []
  | sem :: sems => first :: chainWaits [sem] sems

theorem length_chainWaits (first : List VkSemaphore) (sem : VkSemaphore)
    (sems : List VkSemaphore) :
    (chainWaits first (sem :: sems)).flatten.length = first.length + sems.length := by
  induction sems generalizing first sem with
  | nil => simp [chainWaits]
  | cons sem' sems ih =>
    rw [chainWaits, List.flatten_cons, List.length_append, ih, List.length_singleton,
      List.length_cons, Nat.add_comm 1]

/-- Submits that signal `sems`, and a present that waits for all of these, or
    for the application's when there is none: the frame is balanced exactly when
    there are less than two. -/
theorem balanced_chain (sems : List VkSemaphore) {appWaits : List VkSemaphore} {calls : List VkCall}
    (hwaits : waits calls = chainWaits appWaits sems ++ [if sems = [] then appWaits else sems])
    (hsignals : signals calls = sems) : Balanced appWaits calls ↔ sems.length < 2 := by
  match sems with
  | [] =>
    refine iff_of_true ⟨by rw [hwaits]; rfl, fun sem => ?_⟩ (by simp)
    simp [hwaits, hsignals, chainWaits]
  | [sem] =>
    refine iff_of_true ⟨by rw [hwaits]; rfl, fun other => ?_⟩ (by simp)
    simp [hwaits, hsignals, chainWaits]
  | sem :: sem' :: rest =>
    refine iff_of_false (fun h => ?_) (by simp)
    -- There are more waits than semaphores to wait for.
    have hperm : (waits calls).flatten.Perm (appWaits ++ signals calls) :=
      List.perm_iff_count.mpr fun other => by rw [h.once, List.count_append]
    have hlen := hperm.length_eq
    rw [hwaits, hsignals, List.flatten_append, List.length_append, length_chainWaits] at hlen
    simp at hlen

/-! ## Recording -/

def VkCall.Quiet (c : VkCall) : Prop := c.waited = none ∧ c.signalled = none

theorem traffic_quiet {calls : List VkCall} (h : ∀ c ∈ calls, c.Quiet) :
    waits calls = [] ∧ signals calls = [] :=
  ⟨List.filterMap_eq_nil_iff.mpr fun c hc => (h c hc).1,
    List.filterMap_eq_nil_iff.mpr fun c hc => (h c hc).2⟩

theorem SwapchainState.recordPass_quiet (env : RecordEnv) (img : ImageState)
    (s : SwapchainState) : ∀ c ∈ (s.recordPass env img).calls, c.Quiet := by
  unfold recordPass
  simp only
  split_ifs <;> simp [VkCall.Quiet, VkCall.waited, VkCall.signalled]

theorem SwapchainState.recordOne_quiet (env : RecordEnv) (imageIndex : Nat)
    (s : SwapchainState) : ∀ c ∈ (s.recordOne env imageIndex).calls, c.Quiet := by
  unfold recordOne
  split
  · simp
  split
  · simp
  split
  · simp
  split
  · simp
  split
  · simp
  split
  · simp
  simp only
  split
  · simp
  split
  · simp
  · exact recordPass_quiet env _ _

/-- The image that is drawn on. -/
def RecordResult.image? : RecordResult → Option ImageState
  | .drawn img => some img
  | .skipped | .failed | .threw => none

/-- The loop goes on to the next swapchain. -/
def RecordResult.goesOn : RecordResult → Bool
  | .drawn _ | .skipped => true
  | .failed | .threw => false

/-- The submit is made and succeeds. -/
def SubmitEnv.goesOut (env : SubmitEnv) : Bool := env.reset && env.submitted

namespace Layer

variable {l : Layer}

/-- What `record_one` makes of each swapchain. -/
def outcomes (l : Layer) : List RecordEnv → List (VkSwapchain × Nat) → List RecordResult
  | _, [] => []
  | envs, (swapchain, imageIndex) :: rest =>
    (match l.swapchains.lookup swapchain with
      | none => .failed
      | some s => (s.recordOne (envs.headD {}) imageIndex).result) :: l.outcomes envs.tail rest

/-- The down-chain present is there. -/
def CanPresent (l : Layer) : Prop := ∃ dd, l.dd = some dd ∧ dd.canPresent = true

theorem CanPresent.markOverlayFailed (h : l.CanPresent) : l.markOverlayFailed.CanPresent := by
  obtain ⟨dd, hdd, hcan⟩ := h
  exact ⟨{ dd with overlayFailed := true }, by simp [Layer.markOverlayFailed, hdd], hcan⟩

/-- The layer after one recording: the map, the calls and the latch. -/
def recording (r : Recording) (swapchain : VkSwapchain) (l : Layer) : Layer :=
  let l := { l with
    swapchains := l.swapchains.insert swapchain r.state
    calls := l.calls ++ r.calls }
  if r.latched then l.markOverlayFailed else l

theorem recording_calls (r : Recording) (swapchain : VkSwapchain) :
    (l.recording r swapchain).calls = l.calls ++ r.calls := by
  unfold recording
  simp only
  split <;> rfl

theorem CanPresent.recording (h : l.CanPresent) (r : Recording) (swapchain : VkSwapchain) :
    (l.recording r swapchain).CanPresent := by
  have hinsert : CanPresent { l with
      swapchains := l.swapchains.insert swapchain r.state
      calls := l.calls ++ r.calls } := h
  unfold Layer.recording
  simp only
  split
  · exact hinsert.markOverlayFailed
  · exact hinsert

theorem recording_lookup (r : Recording) {swapchain other : VkSwapchain} (ho : other ≠ swapchain) :
    (l.recording r swapchain).swapchains.lookup other = l.swapchains.lookup other := by
  have hinsert : (l.swapchains.insert swapchain r.state).lookup other =
      l.swapchains.lookup other := AList.lookup_insert_ne ho
  unfold recording
  simp only
  split <;> exact hinsert

/-- One round of the first phase. -/
theorem recordAll_cons {swapchain : VkSwapchain} (imageIndex : Nat) {s : SwapchainState}
    (envs : List RecordEnv) (recorded : List Recorded) (rest : List (VkSwapchain × Nat))
    (hs : l.swapchains.lookup swapchain = some s) :
    l.recordAll envs recorded ((swapchain, imageIndex) :: rest) =
      match (s.recordOne (envs.headD {}) imageIndex).result with
      | .failed => (l.recording (s.recordOne (envs.headD {}) imageIndex) swapchain, .failed)
      | .threw => (l.recording (s.recordOne (envs.headD {}) imageIndex) swapchain, .threw)
      | .skipped =>
        (l.recording (s.recordOne (envs.headD {}) imageIndex) swapchain).recordAll envs.tail
          recorded rest
      | .drawn img =>
        (l.recording (s.recordOne (envs.headD {}) imageIndex) swapchain).recordAll envs.tail
          (recorded ++ [⟨swapchain, imageIndex, img⟩]) rest := by
  simp only [recordAll, hs]
  rfl

/-- The first phase: no semaphore moves, and it ends with the images drawn
    exactly when it reaches the end. `base` is the layer before the phase. -/
theorem recordAll_spec (base : Layer) (envs : List RecordEnv) (recorded : List Recorded)
    {targets : List (VkSwapchain × Nat)} (hnodup : (targets.map Prod.fst).Nodup)
    (hsame : ∀ swapchain ∈ targets.map Prod.fst,
      l.swapchains.lookup swapchain = base.swapchains.lookup swapchain) :
    ∃ l' batch, l.recordAll envs recorded targets = (l', batch) ∧
      waits l'.calls = waits l.calls ∧ signals l'.calls = signals l.calls ∧
      (l.CanPresent → l'.CanPresent) ∧
      if (base.outcomes envs targets).all RecordResult.goesOn then
        ∃ images, batch = .recorded (recorded ++ images) ∧
          images.map Recorded.img = (base.outcomes envs targets).filterMap RecordResult.image?
      else batch = .failed ∨ batch = .threw := by
  induction targets generalizing l envs recorded with
  | nil => exact ⟨l, _, rfl, rfl, rfl, id, [], by simp, rfl⟩
  | cons target rest ih =>
    obtain ⟨swapchain, imageIndex⟩ := target
    obtain ⟨hnot, hnodup⟩ := List.nodup_cons.mp hnodup
    have hhere := hsame swapchain List.mem_cons_self
    rw [outcomes, ← hhere]
    cases hs : l.swapchains.lookup swapchain with
    | none =>
      refine ⟨l, .failed, by rw [recordAll, hs], rfl, rfl, id, ?_⟩
      simp [RecordResult.goesOn]
    | some s =>
      have hquiet := traffic_quiet (s.recordOne_quiet (envs.headD {}) imageIndex)
      have hcalls := recording_calls (l := l) (s.recordOne (envs.headD {}) imageIndex) swapchain
      have hcan : l.CanPresent →
          (l.recording (s.recordOne (envs.headD {}) imageIndex) swapchain).CanPresent :=
        fun h => h.recording _ swapchain
      have hsame' : ∀ other ∈ rest.map Prod.fst,
          (l.recording (s.recordOne (envs.headD {}) imageIndex) swapchain).swapchains.lookup other =
            base.swapchains.lookup other := by
        intro other ho
        have hne : other ≠ swapchain := fun h => hnot (h ▸ ho)
        rw [recording_lookup _ hne, hsame other (List.mem_cons_of_mem _ ho)]
      rw [recordAll_cons imageIndex envs recorded rest hs]
      generalize l.recording (s.recordOne (envs.headD {}) imageIndex) swapchain = l' at *
      have hwaits : waits l'.calls = waits l.calls := by
        rw [hcalls, waits_append, hquiet.1, List.append_nil]
      have hsignals : signals l'.calls = signals l.calls := by
        rw [hcalls, signals_append, hquiet.2, List.append_nil]
      simp only
      cases (s.recordOne (envs.headD {}) imageIndex).result with
      | failed => exact ⟨l', .failed, rfl, hwaits, hsignals, hcan, by simp [RecordResult.goesOn]⟩
      | threw => exact ⟨l', .threw, rfl, hwaits, hsignals, hcan, by simp [RecordResult.goesOn]⟩
      | skipped =>
        obtain ⟨l'', batch, hbatch, hw, hsg, hc, hend⟩ := ih envs.tail recorded hnodup hsame'
        refine ⟨l'', batch, hbatch, hw.trans hwaits, hsg.trans hsignals, fun h => hc (hcan h), ?_⟩
        simpa only [List.all_cons, RecordResult.goesOn, Bool.true_and, List.filterMap_cons,
          RecordResult.image?] using hend
      | drawn img =>
        obtain ⟨l'', batch, hbatch, hw, hsg, hc, hend⟩ :=
          ih envs.tail (recorded ++ [⟨swapchain, imageIndex, img⟩]) hnodup hsame'
        refine ⟨l'', batch, hbatch, hw.trans hwaits, hsg.trans hsignals, fun h => hc (hcan h), ?_⟩
        simp only [List.all_cons, RecordResult.goesOn, Bool.true_and]
        split_ifs at hend ⊢ with hall
        · obtain ⟨images, hrec, himages⟩ := hend
          refine ⟨⟨swapchain, imageIndex, img⟩ :: images, ?_, ?_⟩
          · rw [hrec, List.append_assoc, List.singleton_append]
          · simp [RecordResult.image?, himages]
        · exact hend

/-! ## Submitting -/

@[simp] theorem setFenceInFlight_calls (r : Recorded) (b : Bool) (l : Layer) :
    (l.setFenceInFlight r b).calls = l.calls := by
  unfold setFenceInFlight
  split <;> rfl

theorem CanPresent.setFenceInFlight (h : l.CanPresent) (r : Recorded) (b : Bool) :
    (l.setFenceInFlight r b).CanPresent := by
  unfold Layer.setFenceInFlight
  split <;> exact h

/-- The semaphores of the submits that go out: up to the first that fails. -/
def submitted : List SubmitEnv → List ImageState → List VkSemaphore
  | _, [] => []
  | envs, img :: rest =>
    if (envs.headD {}).goesOut then
      img.overlayDone :: submitted envs.tail rest
    else []

/-- The layer after the calls of one submit, which end at the first that fails. -/
def submitting (first : List VkSemaphore) (r : Recorded) (env : SubmitEnv) (l : Layer) : Layer :=
  let l := (l.setFenceInFlight r false).call (.resetFences r.img.fence env.reset)
  if env.reset then
    l.call (.queueSubmit first r.img.cmd r.img.overlayDone r.img.fence env.submitted)
  else l

/-- A submit moves its semaphores when it goes out. -/
theorem submitting_traffic (first : List VkSemaphore) (r : Recorded) (env : SubmitEnv) :
    waits (l.submitting first r env).calls =
        waits l.calls ++ (if env.goesOut then [first] else []) ∧
      signals (l.submitting first r env).calls =
        signals l.calls ++ (if env.goesOut then [r.img.overlayDone] else []) := by
  obtain ⟨reset, submitted⟩ := env
  cases reset <;> cases submitted <;>
    simp [submitting, SubmitEnv.goesOut, call, waits, signals, List.filterMap_cons, VkCall.waited,
      VkCall.signalled]

theorem CanPresent.submitting (h : l.CanPresent) (first : List VkSemaphore) (r : Recorded)
    (env : SubmitEnv) : (l.submitting first r env).CanPresent := by
  unfold Layer.submitting
  simp only
  split <;> exact h.setFenceInFlight r false

/-- One round of the second phase. -/
theorem submitAll_cons (appWaits : List VkSemaphore) (i : Nat) (envs : List SubmitEnv)
    (overlaySems : List VkSemaphore) (prevDone : VkSemaphore) (r : Recorded)
    (rest : List Recorded) (l : Layer) :
    l.submitAll appWaits i envs overlaySems prevDone (r :: rest) =
      let env := envs.headD {}
      let l' := l.submitting (if i = 0 then appWaits else [prevDone]) r env
      if env.goesOut then
        (l'.setFenceInFlight r true).submitAll appWaits (i + 1) envs.tail
          (overlaySems ++ [r.img.overlayDone]) r.img.overlayDone rest
      else
        (if env.reset = true ∨ i = 0 then l'.markOverlayFailed else l',
          if i = 0 then none else some overlaySems) := by
  rw [submitAll]
  generalize envs.headD {} = env
  obtain ⟨reset, submitted⟩ := env
  cases reset <;> cases submitted <;> by_cases hi : i = 0 <;>
    simp [SubmitEnv.goesOut, submitting, hi]

/-- The second phase: the submits wait one for another, and what was submitted is
    what the present waits for. -/
theorem submitAll_spec (appWaits : List VkSemaphore) (i : Nat) (envs : List SubmitEnv)
    (overlaySems : List VkSemaphore) (prevDone : VkSemaphore) (images : List Recorded)
    (l : Layer) :
    ∃ l', l.submitAll appWaits i envs overlaySems prevDone images =
        (l', if i = 0 ∧ images ≠ [] ∧ submitted envs (images.map Recorded.img) = [] then none
          else some (overlaySems ++ submitted envs (images.map Recorded.img))) ∧
      waits l'.calls = waits l.calls ++ chainWaits (if i = 0 then appWaits else [prevDone])
        (submitted envs (images.map Recorded.img)) ∧
      signals l'.calls = signals l.calls ++ submitted envs (images.map Recorded.img) ∧
      (l.CanPresent → l'.CanPresent) := by
  induction images generalizing l i envs overlaySems prevDone with
  | nil => refine ⟨l, ?_, ?_, ?_, id⟩ <;> simp [submitAll, submitted, chainWaits]
  | cons r rest ih =>
    obtain ⟨hwaits, hsignals⟩ := submitting_traffic (l := l)
      (if i = 0 then appWaits else [prevDone]) r (envs.headD {})
    have hcan : l.CanPresent → (l.submitting (if i = 0 then appWaits else [prevDone]) r
        (envs.headD {})).CanPresent := fun h => h.submitting _ r _
    rw [submitAll_cons, List.map_cons, submitted]
    simp only
    generalize l.submitting (if i = 0 then appWaits else [prevDone]) r (envs.headD {}) = l₁ at *
    by_cases hok : (envs.headD {}).goesOut = true
    · rw [if_pos hok] at hwaits hsignals ⊢
      rw [if_pos hok]
      obtain ⟨l', hl', hw, hsg, hc⟩ := ih (i + 1) envs.tail (overlaySems ++ [r.img.overlayDone])
        r.img.overlayDone (l₁.setFenceInFlight r true)
      rw [setFenceInFlight_calls] at hw hsg
      refine ⟨l', ?_, ?_, ?_, fun h => hc ((hcan h).setFenceInFlight r true)⟩
      · rw [hl', if_neg (by simp), if_neg (by simp), List.append_assoc, List.singleton_append]
      · rw [if_neg (Nat.succ_ne_zero i)] at hw
        rw [hw, hwaits, chainWaits, List.append_assoc, List.singleton_append]
      · rw [hsg, hsignals, List.append_assoc, List.singleton_append]
    · rw [if_neg hok, List.append_nil] at hwaits hsignals
      rw [if_neg hok, if_neg hok]
      refine ⟨_, Prod.ext rfl ?_, ?_, ?_, fun h => ?_⟩
      · by_cases hi : i = 0 <;> simp [hi]
      · rw [chainWaits, List.append_nil]
        split <;> exact hwaits
      · rw [List.append_nil]
        split <;> exact hsignals
      · split
        · exact (hcan h).markOverlayFailed
        · exact hcan h

/-! ## The frame -/

/-- The images the first phase draws on. -/
def drawn (env : PresentEnv) (info : PresentInfo) (l : Layer) : List ImageState :=
  (l.outcomes env.records info.swapchains).filterMap RecordResult.image?

/-- The second phase is reached. -/
def reachesSubmits (env : PresentEnv) (info : PresentInfo) (l : Layer) : Bool :=
  !env.entryThrows && (l.outcomes env.records info.swapchains).all RecordResult.goesOn &&
    !env.stagesThrow

/-- A present with these wait semaphores goes down the chain. -/
theorem forward_traffic (env : PresentEnv) (info : PresentInfo) (h : l.CanPresent) :
    waits (l.forward env (some info)).1.calls = waits l.calls ++ [info.waitSemaphores] ∧
      signals (l.forward env (some info)).1.calls = signals l.calls := by
  obtain ⟨dd, hdd, hcan⟩ := h
  simp only [forward, hdd, hcan, if_true, call, waits_append, signals_append]
  exact ⟨rfl, List.append_nil _⟩

/-- The present alone, where nothing was submitted before it. -/
theorem forward_unchained {l' : Layer} (env : PresentEnv) (info : PresentInfo)
    (hcan : l'.CanPresent) (hw : waits l'.calls = waits l.calls)
    (hs : signals l'.calls = signals l.calls) :
    waits (l'.forward env (some info)).1.calls = waits l.calls ++
        (chainWaits info.waitSemaphores [] ++ [info.waitSemaphores]) ∧
      signals (l'.forward env (some info)).1.calls = signals l.calls ++ [] := by
  obtain ⟨hfw, hfs⟩ := forward_traffic env info hcan
  rw [hfw, hfs, hw, hs, List.append_nil]
  exact ⟨rfl, rfl⟩

/-- The overlay block: the semaphores its submits signal, and the waits of these
    and of the present. -/
theorem overlayBlock_traffic (env : PresentEnv) (info : PresentInfo)
    (hdistinct : (info.swapchains.map Prod.fst).Nodup) (hcan : l.CanPresent) :
    let sems := if l.reachesSubmits env info then submitted env.submits (l.drawn env info) else []
    waits (l.overlayBlock env info).1.calls = waits l.calls ++
        (chainWaits info.waitSemaphores sems ++ [if sems = [] then info.waitSemaphores else sems]) ∧
      signals (l.overlayBlock env info).1.calls = signals l.calls ++ sems := by
  intro sems
  unfold overlayBlock
  by_cases hentry : env.entryThrows = true
  · have hsems : sems = [] := if_neg (by simp [reachesSubmits, hentry])
    rw [if_pos hentry, hsems]
    exact forward_unchained env info hcan.markOverlayFailed rfl rfl
  rw [if_neg hentry]
  obtain ⟨l₁, batch, hrecord, hw₁, hs₁, hcan₁, hbatch⟩ :=
    recordAll_spec l env.records [] hdistinct (fun _ _ => rfl) (l := l)
  have hcan₁ := hcan₁ hcan
  rw [hrecord]
  by_cases hall : (l.outcomes env.records info.swapchains).all RecordResult.goesOn = true
  · rw [if_pos hall] at hbatch
    obtain ⟨images, rfl, himages⟩ := hbatch
    rw [List.nil_append]
    change images.map Recorded.img = l.drawn env info at himages
    cases images with
    | nil =>
      have hsems : sems = [] := by
        simp only [sems, ← himages, List.map_nil, submitted, ite_self]
      rw [hsems]
      exact forward_unchained env info hcan₁ hw₁ hs₁
    | cons r rest =>
      by_cases hstages : env.stagesThrow = true
      · have hsems : sems = [] := if_neg (by simp [reachesSubmits, hstages])
        simp only [if_pos hstages, hsems]
        exact forward_unchained env info hcan₁.markOverlayFailed hw₁ hs₁
      · have hsems : sems = submitted env.submits ((r :: rest).map Recorded.img) := by
          simp only [sems, reachesSubmits, himages, hall]
          simp [hentry, hstages]
        obtain ⟨l₂, hsubmit, hw₂, hs₂, hcan₂⟩ :=
          submitAll_spec info.waitSemaphores 0 env.submits [] 0 (r :: rest) l₁
        rw [← hsems] at hsubmit hw₂ hs₂
        simp only [if_neg hstages, hsubmit, List.nil_append]
        rw [hw₁, if_pos rfl] at hw₂
        rw [hs₁] at hs₂
        by_cases hnil : sems = []
        · simp only [hnil, ne_eq, reduceCtorEq, not_false_eq_true, and_self, if_true]
          rw [hnil] at hw₂ hs₂
          exact forward_unchained env info (hcan₂ hcan₁) (hw₂.trans (List.append_nil _))
            (hs₂.trans (List.append_nil _))
        · simp only [hnil, and_false, if_false, call, waits_append, signals_append, hw₂, hs₂,
            List.append_assoc]
          exact ⟨rfl, congrArg _ (List.append_nil sems)⟩
  · have hsems : sems = [] := if_neg (by simp [reachesSubmits, hall])
    rw [if_neg hall] at hbatch
    rw [hsems]
    rcases hbatch with rfl | rfl
    · exact forward_unchained env info hcan₁ hw₁ hs₁
    · exact forward_unchained env info hcan₁.markOverlayFailed hw₁ hs₁

theorem outcomes_calls (calls : List VkCall) (envs : List RecordEnv)
    (targets : List (VkSwapchain × Nat)) :
    outcomes { l with calls } envs targets = l.outcomes envs targets := by
  induction targets generalizing envs with
  | nil => rfl
  | cons target rest ih => rw [outcomes, outcomes, ih]

theorem drawn_calls (calls : List VkCall) (env : PresentEnv) (info : PresentInfo) :
    drawn env info { l with calls } = l.drawn env info := by
  rw [drawn, drawn, outcomes_calls]

theorem reachesSubmits_calls (calls : List VkCall) (env : PresentEnv) (info : PresentInfo) :
    reachesSubmits env info { l with calls } = l.reachesSubmits env info := by
  rw [reachesSubmits, reachesSubmits, outcomes_calls]

/-- The calls of one present. -/
def frame (env : PresentEnv) (queue : VkQueue) (info : PresentInfo) (l : Layer) : List VkCall :=
  (queuePresentKHR env queue (some info) { l with calls := [] }).1.calls

/-- The overlay is drawn on this queue. -/
def Draws (queue : VkQueue) (info : PresentInfo) (l : Layer) : Prop :=
  ∃ dd, l.dd = some dd ∧ l.passes queue info dd = false

/-- The overlay is drawn on two images, and both of their submits go out. -/
structure SubmitsTwice (env : PresentEnv) (queue : VkQueue) (info : PresentInfo) (l : Layer) :
    Prop where
  draws : l.Draws queue info
  reaches : l.reachesSubmits env info = true
  drawn : 2 ≤ (l.drawn env info).length
  first : (env.submits.headD {}).goesOut = true
  second : (env.submits.tail.headD {}).goesOut = true

theorem two_le_submitted_iff (envs : List SubmitEnv) (images : List ImageState) :
    2 ≤ (submitted envs images).length ↔ 2 ≤ images.length ∧
      (envs.headD {}).goesOut = true ∧ (envs.tail.headD {}).goesOut = true := by
  match images with
  | [] => simp [submitted]
  | [img] =>
    simp only [submitted]
    split_ifs <;> simp
  | img :: img' :: rest =>
    simp only [submitted]
    split_ifs <;> simp_all

theorem Draws.canPresent {queue : VkQueue} {info : PresentInfo} (h : l.Draws queue info) :
    l.CanPresent := by
  obtain ⟨dd, hdd, hpasses⟩ := h
  refine ⟨dd, hdd, ?_⟩
  simp only [passes, Bool.or_eq_false_iff, Bool.not_eq_false'] at hpasses
  exact hpasses.1.1.1.1.1.1

theorem queuePresentKHR_some (env : PresentEnv) (queue : VkQueue) (info : PresentInfo)
    {l : Layer} {dd : DeviceData} (hdd : l.dd = some dd) :
    queuePresentKHR env queue (some info) l =
      if l.passes queue info dd then l.forward env (some info) else l.overlayBlock env info := by
  simp only [queuePresentKHR, hdd]

theorem frame_draws {env : PresentEnv} {queue : VkQueue} {info : PresentInfo}
    (h : l.Draws queue info) :
    frame env queue info l = ({ l with calls := [] }.overlayBlock env info).1.calls := by
  obtain ⟨dd, hdd, hpasses⟩ := h
  have hpasses' : passes queue info { l with calls := [] } dd = false := hpasses
  rw [frame, queuePresentKHR_some env queue info (l := { l with calls := [] }) hdd, hpasses',
    if_neg Bool.false_ne_true]

theorem frame_passes {env : PresentEnv} {queue : VkQueue} {info : PresentInfo}
    (h : ¬ l.Draws queue info) :
    frame env queue info l = ({ l with calls := [] }.forward env (some info)).1.calls := by
  obtain hdd | ⟨dd, hdd⟩ := l.dd.eq_none_or_eq_some
  · simp only [frame, queuePresentKHR, hdd]
  · have hpasses : passes queue info { l with calls := [] } dd = true :=
      (Bool.eq_false_or_eq_true _).resolve_right fun hfalse => h ⟨dd, hdd, hfalse⟩
    rw [frame, queuePresentKHR_some env queue info (l := { l with calls := [] }) hdd,
      if_pos hpasses]

/-- A frame is balanced exactly when the present can go down the chain (or has
    nothing to wait for) and the frame does not submit twice. -/
theorem frame_balanced_iff (env : PresentEnv) (queue : VkQueue) (info : PresentInfo) (l : Layer)
    (hdistinct : (info.swapchains.map Prod.fst).Nodup) :
    Balanced info.waitSemaphores (frame env queue info l) ↔
      (l.CanPresent ∨ info.waitSemaphores = []) ∧ ¬ l.SubmitsTwice env queue info := by
  by_cases hdraws : l.Draws queue info
  · have hcan := hdraws.canPresent
    obtain ⟨hwaits, hsignals⟩ :=
      overlayBlock_traffic (l := { l with calls := [] }) env info hdistinct hcan
    rw [frame_draws hdraws, balanced_chain _ hwaits hsignals, ← Nat.not_le]
    refine (not_congr ?_).trans (and_iff_right (Or.inl hcan)).symm
    rw [reachesSubmits_calls, drawn_calls]
    by_cases hreaches : l.reachesSubmits env info = true
    · rw [if_pos hreaches, two_le_submitted_iff]
      exact ⟨fun h => ⟨hdraws, hreaches, h.1, h.2.1, h.2.2⟩,
        fun h => ⟨h.drawn, h.first, h.second⟩⟩
    · rw [if_neg hreaches]
      exact iff_of_false (by simp) fun h => hreaches h.reaches
  · have htwice : ¬ l.SubmitsTwice env queue info := fun h => hdraws h.draws
    rw [frame_passes hdraws, and_iff_left htwice]
    by_cases hcan : l.CanPresent
    · obtain ⟨hwaits, hsignals⟩ := forward_traffic (l := { l with calls := [] }) env info hcan
      exact iff_of_true ((balanced_chain [] hwaits hsignals).mpr (by simp)) (.inl hcan)
    · -- Nothing goes down the chain, so nothing waits for the application.
      have hcalls : ({ l with calls := [] }.forward env (some info)).1.calls = [] := by
        simp only [forward]
        split
        · rfl
        · rename_i dd hdd
          rw [if_neg fun h => hcan ⟨dd, hdd, h⟩]
      rw [hcalls]
      refine ⟨fun h => .inr h.first.symm, fun h => ?_⟩
      have hwaits := h.resolve_left hcan
      exact ⟨hwaits.symm, fun sem => by rw [hwaits]; rfl⟩

/-- Two windows of a game, each with one image to draw on. -/
def twoWindows : Layer :=
  let window (n : Nat) : SwapchainState :=
    { images := [{ cmd := n, fence := n, overlayDone := n }]
      ok := true, imguiReady := true, imguiTried := true, avatars := true }
  { dd := some { graphicsQueueFamily := some 0, queueFamilies := [(0, 0)] }
    swapchains := ((∅ : AList fun _ : VkSwapchain => SwapchainState).insert 1 (window 1)).insert 2
      (window 2) }

def twoWindowsPresent : PresentInfo := { waitSemaphores := [7], swapchains := [(1, 0), (2, 0)] }

/-- Both are recorded in a voice session. -/
def bothRecords : List RecordEnv :=
  List.replicate 2 { client := { latest := some { inVoice := true } } }

/-- The submit for the second window fails. -/
theorem frame_balanced_midBatch :
    Balanced [7] (frame { records := bothRecords, submits := [{}, { submitted := false }] } 0
      twoWindowsPresent twoWindows) :=
  (frame_balanced_iff _ 0 twoWindowsPresent twoWindows (by decide)).mpr
    ⟨.inl ⟨_, rfl, rfl⟩, fun h => absurd h.second (by decide)⟩

/-- Both submits go out, and the second and the present wait for the first. -/
theorem frame_twoWindows_unbalanced :
    waits (frame { records := bothRecords } 0 twoWindowsPresent twoWindows) = [[7], [1], [1, 2]] ∧
      ¬ Balanced [7] (frame { records := bothRecords } 0 twoWindowsPresent twoWindows) := by
  have hwaits : waits (frame { records := bothRecords } 0 twoWindowsPresent twoWindows) =
      [[7], [1], [1, 2]] := by decide +kernel
  refine ⟨hwaits, fun h => ?_⟩
  have hsignals : signals (frame { records := bothRecords } 0 twoWindowsPresent twoWindows) =
      [1, 2] := by decide +kernel
  have honce := h.once 1
  rw [hwaits, hsignals] at honce
  exact absurd honce (by decide)

end Layer

end Choir
