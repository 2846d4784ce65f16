-- SUMMARY: What the freshness check tells of an install, and exactly when it never takes a half-finished one for complete.
import ChoirOverlay.Host.Installed

/-!
# The freshness check

`backends_up_to_date` compares the two libraries. Whether the wrapper and the
manifest are there too depends on where the calls before it stopped.
-/

namespace Choir

open Crash Crash.Proc

/-- The libraries of any AppImage. -/
abbrev AnyPayload := BackendPayload fun _ => True

variable {e : Environ} {dump2 : Json → Option Bytes} {fs : Files} {v : Installed}

/-! ## The check -/

theorem FileRead.bytes_some {r : FileRead} {content : Option Bytes} {bytes : Bytes}
    (h : r.bytes content = some bytes) : content ≠ none := by
  rintro rfl
  cases r <;> cases h

/-- What follows a read succeeds when it gave something. -/
theorem readFile_bind_true (r : FileRead) (content : Option Bytes)
    {k : Option Bytes → Proc Files Bool} (hk : k none = done false) :
    ((readFile r content).bind k fs).result = some true ↔
      ∃ bytes, r.bytes content = some bytes ∧ (k (some bytes) fs).result = some true := by
  have hdone (c : Option Bytes) : ((done c).bind k fs).result = some true ↔
      ∃ bytes, c = some bytes ∧ (k (some bytes) fs).result = some true := by
    rw [bind_of_some rfl]
    cases c with
    | none => simp [hk, done]
    | some bytes => simp
  cases r with
  | whole => exact hdone content
  | cut n => exact hdone _
  | fails => exact hdone none
  | dies => simp [readFile, FileRead.bytes, die, Proc.bind]

/-- A round of the check succeeds on two reads that give the same bytes. -/
theorem sameFile_true (readSrc readDst : FileRead) (src dst : Option Bytes) :
    (sameFile readSrc readDst src dst fs).result = some true ↔
      ∃ bytes, readSrc.bytes src = some bytes ∧ readDst.bytes dst = some bytes := by
  rw [sameFile, readFile_bind_true _ _ rfl]
  refine exists_congr fun bytes => and_congr_right fun _ => ?_
  rw [readFile_bind_true _ _ rfl]
  simp [done, eq_comm]

/-- The check succeeds when both rounds do. -/
theorem backendsUpToDate_true (env : FreshEnv) (src : AnyPayload) :
    (backendsUpToDate e env src fs).result = some true ↔
      (∃ bytes, env.layerSrc.bytes src.layerLib = some bytes ∧
        env.layerDst.bytes (installed e fs .layerLib) = some bytes) ∧
      ∃ bytes, env.glSrc.bytes src.glLib = some bytes ∧
        env.glDst.bytes (installed e fs .glLib) = some bytes := by
  rw [backendsUpToDate, andThen_true, sameFile_true, sameFile_true]
  rfl

/-! ## What it should tell -/

/-- The wrapper and the manifest are there and name the installed libraries. -/
structure Named (dump2 : Json → Option Bytes) (e : Environ) (v : Installed) : Prop where
  wrapper : v .wrapper = some (glWrapperScript (BackendFile.glLib.path e))
  manifest : ∃ text ∈ v .manifest, layerManifest dump2 (BackendFile.layerLib.path e) = some text

/-- Whatever AppImage it compares with: what the check takes for complete is. -/
def FreshSound (dump2 : Json → Option Bytes) (e : Environ) (fs : Files) : Prop :=
  ∀ (env : FreshEnv) (src : AnyPayload),
    (backendsUpToDate e env src fs).result = some true → Named dump2 e (installed e fs)

/-- Some AppImage has the libraries that are installed. -/
theorem freshSound_iff :
    FreshSound dump2 e fs ↔
      (installed e fs .layerLib ≠ none → installed e fs .glLib ≠ none →
        Named dump2 e (installed e fs)) := by
  constructor
  · intro h hlayer hgl
    obtain ⟨layer, hlayer⟩ := Option.ne_none_iff_exists'.mp hlayer
    obtain ⟨gl, hgl⟩ := Option.ne_none_iff_exists'.mp hgl
    refine h {} { layerLib := some layer, glLib := some gl, layer_released := by simp } ?_
    exact (backendsUpToDate_true _ _).mpr ⟨⟨layer, rfl, hlayer⟩, gl, rfl, hgl⟩
  · intro h env src htrue
    obtain ⟨⟨_, -, hlayer⟩, _, -, hgl⟩ := (backendsUpToDate_true env src).mp htrue
    exact h (FileRead.bytes_some hlayer) (FileRead.bytes_some hgl)

/-! ## What the calls leave -/

/-- A wrapper or a manifest is what the host writes. -/
structure Ours (dump2 : Json → Option Bytes) (e : Environ) (v : Installed) : Prop where
  wrapper : ∀ text ∈ v .wrapper, text = glWrapperScript (BackendFile.glLib.path e)
  manifest : ∀ text ∈ v .manifest, layerManifest dump2 (BackendFile.layerLib.path e) = some text

/-- Where both libraries are there, so are the files that name them. -/
def Finished (v : Installed) : Prop :=
  v .layerLib ≠ none → v .glLib ≠ none → v .wrapper ≠ none ∧ v .manifest ≠ none

theorem Ours.freshSound_iff (h : Ours dump2 e (installed e fs)) :
    FreshSound dump2 e fs ↔ Finished (installed e fs) := by
  rw [Choir.freshSound_iff]
  refine forall_congr' fun _ => forall_congr' fun _ => ⟨fun hnamed => ?_, fun hthere => ?_⟩
  · obtain ⟨text, htext, -⟩ := hnamed.manifest
    exact ⟨by simp [hnamed.wrapper], Option.ne_none_iff_exists'.mpr ⟨text, htext⟩⟩
  · obtain ⟨script, hscript⟩ := Option.ne_none_iff_exists'.mp hthere.1
    obtain ⟨text, htext⟩ := Option.ne_none_iff_exists'.mp hthere.2
    exact ⟨by rw [hscript, h.wrapper script hscript], text, htext, h.manifest text htext⟩

namespace Ours

theorem set_lib (h : Ours dump2 e v) {f : BackendFile} (hwrapper : f ≠ .wrapper)
    (hmanifest : f ≠ .manifest) (content : Option Bytes) : Ours dump2 e (v.set f content) := by
  refine ⟨?_, ?_⟩
  · rw [Installed.set_of_ne hwrapper.symm]
    exact h.wrapper
  · rw [Installed.set_of_ne hmanifest.symm]
    exact h.manifest

theorem set_wrapper (h : Ours dump2 e v) {content : Option Bytes}
    (hcontent : ∀ text ∈ content, text = glWrapperScript (BackendFile.glLib.path e)) :
    Ours dump2 e (v.set .wrapper content) := by
  refine ⟨?_, ?_⟩
  · rwa [Installed.set_self]
  · rw [Installed.set_of_ne (by decide)]
    exact h.manifest

theorem set_manifest (h : Ours dump2 e v) {content : Option Bytes}
    (hcontent : ∀ text ∈ content, layerManifest dump2 (BackendFile.layerLib.path e) = some text) :
    Ours dump2 e (v.set .manifest content) := by
  refine ⟨?_, ?_⟩
  · rw [Installed.set_of_ne (by decide)]
    exact h.wrapper
  · rwa [Installed.set_self]

theorem remove (h : Ours dump2 e v) (f : BackendFile) : Ours dump2 e (v.set f none) := by
  cases f with
  | layerLib => exact h.set_lib (by decide) (by decide) none
  | glLib => exact h.set_lib (by decide) (by decide) none
  | wrapper => exact h.set_wrapper (by simp)
  | manifest => exact h.set_manifest (by simp)

theorem removeSteps (files : List (Outcome × BackendFile)) (ok : Bool) (h : Ours dump2 e v) :
    Ours dump2 e ((removeSteps files ok).last v) := by
  induction files generalizing v ok with
  | nil => exact h
  | cons file rest ih =>
    obtain ⟨o, f⟩ := file
    rw [Choir.removeSteps, last_op_bind]
    cases o with
    | ok => exact ih _ (h.remove f)
    | fails => exact ih _ h
    | dies => exact h

theorem installWrites (env : InstallEnv) (layerBytes glBytes : Bytes) (h : Ours dump2 e v) :
    Ours dump2 e ((installWrites dump2 e env layerBytes glBytes).last v) := by
  have hlayer : Ours dump2 e (v.set .layerLib (some layerBytes)) :=
    h.set_lib (by decide) (by decide) _
  have hgl := hlayer.set_lib (f := .glLib) (by decide) (by decide) (some glBytes)
  have hwrapper : Ours dump2 e (((v.set .layerLib (some layerBytes)).set .glLib
      (some glBytes)).set .wrapper (some (glWrapperScript (BackendFile.glLib.path e)))) :=
    hgl.set_wrapper (by simp)
  simp only [Choir.installWrites, last_op_andThen]
  -- Whichever write is the last one.
  split
  · split
    · split
      · cases hman : layerManifest dump2 (BackendFile.layerLib.path e) with
        | none => exact hwrapper
        | some text =>
          rw [last_op]
          split
          · exact hwrapper.set_manifest (by simp [hman])
          · exact hwrapper
      · exact hgl
    · exact hlayer
  · exact h

end Ours

/-- The files an install writes, from its layer library on. -/
def InstallEnv.writes (env : InstallEnv) (dump2 : Json → Option Bytes) (e : Environ)
    (glBytes : Bytes) : BackendFile → Prop
  | .layerLib => True
  | .glLib => env.gl.outcome glBytes = .ok
  | .wrapper =>
    env.gl.outcome glBytes = .ok ∧
      env.wrapper.outcome (glWrapperScript (BackendFile.glLib.path e)) = .ok
  | .manifest => env.finishes dump2 e glBytes

/-- What is there after the writes of an install. -/
theorem installWrites_there (env : InstallEnv) (layerBytes glBytes : Bytes) (f : BackendFile) :
    (installWrites dump2 e env layerBytes glBytes).last v f ≠ none ↔
      v f ≠ none ∨ env.layer.outcome layerBytes = .ok ∧ env.writes dump2 e glBytes f := by
  unfold InstallEnv.writes InstallEnv.finishes
  simp only [installWrites, last_op_andThen]
  by_cases hlayer : env.layer.outcome layerBytes = .ok
  · by_cases hgl : env.gl.outcome glBytes = .ok
    · by_cases hwrapper : env.wrapper.outcome (glWrapperScript (BackendFile.glLib.path e)) = .ok
      · cases hman : layerManifest dump2 (BackendFile.layerLib.path e) with
        | none => cases f <;> simp [hlayer, hgl, hwrapper]
        | some text =>
          simp only [last_op]
          by_cases hmanifest : env.manifest.outcome text = .ok
          · cases f <;> simp [hlayer, hgl, hwrapper, hmanifest]
          · cases f <;> simp [hlayer, hgl, hwrapper, hmanifest]
      · cases f <;> simp [hlayer, hgl, hwrapper]
    · cases f <;> simp [hlayer, hgl]
  · simp [hlayer]

/-- The removals that take effect: those that succeed before the process dies. -/
def Removes : List (Outcome × BackendFile) → BackendFile → Prop
  | [], _ => False
  | (o, g) :: rest, f => o = .ok ∧ g = f ∨ o ≠ .dies ∧ Removes rest f

/-- What is there after removals. -/
theorem removeSteps_there (files : List (Outcome × BackendFile)) (ok : Bool) (f : BackendFile) :
    (removeSteps files ok).last v f ≠ none ↔ v f ≠ none ∧ ¬Removes files f := by
  induction files generalizing v ok with
  | nil => simp [removeSteps, Removes]
  | cons file rest ih =>
    obtain ⟨o, g⟩ := file
    rw [removeSteps, last_op_bind, Removes]
    cases o with
    | ok =>
      simp only [ih]
      by_cases hg : f = g
      · simp [hg]
      · simp [hg, Ne.symm hg]
    | fails => simp [ih]
    | dies => simp

/-- Where a read gives nothing, nothing more is done. -/
theorem last_readFile (r : FileRead) (content : Option Bytes)
    {k : Option Bytes → Proc Installed Bool} (hk : k none = done false) :
    ((readFile r content).bind k).last v =
      (r.bytes content).elim v fun bytes => (k (some bytes)).last v := by
  have hdone (c : Option Bytes) :
      ((done c).bind k).last v = c.elim v fun bytes => (k (some bytes)).last v := by
    rw [last_bind_of_some rfl, last_done]
    cases c with
    | none => rw [hk, last_done, Option.elim_none]
    | some bytes => rfl
  cases r with
  | whole => exact hdone content
  | cut n => exact hdone _
  | fails => exact hdone none
  | dies => rfl

theorem last_installSteps (env : InstallEnv) (src : AnyPayload) :
    (installSteps dump2 e env src).last v =
      (env.readLayer.bytes src.layerLib).elim v fun layerBytes =>
        (env.readGl.bytes src.glLib).elim v fun glBytes =>
          (installWrites dump2 e env layerBytes glBytes).last v := by
  rw [installSteps, last_readFile _ _ rfl]
  cases env.readLayer.bytes src.layerLib with
  | none => rfl
  | some layerBytes => exact last_readFile _ _ rfl

theorem last_uninstallSteps (env : UninstallEnv) :
    (uninstallSteps env).last v = (removeSteps env.files true).last v :=
  last_bind_of_silent fun ok s => by cases env.dir <;> rfl

/-- When an install that starts from finished files leaves finished ones. -/
theorem installSteps_finished_iff (env : InstallEnv) (src : AnyPayload) (h : Finished v) :
    Finished ((installSteps dump2 e env src).last v) ↔
      ∀ layerBytes, env.readLayer.bytes src.layerLib = some layerBytes →
        ∀ glBytes, env.readGl.bytes src.glLib = some glBytes →
          env.layer.outcome layerBytes = .ok →
            v .glLib ≠ none ∨ env.gl.outcome glBytes = .ok →
              (v .wrapper = none → env.writes dump2 e glBytes .wrapper) ∧
                (v .manifest = none → env.writes dump2 e glBytes .manifest) := by
  rw [last_installSteps]
  cases env.readLayer.bytes src.layerLib with
  | none => simp [h]
  | some layerBytes =>
    cases env.readGl.bytes src.glLib with
    | none => simp [h]
    | some glBytes =>
      have hlayer : env.writes dump2 e glBytes .layerLib := trivial
      have hgl : env.writes dump2 e glBytes .glLib ↔ env.gl.outcome glBytes = .ok := Iff.rfl
      unfold Finished at h ⊢
      simp only [Option.elim_some, installWrites_there, hlayer, hgl, Option.some.injEq,
        forall_eq']
      grind

/-- When an uninstall does. -/
theorem uninstallSteps_finished_iff (env : UninstallEnv) (h : Finished v) :
    Finished ((uninstallSteps env).last v) ↔
      (v .layerLib ≠ none → v .glLib ≠ none →
        Removes env.files .wrapper ∨ Removes env.files .manifest →
          Removes env.files .layerLib ∨ Removes env.files .glLib) := by
  rw [last_uninstallSteps]
  unfold Finished at h ⊢
  simp only [removeSteps_there]
  grind

namespace Disk

/-- The call does not leave both libraries without the files that name them:
    an install that completes the libraries writes what is missing of the
    other two, and an uninstall that removes one of these removes a library. -/
def KeepsFinished (dump2 : Json → Option Bytes) (e : Environ) (d : Disk) :
    BackendCall (fun _ => True) → Prop
  | .install env src =>
    ∀ layerBytes, env.readLayer.bytes src.layerLib = some layerBytes →
      ∀ glBytes, env.readGl.bytes src.glLib = some glBytes →
        env.layer.outcome layerBytes = .ok →
          installed e d.files .glLib ≠ none ∨ env.gl.outcome glBytes = .ok →
            (installed e d.files .wrapper = none → env.writes dump2 e glBytes .wrapper) ∧
              (installed e d.files .manifest = none → env.writes dump2 e glBytes .manifest)
  | .uninstall env =>
    installed e d.files .layerLib ≠ none → installed e d.files .glLib ≠ none →
      Removes env.files .wrapper ∨ Removes env.files .manifest →
        Removes env.files .layerLib ∨ Removes env.files .glLib

theorem step_install (d : Disk) (env : InstallEnv) (src : AnyPayload) :
    installed e (d.step dump2 e (.install env src)).files =
      (installSteps dump2 e env src).last (installed e d.files) :=
  (refines_installBackends env src).last

theorem step_uninstall (d : Disk) (env : UninstallEnv) :
    installed e (d.step dump2 e (.uninstall env : BackendCall fun _ => True)).files =
      (uninstallSteps env).last (installed e d.files) :=
  (refines_uninstallBackends env).last

theorem step_ours {d : Disk} (h : Ours dump2 e (installed e d.files))
    (c : BackendCall fun _ => True) : Ours dump2 e (installed e (d.step dump2 e c).files) := by
  cases c with
  | install env src =>
    rw [step_install, last_installSteps]
    cases env.readLayer.bytes src.layerLib with
    | none => exact h
    | some layerBytes =>
      cases env.readGl.bytes src.glLib with
      | none => exact h
      | some glBytes => exact h.installWrites env layerBytes glBytes
  | uninstall env =>
    rw [step_uninstall, last_uninstallSteps]
    exact h.removeSteps env.files true

theorem step_finished_iff {d : Disk} (h : Finished (installed e d.files))
    (c : BackendCall fun _ => True) :
    Finished (installed e (d.step dump2 e c).files) ↔ d.KeepsFinished dump2 e c := by
  cases c with
  | install env src =>
    rw [step_install]
    exact installSteps_finished_iff env src h
  | uninstall env =>
    rw [step_uninstall]
    exact uninstallSteps_finished_iff env h

/-- Over any run of installs and uninstalls, whatever fails and wherever the
    process dies: the check never takes a half-finished install for complete
    exactly when no call leaves the libraries without the files that name
    them. -/
theorem run_freshSound_iff {fs : Files} (hours : Ours dump2 e (installed e fs))
    (hfresh : FreshSound dump2 e fs) (calls : List (BackendCall fun _ => True)) :
    (∀ pre, pre <+: calls → FreshSound dump2 e (Machine.run (step dump2 e) ⟨fs, []⟩ pre).files) ↔
      Machine.Along (step dump2 e) (KeepsFinished dump2 e) ⟨fs, []⟩ calls := by
  let P (d : Disk) : Prop := Ours dump2 e (installed e d.files) ∧ Finished (installed e d.files)
  have hstart : P ⟨fs, []⟩ := ⟨hours, hours.freshSound_iff.mp hfresh⟩
  have hstep (d : Disk) (c : BackendCall fun _ => True) (hd : P d) :
      P (d.step dump2 e c) ↔ d.KeepsFinished dump2 e c :=
    (and_iff_right (step_ours hd.1 c)).trans (step_finished_iff hd.2 c)
  rw [← Machine.forall_prefix_iff_along (P := P) hstep hstart]
  refine forall_congr' fun pre => imp_congr_right fun _ => ?_
  have hpre : Ours dump2 e (installed e (Machine.run (step dump2 e) ⟨fs, []⟩ pre).files) :=
    Machine.run_invariant (P := fun d : Disk => Ours dump2 e (installed e d.files))
      (fun d c hd => step_ours hd c) hours pre
  exact hpre.freshSound_iff.trans (and_iff_right hpre).symm

/-- An AppImage. -/
def oneAppImage : AnyPayload :=
  { layerLib := some (ascii "layer"), glLib := some (ascii "gl"), layer_released := by simp }

/-- A first install that stops before the GL library, the retry, and an
    uninstall. -/
def retried : List (BackendCall fun _ => True) :=
  [.install { gl := { close := .fails } } oneAppImage, .install {} oneAppImage, .uninstall {}]

theorem run_freshSound_retried :
    (backendsUpToDate {} {} oneAppImage (Machine.run (step (fun _ => some []) {})
        ⟨fun _ => none, []⟩ (retried.take 2)).files).result = some true ∧
      ∀ pre, pre <+: retried → FreshSound (fun _ => some []) {}
        (Machine.run (step (fun _ => some []) {}) ⟨fun _ => none, []⟩ pre).files := by
  refine ⟨by decide, ?_⟩
  have hours : Ours (fun _ => some []) {} (installed {} fun _ => none) := ⟨nofun, nofun⟩
  have hfresh : FreshSound (fun _ => some []) {} (fun _ => none) :=
    freshSound_iff.mpr fun hlayer => absurd rfl hlayer
  refine (run_freshSound_iff hours hfresh retried).mpr ⟨?_, ?_, ?_, trivial⟩
  · rintro layerBytes - glBytes - - (hgl | hgl)
    · exact absurd rfl hgl
    · cases glBytes <;> cases hgl
  · rintro layerBytes - glBytes hread - -
    exact ⟨fun _ => ⟨rfl, rfl⟩, fun _ => ⟨rfl, rfl, [0x0A], rfl, rfl⟩⟩
  · rintro - - -
    exact .inl (.inr ⟨by decide, .inr ⟨by decide, .inl ⟨rfl, rfl⟩⟩⟩)

/-- An install that fails at the wrapper leaves both libraries, and the check
    takes them for an install. -/
theorem failedWrapper_taken_for_complete :
    ¬ ∀ pre, pre <+: [BackendCall.install { wrapper := { rename := .fails } } oneAppImage] →
      FreshSound (fun _ => some []) {}
        (Machine.run (step (fun _ => some []) {}) ⟨fun _ => none, []⟩ pre).files := by
  intro h
  have hnamed := h _ List.prefix_rfl {} oneAppImage (by decide)
  have hgone := hnamed.wrapper
  revert hgone
  decide

end Disk

end Choir
