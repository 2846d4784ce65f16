-- SUMMARY: The install seen as operations on its four files, and exactly when every manifest names a complete library.
import ChoirOverlay.Host.Backends
import ChoirOverlay.Machine.Run
import Mathlib.Tactic.Tauto

/-!
# What is installed

Of the files, a game sees the two libraries, the wrapper and the manifest. The
install and the uninstall refine procedures on these four, where an atomic
write is one operation.
-/

namespace Choir

open Crash Crash.Proc

/-! ## Paths -/

/-- The last four bytes of a path, backwards. -/
def ending (path : Bytes) : Bytes := path.reverse.take 4

theorem ending_append (pre : Bytes) {name : Bytes} (h : 4 ≤ name.length) :
    ending (pre ++ name) = ending name := by
  rw [ending, ending, List.reverse_append, List.take_append_of_le_length (by simpa using h)]

/-- The name of the file in its directory. -/
def BackendFile.name : BackendFile → Bytes
  | .layerLib => kLayerLib
  | .glLib => kGlLib
  | .wrapper => ascii "choir-run"
  | .manifest => ascii "choir_overlay.x86_64.json"

theorem ending_path (e : Environ) (f : BackendFile) : ending (f.path e) = ending f.name := by
  cases f with
  | layerLib => exact (ending_append _ (by decide)).trans (by decide)
  | glLib => exact (ending_append _ (by decide)).trans (by decide)
  | wrapper => exact (ending_append _ (by decide)).trans (by decide)
  | manifest => exact (ending_append _ (by decide)).trans (by decide)

/-- The names end differently, also from the temporary files'. -/
theorem name_ending (f g : BackendFile) :
    ending (ascii ".choir-tmp") ≠ ending f.name ∧ (ending f.name = ending g.name → f = g) := by
  cases f <;> cases g <;> decide

theorem path_injective (e : Environ) : Function.Injective (BackendFile.path e) := by
  intro f g h
  have hending : ending f.name = ending g.name := by rw [← ending_path e, h, ending_path]
  exact (name_ending f g).2 hending

theorem tmpPath_ne (e : Environ) (f : BackendFile) (path : Bytes) : tmpPath path ≠ f.path e := by
  intro h
  have htmp : ending (tmpPath path) = ending (ascii ".choir-tmp") := ending_append _ (by decide)
  exact (name_ending f f).1 (by rw [← htmp, h, ending_path])

/-! ## The four files -/

/-- The content of each installed file there is. -/
abbrev Installed := BackendFile → Option Bytes

def installed (e : Environ) (fs : Files) : Installed := fun f => fs (f.path e)

/-- Write or remove one of the files. -/
def Installed.set (f : BackendFile) (content : Option Bytes) (v : Installed) : Installed :=
  Function.update v f content

@[simp] theorem Installed.set_self (f : BackendFile) (content : Option Bytes) (v : Installed) :
    v.set f content f = content := Function.update_self ..

@[simp] theorem Installed.set_of_ne {f g : BackendFile} (h : g ≠ f) (content : Option Bytes)
    (v : Installed) : v.set f content g = v g := Function.update_of_ne h ..

variable {e : Environ} {fs : Files}

theorem installed_update_path (f : BackendFile) (content : Option Bytes) :
    installed e (Function.update fs (f.path e) content) = (installed e fs).set f content := by
  funext g
  by_cases hg : g = f
  · subst hg
    simp [installed]
  · have hpath : g.path e ≠ f.path e := fun h => hg (path_injective e h)
    simp [installed, hg, hpath]

theorem installed_update_tmp (path : Bytes) (content : Option Bytes) :
    installed e (Function.update fs (tmpPath path) content) = installed e fs := by
  funext g
  exact Function.update_of_ne (tmpPath_ne e g path).symm ..

theorem installed_removeFile (f : BackendFile) :
    installed e (removeFile (f.path e) fs) = (installed e fs).set f none :=
  installed_update_path f none

theorem installed_renameTo (f : BackendFile) {content : Bytes}
    (h : fs (tmpPath (f.path e)) = some content) :
    installed e (renameTo (tmpPath (f.path e)) (f.path e) fs) =
      (installed e fs).set f (some content) := by
  rw [renameTo, installed_update_tmp, h, installed_update_path]

/-! ## An atomic write is one operation -/

/-- How the write loop ends. -/
def writesOutcome : List FileWrite → Bytes → Outcome
  | [], _ => .ok
  | w :: ws, left =>
    if left = [] then
      .ok
    else
      match w with
      | .wrote n => writesOutcome ws (left.drop n)
      | .interrupted => writesOutcome ws left
      | .fails => .fails
      | .dies => .dies

/-- The bytes that reach the file. -/
def arriving : List FileWrite → Bytes → Bytes
  | [], left => left
  | w :: ws, left =>
    if left = [] then
      []
    else
      match w with
      | .wrote n => left.take n ++ arriving ws (left.drop n)
      | .interrupted => arriving ws left
      | .fails => []
      | .dies => []

theorem arriving_front (ws : List FileWrite) (left : Bytes) : arriving ws left <+: left := by
  induction ws generalizing left with
  | nil => exact List.prefix_rfl
  | cons w ws ih =>
    unfold arriving
    split
    · exact List.nil_prefix
    · cases w with
      | wrote n =>
        have hrest := (List.prefix_append_right_inj (left.take n)).mpr (ih (left.drop n))
        rwa [List.take_append_drop] at hrest
      | interrupted => exact ih left
      | fails => exact List.nil_prefix
      | dies => exact List.nil_prefix

/-- Everything arrives exactly when the loop comes to its end. -/
theorem arriving_eq_self_iff (ws : List FileWrite) (left : Bytes) :
    arriving ws left = left ↔ writesOutcome ws left = .ok := by
  induction ws generalizing left with
  | nil => simp [arriving, writesOutcome]
  | cons w ws ih =>
    unfold arriving writesOutcome
    split
    · simp [*]
    · rename_i hleft
      cases w with
      | wrote n =>
        have hiff := ih (left.drop n)
        rw [← hiff]
        conv_lhs => rhs; rw [← List.take_append_drop n left]
        exact List.append_right_inj _
      | interrupted => exact ih left
      | fails => exact iff_of_false (Ne.symm hleft) (by simp)
      | dies => exact iff_of_false (Ne.symm hleft) (by simp)

theorem writeAll_last {path : Bytes} {fs : Files} (ws : List FileWrite) {left written : Bytes}
    (hpath : fs path = some written) :
    (writeAll path ws left).last fs path = some (written ++ arriving ws left) := by
  induction ws generalizing fs left written with
  | nil =>
    unfold writeAll arriving
    split
    · simp [*]
    · simp [last_op, appendTo, hpath]
  | cons w ws ih =>
    unfold writeAll arriving
    split
    · simp [*]
    · cases w with
      | wrote n =>
        have hfirst : appendTo path (left.take n) fs path = some (written ++ left.take n) := by
          simp [appendTo, hpath]
        rw [last_op_andThen, if_pos rfl, ih hfirst, List.append_assoc]
      | interrupted => exact ih hpath
      | fails => simp [hpath]
      | dies => simp [hpath]

theorem writeAll_result {path : Bytes} (ws : List FileWrite) (left : Bytes) (fs : Files) :
    (writeAll path ws left fs).result = (ask (writesOutcome ws left) fs).result := by
  induction ws generalizing fs left with
  | nil =>
    unfold writeAll writesOutcome
    split <;> rfl
  | cons w ws ih =>
    unfold writeAll writesOutcome
    split
    · rfl
    · cases w with
      | wrote n => exact ih (left.drop n) _
      | interrupted => exact ih left fs
      | fails => rfl
      | dies => rfl

namespace WriteEnv

variable (env : WriteEnv)

/-- A failure, unless the process dies in cleaning up. -/
def cleanup : Outcome := if env.remove = .dies then .dies else .fails

/-- How `write_atomic` ends after its write loop ended with `written`. -/
def finish (written : Outcome) : Outcome :=
  match written, env.close with
  | .dies, _ => .dies
  | _, .dies => .dies
  | .ok, .ok =>
    match env.rename with
    | .ok => .ok
    | .fails => env.cleanup
    | .dies => .dies
  | _, _ => env.cleanup

/-- Whether the file is written, the write fails or the process dies first. -/
def outcome (bytes : Bytes) : Outcome :=
  match env.mkdir, env.openTmp with
  | .ok, .ok => env.finish (writesOutcome env.writes bytes)
  | .ok, o => o
  | o, _ => o

end WriteEnv

/-- What `write_atomic` does to the four files. -/
private def writeSteps (env : WriteEnv) (written : Outcome) (g : Installed → Installed) :
    Proc Installed Bool :=
  (ask env.mkdir).andThen <| (ask env.openTmp).andThen <|
    (ask written).bind fun ok => (ask env.close).bind fun closed =>
      (if ok && closed then op env.rename g else done false).bind fun ok =>
        if ok then done true else (ask env.remove).bind fun _ => done false

private theorem writeSteps_eq (env : WriteEnv) (bytes : Bytes) (g : Installed → Installed) :
    writeSteps env (writesOutcome env.writes bytes) g = op (env.outcome bytes) g := by
  unfold writeSteps WriteEnv.outcome
  cases env.mkdir with
  | fails => rfl
  | dies => rfl
  | ok =>
    cases env.openTmp with
    | fails => rfl
    | dies => rfl
    | ok =>
      unfold WriteEnv.finish WriteEnv.cleanup
      cases writesOutcome env.writes bytes <;> cases env.close <;> cases env.rename <;>
        cases env.remove <;> rfl

/-- The write loop appends what it writes. -/
theorem writeAll_content {tmp : Bytes} (ws : List FileWrite) {left written : Bytes}
    (htmp : fs tmp = some written) (h : (writeAll tmp ws left fs).result = some true) :
    (writeAll tmp ws left).last fs tmp = some (written ++ left) := by
  have hok : writesOutcome ws left = .ok := by
    rw [writeAll_result] at h
    cases hwritten : writesOutcome ws left with
    | ok => rfl
    | fails | dies =>
      rw [hwritten] at h
      cases h
  rw [writeAll_last ws htmp, (arriving_eq_self_iff ws left).mpr hok]

/-- The four files do not show the write loop. -/
theorem refines_writeAll (path : Bytes) (ws : List FileWrite) (left : Bytes) :
    Refines (installed e) (writeAll (tmpPath path) ws left) (ask (writesOutcome ws left)) fs := by
  have hsilent (bytes : Bytes) (fs : Files) :
      installed e (appendTo (tmpPath path) bytes fs) = installed e fs := installed_update_tmp ..
  induction ws generalizing fs left with
  | nil =>
    unfold writeAll writesOutcome
    split
    · exact refines_done true
    · exact refines_op_ask .ok (hsilent left fs)
  | cons w ws ih =>
    unfold writeAll writesOutcome
    split
    · exact refines_done true
    · cases w with
      | wrote n =>
        have hfirst := refines_op_ask .ok (hsilent (left.take n) fs)
        exact hfirst.andThen fun _ => ih (left.drop n)
      | interrupted => exact ih left
      | fails => exact refines_done false
      | dies => exact refines_die

theorem refines_writeAtomic (env : WriteEnv) (f : BackendFile) (bytes : Bytes) :
    Refines (installed e) (writeAtomic env (f.path e) bytes)
      (op (env.outcome bytes) (Installed.set f (some bytes))) fs := by
  rw [← writeSteps_eq]
  refine (refines_ask env.mkdir).andThen fun _ => ?_
  refine (refines_op_ask env.openTmp (installed_update_tmp ..)).andThen fun hopen => ?_
  refine (refines_writeAll _ _ _).bind fun ok hok => ?_
  refine (refines_ask env.close).bind fun closed _ => ?_
  refine Refines.bind ?_ fun ok _ => ?_
  · cases ok with
    | false => exact refines_done false
    | true =>
      cases closed with
      | false => exact refines_done false
      | true =>
        refine refines_op env.rename (installed_renameTo f ?_)
        rw [last_ask]
        -- The loop found the file just opened, and empty.
        exact writeAll_content _ (by rw [last_op_of_true hopen, Function.update_self]) hok
  · cases ok with
    | true => exact refines_done true
    | false =>
      exact (refines_op_ask env.remove (installed_update_tmp ..)).bind fun _ _ => refines_done false

/-! ## The procedures on the four files -/

/-- What a read gives. -/
def FileRead.bytes (r : FileRead) (content : Option Bytes) : Option Bytes :=
  match r with
  | .whole => content
  | .cut n => content.map (List.take n)
  | .fails => none
  | .dies => none

variable {released : Bytes → Prop} {dump2 : Json → Option Bytes}

/-- The writes of `install_backends`, as they are seen. -/
def installWrites (dump2 : Json → Option Bytes) (e : Environ) (env : InstallEnv)
    (layerBytes glBytes : Bytes) : Proc Installed Bool :=
  let script := glWrapperScript (BackendFile.glLib.path e)
  (op (env.layer.outcome layerBytes) (Installed.set .layerLib (some layerBytes))).andThen <|
    (op (env.gl.outcome glBytes) (Installed.set .glLib (some glBytes))).andThen <|
      (op (env.wrapper.outcome script) (Installed.set .wrapper (some script))).andThen <|
        match layerManifest dump2 (BackendFile.layerLib.path e) with
        | some text => op (env.manifest.outcome text) (Installed.set .manifest (some text))
        | none => die

/-- `install_backends`, as it is seen. -/
def installSteps (dump2 : Json → Option Bytes) (e : Environ) (env : InstallEnv)
    (src : BackendPayload released) : Proc Installed Bool :=
  (readFile env.readLayer src.layerLib).bind fun
  | none => done false
  | some layerBytes =>
    (readFile env.readGl src.glLib).bind fun
    | none => done false
    | some glBytes => installWrites dump2 e env layerBytes glBytes

/-- The loop of `uninstall_backends`, as it is seen. -/
def removeSteps : List (Outcome × BackendFile) → Bool → Proc Installed Bool
  | [], ok => done ok
  | (o, f) :: rest, ok =>
    (op o (Installed.set f none)).bind fun removed => removeSteps rest (ok && removed)

/-- The files of an uninstall in its order, and what becomes of their removals. -/
def UninstallEnv.files (env : UninstallEnv) : List (Outcome × BackendFile) :=
  [(env.manifest, .manifest), (env.wrapper, .wrapper), (env.layer, .layerLib), (env.gl, .glLib)]

/-- `uninstall_backends`, as it is seen. -/
def uninstallSteps (env : UninstallEnv) : Proc Installed Bool :=
  (removeSteps env.files true).bind fun ok => (ask env.dir).bind fun _ => done ok

theorem refines_readFile {r : FileRead} {content : Option Bytes} :
    Refines (installed e) (readFile r content) (readFile r content) fs := by
  cases r with
  | whole => exact refines_done _
  | cut n => exact refines_done _
  | fails => exact refines_done _
  | dies => exact refines_die

theorem refines_installBackends (env : InstallEnv) (src : BackendPayload released) :
    Refines (installed e) (installBackends dump2 e env src) (installSteps dump2 e env src) fs := by
  refine refines_readFile.bind fun layer _ => ?_
  cases layer with
  | none => exact refines_done false
  | some layerBytes =>
    refine refines_readFile.bind fun gl _ => ?_
    cases gl with
    | none => exact refines_done false
    | some glBytes =>
      refine (refines_writeAtomic env.layer .layerLib layerBytes).andThen fun _ => ?_
      refine (refines_writeAtomic env.gl .glLib glBytes).andThen fun _ => ?_
      refine (refines_writeAtomic env.wrapper .wrapper _).andThen fun _ => ?_
      cases layerManifest dump2 (BackendFile.layerLib.path e) with
      | none => exact refines_die
      | some text => exact refines_writeAtomic env.manifest .manifest text

theorem refines_removeAll (files : List (Outcome × BackendFile)) (ok : Bool) :
    Refines (installed e) (removeAll (files.map fun x => (x.1, x.2.path e)) ok)
      (removeSteps files ok) fs := by
  induction files generalizing fs ok with
  | nil => exact refines_done ok
  | cons file rest ih =>
    obtain ⟨o, f⟩ := file
    exact (refines_op o (installed_removeFile f)).bind fun removed _ => ih (ok && removed)

theorem refines_uninstallBackends (env : UninstallEnv) :
    Refines (installed e) (uninstallBackends e env) (uninstallSteps env) fs := by
  refine (refines_removeAll env.files true).bind fun ok _ => ?_
  exact (refines_ask env.dir).bind fun _ _ => refines_done ok

/-! ## Every manifest names a complete library -/

/-- The manifest, where there is one, names the installed layer library, and
    that is there with the bytes of a released one. -/
def ManifestSound (released : Bytes → Prop) (dump2 : Json → Option Bytes) (e : Environ)
    (v : Installed) : Prop :=
  ∀ text ∈ v .manifest, layerManifest dump2 (BackendFile.layerLib.path e) = some text ∧
    ∃ bytes ∈ v .layerLib, released bytes

section
variable {v : Installed}

theorem manifestSound_of_none (h : v .manifest = none) : ManifestSound released dump2 e v := by
  intro text htext
  rw [h] at htext
  cases htext

/-- The wrapper and the GL library do not matter. -/
theorem manifestSound_set {f : BackendFile} (hlayer : f ≠ .layerLib) (hmanifest : f ≠ .manifest)
    (content : Option Bytes) :
    ManifestSound released dump2 e (v.set f content) ↔ ManifestSound released dump2 e v := by
  unfold ManifestSound
  rw [Installed.set_of_ne hmanifest.symm, Installed.set_of_ne hlayer.symm]

theorem manifestSound_set_layerLib (h : ManifestSound released dump2 e v)
    {content : Option Bytes} :
    ManifestSound released dump2 e (v.set .layerLib content) ↔
      v .manifest = none ∨ ∃ bytes ∈ content, released bytes := by
  unfold ManifestSound at h ⊢
  rw [Installed.set_self, Installed.set_of_ne (by decide)]
  cases htext : v .manifest with
  | none => simp
  | some text => simp [(h text htext).1]

theorem manifestSound_set_manifest {text : Bytes}
    (h : layerManifest dump2 (BackendFile.layerLib.path e) = some text) :
    ManifestSound released dump2 e (v.set .manifest (some text)) ↔
      ∃ bytes ∈ v .layerLib, released bytes := by
  unfold ManifestSound
  rw [Installed.set_self, Installed.set_of_ne (by decide)]
  simp [h]

/-- What follows a read that gives something. -/
theorem moments_readFile {C : Installed → Prop} (r : FileRead) (content : Option Bytes)
    {k : Option Bytes → Proc Installed Bool} (hk : k none = done false) :
    (∀ m ∈ ((readFile r content).bind k v).moments, C m) ↔
      ∀ bytes, r.bytes content = some bytes → ∀ m ∈ (k (some bytes) v).moments, C m := by
  have hdone (c : Option Bytes) : (∀ m ∈ ((done c).bind k v).moments, C m) ↔
      ∀ bytes, c = some bytes → ∀ m ∈ (k (some bytes) v).moments, C m := by
    rw [moments_bind_of_some rfl]
    cases c with
    | none => simp [done, hk]
    | some bytes => simp [done]
  cases r with
  | whole => exact hdone content
  | cut n => exact hdone _
  | fails => exact hdone none
  | dies => simp [readFile, FileRead.bytes, die, Proc.bind]

/-- All of an install that comes after its layer library takes effect. -/
def InstallEnv.finishes (env : InstallEnv) (dump2 : Json → Option Bytes) (e : Environ)
    (glBytes : Bytes) : Prop :=
  env.gl.outcome glBytes = .ok ∧
    env.wrapper.outcome (glWrapperScript (BackendFile.glLib.path e)) = .ok ∧
    ∃ text ∈ layerManifest dump2 (BackendFile.layerLib.path e), env.manifest.outcome text = .ok

theorem installWrites_sound_iff (env : InstallEnv) (layerBytes glBytes : Bytes)
    (h : ManifestSound released dump2 e v) :
    (∀ m ∈ (installWrites dump2 e env layerBytes glBytes v).moments,
        ManifestSound released dump2 e m) ↔
      (env.layer.outcome layerBytes = .ok →
        v .manifest ≠ none ∨ env.finishes dump2 e glBytes → released layerBytes) := by
  have hlayer : ManifestSound released dump2 e (v.set .layerLib (some layerBytes)) ↔
      v .manifest = none ∨ released layerBytes := by
    rw [manifestSound_set_layerLib h]
    simp
  have hgl := (manifestSound_set (f := .glLib) (by decide) (by decide) (some glBytes)).trans hlayer
  have hwrapper := (manifestSound_set (f := .wrapper) (by decide) (by decide)
    (some (glWrapperScript (BackendFile.glLib.path e)))).trans hgl
  unfold installWrites InstallEnv.finishes
  simp only [moments_op_andThen, hlayer, hgl, hwrapper]
  -- Until the manifest is written the library matters for an older manifest only.
  cases hman : layerManifest dump2 (BackendFile.layerLib.path e) with
  | none =>
    simp only [die, List.not_mem_nil, false_implies, implies_true, and_true, Option.mem_def,
      reduceCtorEq, false_and, exists_false, and_false, or_false]
    grind
  | some text =>
    simp only [moments_op, manifestSound_set_manifest hman, ne_eq, reduceCtorEq, not_false_eq_true,
      Installed.set_of_ne, Installed.set_self, Option.mem_def, Option.some.injEq,
      exists_eq_left']
    grind

/-- When an install keeps manifests sound at every moment. -/
theorem installSteps_sound_iff (env : InstallEnv) (src : BackendPayload released)
    (h : ManifestSound released dump2 e v) :
    (∀ m ∈ (installSteps dump2 e env src v).moments, ManifestSound released dump2 e m) ↔
      ∀ layerBytes, env.readLayer.bytes src.layerLib = some layerBytes →
        ∀ glBytes, env.readGl.bytes src.glLib = some glBytes →
          env.layer.outcome layerBytes = .ok →
            v .manifest ≠ none ∨ env.finishes dump2 e glBytes → released layerBytes := by
  rw [installSteps, moments_readFile _ _ rfl]
  refine forall_congr' fun layerBytes => imp_congr_right fun _ => ?_
  rw [moments_readFile _ _ rfl]
  exact forall_congr' fun glBytes => imp_congr_right fun _ => installWrites_sound_iff env _ _ h

/-- Without a manifest, removing files is sound. -/
theorem removeSteps_sound (files : List (Outcome × BackendFile)) (ok : Bool)
    (h : v .manifest = none) :
    ∀ m ∈ (removeSteps files ok v).moments, ManifestSound released dump2 e m := by
  induction files generalizing v ok with
  | nil => simp [removeSteps, done]
  | cons file rest ih =>
    obtain ⟨o, f⟩ := file
    have hset : (v.set f none) .manifest = none := by
      by_cases hf : f = .manifest
      · rw [hf, Installed.set_self]
      · rw [Installed.set_of_ne (Ne.symm hf), h]
    rw [removeSteps, moments_op_bind]
    exact ⟨fun _ => ⟨manifestSound_of_none hset, ih _ hset⟩, fun _ => ih _ h⟩

/-- With one, the layer library must stay. -/
theorem removeLibs_sound_iff (o o' : Outcome) (ok : Bool) (h : ManifestSound released dump2 e v)
    (hman : v .manifest ≠ none) :
    (∀ m ∈ (removeSteps [(o, .layerLib), (o', .glLib)] ok v).moments,
        ManifestSound released dump2 e m) ↔ o ≠ .ok := by
  have hgl : ManifestSound released dump2 e (v.set .glLib none) :=
    (manifestSound_set (by decide) (by decide) none).mpr h
  rw [removeSteps, moments_op_bind, manifestSound_set_layerLib h]
  cases o with
  | ok => simp [hman]
  | fails =>
    simp only [removeSteps, moments_op_bind, hgl]
    simp [done]
  | dies => simp

theorem removeRest_sound_iff (w o o' : Outcome) (ok : Bool)
    (h : ManifestSound released dump2 e v) (hman : v .manifest ≠ none) :
    (∀ m ∈ (removeSteps [(w, .wrapper), (o, .layerLib), (o', .glLib)] ok v).moments,
        ManifestSound released dump2 e m) ↔ (w ≠ .dies → o ≠ .ok) := by
  have hwrapper : ManifestSound released dump2 e (v.set .wrapper none) :=
    (manifestSound_set (by decide) (by decide) none).mpr h
  have hstays : (v.set .wrapper none) .manifest ≠ none := by
    rwa [Installed.set_of_ne (by decide)]
  rw [removeSteps, moments_op_bind, removeLibs_sound_iff _ _ _ hwrapper hstays,
    removeLibs_sound_iff _ _ _ h hman]
  cases w <;> simp [hwrapper]

/-- When an uninstall keeps manifests sound at every moment. -/
theorem uninstallSteps_sound_iff (env : UninstallEnv) (h : ManifestSound released dump2 e v) :
    (∀ m ∈ (uninstallSteps env v).moments, ManifestSound released dump2 e m) ↔
      ¬(v .manifest ≠ none ∧ env.manifest = .fails ∧ env.wrapper ≠ .dies ∧ env.layer = .ok) := by
  rw [uninstallSteps, moments_bind_of_silent fun ok s => by cases env.dir <;> rfl]
  by_cases hman : v .manifest = none
  · exact iff_of_true (removeSteps_sound _ _ hman) fun hbad => hbad.1 hman
  rw [UninstallEnv.files, removeSteps, moments_op_bind, removeRest_sound_iff _ _ _ _ h hman]
  have hnone : (v.set .manifest none) .manifest = none := Installed.set_self ..
  cases env.manifest with
  | ok =>
    refine iff_of_true ⟨fun _ => ?_, nofun⟩ (by simp)
    exact ⟨manifestSound_of_none hnone, removeSteps_sound _ _ hnone⟩
  | fails => simp [hman]
  | dies => simp

end

/-! ## Runs -/

/-- A call of the host, with what happens during it. -/
inductive BackendCall (released : Bytes → Prop) where
  | install (env : InstallEnv) (src : BackendPayload released)
  | uninstall (env : UninstallEnv)

def BackendCall.proc (dump2 : Json → Option Bytes) (e : Environ) :
    BackendCall released → Proc Files Bool
  | .install env src => installBackends dump2 e env src
  | .uninstall env => uninstallBackends e env

/-- The files, and those the last call passed. -/
structure Disk where
  files : Files
  passed : List Files := []

namespace Disk

def step (dump2 : Json → Option Bytes) (e : Environ) (d : Disk) (c : BackendCall released) : Disk :=
  { files := (c.proc dump2 e).last d.files, passed := (c.proc dump2 e d.files).moments }

/-- A manifest names a complete library now and at every moment of the last
    call. -/
def Sound (released : Bytes → Prop) (dump2 : Json → Option Bytes) (e : Environ) (d : Disk) : Prop :=
  ∀ fs ∈ d.files :: d.passed, ManifestSound released dump2 e (installed e fs)

/-- The call does not leave a manifest without its library: no uninstall fails
    to remove the manifest and then removes the library, and no install takes
    the part it read of a library for the whole, and writes that under a
    manifest. -/
def KeepsSound (dump2 : Json → Option Bytes) (e : Environ) (d : Disk) :
    BackendCall released → Prop
  | .install env src =>
    ∀ layerBytes, env.readLayer.bytes src.layerLib = some layerBytes →
      ∀ glBytes, env.readGl.bytes src.glLib = some glBytes →
        env.layer.outcome layerBytes = .ok →
          installed e d.files .manifest ≠ none ∨ env.finishes dump2 e glBytes →
            released layerBytes
  | .uninstall env =>
    ¬(installed e d.files .manifest ≠ none ∧ env.manifest = .fails ∧ env.wrapper ≠ .dies ∧
      env.layer = .ok)

theorem step_sound_iff {d : Disk} (h : d.Sound released dump2 e) (c : BackendCall released) :
    (d.step dump2 e c).Sound released dump2 e ↔ d.KeepsSound dump2 e c := by
  have hfiles : ManifestSound released dump2 e (installed e d.files) := h _ List.mem_cons_self
  have hmoments : (d.step dump2 e c).Sound released dump2 e ↔
      ∀ fs ∈ (c.proc dump2 e d.files).moments,
        ManifestSound released dump2 e (installed e fs) := by
    refine ⟨fun hsound fs hfs => hsound fs (List.mem_cons_of_mem _ hfs), fun hpassed => ?_⟩
    refine List.forall_mem_cons.mpr ⟨?_, hpassed⟩
    exact holds_last (C := fun fs => ManifestSound released dump2 e (installed e fs)) hfiles hpassed
  rw [hmoments]
  cases c with
  | install env src =>
    exact ((refines_installBackends env src).moments hfiles).trans
      (installSteps_sound_iff env src hfiles)
  | uninstall env =>
    exact ((refines_uninstallBackends env).moments hfiles).trans
      (uninstallSteps_sound_iff env hfiles)

/-- Over any run of installs and uninstalls, whatever fails and wherever the
    process dies: every manifest names a complete library at every moment
    exactly when no call breaks that. -/
theorem run_sound_iff {fs : Files} (h : ManifestSound released dump2 e (installed e fs))
    (calls : List (BackendCall released)) :
    (∀ pre, pre <+: calls → (Machine.run (step dump2 e) ⟨fs, []⟩ pre).Sound released dump2 e) ↔
      Machine.Along (step dump2 e) (KeepsSound dump2 e) ⟨fs, []⟩ calls := by
  have hstart : Sound released dump2 e ⟨fs, []⟩ := fun m hm => by
    obtain rfl := List.mem_singleton.mp hm
    exact h
  exact Machine.forall_prefix_iff_along (P := Sound released dump2 e)
    (fun d c hd => step_sound_iff hd c) hstart calls

/-- A payload whose layer library is the one released. -/
def onePayload : BackendPayload (· = ascii "layer") :=
  { layerLib := some (ascii "layer"), glLib := some (ascii "gl"), layer_released := by simp }

/-- An install, an update that dies before its rename, and an uninstall. -/
def interrupted : List (BackendCall (· = ascii "layer")) :=
  [.install {} onePayload, .install { gl := { rename := .dies } } onePayload, .uninstall {}]

theorem run_sound_interrupted :
    installed {} (Machine.run (step (fun _ => some []) {}) ⟨fun _ => none, []⟩
        (interrupted.take 2)).files .layerLib = some (ascii "layer") ∧
      ∀ pre, pre <+: interrupted → (Machine.run (step (fun _ => some []) {}) ⟨fun _ => none, []⟩
        pre).Sound (· = ascii "layer") (fun _ => some []) {} := by
  refine ⟨by decide, ?_⟩
  refine (run_sound_iff (manifestSound_of_none rfl) interrupted).mpr ⟨?_, ?_, ?_, trivial⟩
  · rintro layerBytes h - - - -
    exact (Option.some.inj h).symm
  · rintro layerBytes h - - - -
    exact (Option.some.inj h).symm
  · simp [KeepsSound]

/-- An uninstall that cannot remove the manifest. -/
def stuckManifest : List (BackendCall (· = ascii "layer")) :=
  [.install {} onePayload, .uninstall { manifest := .fails }]

/-- It removes the library that the manifest names. -/
theorem stuckManifest_unsound :
    ¬ ∀ pre, pre <+: stuckManifest → (Machine.run (step (fun _ => some []) {}) ⟨fun _ => none, []⟩
      pre).Sound (· = ascii "layer") (fun _ => some []) {} := by
  intro h
  obtain ⟨-, bytes, hbytes, -⟩ := h _ List.prefix_rfl _ List.mem_cons_self [0x0A] (by decide)
  have hgone : installed {} (Machine.run (step (fun _ => some []) {}) ⟨fun _ => none, []⟩
      stuckManifest).files .layerLib = none := by decide
  rw [hgone] at hbytes
  cases hbytes

end Disk

end Choir
