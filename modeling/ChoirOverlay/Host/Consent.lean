-- SUMMARY: The overlay's files in the home of a user: nothing is installed there that the user was not asked for, and what was uninstalled stays away.
import ChoirOverlay.Host.Settings
import ChoirOverlay.Host.Freshness
import ChoirOverlay.Machine.CrashLogic

/-!
# Consent

`main` asks before it copies the libraries of an AppImage, the settings window has a
button for it, and `--uninstall` takes them away. The answer is kept in the configuration,
which every host holds a copy of and may save. Any operation may fail and any process
may die at any moment; any number of hosts run, and act one after the other.
-/

namespace Choir

open Crash Crash.Proc

/-! ## The configuration's path -/

/-- The environment, with what the path of the configuration comes from. -/
structure HomeEnviron extends Environ where
  xdgConfigHome : Option Bytes := none

/-- `config_path` -/
def HomeEnviron.configPath (e : HomeEnviron) : Bytes :=
  envOr e.xdgConfigHome (envOr e.home [] ++ ascii "/.config") ++ ascii "/choir/config.json"

theorem path_eq (e : Environ) (f : BackendFile) : ∃ front, f.path e = front ++ f.name := by
  cases f with
  | layerLib =>
    refine ⟨e.backendLibDir ++ [0x2F], ?_⟩
    simp [BackendFile.path, joinPath, BackendFile.name]
  | glLib =>
    refine ⟨e.backendLibDir ++ [0x2F], ?_⟩
    simp [BackendFile.path, joinPath, BackendFile.name]
  | wrapper =>
    refine ⟨envOr e.home [] ++ ascii "/.local/bin/", ?_⟩
    rw [List.append_assoc]
    rfl
  | manifest =>
    refine ⟨e.dataHome ++ ascii "/vulkan/implicit_layer.d/", ?_⟩
    rw [List.append_assoc]
    rfl

theorem name_not_config (f : BackendFile) : ¬ ascii "g.json" <:+ f.name := by
  cases f <;> decide

theorem configPath_ne (e : HomeEnviron) (f : BackendFile) : f.path e.toEnviron ≠ e.configPath := by
  intro h
  obtain ⟨front, hfront⟩ := path_eq e.toEnviron f
  have hname : f.name <:+ f.path e.toEnviron := ⟨front, hfront.symm⟩
  have hconfig : ascii "g.json" <:+ f.path e.toEnviron := by
    rw [h, HomeEnviron.configPath]
    exact (List.suffix_append_of_suffix (by decide))
  have hlen : (ascii "g.json").length ≤ f.name.length := by cases f <;> decide
  exact name_not_config f (List.suffix_of_suffix_length_le hconfig hname hlen)

/-! ## The processes -/

/-- What a launch meets. -/
structure LaunchEnv where
  /-- How the read of the configuration ends. -/
  read : Outcome := .ok
  fresh : FreshEnv := {}
  /-- The answer to the question, if it is asked. -/
  answer : Bool := false
  save : InPlaceEnv := {}
  install : InstallEnv := {}

section

variable (lib : JsonLib) (dump2 : Json → Option Bytes) (isSpace : Char → Bool) (e : HomeEnviron)

/-- `Config::load`; a file that cannot be read is as good as none. -/
def loaded (read : Outcome) : Proc Files Config :=
  (ask read).bind fun ok =>
    reading (fun fs => Config.load lib (if ok then fs e.configPath else none)) done

/-- `sync_appimage_backends`, with the configuration it leaves. -/
def syncBackends (env : LaunchEnv) (src : AnyPayload) (c : Config) : Proc Files Config :=
  (backendsUpToDate e.toEnviron env.fresh src).bind fun fresh =>
    if fresh then done c
    else
      let answered := syncAppimageBackends (some env.answer) c
      (if c.backendConsent = Config.kBackendUnasked then
        Config.save lib env.save e.configPath answered
      else done true).bind fun _ =>
        if answered.backendConsent ≠ Config.kBackendGranted then done answered
        else (installBackends dump2 e.toEnviron env.install src).bind fun _ => done answered

/-- `main` up to its components; the payload is there under an AppImage. -/
def launched (env : LaunchEnv) (src : Option AnyPayload) : Proc Files Config :=
  (loaded lib e env.read).bind fun c =>
    match src with
    | none => done c
    | some src => syncBackends lib dump2 e env src c

/-- `on_save_clicked` -/
def saveClicked (env : InPlaceEnv) (widgets : Widgets) (c : Config) : Proc Files Config :=
  let gathered := widgets.gather isSpace c
  (Config.save lib env e.configPath gathered).bind fun _ => done gathered

/-- `on_install_backends_clicked` -/
def installClicked (install : InstallEnv) (save : InPlaceEnv) (src : AnyPayload) (c : Config) :
    Proc Files Config :=
  let granted := { c with backendConsent := Config.kBackendGranted }
  (installBackends dump2 e.toEnviron install src).bind fun _ =>
    (Config.save lib save e.configPath granted).bind fun _ => done granted

/-- What `--uninstall` does about the consent. -/
def forgetConsent (read : Outcome) (save : InPlaceEnv) : Proc Files Bool :=
  (loaded lib e read).bind fun c =>
    if c.backendConsent ≠ Config.kBackendUnasked then
      Config.save lib save e.configPath { c with backendConsent := Config.kBackendUnasked }
    else done true

/-- `--uninstall` -/
def uninstallCommand (env : UninstallEnv) (read : Outcome) (save : InPlaceEnv) :
    Proc Files Bool :=
  (uninstallBackends e.toEnviron env).bind fun ok =>
    (forgetConsent lib e read save).bind fun _ => done ok

end

/-- The home of a user. -/
structure Home where
  files : Files
  /-- The configurations of the hosts that run; a settings window has the same. -/
  hosts : Nat → Option Config := fun _ => none
  /-- What the last event passed. -/
  passed : List Files := []

namespace Home

inductive Event where
  | launch (id : Nat) (env : LaunchEnv) (src : Option AnyPayload)
  | quit (id : Nat)
  | saveClicked (id : Nat) (env : InPlaceEnv) (widgets : Widgets)
  | installClicked (id : Nat) (install : InstallEnv) (save : InPlaceEnv) (src : AnyPayload)
  | uninstall (env : UninstallEnv) (read : Outcome) (save : InPlaceEnv)

/-- A host does something, and goes on with a configuration or is gone. -/
def act (id : Nat) (p : Proc Files Config) (h : Home) : Home :=
  { files := p.last h.files
    hosts := Function.update h.hosts id (p h.files).result
    passed := (p h.files).moments }

variable (lib : JsonLib) (dump2 : Json → Option Bytes) (isSpace : Char → Bool) (e : HomeEnviron)

def step (h : Home) : Event → Home
  | .launch id env src => h.act id (launched lib dump2 e env src)
  | .quit id => { h with hosts := Function.update h.hosts id none, passed := [] }
  | .saveClicked id env widgets =>
    match h.hosts id with
    | none => { h with passed := [] }
    | some c => h.act id (saveClicked lib isSpace e env widgets c)
  | .installClicked id install save src =>
    match h.hosts id with
    | none => { h with passed := [] }
    | some c => h.act id (installClicked lib dump2 e install save src c)
  | .uninstall env read save =>
    let p := uninstallCommand lib e env read save
    { h with files := p.last h.files, passed := (p h.files).moments }

/-- The user does not agree to an install. -/
def Event.Refuses : Event → Prop
  | .launch _ env _ => env.answer = false
  | .installClicked .. => False
  | .quit _ | .saveClicked .. | .uninstall .. => True

end Home

/-! ## Written in place -/

section

variable {G : Files → Prop} {path text : Bytes}

/-- What holds while the file is any front of the text. -/
theorem triple_writeAll (hG : ∀ fs front, G fs → front <+: text →
      G (Function.update fs path (some front))) (ws : List FileWrite) (left : Bytes) :
    Triple G (fun fs => G fs ∧ ∃ written, fs path = some written ∧ written ++ left = text)
      (writeAll path ws left) fun _ => G := by
  have happend {fs : Files} {more left : Bytes} (hmore : more <+: left)
      (h : G fs ∧ ∃ written, fs path = some written ∧ written ++ left = text) :
      G (appendTo path more fs) := by
    obtain ⟨hfs, written, hpath, rfl⟩ := h
    rw [appendTo, hpath, Option.map_some]
    exact hG fs _ hfs ((List.prefix_append_right_inj written).mpr hmore)
  induction ws generalizing left with
  | nil =>
    unfold writeAll
    split
    · exact .done fun _ h => h.1
    · refine (Triple.op .ok fun fs h => happend List.prefix_rfl h).imp (fun _ h => h) ?_
      rintro ok _ ⟨fs, h, rfl⟩
      split
      · exact happend List.prefix_rfl h
      · exact h.1
  | cons w ws ih =>
    unfold writeAll
    split
    · exact .done fun _ h => h.1
    · cases w with
      | wrote n =>
        refine (Triple.op .ok fun fs h => happend (List.take_prefix n left) h).andThen
          ((ih (left.drop n)).imp ?_ fun _ _ h => h) ?_
        · rintro _ ⟨fs, h, rfl⟩
          refine ⟨happend (List.take_prefix n left) h, ?_⟩
          obtain ⟨-, written, hpath, hwritten⟩ := h
          refine ⟨written ++ left.take n, ?_, ?_⟩
          · simp [appendTo, hpath]
          · rw [List.append_assoc, List.take_append_drop, hwritten]
        · rintro _ ⟨fs, h, rfl⟩
          exact h.1
      | interrupted => exact ih left
      | fails => exact .done fun _ h => h.1
      | dies => exact .die

variable {P : Files → Prop} {env : InPlaceEnv}

/-- What follows once the file is open and empty. -/
theorem triple_writeInPlace_of_open (hopen : env.opens = .ok)
    (hempty : ∀ fs, P fs → G (Function.update fs path (some [])))
    (hG : ∀ fs front, G fs → front <+: text → G (Function.update fs path (some front))) :
    Triple G P (writeInPlace env path text) fun _ => G := by
  unfold writeInPlace
  rw [hopen]
  refine (Triple.op_ok hempty).andThen ?_ fun fs h => absurd h.1 Bool.false_ne_true
  refine Triple.bind (Q := fun _ => G) ?_ fun ok => ?_
  · refine (triple_writeAll hG env.writes text).imp ?_ fun _ _ h => h
    rintro _ ⟨-, fs, h, rfl⟩
    exact ⟨hempty fs h, [], Function.update_self .., rfl⟩
  · exact (Triple.ask env.close).bind fun _ => .done fun _ h => h

theorem triple_writeInPlace
    (hG : ∀ fs front, G fs → front <+: text → G (Function.update fs path (some front))) :
    Triple G G (writeInPlace env path text) fun _ => G := by
  cases hopen : env.opens with
  | ok => exact triple_writeInPlace_of_open hopen (fun fs h => hG fs [] h List.nil_prefix) hG
  | fails =>
    unfold writeInPlace
    rw [hopen]
    exact .done fun _ h => h
  | dies =>
    unfold writeInPlace
    rw [hopen]
    exact .die

end

/-! ## Without consent -/

section

variable {lib : JsonLib} {dump2 : Json → Option Bytes} {isSpace : Char → Bool} {e : HomeEnviron}
  {v : Installed} {c : Config} {fs : Files}

/-- A configuration a host may hold. -/
structure Config.Held (c : Config) : Prop where
  appearance : c.appearance.Narrow
  consents : c.Consents

theorem Config.Held.typed (h : c.Held) : c.Typed where
  appearance := h.appearance
  backendConsent := by
    have hlo : 0 ≤ c.backendConsent := h.consents.1
    have hhi : c.backendConsent ≤ 2 := h.consents.2
    omega

/-- The files name no consent, and there is no file that was not there. -/
structure Unasked (lib : JsonLib) (e : HomeEnviron) (v : Installed) (fs : Files) : Prop where
  consent : (Config.load lib (fs e.configPath)).backendConsent ≠ Config.kBackendGranted
  files : ∀ f, installed e.toEnviron fs f = v f ∨ installed e.toEnviron fs f = none

theorem installed_update_config (content : Option Bytes) :
    installed e.toEnviron (Function.update fs e.configPath content) = installed e.toEnviron fs := by
  funext f
  exact Function.update_of_ne (configPath_ne e f) ..

/-- A save of a configuration without consent leaves no consent, however much of it is
written. -/
theorem load_front_consent (hlib : lib.Documented) (hfronts : lib.RefusesFronts) (hc : c.Held)
    (hconsent : c.backendConsent ≠ Config.kBackendGranted) {text front : Bytes}
    (htext : lib.dump c.toJson = some text) (hfront : front <+: text) :
    (Config.load lib (some front)).backendConsent ≠ Config.kBackendGranted := by
  by_cases hwhole : front = text
  · rw [hwhole, Config.load_text hlib hc.typed htext, Config.stored]
    dsimp only
    split
    · exact hconsent
    · decide
  · rw [Config.load_front hlib hfronts hc.typed htext hfront hwhole]
    decide

theorem save_unasked (hlib : lib.Documented) (hfronts : lib.RefusesFronts) (hc : c.Held)
    (hconsent : c.backendConsent ≠ Config.kBackendGranted) (env : InPlaceEnv) :
    Triple (Unasked lib e v) (Unasked lib e v) (Config.save lib env e.configPath c) fun _ =>
      Unasked lib e v := by
  unfold Config.save
  cases htext : lib.dump c.toJson with
  | none => exact .die
  | some text =>
    refine triple_writeInPlace fun fs front h hfront => ⟨?_, fun f => ?_⟩
    · rw [Function.update_self]
      exact load_front_consent hlib hfronts hc hconsent htext hfront
    · rw [installed_update_config]
      exact h.files f

theorem uninstall_unasked (env : UninstallEnv) :
    Triple (Unasked lib e v) (Unasked lib e v) (uninstallBackends e.toEnviron env) fun _ =>
      Unasked lib e v := by
  have hremoved (f : BackendFile) (fs : Files) (h : Unasked lib e v fs) :
      Unasked lib e v (removeFile (f.path e.toEnviron) fs) := by
    refine ⟨?_, fun g => ?_⟩
    · rw [removeFile, Function.update_of_ne (configPath_ne e f).symm]
      exact h.consent
    · rw [installed_removeFile]
      by_cases hg : g = f
      · rw [hg, Installed.set_self]
        exact .inr rfl
      · rw [Installed.set_of_ne hg]
        exact h.files g
  have hall (files : List (Outcome × BackendFile)) (ok : Bool) :
      Triple (Unasked lib e v) (Unasked lib e v)
        (removeAll (files.map fun x => (x.1, x.2.path e.toEnviron)) ok) fun _ =>
          Unasked lib e v := by
    induction files generalizing ok with
    | nil => exact .done fun _ h => h
    | cons file rest ih => exact (Triple.op_keeps file.1 (hremoved file.2)).bind fun _ => ih _
  refine (hall env.files true).bind fun ok => (Triple.ask env.dir).bind fun _ => ?_
  exact .done fun _ h => h

theorem fresh_keeps {C P : Files → Prop} (env : FreshEnv) (src : AnyPayload) :
    Triple C P (backendsUpToDate e.toEnviron env src) fun _ => P := by
  have hread {P : Files → Prop} (r : FileRead) (content : Option Bytes) :
      Triple C P (readFile r content) fun _ => P := by
    cases r with
    | whole => exact .done fun _ h => h
    | cut n => exact .done fun _ h => h
    | fails => exact .done fun _ h => h
    | dies => exact .die
  have hsame {P : Files → Prop} (r r' : FileRead) (a b : Option Bytes) :
      Triple C P (sameFile r r' a b) fun _ => P := by
    refine (hread r a).bind fun src => ?_
    cases src with
    | none => exact .done fun _ h => h
    | some src =>
      refine (hread r' b).bind fun dst => ?_
      cases dst <;> exact .done fun _ h => h
  intro fs hfs
  exact Triple.andThen (hsame _ _ _ _) (hsame _ _ _ _) (fun _ h => h) fs hfs

theorem held_load (lib : JsonLib) (file : Option Bytes) : (Config.load lib file).Held :=
  ⟨Config.load_narrow lib file, Config.load_backendConsent lib file⟩

theorem Config.Held.forget (h : c.Held) :
    { c with backendConsent := Config.kBackendUnasked }.Held :=
  ⟨h.appearance, by dsimp only; decide, by dsimp only; decide⟩

/-- A configuration that was read, or would be if there was none. -/
theorem triple_loaded {G P : Files → Prop} (read : Outcome) :
    Triple G P (loaded lib e read) fun c fs => P fs ∧ ∃ ok : Bool,
      (read = .ok → ok = true) ∧
        Config.load lib (if ok then fs e.configPath else none) = c := by
  have hload (ok : Bool) (hok : read = .ok → ok = true) :
      Triple G P (reading (fun fs => Config.load lib (if ok then fs e.configPath else none)) done)
        fun c fs => P fs ∧ ∃ ok : Bool, (read = .ok → ok = true) ∧
          Config.load lib (if ok then fs e.configPath else none) = c :=
    Triple.reading fun _ => .done fun _ h => ⟨h.1, ok, hok, h.2⟩
  cases read with
  | ok => exact hload true fun _ => rfl
  | fails => exact hload false fun h => by cases h
  | dies => exact .die

theorem held_loaded {fs : Files} (ok : Bool) :
    (Config.load lib (if ok then fs e.configPath else none)).Held := held_load lib _

/-- Where no consent is written none is loaded, read or not. -/
theorem Unasked.loaded (h : Unasked lib e v fs) (ok : Bool) :
    (Config.load lib (if ok then fs e.configPath else none)).backendConsent ≠
      Config.kBackendGranted := by
  cases ok with
  | true => exact h.consent
  | false => exact (by decide : Config.fallback.backendConsent ≠ Config.kBackendGranted)

theorem forget_unasked (hlib : lib.Documented) (hfronts : lib.RefusesFronts) (read : Outcome)
    (save : InPlaceEnv) :
    Triple (Unasked lib e v) (Unasked lib e v) (forgetConsent lib e read save) fun _ =>
      Unasked lib e v := by
  refine (triple_loaded read).bind fun c => ?_
  split
  · rintro fs ⟨hfs, ok, -, rfl⟩
    have hheld : (Config.load lib (if ok then fs e.configPath else none)).Held := held_loaded ok
    have hforgotten := hheld.forget
    exact save_unasked hlib hfronts hforgotten (by dsimp only; decide) save fs hfs
  · exact .done fun _ h => h.1

theorem uninstallCommand_unasked (hlib : lib.Documented) (hfronts : lib.RefusesFronts)
    (env : UninstallEnv) (read : Outcome) (save : InPlaceEnv) :
    Triple (Unasked lib e v) (Unasked lib e v) (uninstallCommand lib e env read save) fun _ =>
      Unasked lib e v := by
  refine (uninstall_unasked env).bind fun ok => ?_
  exact (forget_unasked hlib hfronts read save).bind fun _ => .done fun _ h => h

/-- A host without consent, and its files. -/
def Declining (lib : JsonLib) (e : HomeEnviron) (v : Installed) (c : Config) (fs : Files) : Prop :=
  (c.Held ∧ c.backendConsent ≠ Config.kBackendGranted) ∧ Unasked lib e v fs

theorem held_answered (answer : Bool) (hc : c.Held) :
    (syncAppimageBackends (some answer) c).Held := by
  unfold syncAppimageBackends
  dsimp only
  split
  · cases answer with
    | true => exact ⟨hc.appearance, consents_granted c⟩
    | false => exact ⟨hc.appearance, consents_declined c⟩
  · exact hc

theorem launched_unasked (hlib : lib.Documented) (hfronts : lib.RefusesFronts) {env : LaunchEnv}
    (hanswer : env.answer = false) (src : Option AnyPayload) :
    Triple (Unasked lib e v) (Unasked lib e v) (launched lib dump2 e env src)
      (Declining lib e v) := by
  refine (triple_loaded env.read).bind fun c => ?_
  rintro fs ⟨hfs, ok, -, hload⟩
  have hheld : c.Held := hload ▸ held_loaded ok
  have hconsent : c.backendConsent ≠ Config.kBackendGranted := hload ▸ hfs.loaded ok
  cases src with
  | none => exact (Triple.done fun _ h => ⟨⟨hheld, hconsent⟩, h⟩) fs hfs
  | some src =>
    -- The answer is no, if it comes to one.
    have hanswered : (syncAppimageBackends (some env.answer) c).Held ∧
        (syncAppimageBackends (some env.answer) c).backendConsent ≠ Config.kBackendGranted := by
      refine ⟨held_answered env.answer hheld, ?_⟩
      rw [hanswer]
      unfold syncAppimageBackends
      dsimp only
      split
      · show Config.kBackendDeclined ≠ Config.kBackendGranted
        decide
      · exact hconsent
    have hsync : Triple (Unasked lib e v) (Unasked lib e v) (syncBackends lib dump2 e env src c)
        (Declining lib e v) := by
      refine (fresh_keeps env.fresh src).bind fun fresh => ?_
      split
      · exact .done fun _ h => ⟨⟨hheld, hconsent⟩, h⟩
      · refine Triple.bind (Q := fun _ => Unasked lib e v) ?_ fun _ => ?_
        · split
          · exact save_unasked hlib hfronts hanswered.1 hanswered.2 env.save
          · exact .done fun _ h => h
        · rw [if_pos hanswered.2]
          exact .done fun _ h => ⟨hanswered, h⟩
    exact hsync fs hfs

theorem saveClicked_unasked (hlib : lib.Documented) (hfronts : lib.RefusesFronts) (hc : c.Held)
    (hconsent : c.backendConsent ≠ Config.kBackendGranted) (env : InPlaceEnv) (widgets : Widgets) :
    Triple (Unasked lib e v) (Unasked lib e v) (saveClicked lib isSpace e env widgets c)
      (Declining lib e v) := by
  have hgathered : (widgets.gather isSpace c).Held := ⟨widgets.narrow_gather isSpace, hc.consents⟩
  refine (save_unasked hlib hfronts hgathered hconsent env).bind fun _ => ?_
  exact .done fun _ h => ⟨⟨hgathered, hconsent⟩, h⟩

namespace Home

/-- No host has a consent, and there was none at any moment of the last event. -/
structure Clear (lib : JsonLib) (e : HomeEnviron) (v : Installed) (h : Home) : Prop where
  files : ∀ fs ∈ h.files :: h.passed, Unasked lib e v fs
  hosts : ∀ id c, h.hosts id = some c → c.Held ∧ c.backendConsent ≠ Config.kBackendGranted

variable {h : Home}

theorem Clear.act (hh : h.Clear lib e v) (id : Nat) {p : Proc Files Config}
    (hp : Triple (Unasked lib e v) (Unasked lib e v) p (Declining lib e v)) :
    (h.act id p).Clear lib e v := by
  have hfs := hh.files h.files List.mem_cons_self
  refine ⟨List.forall_mem_cons.mpr ⟨hp.last hfs hfs, (hp h.files hfs).1⟩, fun id' c hc => ?_⟩
  simp only [Home.act, Function.update_apply] at hc
  split at hc
  · exact ((hp h.files hfs).2 c hc).1
  · exact hh.hosts id' c hc

theorem Clear.still (hh : h.Clear lib e v) : ({ h with passed := [] } : Home).Clear lib e v :=
  ⟨List.forall_mem_singleton.mpr (hh.files h.files List.mem_cons_self), hh.hosts⟩

theorem Clear.step (hlib : lib.Documented) (hfronts : lib.RefusesFronts) (hh : h.Clear lib e v)
    {ev : Event} (hev : ev.Refuses) : (h.step lib dump2 isSpace e ev).Clear lib e v := by
  cases ev with
  | launch id env src => exact hh.act id (launched_unasked hlib hfronts hev src)
  | quit id =>
    refine ⟨hh.still.files, fun id' c hc => ?_⟩
    simp only [Home.step, Function.update_apply] at hc
    split at hc
    · cases hc
    · exact hh.hosts id' c hc
  | saveClicked id env widgets =>
    simp only [Home.step]
    cases hhost : h.hosts id with
    | none => exact hh.still
    | some c =>
      obtain ⟨hheld, hconsent⟩ := hh.hosts id c hhost
      exact hh.act id (saveClicked_unasked hlib hfronts hheld hconsent env widgets)
  | installClicked id install save src => exact hev.elim
  | uninstall env read save =>
    have hfs := hh.files h.files List.mem_cons_self
    have hp := uninstallCommand_unasked (e := e) (v := v) hlib hfronts env read save
    exact ⟨List.forall_mem_cons.mpr ⟨hp.last hfs hfs, (hp h.files hfs).1⟩, hh.hosts⟩

theorem Clear.run (hlib : lib.Documented) (hfronts : lib.RefusesFronts) (hh : h.Clear lib e v)
    {es : List Event} (hes : ∀ ev ∈ es, ev.Refuses) :
    (Machine.run (Home.step lib dump2 isSpace e) h es).Clear lib e v :=
  (Machine.along_of_forall hes).invariant (P := Clear lib e v)
    (fun _ _ hh hev => hh.step hlib hfronts hev) hh

/-- However often Choir is started, saves its settings and is uninstalled, with anything failing
and any process dying at any moment: as long as the user never agrees to an install, each of the
overlay's files is at every moment as it was, or gone. -/
theorem nothing_installed_unasked (hlib : lib.Documented) (hfronts : lib.RefusesFronts)
    (files : Files)
    (hconsent : (Config.load lib (files e.configPath)).backendConsent ≠ Config.kBackendGranted)
    (es : List Event) (hes : ∀ ev ∈ es, ev.Refuses) :
    ∀ fs ∈ (Machine.run (step lib dump2 isSpace e) { files } es).files ::
        (Machine.run (step lib dump2 isSpace e) { files } es).passed,
      ∀ f, installed e.toEnviron fs f = installed e.toEnviron files f ∨
        installed e.toEnviron fs f = none := by
  have hstart : Clear lib e (installed e.toEnviron files) { files } :=
    ⟨List.forall_mem_singleton.mpr ⟨hconsent, fun _ => .inl rfl⟩, fun _ _ hc => by cases hc⟩
  exact fun fs hfs => ((hstart.run hlib hfronts hes).files fs hfs).files

/-- An AppImage that is started, declined, and started again after an uninstall. -/
def declined : List Event :=
  [.launch 0 {} (some Disk.oneAppImage), .quit 0, .uninstall {} .ok {},
    .launch 1 { save := { opens := .fails } } (some Disk.oneAppImage)]

/-- The answer was saved, and forgotten by the uninstall. -/
theorem nothing_installed_unasked_declined :
    (let h := Machine.run (step compactJson (fun _ => some []) (fun _ => false) {})
        { files := fun _ => none } (declined.take 2)
    (Config.load compactJson (h.files ({} : HomeEnviron).configPath)).backendConsent =
      Config.kBackendDeclined) ∧
      ∀ fs ∈ (Machine.run (step compactJson (fun _ => some []) (fun _ => false) {})
          { files := fun _ => none } declined).files ::
          (Machine.run (step compactJson (fun _ => some []) (fun _ => false) {})
            { files := fun _ => none } declined).passed,
        ∀ f, installed {} fs f = installed {} (fun _ => none) f ∨ installed {} fs f = none := by
  refine ⟨by decide +kernel, ?_⟩
  refine nothing_installed_unasked (e := {}) compactJson_documented compactJson_refusesFronts
    (fun _ => none) (by decide) declined ?_
  exact List.forall_mem_cons.mpr ⟨rfl, List.forall_mem_cons.mpr ⟨trivial,
    List.forall_mem_cons.mpr ⟨trivial, List.forall_mem_singleton.mpr rfl⟩⟩⟩

end Home

/-! ## Uninstalled -/

/-- What `uninstall_backends` has removed so far, where it says that all is well. -/
theorem removeAll_gone (files : List (Outcome × Bytes)) (ok : Bool) (gone : List Bytes) :
    Triple (fun _ => True) (fun fs => ok = true → ∀ path ∈ gone, fs path = none)
      (removeAll files ok) fun ok fs =>
        ok = true → ∀ path ∈ gone ++ files.map Prod.snd, fs path = none := by
  induction files generalizing ok gone with
  | nil =>
    refine .done fun fs h => ?_
    rw [List.map_nil, List.append_nil]
    exact h
  | cons file rest ih =>
    obtain ⟨o, path⟩ := file
    refine (Triple.op o fun _ _ => trivial).bind fun removed => ?_
    refine (ih (ok && removed) (gone ++ [path])).imp ?_ fun ok fs h => ?_
    · rintro _ ⟨fs, h, rfl⟩ hok q hq
      rw [Bool.and_eq_true] at hok
      rw [hok.2, if_pos rfl, removeFile, Function.update_apply]
      split
      · rfl
      · rename_i hne
        rcases List.mem_append.mp hq with hq | hq
        · exact h hok.1 q hq
        · exact absurd (List.mem_singleton.mp hq) hne
    · rw [List.append_assoc] at h
      exact h

theorem uninstall_gone (env : UninstallEnv) :
    Triple (fun _ => True) (fun _ => True) (uninstallBackends e.toEnviron env) fun ok fs =>
      ok = true → ∀ f, installed e.toEnviron fs f = none := by
  refine Triple.bind (Q := fun ok fs => ok = true → ∀ f, installed e.toEnviron fs f = none) ?_
    fun ok => (Triple.ask env.dir).bind fun _ => .done fun _ h => h
  refine (removeAll_gone (env.files.map fun x => (x.1, x.2.path e.toEnviron)) true []).imp ?_ ?_
  · exact fun _ _ _ _ hq => absurd hq List.not_mem_nil
  · intro ok fs h hok f
    refine h hok (f.path e.toEnviron) ?_
    rw [List.nil_append, List.map_map]
    refine List.mem_map.mpr ?_
    cases f with
    | manifest => exact ⟨(env.manifest, .manifest), by simp [UninstallEnv.files], rfl⟩
    | wrapper => exact ⟨(env.wrapper, .wrapper), by simp [UninstallEnv.files], rfl⟩
    | layerLib => exact ⟨(env.layer, .layerLib), by simp [UninstallEnv.files], rfl⟩
    | glLib => exact ⟨(env.gl, .glLib), by simp [UninstallEnv.files], rfl⟩

/-- Where the configuration can be opened no consent is left, however much of the new text is
written. -/
theorem save_forgets (hlib : lib.Documented) (hfronts : lib.RefusesFronts) (hc : c.Held)
    (hconsent : c.backendConsent ≠ Config.kBackendGranted) {save : InPlaceEnv}
    (hopen : save.opens = .ok) :
    Triple (Unasked lib e v) (fun fs => ∀ f, installed e.toEnviron fs f = none)
      (Config.save lib save e.configPath c) fun _ => Unasked lib e v := by
  unfold Config.save
  cases htext : lib.dump c.toJson with
  | none => exact .die
  | some text =>
    have hfront {fs : Files} {front : Bytes} (hfront : front <+: text) :
        (Config.load lib (Function.update fs e.configPath (some front) e.configPath)).backendConsent
          ≠ Config.kBackendGranted := by
      rw [Function.update_self]
      exact load_front_consent hlib hfronts hc hconsent htext hfront
    refine triple_writeInPlace_of_open hopen (fun fs h => ⟨hfront List.nil_prefix, fun f => ?_⟩)
      fun fs front h hcut => ⟨hfront hcut, fun f => ?_⟩
    · rw [installed_update_config]
      exact .inr (h f)
    · rw [installed_update_config]
      exact h.files f

theorem forgetConsent_forgets (hlib : lib.Documented) (hfronts : lib.RefusesFronts)
    {save : InPlaceEnv} (hopen : save.opens = .ok) :
    Triple (Unasked lib e v) (fun fs => ∀ f, installed e.toEnviron fs f = none)
      (forgetConsent lib e .ok save) fun _ => Unasked lib e v := by
  refine (triple_loaded .ok).bind fun c => ?_
  split
  · rintro fs ⟨hfs, ok, -, rfl⟩
    have hheld : (Config.load lib (if ok then fs e.configPath else none)).Held := held_loaded ok
    have hforgotten := hheld.forget
    exact save_forgets hlib hfronts hforgotten (by dsimp only; decide) hopen fs hfs
  · rename_i hasked
    refine .done fun fs ⟨hfs, ok, hok, hload⟩ => ⟨?_, fun f => .inr (hfs f)⟩
    rw [hok rfl, if_pos rfl] at hload
    rw [hload, not_not.mp hasked]
    decide

/-- An uninstall that succeeds leaves none of the files and no consent, where the
configuration can be read and opened. -/
theorem uninstallCommand_gone (hlib : lib.Documented) (hfronts : lib.RefusesFronts)
    (env : UninstallEnv) {save : InPlaceEnv} (hopen : save.opens = .ok) :
    Triple (fun _ => True) (fun _ => True) (uninstallCommand lib e env .ok save) fun ok fs =>
      ok = true → Unasked lib e (fun _ => none) fs := by
  refine (uninstall_gone env).bind fun ok => ?_
  cases ok with
  | false => exact (Triple.any _).bind fun _ => .done fun _ _ h => absurd h Bool.false_ne_true
  | true =>
    refine Triple.bind (Q := fun _ => Unasked lib e fun _ => none) ?_ fun _ => ?_
    · have hforgotten := forgetConsent_forgets (e := e) (v := fun _ => none) hlib hfronts hopen
      exact (hforgotten.weaken fun _ _ => trivial).imp (fun _ h => h rfl) fun _ _ h => h
    · exact .done fun _ h _ => h

/-! ## What a host holds -/

theorem syncBackends_held (hc : c.Held) (env : LaunchEnv) (src : AnyPayload) :
    Triple (fun _ => True) (fun _ => True) (syncBackends lib dump2 e env src c) fun c _ =>
      c.Held := by
  refine (Triple.any _).bind fun fresh => ?_
  split
  · exact .done fun _ _ => hc
  · refine (Triple.any _).bind fun _ => ?_
    have hanswered := held_answered env.answer hc
    split
    · exact .done fun _ _ => hanswered
    · exact (Triple.any _).bind fun _ => .done fun _ _ => hanswered

theorem launched_held (env : LaunchEnv) (src : Option AnyPayload) :
    Triple (fun _ => True) (fun _ => True) (launched lib dump2 e env src) fun c _ => c.Held := by
  refine (triple_loaded env.read).bind fun c => ?_
  rintro fs ⟨-, ok, -, hload⟩
  have hheld : c.Held := hload ▸ held_loaded ok
  cases src with
  | none =>
    refine Triple.done (P := fun _ => True) (Q := fun (c : Config) _ => c.Held) ?_ fs trivial
    exact fun _ _ => hheld
  | some src => exact syncBackends_held hheld env src fs trivial

namespace Home

/-- Every host holds a configuration it may hold. -/
def Held (h : Home) : Prop := ∀ id c, h.hosts id = some c → c.Held

theorem Held.act {h : Home} (hh : h.Held) (id : Nat) {p : Proc Files Config}
    (hp : Triple (fun _ => True) (fun _ => True) p fun c _ => c.Held) : (h.act id p).Held := by
  intro id' c hc
  simp only [Home.act, Function.update_apply] at hc
  split at hc
  · exact (hp h.files trivial).2 c hc
  · exact hh id' c hc

theorem Held.step {h : Home} (hh : h.Held) (ev : Event) :
    (h.step lib dump2 isSpace e ev).Held := by
  cases ev with
  | launch id env src => exact hh.act id (launched_held env src)
  | quit id =>
    intro id' c hc
    simp only [Home.step, Function.update_apply] at hc
    split at hc
    · cases hc
    · exact hh id' c hc
  | saveClicked id env widgets =>
    simp only [Home.step]
    cases hhost : h.hosts id with
    | none => exact hh
    | some c =>
      refine hh.act id ((Triple.any _).bind fun _ => .done fun _ _ => ?_)
      exact ⟨widgets.narrow_gather isSpace, (hh id c hhost).consents⟩
  | installClicked id install save src =>
    simp only [Home.step]
    cases hhost : h.hosts id with
    | none => exact hh
    | some c =>
      refine hh.act id ((Triple.any _).bind fun _ => (Triple.any _).bind fun _ => ?_)
      refine .done fun _ _ => ?_
      exact ⟨(hh id c hhost).appearance, consents_granted c⟩
  | uninstall env read save => exact hh

theorem Held.run {h : Home} (hh : h.Held) (es : List Event) :
    (Machine.run (Home.step lib dump2 isSpace e) h es).Held := by
  refine Machine.run_invariant (P := Held) (fun _ ev hh => ?_) hh es
  exact hh.step ev

/-- After an uninstall that removes every file and can read and open the configuration, with no
host running that holds the consent, none of the overlay's files is there at any moment until the
user agrees to an install again. -/
theorem uninstalled_stays_gone (hlib : lib.Documented) (hfronts : lib.RefusesFronts)
    (files : Files) (es : List Event) (env : UninstallEnv) {save : InPlaceEnv}
    (hopen : save.opens = .ok)
    (hhosts : ∀ id c, (Machine.run (step lib dump2 isSpace e) { files } es).hosts id = some c →
      c.backendConsent ≠ Config.kBackendGranted)
    (huninstalled : (uninstallCommand lib e env .ok save
      (Machine.run (step lib dump2 isSpace e) { files } es).files).result = some true)
    (later : List Event) (hlater : ∀ ev ∈ later, ev.Refuses) :
    let gone := (Machine.run (step lib dump2 isSpace e) { files } es).step lib dump2 isSpace e
      (.uninstall env .ok save)
    let h := Machine.run (step lib dump2 isSpace e) { gone with passed := [] } later
    ∀ fs ∈ h.files :: h.passed, ∀ f, installed e.toEnviron fs f = none := by
  intro gone h
  have hheld : (Machine.run (step lib dump2 isSpace e) { files } es).Held :=
    Held.run (fun _ _ hc => by cases hc) es
  have hfiles := (uninstallCommand_gone hlib hfronts env hopen _ trivial).2 true huninstalled rfl
  have hstart : Clear lib e (fun _ => none) { gone with passed := [] } :=
    ⟨List.forall_mem_singleton.mpr hfiles, fun id c hc => ⟨hheld id c hc, hhosts id c hc⟩⟩
  intro fs hfs f
  exact or_self_iff.mp (((hstart.run hlib hfronts hlater).files fs hfs).files f)

/-- An AppImage that is started, agreed to and left. -/
def agreed : List Event := [.launch 0 { answer := true } (some Disk.oneAppImage), .quit 0]

theorem uninstalled_stays_gone_agreed :
    installed {} (Machine.run (step compactJson (fun _ => some []) (fun _ => false) {})
        { files := fun _ => none } agreed).files .layerLib = some (ascii "layer") ∧
      (let gone := (Machine.run (step compactJson (fun _ => some []) (fun _ => false) {})
        { files := fun _ => none } agreed).step compactJson (fun _ => some []) (fun _ => false) {}
        (.uninstall {} .ok {})
      let h := Machine.run (step compactJson (fun _ => some []) (fun _ => false) {})
        { gone with passed := [] } [.launch 1 {} (some Disk.oneAppImage)]
      ∀ fs ∈ h.files :: h.passed, ∀ f, installed {} fs f = none) := by
  refine ⟨by decide +kernel, ?_⟩
  refine uninstalled_stays_gone (e := {}) compactJson_documented compactJson_refusesFronts
    (fun _ => none) agreed {} rfl ?_ (by decide +kernel) [.launch 1 {} (some Disk.oneAppImage)]
    (List.forall_mem_singleton.mpr rfl)
  intro id c hc
  simp only [agreed, Machine.run_cons, Machine.run_nil, Home.step, Home.act,
    Function.update_idem, Function.update_apply] at hc
  split at hc <;> cases hc

end Home

end

end Choir
