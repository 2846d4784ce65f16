-- SUMMARY: The settings window: what it gathers and saves, and that a restart puts the same in force, unless the denylist was emptied.
import ChoirOverlay.Discord.Bidi
import ChoirOverlay.Host.ConfigFile
import ChoirOverlay.Machine.Run

/-!
# Settings

What the window saves is in force at once, and again from the file after a
restart. The two are compared over every use of the window. Which characters
`QString::trimmed` takes for spaces is left open.
-/

namespace Choir

open Crash Machine

/-! ## The widgets -/

/-- What the widgets can be set to. -/
structure Widgets where
  anchor : Int
  scale : { n : Nat // 50 ≤ n ∧ n ≤ 300 }
  hdrNits : { n : Nat // 80 ≤ n ∧ n ≤ 1000 }
  showAll : Bool
  toastAnchor : Int
  toastDuration : { n : Nat // 500 ≤ n ∧ n ≤ 60000 }
  /-- `toPlainText`. -/
  denylist : List Char

/-- `index_to_anchor` -/
def indexToAnchor (i : Int) : Anchor := Anchor.ofByte (if i < 0 ∨ 5 < i then 1 else i.toNat)

/-- `QString::trimmed` -/
def trimmed (isSpace : Char → Bool) (line : List Char) : List Char :=
  (line.dropWhile isSpace).rdropWhile isSpace

/-- The patterns of the denylist editor. -/
def editedDenylist (isSpace : Char → Bool) (text : List Char) : List Bytes :=
  ((text.splitOn '\n').map (trimmed isSpace)).filterMap fun line =>
    if line = [] then none else some (encodeUtf8 line)

/-- `gather_from_widgets` -/
def Widgets.gather (isSpace : Char → Bool) (widgets : Widgets) (cfg : Config) : Config :=
  { cfg with
    appearance := {
      anchor := indexToAnchor widgets.anchor
      -- The quotient of two numbers that a `float` holds is rounded once.
      scale := (JsonFloat.finite widgets.scale (-2)).narrow
      hdrNits := (JsonFloat.finite widgets.hdrNits 0).narrow
      showAllMembers := widgets.showAll
      toastAnchor := indexToAnchor widgets.toastAnchor
      toastDurationMs := widgets.toastDuration }
    denylist := editedDenylist isSpace widgets.denylist }

/-! ## The window -/

/-- What the host goes by. -/
structure InForce where
  appearance : AppearanceConfig
  denylist : Denylist

/-- What `main` makes of a configuration, at its start and on `config_changed`. -/
def Config.inForce (c : Config) : InForce := ⟨c.appearance, ⟨c.denylist⟩⟩

structure SettingsWindow where
  cfg : Config
  files : Files
  inForce : InForce

/-- `sync_appimage_backends`, with the answer to its question. Without one the
libraries are not its business, or up to date. -/
def syncAppimageBackends (answer : Option Bool) (c : Config) : Config :=
  match answer with
  | none => c
  | some install =>
    if c.backendConsent = Config.kBackendUnasked then
      { c with
        backendConsent := if install then Config.kBackendGranted else Config.kBackendDeclined }
    else c

/-- The configuration `main` starts with. -/
def startedWith (lib : JsonLib) (file : Option Bytes) (answer : Option Bool) : Config :=
  syncAppimageBackends answer (Config.load lib file)

namespace SettingsWindow

inductive Event where
  /-- `on_save_clicked` -/
  | saveClicked (widgets : Widgets) (env : InPlaceEnv)
  /-- `on_install_backends_clicked` -/
  | installClicked (env : InPlaceEnv)

variable (lib : JsonLib) (isSpace : Char → Bool) (path : Bytes)

/-- Save the configuration and tell `main`, whatever comes of the save. -/
def apply (env : InPlaceEnv) (c : Config) (w : SettingsWindow) : SettingsWindow :=
  { cfg := c, files := (Config.save lib env path c).last w.files, inForce := c.inForce }

def step (w : SettingsWindow) : Event → SettingsWindow
  | .saveClicked widgets env => w.apply lib path env (widgets.gather isSpace w.cfg)
  | .installClicked env =>
    w.apply lib path env { w.cfg with backendConsent := Config.kBackendGranted }

/-- Opened by a host that was started with this file, over the files there are
by then. -/
def opened (file : Option Bytes) (answer : Option Bool) (files : Files) : SettingsWindow :=
  let c := startedWith lib file answer
  { cfg := c, files, inForce := c.inForce }

end SettingsWindow

/-! ## What a save keeps -/

/-- The consent is one of the three. -/
def Config.Consents (c : Config) : Prop :=
  Config.kBackendUnasked ≤ c.backendConsent ∧ c.backendConsent ≤ Config.kBackendDeclined

theorem consents_granted (c : Config) :
    { c with backendConsent := Config.kBackendGranted }.Consents :=
  ⟨by dsimp only; decide, by dsimp only; decide⟩

theorem consents_declined (c : Config) :
    { c with backendConsent := Config.kBackendDeclined }.Consents :=
  ⟨by dsimp only; decide, by dsimp only; decide⟩

theorem consents_startedWith (lib : JsonLib) (file : Option Bytes) (answer : Option Bool) :
    (startedWith lib file answer).Consents := by
  have hload : (Config.load lib file).Consents := Config.load_backendConsent lib file
  unfold startedWith syncAppimageBackends
  split
  · exact hload
  · split
    · rename_i install _
      cases install with
      | true => exact consents_granted _
      | false => exact consents_declined _
    · exact hload

namespace Widgets

variable (isSpace : Char → Bool) (widgets : Widgets) {cfg : Config}

theorem narrow_gather : (widgets.gather isSpace cfg).appearance.Narrow where
  scale := (JsonFloat.finite widgets.scale (-2)).narrow_narrow
  hdrNits := (JsonFloat.finite widgets.hdrNits 0).narrow_narrow
  toastDurationMs := by
    have hrange := widgets.toastDuration.property
    have hms : (widgets.gather isSpace cfg).appearance.toastDurationMs =
        ((widgets.toastDuration : Nat) : Int) := rfl
    rw [hms]
    omega

theorem typed_gather (hcfg : cfg.Consents) : (widgets.gather isSpace cfg).Typed where
  appearance := widgets.narrow_gather isSpace
  backendConsent := by
    have hlo : 0 ≤ (widgets.gather isSpace cfg).backendConsent := hcfg.1
    have hhi : (widgets.gather isSpace cfg).backendConsent ≤ 2 := hcfg.2
    omega

/-- The sliders stay far from what a `float` cannot hold. -/
theorem finite_gather : (widgets.gather isSpace cfg).appearance.finite = true := by
  have hscale := widgets.scale.property
  have hhdr := widgets.hdrNits.property
  have hfits (n : Nat) (e : Int) (hn : n ≤ 1000) (he : e = 0 ∨ e = -2) :
      (JsonFloat.finite n e).narrow ≠ .nonFinite := by
    rw [ne_eq, JsonFloat.narrow_eq_nonFinite, Bool.not_eq_false]
    rcases he with rfl | rfl <;> simp [JsonFloat.fitsSingle] <;> omega
  have hs := hfits widgets.scale (-2) (by omega) (.inr rfl)
  have hh := hfits widgets.hdrNits 0 (by omega) (.inl rfl)
  simp [AppearanceConfig.finite, gather, hs, hh]

/-- What was gathered is stored as it is, but for an emptied denylist. -/
theorem stored_gather (hcfg : cfg.Consents) :
    (widgets.gather isSpace cfg).stored =
      { widgets.gather isSpace cfg with
        denylist := if (widgets.gather isSpace cfg).denylist = [] then Denylist.defaults
          else (widgets.gather isSpace cfg).denylist } := by
  have hconsents : Config.kBackendUnasked ≤ (widgets.gather isSpace cfg).backendConsent ∧
      (widgets.gather isSpace cfg).backendConsent ≤ Config.kBackendDeclined := hcfg
  rw [Config.stored, finite_gather, if_pos rfl, if_pos hconsents]

end Widgets

namespace SettingsWindow

variable {lib : JsonLib} {isSpace : Char → Bool} {path : Bytes}

theorem consents_step (w : SettingsWindow) (e : Event) (h : w.cfg.Consents) :
    (step lib isSpace path w e).cfg.Consents := by
  cases e with
  | saveClicked widgets env => exact h
  | installClicked env => exact consents_granted w.cfg

/-- What a host goes by that is started over the files of the window. -/
def restarted (lib : JsonLib) (path : Bytes) (answer : Option Bool) (w : SettingsWindow) :
    InForce :=
  (startedWith lib (w.files path) answer).inForce

theorem inForce_startedWith (lib : JsonLib) (file : Option Bytes) (answer : Option Bool) :
    (startedWith lib file answer).inForce = (Config.load lib file).inForce := by
  unfold startedWith syncAppimageBackends
  split
  · rfl
  · split <;> rfl

/-- However the window was used before: a configuration that was gathered and
saved is loaded as it is, except that an emptied denylist is the default one. So
a restart puts in force what is in force already, unless the denylist was
emptied. -/
theorem restarted_after_save (hlib : lib.Documented) (path : Bytes) (isSpace : Char → Bool)
    (file : Option Bytes) (answer : Option Bool) (files : Files) (es : List Event)
    (widgets : Widgets) (env : InPlaceEnv)
    (hsaved : (Config.save lib env path (widgets.gather isSpace
      (run (step lib isSpace path) (opened lib file answer files) es).cfg)
      (run (step lib isSpace path) (opened lib file answer files) es).files).result = some true) :
    let w := run (step lib isSpace path) (opened lib file answer files) es
    let c := widgets.gather isSpace w.cfg
    let saved := step lib isSpace path w (.saveClicked widgets env)
    Config.load lib (saved.files path) =
        { c with denylist := if c.denylist = [] then Denylist.defaults else c.denylist } ∧
      ∀ answer', (saved.restarted lib path answer').appearance = saved.inForce.appearance ∧
        ((saved.restarted lib path answer').denylist = saved.inForce.denylist ↔
          c.denylist ≠ []) := by
  intro w c saved
  have hconsents : w.cfg.Consents :=
    run_invariant (P := fun w : SettingsWindow => w.cfg.Consents) consents_step
      (consents_startedWith lib file answer) es
  have hload : Config.load lib (saved.files path) = c.stored :=
    Config.load_saved hlib (widgets.typed_gather isSpace hconsents) hsaved
  rw [widgets.stored_gather isSpace hconsents] at hload
  refine ⟨hload, fun answer' => ?_⟩
  have hrestarted : saved.restarted lib path answer' =
      ⟨c.appearance, ⟨if c.denylist = [] then Denylist.defaults else c.denylist⟩⟩ := by
    rw [restarted, inForce_startedWith, hload]
    rfl
  have hinForce : saved.inForce = ⟨c.appearance, ⟨c.denylist⟩⟩ := rfl
  rw [hrestarted, hinForce]
  refine ⟨rfl, ?_⟩
  by_cases hempty : c.denylist = []
  · rw [hempty]
    refine iff_of_false (fun h => ?_) fun h => h rfl
    exact List.cons_ne_nil _ _ (congrArg Denylist.patterns h)
  · rw [if_neg hempty]
    exact iff_of_true rfl hempty

/-- The widgets as they come up, with this denylist. -/
def editing (denylist : String) : Widgets where
  anchor := 4
  scale := ⟨80, by decide⟩
  hdrNits := ⟨200, by decide⟩
  showAll := true
  toastAnchor := 1
  toastDuration := ⟨5000, by decide⟩
  denylist := denylist.toList

/-- Two patterns, and blanks around one of them. -/
theorem restarted_after_edit :
    (Config.load compactJson ((step compactJson Char.isWhitespace (ascii "/c.json")
      (opened compactJson none none fun _ => none)
      (.saveClicked (editing "obs\n  *launcher*\t\n") {})).files (ascii "/c.json"))).denylist =
        [ascii "obs", ascii "*launcher*"] := by
  have hload := (restarted_after_save compactJson_documented (ascii "/c.json") Char.isWhitespace
    none none (fun _ => none) [] (editing "obs\n  *launcher*\t\n") {} (by decide +kernel)).1
  refine (congrArg Config.denylist hload).trans ?_
  decide +kernel

/-- A denylist that was emptied: nothing is denied until the restart. -/
theorem emptied_denylist_returns :
    ¬ ∀ (lib : JsonLib) (path : Bytes) (isSpace : Char → Bool) (file : Option Bytes)
        (answer : Option Bool) (files : Files) (es : List Event) (widgets : Widgets)
        (env : InPlaceEnv), lib.Documented →
      let w := run (step lib isSpace path) (opened lib file answer files) es
      let c := widgets.gather isSpace w.cfg
      (Config.save lib env path c w.files).result = some true →
        Config.load lib ((step lib isSpace path w (.saveClicked widgets env)).files path) = c := by
  intro hall
  have hload := hall compactJson (ascii "/c.json") Char.isWhitespace none none (fun _ => none) []
    (editing "") {} compactJson_documented (by decide +kernel)
  exact absurd (congrArg Config.denylist hload) (by decide +kernel)

end SettingsWindow

end Choir
