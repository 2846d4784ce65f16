-- SUMMARY: The configuration file: what a save writes, what a load makes of it, and when a save that is cut short keeps a configuration.
import ChoirOverlay.Host.Held
import ChoirOverlay.Host.InPlace
import ChoirOverlay.Json.Fronts

/-!
# Saving the configuration

`save` writes the file in place. It is truncated first, so a save that comes to
nothing leaves a front of the new text, and no front of it is JSON.
-/

namespace Choir

open Crash Crash.Proc

namespace Config

/-! ## The text -/

/-- The value `save` dumps, its keys in the order of a `std::map`. -/
def toJson (c : Config) : Json :=
  .obj [
    (ascii "access_token", .str c.accessToken),
    (ascii "appearance", c.appearance.toJson),
    (ascii "backend_consent", .int c.backendConsent),
    (ascii "client_id", .str c.clientId),
    (ascii "denylist", .arr (c.denylist.map .str)),
    (ascii "refresh_token", .str c.refreshToken)]

/-- The numbers are of the types of their fields. -/
structure Typed (c : Config) : Prop where
  appearance : c.appearance.Narrow
  backendConsent : -2 ^ 31 ≤ c.backendConsent ∧ c.backendConsent < 2 ^ 31

/-- What a load makes of a configuration that was written whole: an emptied
denylist is the default one, and what a file cannot say is a default. -/
def stored (c : Config) : Config :=
  { c with
    appearance := if c.appearance.finite then c.appearance else {}
    denylist := if c.denylist = [] then Denylist.defaults else c.denylist
    backendConsent := if kBackendUnasked ≤ c.backendConsent ∧ c.backendConsent ≤ kBackendDeclined
      then c.backendConsent else kBackendUnasked }

variable {lib : JsonLib} {c : Config} {text : Bytes}

theorem toJson_nullNonFinite (c : Config) : c.toJson.nullNonFinite =
    .obj [
      (ascii "access_token", .str c.accessToken),
      (ascii "appearance", c.appearance.toJson.nullNonFinite),
      (ascii "backend_consent", .int c.backendConsent),
      (ascii "client_id", .str c.clientId),
      (ascii "denylist", .arr (c.denylist.map .str)),
      (ascii "refresh_token", .str c.refreshToken)] := by
  have hlist : Json.nullNonFiniteList (c.denylist.map .str) = c.denylist.map .str := by
    rw [Json.nullNonFiniteList_eq_map, List.map_map]
    exact List.map_congr_left fun _ _ => rfl
  simp only [toJson, Json.nullNonFinite, Json.nullNonFiniteEntries, hlist]

theorem storable_nullNonFinite (h : c.Typed) : c.toJson.nullNonFinite.storable = true := by
  have hrange := h.backendConsent
  have hconsent : decide (-2 ^ 63 ≤ c.backendConsent ∧ c.backendConsent < 2 ^ 64) = true := by
    simp only [decide_eq_true_eq]
    omega
  have hlist : Json.storableList (c.denylist.map .str) = true := by
    rw [Json.storableList_eq_all, List.all_map]
    exact List.all_eq_true.mpr fun _ _ => rfl
  simp only [toJson_nullNonFinite, Json.storable, Json.storableEntries, hconsent, hlist,
    AppearanceConfig.storable_nullNonFinite h.appearance]
  rfl

theorem document_text (hlib : lib.Documented) (hc : c.Typed)
    (htext : lib.dump c.toJson = some text) :
    document lib (some text) = some c.toJson.nullNonFinite := by
  rw [← hlib.dump_nullNonFinite] at htext
  exact document_of_dump lib _ (by rw [toJson_nullNonFinite]; rfl) (storable_nullNonFinite hc) htext

private theorem appearance_toJson (h : c.Typed) :
    ((appearanceObject c.toJson.nullNonFinite).bind AppearanceConfig.fromJson).getD {} =
      c.stored.appearance := by
  have hobject : appearanceObject c.toJson.nullNonFinite =
      some c.appearance.toJson.nullNonFinite := by
    rw [toJson_nullNonFinite]
    rfl
  rw [hobject, Option.bind_some, AppearanceConfig.fromJson_nullNonFinite h.appearance, stored]
  split <;> rfl

private theorem denylistField_toJson (c : Config) :
    denylistField c.toJson.nullNonFinite = c.stored.denylist := by
  have hfind : c.toJson.nullNonFinite.find? "denylist" = some (.arr (c.denylist.map .str)) := by
    rw [toJson_nullNonFinite]
    rfl
  have hstrings : (c.denylist.map Json.str).filterMap Json.getString? = c.denylist := by
    rw [List.filterMap_map]
    exact List.filterMap_some
  simp only [denylistField, hfind, hstrings, stored]

private theorem consentField_toJson (h : c.Typed) :
    consentField c.toJson.nullNonFinite = c.stored.backendConsent := by
  have hrange := h.backendConsent
  have hfind : c.toJson.nullNonFinite.find? "backend_consent" = some (.int c.backendConsent) := by
    rw [toJson_nullNonFinite]
    rfl
  have hmod : Int.bmod c.backendConsent (2 ^ 32) = c.backendConsent :=
    Int.bmod_eq_of_le (by omega) (by omega)
  simp only [consentField, hfind, hmod, stored]

private theorem stringField_toJson (c : Config) (default : Bytes) :
    stringField c.toJson.nullNonFinite "client_id" default = c.clientId ∧
      stringField c.toJson.nullNonFinite "access_token" default = c.accessToken ∧
      stringField c.toJson.nullNonFinite "refresh_token" default = c.refreshToken := by
  rw [toJson_nullNonFinite]
  exact ⟨rfl, rfl, rfl⟩

/-- A configuration that was written whole. -/
theorem load_text (hlib : lib.Documented) (hc : c.Typed) (htext : lib.dump c.toJson = some text) :
    load lib (some text) = c.stored := by
  have hstrings := stringField_toJson c
  rw [load, document_text hlib hc htext]
  simp only [appearance_toJson hc, denylistField_toJson, consentField_toJson hc, hstrings]
  rfl

/-- A configuration of which only a front was written. -/
theorem load_front (hlib : lib.Documented) (hfronts : lib.RefusesFronts) (hc : c.Typed)
    (htext : lib.dump c.toJson = some text) {front : Bytes} (hfront : front <+: text)
    (hne : front ≠ text) : load lib (some front) = fallback := by
  rw [← hlib.dump_nullNonFinite] at htext
  have hlen : front.length < text.length :=
    Nat.lt_of_le_of_ne hfront.length_le fun heq => hne (hfront.eq_of_length heq)
  have hnone := hfronts _ text front.length (by rw [toJson_nullNonFinite]; rfl)
    (storable_nullNonFinite hc) htext hlen
  rw [← List.prefix_iff_eq_take.mp hfront] at hnone
  rw [load, document, Option.bind_some, hnone]
  rfl

/-! ## Saving -/

def save (lib : JsonLib) (env : InPlaceEnv) (path : Bytes) (c : Config) : Proc Files Bool :=
  match lib.dump c.toJson with
  -- Nobody catches what `dump` throws.
  | none => die
  | some text => writeInPlace env path text

/-- After the save a load returns the old configuration or the new one, and the
old one if the save returned false. -/
def Recovers (lib : JsonLib) (env : InPlaceEnv) (path : Bytes) (c : Config) (fs : Files) : Prop :=
  let left := (save lib env path c).last fs path
  (load lib left = load lib (fs path) ∨ load lib left = c) ∧
    ((save lib env path c fs).result = some false → load lib left = load lib (fs path))

/-- Once the file is truncated all of the text arrives, it says the new
configuration or nothing but the old one, and if the close fails it says the old
one; or the file holds no text, and that is how an old configuration of defaults
is loaded, or, where the process died, a new one. -/
def Intact (lib : JsonLib) (env : InPlaceEnv) (c old : Config) : Prop :=
  ∀ text, lib.dump c.toJson = some text → env.opens = .ok →
    if arriving env.writes text = text then
      (c.stored = old ∨ c.stored = c) ∧ (env.close = .fails → c.stored = old)
    else old = fallback ∨ env.dies text ∧ c = fallback

/-- What a text can say of a configuration: the numbers of its appearance are
finite, its denylist has a pattern and its consent is one of the three. -/
theorem stored_eq_self_iff (c : Config) : c.stored = c ↔
    c.appearance.finite = true ∧ c.denylist ≠ [] ∧
      kBackendUnasked ≤ c.backendConsent ∧ c.backendConsent ≤ kBackendDeclined := by
  have hdefault : AppearanceConfig.finite {} = true := by decide
  have happearance : (if c.appearance.finite = true then c.appearance else {}) = c.appearance ↔
      c.appearance.finite = true := by
    refine ⟨fun heq => ?_, fun h => if_pos h⟩
    by_contra hne
    rw [if_neg hne] at heq
    exact hne (heq ▸ hdefault)
  have hdenylist : (if c.denylist = [] then Denylist.defaults else c.denylist) = c.denylist ↔
      c.denylist ≠ [] := by
    refine ⟨fun heq hnil => ?_, fun h => if_neg h⟩
    rw [if_pos hnil, hnil] at heq
    cases heq
  have hconsent : (if kBackendUnasked ≤ c.backendConsent ∧ c.backendConsent ≤ kBackendDeclined
      then c.backendConsent else kBackendUnasked) = c.backendConsent ↔
      kBackendUnasked ≤ c.backendConsent ∧ c.backendConsent ≤ kBackendDeclined := by
    refine ⟨fun heq => ?_, fun h => if_pos h⟩
    by_contra hne
    rw [if_neg hne] at heq
    exact hne (heq ▸ ⟨by decide, by decide⟩)
  rw [← happearance, ← hdenylist, ← hconsent]
  constructor
  · exact fun heq => ⟨congrArg Config.appearance heq, congrArg Config.denylist heq,
      congrArg Config.backendConsent heq⟩
  · rintro ⟨h₁, h₂, h₃⟩
    unfold stored
    rw [h₁, h₂, h₃]

variable {env : InPlaceEnv} {path : Bytes} {fs : Files}

theorem save_of_no_text (htext : lib.dump c.toJson = none) : save lib env path c = die := by
  simp only [save, htext]

theorem save_of_text (htext : lib.dump c.toJson = some text) :
    save lib env path c = writeInPlace env path text := by
  simp only [save, htext]

/-- A configuration that was saved. -/
theorem load_saved (hlib : lib.Documented) (hc : c.Typed)
    (hsaved : (save lib env path c fs).result = some true) :
    load lib ((save lib env path c).last fs path) = c.stored := by
  cases htext : lib.dump c.toJson with
  | none =>
    rw [save_of_no_text htext] at hsaved
    cases hsaved
  | some text =>
    rw [save_of_text htext] at hsaved ⊢
    rw [writeInPlace_written hsaved, load_text hlib hc htext]

/-- A save keeps a configuration exactly where its file stays intact, or where
nothing is lost with it. -/
theorem save_recovers_iff (hlib : lib.Documented) (hfronts : lib.RefusesFronts) (hc : c.Typed) :
    Recovers lib env path c fs ↔ Intact lib env c (load lib (fs path)) := by
  cases htext : lib.dump c.toJson with
  | none =>
    refine iff_of_true ?_ fun text h => absurd (htext.symm.trans h) (by simp)
    simp [Recovers, save_of_no_text htext, die]
  | some text =>
    have hall : Intact lib env c (load lib (fs path)) ↔ (env.opens = .ok →
        if arriving env.writes text = text then
          (c.stored = load lib (fs path) ∨ c.stored = c) ∧
            (env.close = .fails → c.stored = load lib (fs path))
        else load lib (fs path) = fallback ∨ env.dies text ∧ c = fallback) := by
      simp [Intact, htext]
    rw [hall]
    by_cases hopen : env.opens = .ok
    case neg =>
      refine iff_of_true ?_ fun h => absurd h hopen
      simp [Recovers, save_of_text htext, writeInPlace_of_not_open hopen]
    simp only [Recovers, save_of_text htext, writeInPlace_last hopen, writeInPlace_result hopen,
      hopen, true_implies]
    by_cases hwhole : arriving env.writes text = text
    · rw [if_pos hwhole, hwhole, load_text hlib hc htext, (arriving_eq_self_iff _ _).mp hwhole]
      cases env.close <;> simp
    · have hcut := mt (arriving_eq_self_iff env.writes text).mpr hwhole
      rw [if_neg hwhole, load_front hlib hfronts hc htext (arriving_front _ _) hwhole]
      rw [@eq_comm _ fallback (load lib (fs path)), @eq_comm _ fallback c]
      unfold InPlaceEnv.dies
      by_cases hdies : writesOutcome env.writes text = .dies ∨ env.close = .dies
      · rw [if_pos hdies]
        simp [hdies]
      · rw [if_neg hdies]
        simp [hdies, hcut]
        exact Or.inl

/-- A configuration with a token. -/
def authorized : Config := { accessToken := ascii "tok", denylist := [ascii "obs"] }

/-- Its file. -/
def authorizedFile : Files := fun _ => some (JsonText.text authorized.toJson)

theorem typed_authorized : authorized.Typed :=
  ⟨AppearanceConfig.narrow_default, by decide⟩

/-- A save in two writes, with a signal in between. -/
theorem save_recovers_interrupted :
    Recovers compactJson { writes := [.wrote 7, .interrupted] } (ascii "/c.json") authorized
      authorizedFile := by
  refine (save_recovers_iff compactJson_documented compactJson_refusesFronts
    typed_authorized).mpr fun text htext _ => ?_
  have hwhole : arriving [.wrote 7, .interrupted] text = text := by
    rw [arriving_eq_self_iff]
    cases htext
    rfl
  rw [if_pos hwhole]
  refine ⟨.inr ((stored_eq_self_iff authorized).mpr ?_), fun hclose => by cases hclose⟩
  decide

/-- A disk that is full: the save returns false, and the token is gone. -/
theorem fullDisk_forgets :
    ¬ ∀ (lib : JsonLib) (env : InPlaceEnv) (path : Bytes) (c : Config) (fs : Files),
      lib.Documented → lib.RefusesFronts → c.Typed → Recovers lib env path c fs := by
  intro hall
  have hrecovers := hall compactJson { writes := [.fails] } (ascii "/c.json") authorized
    authorizedFile compactJson_documented compactJson_refusesFronts typed_authorized
  have hfalse := hrecovers.2 (by decide +kernel)
  have htoken := congrArg Config.accessToken hfalse
  exact absurd htoken (by decide +kernel)

end Config

end Choir
