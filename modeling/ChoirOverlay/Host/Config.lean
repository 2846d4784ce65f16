-- SUMMARY: The persisted configuration of the host, as it is loaded from whatever its file holds.
import ChoirOverlay.Host.Denylist
import ChoirOverlay.Json.Text

/-! # Config -/

namespace Choir

structure Config where
  appearance : AppearanceConfig := {}
  clientId : Bytes := ascii "207646673902501888"
  accessToken : Bytes := []
  refreshToken : Bytes := []
  denylist : List Bytes := []
  /-- `kBackendUnasked`. -/
  backendConsent : Int := 0
  deriving DecidableEq, Repr

namespace Config

def kBackendUnasked : Int := 0
def kBackendGranted : Int := 1
def kBackendDeclined : Int := 2

/-- What `load` returns without a file it can use. -/
def fallback : Config := { denylist := Denylist.defaults }

/-- A string field, or the default. -/
def stringField (j : Json) (key : String) (default : Bytes) : Bytes :=
  match j.find? key with
  | some (.str s) => s
  | _ => default

/-- The object under `appearance`. -/
def appearanceObject (j : Json) : Option Json :=
  (j.find? "appearance").filter Json.isObject

/-- The consent of an integer field; out of range it is unasked. -/
def consentField (j : Json) : Int :=
  match j.find? "backend_consent" with
  | some (.int n) =>
    let v := Int.bmod n (2 ^ 32)
    if kBackendUnasked ≤ v ∧ v ≤ kBackendDeclined then v else kBackendUnasked
  | _ => kBackendUnasked

/-- The strings of an array field; without any they are the defaults. -/
def denylistField (j : Json) : List Bytes :=
  let patterns := match j.find? "denylist" with
    | some (.arr xs) => xs.filterMap Json.getString?
    | _ => []
  if patterns = [] then Denylist.defaults else patterns

/-- The object a file holds; an absent or unreadable file is `none`. -/
def document (lib : JsonLib) (file : Option Bytes) : Option Json :=
  (file.bind lib.parse).filter Json.isObject

def load (lib : JsonLib) (file : Option Bytes) : Config :=
  match document lib file with
  | none => fallback
  | some j =>
    { -- A decoder that throws leaves the default.
      appearance := ((appearanceObject j).bind AppearanceConfig.fromJson).getD {}
      clientId := stringField j "client_id" (ascii "207646673902501888")
      accessToken := stringField j "access_token" []
      refreshToken := stringField j "refresh_token" []
      denylist := denylistField j
      backendConsent := consentField j }

/-! ## The loaded appearance -/

/-- The decoded appearance of a file; `none` where the default is kept. -/
def decoded (lib : JsonLib) (file : Option Bytes) : Option AppearanceConfig :=
  ((document lib file).bind appearanceObject).bind AppearanceConfig.fromJson

theorem load_appearance (lib : JsonLib) (file : Option Bytes) :
    (load lib file).appearance = (decoded lib file).getD {} := by
  unfold load decoded
  cases document lib file <;> rfl

theorem denylistField_ne_nil (j : Json) : denylistField j ≠ [] := by
  unfold denylistField
  extract_lets patterns
  by_cases h : patterns = []
  · rw [if_pos h]
    exact List.cons_ne_nil _ _
  · rwa [if_neg h]

/-- A loaded denylist is never empty. -/
theorem load_denylist_ne_nil (lib : JsonLib) (file : Option Bytes) :
    (load lib file).denylist ≠ [] := by
  unfold load
  cases document lib file with
  | none => exact List.cons_ne_nil _ _
  | some j => exact denylistField_ne_nil j

/-- A loaded consent is one of the three. -/
theorem load_backendConsent (lib : JsonLib) (file : Option Bytes) :
    kBackendUnasked ≤ (load lib file).backendConsent ∧
      (load lib file).backendConsent ≤ kBackendDeclined := by
  unfold load
  cases document lib file with
  | none => exact ⟨by decide, by decide⟩
  | some j =>
    show kBackendUnasked ≤ consentField j ∧ consentField j ≤ kBackendDeclined
    unfold consentField
    split
    · dsimp only
      split
      · assumption
      · exact ⟨by decide, by decide⟩
    · exact ⟨by decide, by decide⟩

/-! ## Fields

What the fields of a file come to, each on its own. -/

/-- The value of a field that is there and can be read as its type, or the
default. -/
def fieldOr {β : Type} (j : Json) (key : String) (read : Json → Option β) (default : β) : β :=
  ((j.find? key).bind read).getD default

/-- A field that is there and can be read as its type. -/
def hasField {β : Type} (j : Json) (key : String) (read : Json → Option β) : Bool :=
  ((j.find? key).bind read).isSome

/-- An appearance read field by field. -/
def fieldwise (a : Json) : AppearanceConfig where
  anchor := fieldOr a "anchor" Anchor.fromJson .centerLeft
  scale := fieldOr a "scale" Json.getFloat? (.finite 1 0)
  hdrNits := fieldOr a "hdr_nits" Json.getFloat? (.finite 200 0)
  showAllMembers := fieldOr a "show_all_members" Json.getBool? true
  toastAnchor := fieldOr a "toast_anchor" Anchor.fromJson .topRight
  toastDurationMs := fieldOr a "toast_duration_ms" Json.getInt32? 5000

/-- Every field of an appearance is there in its type, but for `hdr_nits`, which
may be missing. -/
def complete (a : Json) : Bool :=
  hasField a "anchor" Anchor.fromJson && hasField a "scale" Json.getFloat? &&
    (a.find? "hdr_nits").all (fun v => v.getFloat?.isSome) &&
    hasField a "show_all_members" Json.getBool? && hasField a "toast_anchor" Anchor.fromJson &&
    hasField a "toast_duration_ms" Json.getInt32?

/-- The decoder of an appearance wants all of it. -/
theorem appearance_fromJson (a : Json) :
    AppearanceConfig.fromJson a = if complete a then some (fieldwise a) else none := by
  have hhdr := Option.eq_none_or_eq_some (a.find? "hdr_nits")
  simp only [AppearanceConfig.fromJson, Json.at?, bind, pure, ← Option.bind_assoc, complete,
    fieldwise, hasField, fieldOr]
  rcases Option.eq_none_or_eq_some ((a.find? "anchor").bind Anchor.fromJson) with
    hanchor | ⟨anchor, hanchor⟩
  · simp [hanchor]
  rcases Option.eq_none_or_eq_some ((a.find? "scale").bind Json.getFloat?) with
    hscale | ⟨scale, hscale⟩
  · simp [hanchor, hscale]
  rcases Option.eq_none_or_eq_some ((a.find? "show_all_members").bind Json.getBool?) with
    hmembers | ⟨members, hmembers⟩
  · rcases hhdr with hhdr | ⟨v, hhdr⟩ <;> simp [hanchor, hscale, hmembers, hhdr]
  rcases Option.eq_none_or_eq_some ((a.find? "toast_anchor").bind Anchor.fromJson) with
    htoast | ⟨toast, htoast⟩
  · rcases hhdr with hhdr | ⟨v, hhdr⟩ <;> simp [hanchor, hscale, hmembers, htoast, hhdr]
  rcases Option.eq_none_or_eq_some ((a.find? "toast_duration_ms").bind Json.getInt32?) with
    hms | ⟨ms, hms⟩
  · rcases hhdr with hhdr | ⟨v, hhdr⟩ <;> simp [hanchor, hscale, hmembers, htoast, hms, hhdr]
  rcases hhdr with hhdr | ⟨v, hhdr⟩
  · simp [hanchor, hscale, hmembers, htoast, hms, hhdr]
  · rcases Option.eq_none_or_eq_some v.getFloat? with hv | ⟨hdrNits, hv⟩
    · simp [hanchor, hscale, hhdr, hv]
    · simp [hanchor, hscale, hmembers, htoast, hms, hhdr, hv]

/-- A consent in range. -/
def readConsent : Json → Option Int
  | .int n => if kBackendUnasked ≤ n ∧ n ≤ kBackendDeclined then some n else none
  | _ => none

/-- The strings of an array that has any. -/
def readPatterns (v : Json) : Option (List Bytes) :=
  (v.getArray?.map fun xs => xs.filterMap Json.getString?).filter (· ≠ [])

theorem stringField_eq (j : Json) (key : String) (default : Bytes) :
    stringField j key default = fieldOr j key Json.getString? default := by
  unfold stringField fieldOr
  cases j.find? key with
  | none => rfl
  | some v => cases v <;> rfl

theorem denylistField_eq (j : Json) :
    denylistField j = fieldOr j "denylist" readPatterns Denylist.defaults := by
  unfold denylistField fieldOr
  cases j.find? "denylist" with
  | none => rfl
  | some v =>
    cases v with
    | arr xs =>
      simp only [Option.bind_some, readPatterns, Json.getArray?, Option.map_some]
      by_cases hnil : xs.filterMap Json.getString? = []
      · simp [hnil, Option.filter_some]
      · simp [hnil, Option.filter_some]
    | null | bool | int | float | str | obj => rfl

theorem consentField_eq {j : Json}
    (hint : ∀ n, j.find? "backend_consent" = some (.int n) → -2 ^ 31 ≤ n ∧ n < 2 ^ 31) :
    consentField j = fieldOr j "backend_consent" readConsent kBackendUnasked := by
  unfold consentField fieldOr
  cases hfind : j.find? "backend_consent" with
  | none => rfl
  | some v =>
    cases v with
    | int n =>
      have hrange := hint n hfind
      have hmod : Int.bmod n (2 ^ 32) = n := Int.bmod_eq_of_le (by omega) (by omega)
      simp only [Option.bind_some, readConsent, hmod]
      split <;> rfl
    | null | bool | float | str | arr | obj => rfl

/-- What a file with an object is loaded as: each field is what the file has
under its own key, whatever stands under the others. An appearance is said to be
read so when it is complete. -/
theorem load_fields (lib : JsonLib) {file : Option Bytes} {j : Json}
    (hdoc : document lib file = some j) :
    (load lib file).clientId =
        fieldOr j "client_id" Json.getString? (ascii "207646673902501888") ∧
      (load lib file).accessToken = fieldOr j "access_token" Json.getString? [] ∧
      (load lib file).refreshToken = fieldOr j "refresh_token" Json.getString? [] ∧
      (load lib file).denylist = fieldOr j "denylist" readPatterns Denylist.defaults ∧
      ((∀ n, j.find? "backend_consent" = some (.int n) → -2 ^ 31 ≤ n ∧ n < 2 ^ 31) →
        (load lib file).backendConsent =
          fieldOr j "backend_consent" readConsent kBackendUnasked) ∧
      (∀ a, j.find? "appearance" = some a → a.isObject = true → complete a = true →
        (load lib file).appearance = fieldwise a) ∧
      ((∀ a, j.find? "appearance" = some a → a.isObject = false) →
        (load lib file).appearance = {}) := by
  have happearance := load_appearance lib file
  simp only [decoded, hdoc, Option.bind_some, appearanceObject] at happearance
  refine ⟨?_, ?_, ?_, ?_, fun hint => ?_, fun a ha hobject hcomplete => ?_, fun hnone => ?_⟩
  · rw [load, hdoc, ← stringField_eq]
  · rw [load, hdoc, ← stringField_eq]
  · rw [load, hdoc, ← stringField_eq]
  · rw [load, hdoc, ← denylistField_eq]
  · rw [load, hdoc, ← consentField_eq hint]
  · rw [happearance, ha, Option.filter_some, if_pos hobject, Option.bind_some,
      appearance_fromJson, if_pos hcomplete, Option.getD_some]
  · have hfilter : (j.find? "appearance").filter Json.isObject = none :=
      Option.filter_eq_none_iff.mpr fun a ha => by rw [hnone a ha]; decide
    rw [happearance, hfilter]
    rfl

/-- A file holds the object it is the text of. -/
theorem document_of_dump (lib : JsonLib) (j : Json) {text : Bytes} (hobject : j.isObject = true)
    (hstorable : j.storable) (htext : lib.dump j = some text) :
    document lib (some text) = some j := by
  rw [document, Option.bind_some, lib.parse_dump j text hstorable htext, Option.filter_some,
    if_pos hobject]

/-- Decoded as a whole, an appearance comes out as its fields read one by one
exactly when it is complete or they all read as the defaults. -/
theorem load_appearance_fieldwise_iff (lib : JsonLib) {file : Option Bytes} {j a : Json}
    (hdoc : document lib file = some j) (ha : j.find? "appearance" = some a)
    (hobject : a.isObject = true) :
    (load lib file).appearance = fieldwise a ↔ complete a = true ∨ fieldwise a = {} := by
  rw [load_appearance, decoded, hdoc, Option.bind_some, appearanceObject, ha, Option.filter_some,
    if_pos hobject, Option.bind_some, appearance_fromJson]
  cases complete a with
  | true => simp
  | false => simp [eq_comm]

/-- A part of the fields. -/
def partialObject : Json := .obj [(ascii "backend_consent", .bool true),
  (ascii "client_id", .str (ascii "partial-id"))]

theorem load_partialObject :
    (load compactJson (some (JsonText.text partialObject))).clientId = ascii "partial-id" ∧
      (load compactJson (some (JsonText.text partialObject))).appearance = {} := by
  obtain ⟨hid, -, -, -, -, -, hnone⟩ := load_fields compactJson
    (document_of_dump compactJson partialObject rfl (by decide) rfl)
  exact ⟨hid, hnone fun a ha => by cases ha⟩

/-- A consent out of range, and a denylist without a pattern. -/
def outOfRangeObject : Json := .obj [(ascii "backend_consent", .int 7), (ascii "denylist", .arr [])]

/-- The consent is unasked then, and the denylist the default one. -/
theorem load_outOfRange :
    ¬ ∀ lib file j, document lib file = some j →
      (∀ n, j.find? "backend_consent" = some (.int n) → (load lib file).backendConsent = n) ∧
        ∀ ps, j.find? "denylist" = some (.arr ps) →
          (load lib file).denylist = ps.filterMap Json.getString? := by
  intro hall
  have hdoc := document_of_dump compactJson outOfRangeObject rfl (by decide) rfl
  have hseven := (hall compactJson _ outOfRangeObject hdoc).1 7 rfl
  exact absurd hseven (by decide +kernel)

end Config

end Choir
