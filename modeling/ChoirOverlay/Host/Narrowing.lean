-- SUMMARY: The integers of config files and snapshots: exactly when one is narrowed to a value it is not before its range is checked.
import ChoirOverlay.Host.Config

/-!
# Narrowed integers

`get` casts first, and the range is checked after it. So an integer out of range
can come out as one in range. An integer too large for 64 bits is no integer to
the library, and so no consent either; what a cast makes of it is left open.
-/

namespace Choir

/-- The anchor an integer stands for, `TopRight` out of range. -/
def Anchor.ofInt (n : Int) : Anchor := if 0 ≤ n ∧ n ≤ 5 then Anchor.ofByte n.toNat else .topRight

/-- No integer of an appearance came out as another one: each field is the
integer, or the default where the integer is out of range. -/
structure AppearanceConfig.Keeps (c : AppearanceConfig) (a : Json) : Prop where
  anchor : ∀ n, a.find? "anchor" = some (.int n) → c.anchor = Anchor.ofInt n
  toastAnchor : ∀ n, a.find? "toast_anchor" = some (.int n) → c.toastAnchor = Anchor.ofInt n
  toastDurationMs : ∀ n, a.find? "toast_duration_ms" = some (.int n) →
    c.toastDurationMs = if -2 ^ 31 ≤ n ∧ n < 2 ^ 31 then n else 5000

/-- The lowest byte is an anchor other than `TopRight` only of an integer in
range. -/
def ByteInRange (n : Int) : Prop := (0 ≤ n ∧ n ≤ 5) ∨ n % 2 ^ 8 = 1 ∨ 5 < n % 2 ^ 8

/-- The integers of an appearance are in range, or so are not what is left of
them. -/
structure Json.InRange (a : Json) : Prop where
  anchor : ∀ n, a.find? "anchor" = some (.int n) → ByteInRange n
  toastAnchor : ∀ n, a.find? "toast_anchor" = some (.int n) → ByteInRange n
  toastDurationMs : ∀ n, a.find? "toast_duration_ms" = some (.int n) →
    (-2 ^ 31 ≤ n ∧ n < 2 ^ 31) ∨ Int.bmod n (2 ^ 32) = 5000

/-! ## One integer -/

theorem Anchor.ofByte_eq_topRight_iff (m : Nat) : Anchor.ofByte m = .topRight ↔ m = 1 ∨ 5 < m := by
  rcases m with _ | _ | _ | _ | _ | _ | m
  case succ.succ.succ.succ.succ.succ => simp [Anchor.ofByte]
  all_goals simp [Anchor.ofByte]

theorem anchor_kept_iff (n : Int) :
    Anchor.ofByte (n % 2 ^ 8).toNat = Anchor.ofInt n ↔ ByteInRange n := by
  have hlo := Int.emod_nonneg n (show (2 : Int) ^ 8 ≠ 0 by decide)
  unfold Anchor.ofInt ByteInRange
  by_cases hrange : 0 ≤ n ∧ n ≤ 5
  · have hbyte : n % 2 ^ 8 = n := Int.emod_eq_of_lt hrange.1 (by omega)
    rw [if_pos hrange, hbyte]
    exact iff_of_true rfl (.inl hrange)
  · rw [if_neg hrange, Anchor.ofByte_eq_topRight_iff, or_iff_right hrange]
    omega

theorem duration_kept_iff (n : Int) :
    (Int.bmod n (2 ^ 32) = if -2 ^ 31 ≤ n ∧ n < 2 ^ 31 then n else 5000) ↔
      (-2 ^ 31 ≤ n ∧ n < 2 ^ 31) ∨ Int.bmod n (2 ^ 32) = 5000 := by
  by_cases hrange : -2 ^ 31 ≤ n ∧ n < 2 ^ 31
  · rw [if_pos hrange, Int.bmod_eq_of_le (by omega) (by omega)]
    exact iff_of_true rfl (.inl hrange)
  · rw [if_neg hrange, or_iff_right hrange]

/-! ## Appearances -/

namespace AppearanceConfig

variable {a : Json} {c : AppearanceConfig}

/-- The fields of a decoded appearance, where they are integers. -/
theorem fromJson_integers (h : fromJson a = some c) :
    (∀ n, a.find? "anchor" = some (.int n) → c.anchor = Anchor.ofByte (n % 2 ^ 8).toNat) ∧
      (∀ n, a.find? "toast_anchor" = some (.int n) →
        c.toastAnchor = Anchor.ofByte (n % 2 ^ 8).toNat) ∧
      ∀ n, a.find? "toast_duration_ms" = some (.int n) →
        c.toastDurationMs = Int.bmod n (2 ^ 32) := by
  rw [Config.appearance_fromJson] at h
  split at h
  · obtain rfl := Option.some.inj h
    refine ⟨fun n hn => ?_, fun n hn => ?_, fun n hn => ?_⟩
    all_goals
      simp only [Config.fieldwise, Config.fieldOr, hn]
      rfl
  · cases h

theorem keeps_iff (h : fromJson a = some c) : c.Keeps a ↔ a.InRange := by
  obtain ⟨hanchor, htoast, hduration⟩ := fromJson_integers h
  constructor
  · intro hkeeps
    exact {
      anchor := fun n hn => (anchor_kept_iff n).mp ((hanchor n hn).symm.trans (hkeeps.anchor n hn))
      toastAnchor := fun n hn =>
        (anchor_kept_iff n).mp ((htoast n hn).symm.trans (hkeeps.toastAnchor n hn))
      toastDurationMs := fun n hn =>
        (duration_kept_iff n).mp ((hduration n hn).symm.trans (hkeeps.toastDurationMs n hn)) }
  · intro hrange
    exact {
      anchor := fun n hn => (hanchor n hn).trans ((anchor_kept_iff n).mpr (hrange.anchor n hn))
      toastAnchor := fun n hn =>
        (htoast n hn).trans ((anchor_kept_iff n).mpr (hrange.toastAnchor n hn))
      toastDurationMs := fun n hn =>
        (hduration n hn).trans ((duration_kept_iff n).mpr (hrange.toastDurationMs n hn)) }

end AppearanceConfig

/-! ## Files and snapshots -/

namespace Config

variable (lib : JsonLib) (file : Option Bytes)

/-- The consent a file gives. -/
def consentEntry : Option Json := (document lib file).bind fun j => j.find? "backend_consent"

/-- No integer of a config file came out as another one. -/
structure KeepsIntegers : Prop where
  appearance : ∀ a, (document lib file).bind appearanceObject = some a →
    (AppearanceConfig.fromJson a).isSome = true → (load lib file).appearance.Keeps a
  backendConsent : ∀ n, consentEntry lib file = some (.int n) → (load lib file).backendConsent =
    if kBackendUnasked ≤ n ∧ n ≤ kBackendDeclined then n else kBackendUnasked

/-- The integers are in range, or so are not what is left of them; a consent is
left over as no other answer. -/
structure IntegersInRange : Prop where
  appearance : ∀ a, (document lib file).bind appearanceObject = some a →
    (AppearanceConfig.fromJson a).isSome = true → a.InRange
  backendConsent : ∀ n, consentEntry lib file = some (.int n) →
    (kBackendUnasked ≤ n ∧ n ≤ kBackendDeclined) ∨
      Int.bmod n (2 ^ 32) ≠ kBackendGranted ∧ Int.bmod n (2 ^ 32) ≠ kBackendDeclined

theorem consent_kept_iff (n : Int) :
    ((if kBackendUnasked ≤ Int.bmod n (2 ^ 32) ∧ Int.bmod n (2 ^ 32) ≤ kBackendDeclined
        then Int.bmod n (2 ^ 32) else kBackendUnasked) =
      if kBackendUnasked ≤ n ∧ n ≤ kBackendDeclined then n else kBackendUnasked) ↔
      (kBackendUnasked ≤ n ∧ n ≤ kBackendDeclined) ∨
        Int.bmod n (2 ^ 32) ≠ kBackendGranted ∧ Int.bmod n (2 ^ 32) ≠ kBackendDeclined := by
  have hunasked : kBackendUnasked = 0 := rfl
  have hgranted : kBackendGranted = 1 := rfl
  have hdeclined : kBackendDeclined = 2 := rfl
  by_cases hrange : kBackendUnasked ≤ n ∧ n ≤ kBackendDeclined
  · rw [Int.bmod_eq_of_le (by omega) (by omega)]
    exact iff_of_true rfl (.inl hrange)
  · rw [if_neg hrange, or_iff_right hrange]
    split <;> omega

variable {lib} {file}

theorem load_consent {n : Int} (h : consentEntry lib file = some (.int n)) :
    (load lib file).backendConsent =
      if kBackendUnasked ≤ Int.bmod n (2 ^ 32) ∧ Int.bmod n (2 ^ 32) ≤ kBackendDeclined
        then Int.bmod n (2 ^ 32) else kBackendUnasked := by
  obtain ⟨j, hdoc, hfind⟩ := Option.bind_eq_some_iff.mp h
  rw [load, hdoc]
  simp only [consentField, hfind]

theorem load_decoded {a : Json} {c : AppearanceConfig}
    (ha : (document lib file).bind appearanceObject = some a)
    (hc : AppearanceConfig.fromJson a = some c) : (load lib file).appearance = c := by
  rw [load_appearance, decoded, ha, Option.bind_some, hc]
  rfl

theorem keepsIntegers_iff : KeepsIntegers lib file ↔ IntegersInRange lib file := by
  have happearance : ∀ a, (document lib file).bind appearanceObject = some a →
      (AppearanceConfig.fromJson a).isSome = true →
        ((load lib file).appearance.Keeps a ↔ a.InRange) := by
    intro a ha hsome
    obtain ⟨c, hc⟩ := Option.isSome_iff_exists.mp hsome
    rw [load_decoded ha hc]
    exact AppearanceConfig.keeps_iff hc
  constructor
  · intro h
    refine ⟨fun a ha hsome => (happearance a ha hsome).mp (h.appearance a ha hsome), fun n hn => ?_⟩
    exact (consent_kept_iff n).mp ((load_consent hn).symm.trans (h.backendConsent n hn))
  · intro h
    refine ⟨fun a ha hsome => (happearance a ha hsome).mpr (h.appearance a ha hsome),
      fun n hn => ?_⟩
    exact (load_consent hn).trans ((consent_kept_iff n).mpr (h.backendConsent n hn))

end Config

/-- The appearance of a decoded snapshot. -/
theorem Snapshot.fromJson_config {j : Json} {s : Snapshot} (h : Snapshot.fromJson j = some s) :
    (j.find? "config").bind AppearanceConfig.fromJson = some s.config := by
  simp only [Snapshot.fromJson, Json.at?, bind, pure, Option.bind_eq_some_iff] at h
  obtain ⟨-, -, inVoice, -, -, -, channelName, -, -, -, -, -, participants, -, -, -, -, -,
    notifications, -, a, ha, config, hconfig, -, -, revision, -, heq⟩ := h
  cases heq
  rw [ha]
  exact hconfig

/-- Of every config file and of every snapshot, the integers come out as they are
or as the defaults exactly where none of them is out of range with what is left
of it in range. What the library does not hold as an integer is no consent; an
integer past 64 bits is such a one, and nothing more is said of it. -/
theorem integers_kept_iff (lib : JsonLib) :
    (∀ file, (Config.KeepsIntegers lib file ↔ Config.IntegersInRange lib file) ∧
      ((∀ n, Config.consentEntry lib file ≠ some (.int n)) →
        (Config.load lib file).backendConsent = Config.kBackendUnasked)) ∧
    ∀ text s, Snapshot.fromJsonStr lib text = some s →
      ∃ j a, lib.parse text = some j ∧ j.find? "config" = some a ∧
        (s.config.Keeps a ↔ a.InRange) := by
  refine ⟨fun file => ⟨Config.keepsIntegers_iff, fun hnone => ?_⟩, fun text s hs => ?_⟩
  · unfold Config.load
    split
    · rfl
    · rename_i j hdoc
      rw [Config.consentEntry, hdoc, Option.bind_some] at hnone
      show Config.consentField j = _
      unfold Config.consentField
      split
      · rename_i n hn
        exact absurd hn (hnone n)
      · rfl
  · obtain ⟨j, hj, hdecode⟩ := Option.bind_eq_some_iff.mp hs
    obtain ⟨a, ha, hconfig⟩ := Option.bind_eq_some_iff.mp (Snapshot.fromJson_config hdecode)
    exact ⟨j, a, hj, ha, AppearanceConfig.keeps_iff hconfig⟩

/-- A consent that is out of range. -/
def wrappedConsent : Json := .obj [(ascii "backend_consent", .int 4294967297)]

/-- It reads as granted. -/
theorem wrappedConsent_granted :
    ¬ ∀ lib file, Config.KeepsIntegers lib file := by
  intro hall
  have hkeeps := (hall compactJson (some (JsonText.text wrappedConsent))).backendConsent 4294967297
    (by rw [Config.consentEntry,
          Config.document_of_dump compactJson wrappedConsent rfl (by decide) rfl]
        rfl)
  exact absurd hkeeps (by decide +kernel)

end Choir
