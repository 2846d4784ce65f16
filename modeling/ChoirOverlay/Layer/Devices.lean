-- SUMMARY: What the layer asks a new device for its queues, and when all of them are queues it may ask for.
import ChoirOverlay.Layer.Swapchain

/-!
# Devices

The family that is drawn on and the queues that are remembered come out of one
list, read twice.
-/

namespace Choir

/-- `VkDeviceQueueCreateInfo` -/
structure QueueCreateInfo where
  flags : UInt32 := 0
  queueFamilyIndex : Nat
  queueCount : Nat
  deriving DecidableEq, Repr

/-- What `CreateDevice` meets. -/
structure DeviceEnv where
  /-- The link to the next layer is there. -/
  linked : Bool := true
  /-- What the next `vkCreateDevice` returns, when there is one. -/
  created : Option VkResult := some 0
  overlayDisabled : Bool := false
  canPresent : Bool := true
  /-- `queueFlags` of each family, when the instance is known and has the function. -/
  families : Option (List UInt32) := none
  /-- `vkGetDeviceQueue`, when the device has it. -/
  getDeviceQueue : Option (Nat → Nat → VkQueue) := none

/-- The family exists and has `VK_QUEUE_GRAPHICS_BIT`. -/
def isGraphics (families : List UInt32) (fam : Nat) : Bool :=
  families[fam]?.any fun flags => flags &&& 1 ≠ 0

/-- What is known of a device. -/
structure CreatedDevice where
  data : DeviceData := {}
  graphicsQueue : VkQueue := 0
  /-- The families and indices `vkGetDeviceQueue` is called with. -/
  queries : List (Nat × Nat) := []

namespace DeviceEnv

/-- The first loop: the family that is drawn on. -/
def graphicsFamily (env : DeviceEnv) (infos : List QueueCreateInfo) : Option Nat :=
  env.families.bind fun families =>
    (infos.find? fun qci => isGraphics families qci.queueFamilyIndex).map
      QueueCreateInfo.queueFamilyIndex

/-- The second loop: the queues of an entry without flags. -/
def queriesOf (qci : QueueCreateInfo) : List (Nat × Nat) :=
  if qci.flags ≠ 0 then [] else (List.range qci.queueCount).map fun qi => (qci.queueFamilyIndex, qi)

/-- A queue that is there is remembered with its family. -/
def record (get : Nat → Nat → VkQueue) (query : Nat × Nat) : Option (VkQueue × Nat) :=
  if get query.1 query.2 = 0 then none else some (get query.1 query.2, query.1)

def setUp (env : DeviceEnv) (infos : List QueueCreateInfo) : CreatedDevice :=
  let family := env.graphicsFamily infos
  let data : DeviceData :=
    { canPresent := env.canPresent, overlayDisabled := env.overlayDisabled,
      graphicsQueueFamily := family }
  match env.getDeviceQueue with
  | none => { data }
  | some get =>
    let queries := infos.flatMap queriesOf
    { data := { data with queueFamilies := queries.filterMap (record get) }
      graphicsQueue := (family.map fun fam => get fam 0).getD 0
      queries := (family.map fun fam => (fam, 0)).toList ++ queries }

/-- `CreateDevice` -/
def createDevice (env : DeviceEnv) (infos : List QueueCreateInfo) :
    VkResult × Option CreatedDevice :=
  if !env.linked then (vkErrorInitializationFailed, none)
  else
    match env.created with
    | none => (vkErrorInitializationFailed, none)
    | some res => if res ≠ 0 then (res, none) else (0, some (env.setUp infos))

end DeviceEnv

/-! ## The queues of the application -/

/-- The application created this queue, without flags. -/
def Unflagged (infos : List QueueCreateInfo) (fam qi : Nat) : Prop :=
  ∃ qci ∈ infos, qci.flags = 0 ∧ qci.queueFamilyIndex = fam ∧ qi < qci.queueCount

/-- The device has a queue for what was created without flags, and no queue is of
two families. -/
structure Answers (get : Nat → Nat → VkQueue) (infos : List QueueCreateInfo) : Prop where
  ne_null : ∀ {fam qi}, Unflagged infos fam qi → get fam qi ≠ 0
  family : ∀ {fam qi fam' qi'}, Unflagged infos fam qi → Unflagged infos fam' qi' →
    get fam qi = get fam' qi' → fam = fam'

variable {infos : List QueueCreateInfo} {get : Nat → Nat → VkQueue} {fam qi : Nat}

namespace DeviceEnv

theorem mem_flatMap_queriesOf : (fam, qi) ∈ infos.flatMap queriesOf ↔ Unflagged infos fam qi := by
  rw [List.mem_flatMap]
  refine exists_congr fun qci => and_congr_right fun _ => ?_
  rw [queriesOf]
  split
  · rename_i hflags
    simp [hflags]
  · rename_i hflags
    simp only [List.mem_map, List.mem_range, Prod.mk.injEq]
    constructor
    · rintro ⟨i, hi, rfl, rfl⟩
      exact ⟨Decidable.not_not.mp hflags, rfl, hi⟩
    · rintro ⟨-, rfl, hi⟩
      exact ⟨qi, hi, rfl, rfl⟩

/-- The present hook finds the family of each queue that was created without
flags. -/
theorem lookup_recorded (hget : Answers get infos) (hqueue : Unflagged infos fam qi) :
    ((infos.flatMap queriesOf).filterMap (record get)).lookup (get fam qi) = some fam := by
  have hmem : ∀ {q f}, (q, f) ∈ (infos.flatMap queriesOf).filterMap (record get) →
      ∃ i, Unflagged infos f i ∧ q = get f i := by
    intro q f hqf
    obtain ⟨⟨f', i⟩, hquery, hrecord⟩ := List.mem_filterMap.mp hqf
    rw [record] at hrecord
    split at hrecord
    · cases hrecord
    · cases hrecord
      exact ⟨i, mem_flatMap_queriesOf.mp hquery, rfl⟩
  have hrecorded : (get fam qi, fam) ∈ (infos.flatMap queriesOf).filterMap (record get) :=
    List.mem_filterMap.mpr
      ⟨(fam, qi), mem_flatMap_queriesOf.mpr hqueue, if_neg (hget.ne_null hqueue)⟩
  obtain ⟨f, hlookup⟩ := Option.isSome_iff_exists.mp
    (List.lookup_isSome_iff.mpr ⟨_, hrecorded, beq_self_eq_true _⟩)
  obtain ⟨l₁, l₂, hsplit, -⟩ := List.lookup_eq_some_iff.mp hlookup
  obtain ⟨i, hfound, heq⟩ := hmem (hsplit ▸ List.mem_append_right l₁ List.mem_cons_self)
  rw [hlookup, hget.family hfound hqueue heq.symm]

theorem setUp_of_created {env : DeviceEnv} {d : CreatedDevice}
    (hd : (env.createDevice infos).2 = some d) : d = env.setUp infos := by
  rw [createDevice] at hd
  split at hd
  · cases hd
  · split at hd
    · cases hd
    · split at hd
      · cases hd
      · exact (Option.some.inj hd).symm

/-- Only queues without flags are asked for, and the present hook can match one
of the family that is drawn on whenever there is one, exactly if the first entry
of a graphics family is of a family with a queue without flags. -/
theorem queues_matched_iff {env : DeviceEnv} {families : List UInt32} {d : CreatedDevice}
    (hfamilies : env.families = some families) (hfunction : env.getDeviceQueue = some get)
    (hget : Answers get infos) (hd : (env.createDevice infos).2 = some d) :
    ((∀ query ∈ d.queries, Unflagged infos query.1 query.2) ∧
        ((∃ fam qi, Unflagged infos fam qi ∧ isGraphics families fam = true) →
          ∃ fam qi, d.data.graphicsQueueFamily = some fam ∧ Unflagged infos fam qi ∧
            d.data.queueFamilies.lookup (get fam qi) = some fam)) ↔
      ∀ qci ∈ infos.find? fun qci => isGraphics families qci.queueFamilyIndex,
        ∃ qi, Unflagged infos qci.queueFamilyIndex qi := by
  obtain rfl := setUp_of_created hd
  have hfamily : env.graphicsFamily infos =
      (infos.find? fun qci => isGraphics families qci.queueFamilyIndex).map
        QueueCreateInfo.queueFamilyIndex := by
    rw [graphicsFamily, hfamilies, Option.bind_some]
  have hsetup : env.setUp infos =
      { data := { canPresent := env.canPresent, overlayDisabled := env.overlayDisabled,
                  graphicsQueueFamily := env.graphicsFamily infos,
                  queueFamilies := (infos.flatMap queriesOf).filterMap (record get) }
        graphicsQueue := ((env.graphicsFamily infos).map fun fam => get fam 0).getD 0
        queries := ((env.graphicsFamily infos).map fun fam => (fam, 0)).toList ++
          infos.flatMap queriesOf } := by
    simp only [setUp, hfunction]
  rw [hsetup, hfamily]
  cases hfirst : infos.find? fun qci => isGraphics families qci.queueFamilyIndex with
  | none =>
    refine iff_of_true ⟨fun query hquery => ?_, fun ⟨fam, qi, hqueue, hgraphics⟩ => ?_⟩ (by simp)
    · exact mem_flatMap_queriesOf.mp (by simpa using hquery)
    · obtain ⟨qci, hqci, -, rfl, -⟩ := hqueue
      exact absurd hgraphics (List.find?_eq_none.mp hfirst qci hqci)
  | some first =>
    simp only [Option.map_some, Option.toList_some, Option.mem_some_iff, forall_eq']
    constructor
    · exact fun h => ⟨0, h.1 (first.queueFamilyIndex, 0) List.mem_cons_self⟩
    · rintro ⟨qi, hqueue⟩
      refine ⟨fun query hquery => ?_, fun _ => ?_⟩
      · rcases List.mem_cons.mp hquery with rfl | hquery
        · obtain ⟨qci, hqci, hflags, hfam, hcount⟩ := hqueue
          exact ⟨qci, hqci, hflags, hfam, Nat.zero_lt_of_lt hcount⟩
        · exact mem_flatMap_queriesOf.mp hquery
      · exact ⟨first.queueFamilyIndex, qi, rfl, hqueue, lookup_recorded hget hqueue⟩

/-! ## Protected queues -/

/-- A driver that numbers the queues, eight of them for each family. -/
def numbered : DeviceEnv where
  families := some [1, 1]
  getDeviceQueue := some fun fam qi => 8 * fam + qi + 1

/-- An ordinary queue in front of a protected one. -/
def ordinaryFirst : List QueueCreateInfo := [⟨0, 0, 1⟩, ⟨1, 1, 1⟩]

theorem queues_matched_ordinary : ∃ d, (numbered.createDevice ordinaryFirst).2 = some d ∧
    (((∀ query ∈ d.queries, Unflagged ordinaryFirst query.1 query.2) ∧
        ((∃ fam qi, Unflagged ordinaryFirst fam qi ∧ isGraphics [1, 1] fam = true) →
          ∃ fam qi, d.data.graphicsQueueFamily = some fam ∧ Unflagged ordinaryFirst fam qi ∧
            d.data.queueFamilies.lookup (8 * fam + qi + 1) = some fam)) ↔
      ∀ qci ∈ ordinaryFirst.find? fun qci => isGraphics [1, 1] qci.queueFamilyIndex,
        ∃ qi, Unflagged ordinaryFirst qci.queueFamilyIndex qi) := by
  have hfam : ∀ {fam qi}, Unflagged ordinaryFirst fam qi → fam = 0 := by
    rintro fam qi ⟨qci, hqci, hflags, rfl, -⟩
    simp only [ordinaryFirst, List.mem_cons, List.not_mem_nil, or_false] at hqci
    rcases hqci with rfl | rfl
    · rfl
    · cases hflags
  refine ⟨numbered.setUp ordinaryFirst, rfl, ?_⟩
  refine @queues_matched_iff ordinaryFirst _ numbered _ _ rfl rfl
    ⟨fun _ => Nat.succ_ne_zero _, ?_⟩ rfl
  intro fam qi fam' qi' hqueue hqueue' _
  rw [hfam hqueue, hfam hqueue']

/-- A protected queue in front of an ordinary one: the protected one is asked
for. -/
theorem protected_queried : ¬∀ (infos : List QueueCreateInfo) (env : DeviceEnv) (d : CreatedDevice),
    (env.createDevice infos).2 = some d → ∀ query ∈ d.queries, Unflagged infos query.1 query.2 := by
  intro hall
  obtain ⟨qci, hqci, hflags, hfam, -⟩ :=
    hall [⟨1, 0, 1⟩, ⟨0, 1, 1⟩] numbered _ rfl (0, 0) (by decide)
  simp only [List.mem_cons, List.not_mem_nil, or_false] at hqci
  rcases hqci with rfl | rfl
  · cases hflags
  · cases hfam

end DeviceEnv

end Choir
