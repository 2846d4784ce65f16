-- SUMMARY: The avatar cache over its directory, and when every image it announces can be read.
import ChoirOverlay.Base.Firsts
import ChoirOverlay.Host.Backends
import ChoirOverlay.Host.Hosting
import ChoirOverlay.Ipc.AvatarFile
import ChoirOverlay.Ipc.Splitting

/-!
# The avatar cache

An image is fetched once and written to a file of its own. A file that exists
is taken for the image from then on, by this host and by the ones after it.
-/

namespace Choir

open Crash Machine

/-! ## Requests -/

structure DecodedAvatar where
  w : UInt32
  h : UInt32
  rgba : Bytes
  size : rgba.length = w.toNat * h.toNat * 4

/-- What a request meets outside the host. -/
structure RequestEnv where
  /-- `fs::exists` comes to an error. -/
  statFails : Bool := false
  /-- `AvatarSource::fetch` resizes to exactly 64x64. -/
  fetched : Option { img : DecodedAvatar // img.w = 64 ∧ img.h = 64 } := none
  mkdirFails : Bool := false
  write : AvatarWrite := {}
  /-- `fs::remove`, after a write that failed. -/
  removed : Outcome := .ok

/-- The directory, and the keys cached this run. -/
structure AvatarCache where
  files : Files := fun _ => none
  known : List Bytes := []

namespace AvatarCache

def cdnUrl (userId avatarHash : Bytes) : Bytes :=
  ascii "https://cdn.discordapp.com/avatars/" ++ userId ++ ascii "/" ++ avatarHash ++
    ascii ".png?size=64"

/-- The arguments `ready` is fired with. -/
structure ReadyArgs where
  key : Bytes
  path : Bytes
  w : UInt32
  h : UInt32
  deriving DecidableEq

/-- The key is known, or its file is found. -/
def Hit (dir : Bytes) (env : RequestEnv) (key : Bytes) (s : AvatarCache) : Prop :=
  key ∈ s.known ∨ env.statFails = false ∧ (s.files (pathFor dir key)).isSome = true

instance (dir : Bytes) (env : RequestEnv) (key : Bytes) (s : AvatarCache) :
    Decidable (s.Hit dir env key) :=
  inferInstanceAs (Decidable (_ ∨ _))

/-- A host that died is started again over the same directory. -/
def restart (s : AvatarCache) : AvatarCache := { s with known := [] }

/-- The part of `request_url` after the write, which left `content` under the
path. -/
def settle (env : RequestEnv) (args : ReadyArgs) (content : Option Bytes) (result : Option Bool)
    (s : AvatarCache) : AvatarCache × Option ReadyArgs :=
  let written := { s with files := Function.update s.files args.path content }
  match result with
  | some true => ({ written with known := args.key :: s.known }, some args)
  | some false =>
    match env.removed with
    | .ok => ({ written with files := removeFile args.path written.files }, none)
    | .fails => (written, none)
    | .dies => (written.restart, none)
  | none => (written.restart, none)

/-- The part of `request_url` from the write on. -/
def store (dir : Bytes) (env : RequestEnv) (key : Bytes) (img : DecodedAvatar) (s : AvatarCache) :
    AvatarCache × Option ReadyArgs :=
  let path := pathFor dir key
  let write := writeAvatarRgba env.write img.w img.h img.rgba
  s.settle env ⟨key, path, img.w, img.h⟩ (write.last (s.files path)) (write (s.files path)).result

/-- `request_url` -/
def requestUrl (dir : Bytes) (env : RequestEnv) (key url : Bytes) (s : AvatarCache) :
    AvatarCache × Option ReadyArgs :=
  if key = [] ∨ url = [] then (s, none)
  else if s.Hit dir env key then
    ({ s with known := key :: s.known }, some ⟨key, pathFor dir key, 64, 64⟩)
  else
    match env.fetched with
    | none => (s, none)
    | some img => if env.mkdirFails then (s, none) else s.store dir env key img

/-- `request` -/
def request (dir : Bytes) (env : RequestEnv) (userId avatarHash : Bytes) (s : AvatarCache) :
    AvatarCache × Option ReadyArgs :=
  if avatarHash = [] then (s, none) else s.requestUrl dir env avatarHash (cdnUrl userId avatarHash)

/-! ## Runs -/

inductive Event where
  | request (env : RequestEnv) (userId avatarHash : Bytes)
  | requestUrl (env : RequestEnv) (key url : Bytes)
  | restart

/-- One event, and what `ready` is fired with. -/
def serve (dir : Bytes) (s : AvatarCache) : Event → AvatarCache × Option ReadyArgs
  | .request env userId avatarHash => s.request dir env userId avatarHash
  | .requestUrl env key url => s.requestUrl dir env key url
  | .restart => (s.restart, none)

def step (dir : Bytes) (s : AvatarCache) (e : Event) : AvatarCache := (s.serve dir e).1

/-- From an empty directory on. -/
def after (dir : Bytes) (es : List Event) : AvatarCache := run (step dir) {} es

/-- Whatever comes next is announced with a file that is read at the size
announced. -/
def Truthful (dir : Bytes) (s : AvatarCache) : Prop :=
  ∀ e r, (s.serve dir e).2 = some r →
    ∃ rgba, readAvatarRgba ((s.step dir e).files r.path) = some (r.w, r.h, rgba)

/-! ## What a request leaves -/

end AvatarCache

/-- The write returns false. -/
def AvatarWrite.returnsFalse (env : AvatarWrite) : Bool := !env.dies && !env.succeeds

/-- The file is not opened, or all of it arrives. -/
def AvatarWrite.Whole (env : AvatarWrite) (size : Nat) : Prop :=
  env.opens = .ok → env.reached size = 12 + size

namespace AvatarCache

/-- What is not cleaned up is whole, and what is cleaned up belongs to no key
that is known. -/
def Tidy (dir : Bytes) (env : RequestEnv) (key : Bytes) (img : DecodedAvatar) (s : AvatarCache) :
    Prop :=
  if env.write.returnsFalse = true ∧ env.removed = .ok then
    ∀ k ∈ s.known, k ≠ [] → pathFor dir k ≠ pathFor dir key
  else env.write.Whole img.rgba.length

/-- A request that stores an image is tidy. -/
def MeetsUrl (dir : Bytes) (env : RequestEnv) (key url : Bytes) (s : AvatarCache) : Prop :=
  key ≠ [] → url ≠ [] → ¬ s.Hit dir env key → env.mkdirFails = false →
    ∀ img ∈ env.fetched, s.Tidy dir env key img

def Meets (dir : Bytes) (s : AvatarCache) : Event → Prop
  | .request env userId avatarHash => s.MeetsUrl dir env avatarHash (cdnUrl userId avatarHash)
  | .requestUrl env key url => s.MeetsUrl dir env key url
  | .restart => True

/-- The content of a file that is read at 64x64. -/
def Readable (content : Option Bytes) : Prop :=
  ∃ rgba, readAvatarRgba content = some (64, 64, rgba)

/-- Every file there is can be read, and every known key has one. -/
structure Sound (dir : Bytes) (s : AvatarCache) : Prop where
  files : ∀ key ≠ [], (s.files (pathFor dir key)).isSome = true →
    Readable (s.files (pathFor dir key))
  known : ∀ key ∈ s.known, key ≠ [] → (s.files (pathFor dir key)).isSome = true

variable {dir key url : Bytes} {env : RequestEnv} {s : AvatarCache} {es : List Event}

theorem sound_init : Sound dir {} where
  files _ _ h := by cases h
  known _ h := by cases h

theorem Sound.restart (hs : s.Sound dir) : s.restart.Sound dir where
  files := hs.files
  known _ h := by cases h

/-- One file is another now. -/
theorem Sound.update (hs : s.Sound dir) (hkey : key ≠ []) (content : Option Bytes)
    (known : List Bytes) :
    Sound dir ⟨Function.update s.files (pathFor dir key) content, known⟩ ↔
      (content.isSome = true → Readable content) ∧
        ∀ k ∈ known, k ≠ [] →
          (Function.update s.files (pathFor dir key) content (pathFor dir k)).isSome = true := by
  constructor
  · intro h
    refine ⟨fun hsome => ?_, h.known⟩
    have hfile := h.files key hkey
    simp only [Function.update_self] at hfile
    exact hfile hsome
  · rintro ⟨hcontent, hknown⟩
    refine ⟨fun k hk hsome => ?_, hknown⟩
    rcases eq_or_ne (pathFor dir k) (pathFor dir key) with heq | hne
    · simp only [heq, Function.update_self] at hsome ⊢
      exact hcontent hsome
    · simp only [Function.update_of_ne hne] at hsome ⊢
      exact hs.files k hk hsome

/-- Where a file was written over, the known keys still have theirs. -/
theorem Sound.known_update (hs : s.Sound dir) {content : Option Bytes}
    (hcontent : (s.files (pathFor dir key)).isSome = true → content.isSome = true) :
    ∀ k ∈ s.known, k ≠ [] →
      (Function.update s.files (pathFor dir key) content (pathFor dir k)).isSome = true := by
  intro k hk hne
  have hsome := hs.known k hk hne
  rcases eq_or_ne (pathFor dir k) (pathFor dir key) with heq | hother
  · rw [heq, Function.update_self]
    exact hcontent (heq ▸ hsome)
  · rwa [Function.update_of_ne hother]

/-- Where it was removed, they do when none of them shares it. -/
theorem Sound.known_update_none (hs : s.Sound dir) :
    (∀ k ∈ s.known, k ≠ [] →
        (Function.update s.files (pathFor dir key) none (pathFor dir k)).isSome = true) ↔
      ∀ k ∈ s.known, k ≠ [] → pathFor dir k ≠ pathFor dir key := by
  refine forall₃_congr fun k hk hne => ?_
  constructor
  · intro h heq
    rw [heq, Function.update_self] at h
    cases h
  · intro hother
    rw [Function.update_of_ne hother]
    exact hs.known k hk hne

/-! ## The file that was written -/

section Written

variable {img : DecodedAvatar} (hdims : img.w = 64 ∧ img.h = 64)

include hdims

theorem length_rgba : img.rgba.length = 16384 := by
  rw [img.size, hdims.1, hdims.2]
  rfl

/-- What the write leaves, and how it ends. -/
theorem write_spec (file : Option Bytes) :
    (writeAvatarRgba env.write img.w img.h img.rgba).last file =
        (if env.write.opens = .ok then
          some ((avatarFile img.w img.h img.rgba).take (env.write.reached img.rgba.length))
        else file) ∧
      (writeAvatarRgba env.write img.w img.h img.rgba file).result =
        if env.write.dies then none else some env.write.succeeds := by
  have hlen := length_rgba hdims
  exact writeAvatarRgba_spec env.write img.size (by omega) (by omega) file

theorem readable_take_iff (n : Nat) (hn : n ≤ 12 + img.rgba.length) :
    Readable (some ((avatarFile img.w img.h img.rgba).take n)) ↔ n = 12 + img.rgba.length := by
  constructor
  · rintro ⟨rgba, hread⟩
    by_contra hne
    rw [readAvatarRgba_take img.size (Nat.lt_of_le_of_ne hn hne)] at hread
    cases hread
  · rintro rfl
    have hw : img.w ≠ 0 ∧ img.w ≤ kMaxDim := by rw [hdims.1]; decide
    have hh : img.h ≠ 0 ∧ img.h ≤ kMaxDim := by rw [hdims.2]; decide
    refine ⟨img.rgba, ?_⟩
    rw [← length_avatarFile img.w img.h img.rgba, List.take_length,
      readAvatarRgba_avatarFile hw hh img.size, hdims.1, hdims.2]

/-- A file that was there can be read, so what is left can exactly when it is
whole. -/
theorem readable_written_iff {file : Option Bytes} (hfile : file.isSome = true → Readable file) :
    (((writeAvatarRgba env.write img.w img.h img.rgba).last file).isSome = true →
        Readable ((writeAvatarRgba env.write img.w img.h img.rgba).last file)) ↔
      env.write.Whole img.rgba.length := by
  rw [(write_spec hdims file).1, AvatarWrite.Whole]
  by_cases hopen : env.write.opens = .ok
  · simp only [hopen, if_true, Option.isSome_some, forall_const,
      readable_take_iff hdims _ (env.write.reached_le img.rgba.length)]
  · simp only [hopen, if_false, false_implies, iff_true]
    exact hfile

/-- What is stored keeps the cache sound exactly when it is tidy. -/
theorem sound_store (hs : s.Sound dir) (hkey : key ≠ []) :
    (s.store dir env key img).1.Sound dir ↔ s.Tidy dir env key img := by
  obtain ⟨hlast, hresult⟩ := @write_spec env img hdims (s.files (pathFor dir key))
  have hwritten := @readable_written_iff env img hdims _ (hs.files key hkey)
  have hkept : (s.files (pathFor dir key)).isSome = true →
      ((writeAvatarRgba env.write img.w img.h img.rgba).last
        (s.files (pathFor dir key))).isSome = true := by
    intro hsome
    rw [hlast]
    split
    · rfl
    · exact hsome
  rw [store, hresult, Tidy, AvatarWrite.returnsFalse]
  generalize (writeAvatarRgba env.write img.w img.h img.rgba).last (s.files (pathFor dir key)) =
    content at hwritten hkept hlast ⊢
  -- With the file left there, whether the known keys are kept or forgotten.
  have hkeep : Sound dir ⟨Function.update s.files (pathFor dir key) content, s.known⟩ ↔
      env.write.Whole img.rgba.length :=
    (hs.update hkey content s.known).trans ((and_iff_left (hs.known_update hkept)).trans hwritten)
  have hforget : Sound dir ⟨Function.update s.files (pathFor dir key) content, []⟩ ↔
      env.write.Whole img.rgba.length :=
    (hs.update hkey content []).trans
      ((and_iff_left fun k hk => absurd hk List.not_mem_nil).trans hwritten)
  rcases Bool.eq_false_or_eq_true env.write.dies with hdies | hdies
  · simp only [hdies]
    exact hforget
  rcases Bool.eq_false_or_eq_true env.write.succeeds with hok | hok
  · have hwhole : env.write.Whole img.rgba.length := fun _ =>
      env.write.reached_of_succeeds hok img.rgba.length
    have hsome : content.isSome = true := by
      rw [hlast, if_pos (env.write.opens_of_succeeds hok), Option.isSome_some]
    have hself : Sound dir ⟨Function.update s.files (pathFor dir key) content, key :: s.known⟩ :=
      (hs.update hkey content (key :: s.known)).mpr ⟨hwritten.mpr hwhole,
        List.forall_mem_cons.mpr ⟨fun _ => by rwa [Function.update_self],
          hs.known_update fun _ => hsome⟩⟩
    simp only [hdies, hok]
    exact ⟨fun _ => hwhole, fun _ => hself⟩
  · simp only [hdies, hok, Bool.false_eq_true, if_false]
    cases hremoved : env.removed with
    | ok =>
      simp only [settle, hremoved, removeFile, Function.update_idem]
      rw [hs.update hkey none s.known, hs.known_update_none]
      simp
    | fails =>
      simp only [settle, hremoved]
      exact hkeep
    | dies =>
      simp only [settle, hremoved]
      exact hforget

end Written

/-! ## Requests keep the cache sound -/

/-- A hit makes known what is there. -/
theorem Sound.hit (hs : s.Sound dir) (hhit : s.Hit dir env key) :
    Sound dir { s with known := key :: s.known } where
  files := hs.files
  known := by
    refine List.forall_mem_cons.mpr ⟨fun hkey => ?_, hs.known⟩
    rcases hhit with hknown | ⟨-, hfile⟩
    · exact hs.known key hknown hkey
    · exact hfile

theorem sound_requestUrl (hs : s.Sound dir) (env : RequestEnv) (key url : Bytes) :
    (s.requestUrl dir env key url).1.Sound dir ↔ s.MeetsUrl dir env key url := by
  rw [requestUrl, MeetsUrl]
  split
  case isTrue hempty =>
    exact iff_of_true hs fun hkey hurl => absurd hempty (not_or.mpr ⟨hkey, hurl⟩)
  case isFalse hsome =>
    obtain ⟨hkey, hurl⟩ := not_or.mp hsome
    split
    case isTrue hhit => exact iff_of_true (hs.hit hhit) fun _ _ hmiss => absurd hhit hmiss
    case isFalse hmiss =>
      cases hfetched : env.fetched with
      | none => exact iff_of_true hs fun _ _ _ _ img himg => by cases himg
      | some img =>
        cases hmkdir : env.mkdirFails with
        | true => exact iff_of_true hs fun _ _ _ h => by cases h
        | false => simpa [hkey, hurl, hmiss] using sound_store img.property hs hkey

theorem sound_step (hs : s.Sound dir) (e : Event) : (s.step dir e).Sound dir ↔ s.Meets dir e := by
  cases e with
  | request env userId avatarHash =>
    simp only [step, serve, request, Meets]
    split
    case isTrue hnil => exact iff_of_true hs fun hkey => absurd hnil hkey
    case isFalse => exact sound_requestUrl hs env avatarHash _
  | requestUrl env key url => exact sound_requestUrl hs env key url
  | restart => exact iff_of_true hs.restart trivial

/-! ## What is announced -/

/-- A hit is announced at 64x64. -/
theorem requestUrl_of_hit (hkey : key ≠ []) (hurl : url ≠ []) (hhit : s.Hit dir env key) :
    s.requestUrl dir env key url =
      ({ s with known := key :: s.known }, some ⟨key, pathFor dir key, 64, 64⟩) := by
  rw [requestUrl, if_neg (not_or.mpr ⟨hkey, hurl⟩), if_pos hhit]

/-- What is stored is announced when the write succeeds. -/
theorem announced_store {img : DecodedAvatar} (hdims : img.w = 64 ∧ img.h = 64) {r : ReadyArgs}
    (hr : (s.store dir env key img).2 = some r) :
    ∃ rgba, readAvatarRgba ((s.store dir env key img).1.files r.path) = some (r.w, r.h, rgba) := by
  obtain ⟨hlast, hresult⟩ := @write_spec env img hdims (s.files (pathFor dir key))
  rw [store, hresult] at hr ⊢
  rcases Bool.eq_false_or_eq_true env.write.dies with hdies | hdies
  · simp only [hdies, if_true, settle] at hr
    cases hr
  rcases Bool.eq_false_or_eq_true env.write.succeeds with hok | hok
  · simp only [hdies, hok, Bool.false_eq_true, if_false, settle] at hr ⊢
    obtain rfl := Option.some.inj hr
    have hwhole := env.write.reached_of_succeeds hok img.rgba.length
    obtain ⟨rgba, hread⟩ := (readable_take_iff hdims _ (Nat.le_of_eq hwhole)).mpr hwhole
    refine ⟨rgba, ?_⟩
    simp only [Function.update_self]
    rw [hlast, if_pos (env.write.opens_of_succeeds hok), hread, hdims.1, hdims.2]
  · simp only [hdies, hok, Bool.false_eq_true, if_false, settle] at hr
    cases hremoved : env.removed <;> simp [hremoved] at hr

/-- What a sound cache announces can be read at the size announced. -/
theorem Sound.announced (hs : s.Sound dir) {r : ReadyArgs}
    (hr : (s.requestUrl dir env key url).2 = some r) :
    ∃ rgba, readAvatarRgba ((s.requestUrl dir env key url).1.files r.path) =
      some (r.w, r.h, rgba) := by
  rw [requestUrl] at hr ⊢
  split at hr
  case isTrue hempty => cases hr
  case isFalse hsome =>
    have hkey := (not_or.mp hsome).1
    rw [if_neg hsome]
    split at hr
    case isTrue hhit =>
      rw [if_pos hhit]
      obtain rfl := Option.some.inj hr
      exact hs.files key hkey ((hs.hit hhit).known key List.mem_cons_self hkey)
    case isFalse hmiss =>
      rw [if_neg hmiss]
      cases hfetched : env.fetched with
      | none => simp [hfetched] at hr
      | some img =>
        cases hmkdir : env.mkdirFails with
        | true => simp [hfetched, hmkdir] at hr
        | false =>
          simp only [hfetched, hmkdir, Bool.false_eq_true, if_false] at hr ⊢
          exact announced_store img.property hr

/-- To announce only what can be read is to be sound. -/
theorem truthful_iff (dir : Bytes) (s : AvatarCache) : s.Truthful dir ↔ s.Sound dir := by
  constructor
  · intro htruth
    have hread : ∀ key ≠ [], s.Hit dir {} key → Readable (s.files (pathFor dir key)) := by
      intro key hkey hhit
      have hserve := requestUrl_of_hit hkey (List.cons_ne_nil 0 []) hhit
      have hannounced := htruth (.requestUrl {} key [0]) _ (congrArg Prod.snd hserve)
      rwa [step, serve, hserve] at hannounced
    refine ⟨fun key hkey hfile => hread key hkey (.inr ⟨rfl, hfile⟩), fun key hknown hkey => ?_⟩
    obtain ⟨rgba, hread⟩ := hread key hkey (.inl hknown)
    cases hfile : s.files (pathFor dir key) with
    | none => simp [hfile, readAvatarRgba] at hread
    | some bytes => rfl
  · intro hs e r hr
    cases e with
    | request env userId avatarHash =>
      simp only [step, serve, request] at hr ⊢
      split at hr
      case isTrue hnil => cases hr
      case isFalse hhash =>
        rw [if_neg hhash]
        exact hs.announced hr
    | requestUrl env key url => exact hs.announced hr
    | restart => cases hr

/-- Along a run every image is announced with a file that is read at the size
announced, whatever comes next, exactly when every request is tidy. -/
theorem truthful_iff_along (dir : Bytes) (es : List Event) :
    (∀ pre, pre <+: es → (after dir pre).Truthful dir) ↔
      Along (step dir) (Meets dir) {} es := by
  simp only [truthful_iff]
  exact forall_prefix_iff_along (fun s e (hs : Sound dir s) => sound_step hs e) sound_init es

/-- A transparent image. -/
def blank : { img : DecodedAvatar // img.w = 64 ∧ img.h = 64 } :=
  ⟨⟨64, 64, List.replicate 16384 0, List.length_replicate⟩, rfl, rfl⟩

/-- The host dies before anything arrives in the file it opened. -/
def cutShort : RequestEnv :=
  { fetched := some blank, write := { header := { reach := 0, ending := .dies } } }

/-- The next host takes the empty file for the image. -/
theorem emptyFile_announced : ¬ ∀ dir es, (after dir es).Truthful dir := by
  intro htruth
  let request : Event := .requestUrl cutShort (ascii "emoji.c.1")
    (ascii "https://cdn.discordapp.com/emojis/1.png?size=64")
  have hsound := (truthful_iff _ _).mp (htruth (ascii "/cache") [request])
  have hmeets := (sound_step sound_init request).mp hsound
  have hmiss : ¬ Hit (ascii "/cache") cutShort (ascii "emoji.c.1") {} := by
    rintro (hknown | ⟨-, hfile⟩)
    · cases hknown
    · cases hfile
  have htidy := hmeets (by decide) (by decide) hmiss rfl blank rfl
  have hwhole : cutShort.write.Whole 16384 := by
    rw [Tidy, if_neg (by decide), length_rgba blank.property] at htidy
    exact htidy
  exact absurd (hwhole rfl) (by decide)

end AvatarCache

/-! ## The emoji of a notification -/

def kMaxEmojiPerNotification : Nat := 16

/-- The loop of `request_notification_emoji`, with the keys it has seen: the
keys and URLs `request_url` is called with. -/
def requestRuns (seen : List Bytes) : List Emoji.Run → List (Bytes × Bytes)
  | [] => []
  | r :: runs =>
    if r.key = [] ∨ r.key ∈ seen then requestRuns seen runs
    else if kMaxEmojiPerNotification < (r.key :: seen).length then []
    else (r.key, Emoji.urlFor r.key) :: requestRuns (r.key :: seen) runs

/-- `request_notification_emoji` -/
def requestNotificationEmoji (title body : Bytes) : List (Bytes × Bytes) :=
  requestRuns [] ([title, body].flatMap Emoji.splitRuns)

open Firsts in
/-- What is requested are the first keys that were not seen, as many as there is
still room for. -/
theorem requestRuns_eq (seen : List Bytes) (hseen : seen.length ≤ kMaxEmojiPerNotification)
    (runs : List Emoji.Run) :
    requestRuns seen runs =
      ((firsts seen (Emoji.emojiKeys runs)).take (kMaxEmojiPerNotification - seen.length)).map
        fun key => (key, Emoji.urlFor key) := by
  induction runs generalizing seen with
  | nil => simp [requestRuns]
  | cons r runs ih =>
    rw [requestRuns]
    split
    · rename_i hskip
      by_cases hkey : r.key = []
      · rw [Emoji.emojiKeys_cons_text hkey, ih seen hseen]
      · have hmem : r.key ∈ seen := hskip.resolve_left hkey
        rw [Emoji.emojiKeys_cons_emoji hkey, firsts_cons_of_mem hmem, ih seen hseen]
    · rename_i hnew
      obtain ⟨hkey, hmem⟩ := not_or.mp hnew
      rw [Emoji.emojiKeys_cons_emoji hkey, firsts_cons_of_not_mem hmem, List.length_cons]
      split
      · rename_i hfull
        have hnone : kMaxEmojiPerNotification - seen.length = 0 := by omega
        rw [hnone, List.take_zero, List.map_nil]
      · rename_i hroom
        have hsome : kMaxEmojiPerNotification - seen.length =
            kMaxEmojiPerNotification - (r.key :: seen).length + 1 := by
          rw [List.length_cons]
          omega
        rw [hsome, List.take_succ_cons, List.map_cons, ih (r.key :: seen) (by simpa using hroom)]

/-- The keys of a text are those of custom emoji and of Unicode ones. -/
theorem key_of_mem_emojiKeys {text key : Bytes}
    (hkey : key ∈ Emoji.emojiKeys (Emoji.splitRuns text)) :
    Emoji.IsCustomKey key ∨ Emoji.IsUnicodeKey key := by
  obtain ⟨hmem, hne⟩ := List.mem_filter.mp hkey
  obtain ⟨r, hr, rfl⟩ := List.mem_map.mp hmem
  obtain ⟨ls, hreads, hruns⟩ := Emoji.splitRuns_eq text
  rw [hruns] at hr
  have hform : ∀ r ∈ Emoji.runsOf [] ls,
      r.key = [] ∨ Emoji.IsCustomKey r.key ∨ Emoji.IsUnicodeKey r.key :=
    Emoji.forall_runsOf hreads (fun _ _ => .inl rfl)
      (fun e => .inr (.inl (Emoji.isCustomKey_key e)))
      fun _ _ _ hmatch => .inr (.inr (Emoji.isUnicodeKey_key hmatch))
  exact (hform r hr).resolve_left (by simpa using hne)

/-- Every key of a text has a URL. -/
theorem urlFor_ne_nil {text key : Bytes} (hkey : key ∈ Emoji.emojiKeys (Emoji.splitRuns text)) :
    Emoji.urlFor key ≠ [] := by
  rcases key_of_mem_emojiKeys hkey with hcustom | hunicode
  · exact hcustom.urlFor_ne_nil
  · exact hunicode.urlFor_ne_nil

open Firsts in
/-- Only keys of the title and the body are requested. -/
theorem key_of_mem_requests {title body : Bytes} {r : Bytes × Bytes}
    (hr : r ∈ requestNotificationEmoji title body) :
    Emoji.IsCustomKey r.1 ∨ Emoji.IsUnicodeKey r.1 := by
  rw [requestNotificationEmoji, requestRuns_eq [] (Nat.zero_le _), firsts_of_nothing_seen] at hr
  obtain ⟨key, hkey, rfl⟩ := List.mem_map.mp hr
  have hmem := List.mem_eraseDups.mp (List.mem_of_mem_take hkey)
  rw [List.flatMap_cons, List.flatMap_cons, List.flatMap_nil, List.append_nil,
    Emoji.emojiKeys_append] at hmem
  rcases List.mem_append.mp hmem with hmem | hmem
  · exact key_of_mem_emojiKeys hmem
  · exact key_of_mem_emojiKeys hmem

end Choir
