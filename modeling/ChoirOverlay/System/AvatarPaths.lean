-- SUMMARY: The paths the avatar cache uses for an event of Discord's, and when all of them lie inside its directory.
import ChoirOverlay.Host.Denylist
import ChoirOverlay.System.EmojiKeys

/-!
# The paths of the avatar cache

A key becomes the name of a file. The keys of emoji are spelled out of digits,
hexadecimal digits and dashes; the hash of an avatar is whatever string came.
-/

namespace Choir

open Crash

/-! ## Names in a directory -/

/-- A name behind the name of a directory. -/
def inDir (dir name : Bytes) : Bytes :=
  if dir = [] ∨ dir.getLast? = some 0x2F then dir ++ name else dir ++ 0x2F :: name

/-- The name of an entry that is neither the directory nor the one above it. -/
structure IsFileName (name : Bytes) : Prop where
  slash_notMem : 0x2F ∉ name
  ne_nil : name ≠ []
  ne_dot : name ≠ [0x2E]
  ne_dotdot : name ≠ [0x2E, 0x2E]

/-- What the system takes for the path is a file directly in the directory. -/
def DirectlyIn (dir path : Bytes) : Prop := ∃ name, IsFileName name ∧ cString path = inDir dir name

variable {dir name key : Bytes}

theorem inDir_inj {name' : Bytes} (h : inDir dir name = inDir dir name') : name = name' := by
  unfold inDir at h
  split at h
  · exact List.append_cancel_left h
  · exact List.tail_eq_of_cons_eq (List.append_cancel_left h)

theorem cString_of_not_mem (h : 0x00 ∉ name) : cString name = name := by
  refine List.takeWhile_eq_self_iff.mpr fun b hb => decide_eq_true ?_
  rintro rfl
  exact h hb

theorem cString_append (h : 0x00 ∉ dir) : cString (dir ++ name) = dir ++ cString name := by
  refine List.takeWhile_append_of_pos fun b hb => decide_eq_true ?_
  rintro rfl
  exact h hb

theorem cString_append_of_mem (h : 0x00 ∈ key) : cString (key ++ name) = cString key := by
  obtain ⟨pre, post, rfl, hpre⟩ := List.eq_append_cons_of_mem h
  rw [List.append_assoc, cString_append hpre, cString_append hpre]
  rfl

theorem cString_inDir (h : 0x00 ∉ dir) : cString (inDir dir name) = inDir dir (cString name) := by
  unfold inDir
  split
  · exact cString_append h
  · rw [cString_append h]
    rfl

theorem directlyIn_inDir (h : 0x00 ∉ dir) :
    DirectlyIn dir (inDir dir name) ↔ IsFileName (cString name) := by
  rw [DirectlyIn, cString_inDir h]
  constructor
  · rintro ⟨name', hname, heq⟩
    rwa [inDir_inj heq]
  · exact fun hname => ⟨_, hname, rfl⟩

/-! ## Keys -/

/-- A key without a slash in it; one that is cut short at a zero byte leaves a
name still. -/
def NamesFile (key : Bytes) : Prop :=
  0x2F ∉ cString key ∧
    (0x00 ∈ key → cString key ≠ [] ∧ cString key ≠ [0x2E] ∧ cString key ≠ [0x2E, 0x2E])

theorem isFileName_iff (key : Bytes) :
    IsFileName (cString (key ++ ascii ".rgba")) ↔ NamesFile key := by
  by_cases hnul : 0x00 ∈ key
  · rw [cString_append_of_mem hnul, NamesFile]
    constructor
    · exact fun h => ⟨h.slash_notMem, fun _ => ⟨h.ne_nil, h.ne_dot, h.ne_dotdot⟩⟩
    · rintro ⟨hslash, hname⟩
      exact ⟨hslash, (hname hnul).1, (hname hnul).2.1, (hname hnul).2.2⟩
  · have hext : cString (key ++ ascii ".rgba") = key ++ ascii ".rgba" := by
      rw [cString_append hnul]
      rfl
    have hlong : ∀ name : Bytes, name.length < 5 → key ++ ascii ".rgba" ≠ name := by
      rintro name hlen rfl
      rw [List.length_append, show (ascii ".rgba").length = 5 from rfl] at hlen
      omega
    rw [hext, NamesFile, cString_of_not_mem hnul]
    constructor
    · exact fun h => ⟨fun hmem => h.slash_notMem (List.mem_append_left _ hmem),
        fun hmem => absurd hmem hnul⟩
    · rintro ⟨hslash, -⟩
      refine ⟨?_, hlong _ (by decide), hlong _ (by decide), hlong _ (by decide)⟩
      rw [List.mem_append, not_or]
      exact ⟨hslash, by decide⟩

theorem namesFile_of_plain (hslash : 0x2F ∉ key) (hnul : 0x00 ∉ key) : NamesFile key := by
  rw [NamesFile, cString_of_not_mem hnul]
  exact ⟨hslash, fun hmem => absurd hmem hnul⟩

theorem namesFile_of_bytes {p : UInt8 → Bool} {front rest : Bytes}
    (hfront : 0x2F ∉ front ∧ 0x00 ∉ front) (hrest : ∀ b ∈ rest, p b = true)
    (hp : p 0x2F = false ∧ p 0x00 = false) : NamesFile (front ++ rest) := by
  have hnone : ∀ b, p b = false → b ∉ rest := by
    intro b hb hmem
    rw [hrest b hmem] at hb
    cases hb
  refine namesFile_of_plain ?_ ?_
  · rw [List.mem_append, not_or]
    exact ⟨hfront.1, hnone _ hp.1⟩
  · rw [List.mem_append, not_or]
    exact ⟨hfront.2, hnone _ hp.2⟩

namespace Emoji

theorem IsCustomKey.namesFile (h : IsCustomKey key) : NamesFile key := by
  obtain ⟨id, -, hid, rfl⟩ := h
  exact namesFile_of_bytes (by decide) hid (by decide)

theorem mem_intercalate_dash {words : List Bytes} {b : UInt8}
    (hb : b ∈ [0x2D].intercalate words) : b = 0x2D ∨ ∃ w ∈ words, b ∈ w := by
  induction words with
  | nil => cases hb
  | cons w words ih =>
    cases words with
    | nil => exact .inr ⟨w, List.mem_cons_self, by simpa using hb⟩
    | cons w' words =>
      rw [List.intercalate_cons_cons, List.append_assoc, List.singleton_append] at hb
      rcases List.mem_append.mp hb with hb | hb
      · exact .inr ⟨w, List.mem_cons_self, hb⟩
      · rcases List.mem_cons.mp hb with rfl | hb
        · exact .inl rfl
        · exact (ih hb).imp_right fun ⟨v, hv, hmem⟩ => ⟨v, List.mem_cons_of_mem _ hv, hmem⟩

theorem IsUnicodeKey.namesFile (h : IsUnicodeKey key) : NamesFile key := by
  obtain ⟨words, -, hwords, rfl⟩ := h
  refine namesFile_of_bytes (p := fun b => b == 0x2D || isHexDigit b) (by decide) ?_ (by decide)
  intro b hb
  rcases mem_intercalate_dash hb with rfl | ⟨w, hw, hmem⟩
  · rfl
  · simp [(hwords w hw).2 b hmem]

end Emoji

namespace AvatarCache

/-! ## What a request does with its path -/

inductive AccessKind where
  | checks | writes | removes | announces
  deriving DecidableEq

structure Access where
  kind : AccessKind
  key : Bytes
  path : Bytes
  deriving DecidableEq

/-- It is a file directly in the directory, and not by an absolute key. -/
def Access.Stays (dir : Bytes) (a : Access) : Prop :=
  a.key.head? ≠ some 0x2F ∧ DirectlyIn dir a.path

/-- What `request_url` does with the one path it has, and whether the host
outlives it. -/
def attempt (dir : Bytes) (env : RequestEnv) (key url : Bytes) (s : AvatarCache) :
    List AccessKind × Bool :=
  if key = [] ∨ url = [] then ([], true)
  else
    let checks : List AccessKind := if s.known.contains key then [] else [.checks]
    if s.Hit dir env key then (checks ++ [.announces], true)
    else
      match env.fetched with
      | none => (checks, true)
      | some img =>
        if env.mkdirFails then (checks, true)
        else
          let file := s.files (pathFor dir key)
          match (writeAvatarRgba env.write img.1.w img.1.h img.1.rgba file).result with
          | some true => (checks ++ [.writes, .announces], true)
          | some false => (checks ++ [.writes, .removes], env.removed ≠ .dies)
          | none => (checks ++ [.writes], false)

/-- What one request after the other does, each in an environment of its own,
for as long as the host lives. -/
def accesses (dir : Bytes) : (Nat → RequestEnv) → AvatarCache → List (Bytes × Bytes) → List Access
  | _, _, [] => []
  | env, s, (key, url) :: reqs =>
    (s.attempt dir (env 0) key url).1.map (⟨·, key, pathFor dir key⟩) ++
      if (s.attempt dir (env 0) key url).2 then
        accesses dir (fun i => env (i + 1)) (s.requestUrl dir (env 0) key url).1 reqs
      else []

variable {env : RequestEnv} {url : Bytes} {s : AvatarCache}

theorem attempt_of_no_key : s.attempt dir env [] url = ([], true) := if_pos (.inl rfl)

/-- Every request checks its path or announces it. -/
theorem attempt_ne_nil (hkey : key ≠ []) (hurl : url ≠ []) :
    (s.attempt dir env key url).1 ≠ [] := by
  rw [attempt, if_neg (not_or.mpr ⟨hkey, hurl⟩)]
  by_cases hhit : s.Hit dir env key
  · simp only [if_pos hhit]
    exact List.append_ne_nil_of_right_ne_nil _ (List.cons_ne_nil _ _)
  · have hchecks : ¬s.known.contains key = true := by
      rw [List.contains_iff_mem]
      exact fun hmem => hhit (.inl hmem)
    simp only [if_neg hhit, if_neg hchecks]
    cases env.fetched with
    | none => exact List.cons_ne_nil _ _
    | some img =>
      dsimp only
      split
      · exact List.cons_ne_nil _ _
      · split <;> exact List.cons_ne_nil _ _

theorem settle_announced (args : ReadyArgs) (content : Option Bytes) (result : Option Bool) :
    (s.settle env args content result).2 = if result = some true then some args else none := by
  cases result with
  | none => rfl
  | some ok =>
    cases ok with
    | true => rfl
    | false => cases hremoved : env.removed <;> simp [settle, hremoved]

theorem settle_files {args : ReadyArgs} {path : Bytes} (hpath : path ≠ args.path)
    (content : Option Bytes) (result : Option Bool) :
    (s.settle env args content result).1.files path = s.files path := by
  have hwritten : Function.update s.files args.path content path = s.files path :=
    Function.update_of_ne hpath ..
  cases result with
  | none => exact hwritten
  | some ok =>
    cases ok with
    | true => exact hwritten
    | false =>
      cases hremoved : env.removed with
      | ok =>
        simp only [settle, hremoved, removeFile]
        rw [Function.update_of_ne hpath, hwritten]
      | fails | dies =>
        simp only [settle, hremoved, restart]
        exact hwritten

/-- It announces its path exactly if `ready` is fired, and a file it does not
write is as it was. -/
theorem attempt_spec : (.announces ∈ (s.attempt dir env key url).1 ↔
      (s.requestUrl dir env key url).2.isSome = true) ∧
    ∀ path, (.writes ∈ (s.attempt dir env key url).1 → path ≠ pathFor dir key) →
      (s.requestUrl dir env key url).1.files path = s.files path := by
  rw [attempt, requestUrl]
  by_cases hempty : key = [] ∨ url = []
  · simp [hempty]
  by_cases hhit : s.Hit dir env key
  · simp [hempty, hhit]
  simp only [if_neg hempty, if_neg hhit]
  cases env.fetched with
  | none => simp
  | some img =>
    cases hmkdir : env.mkdirFails with
    | true => simp
    | false =>
      simp only [Bool.false_eq_true, if_false, store, settle_announced]
      generalize (writeAvatarRgba env.write img.1.w img.1.h img.1.rgba
        (s.files (pathFor dir key))).result = result
      refine ⟨?_, fun path hpath => settle_files (hpath ?_) _ _⟩
      · cases result with
        | none => simp
        | some ok => cases ok <;> simp
      · cases result with
        | none => simp
        | some ok => cases ok <;> simp

theorem of_mem_accesses {env : Nat → RequestEnv} {reqs : List (Bytes × Bytes)} {a : Access}
    (ha : a ∈ s.accesses dir env reqs) :
    ∃ r ∈ reqs, r.1 ≠ [] ∧ a.key = r.1 ∧ a.path = pathFor dir r.1 := by
  induction reqs generalizing env s with
  | nil => cases ha
  | cons r reqs ih =>
    rw [accesses] at ha
    rcases List.mem_append.mp ha with ha | ha
    · obtain ⟨kind, hkind, rfl⟩ := List.mem_map.mp ha
      refine ⟨r, List.mem_cons_self, ?_, rfl, rfl⟩
      intro hkey
      rw [hkey, attempt_of_no_key] at hkind
      cases hkind
    · generalize (s.attempt dir (env 0) r.1 r.2).2 = lives at ha
      cases lives with
      | true =>
        obtain ⟨r', hr', h⟩ := ih ha
        exact ⟨r', List.mem_cons_of_mem r hr', h⟩
      | false => cases ha

/-- Each access is of the file that its key names. -/
theorem stays_iff (hdir : 0x00 ∉ dir) {a : Access} (hkey : a.key ≠ [])
    (hpath : a.path = pathFor dir a.key) : a.Stays dir ↔ NamesFile a.key := by
  rw [Access.Stays, hpath]
  obtain ⟨b, rest, hcons⟩ := List.exists_cons_of_ne_nil hkey
  by_cases habsolute : b = 0x2F
  · refine iff_of_false (fun h => h.1 (by rw [hcons, habsolute]; rfl)) fun h => h.1 ?_
    rw [hcons, habsolute]
    exact List.mem_cons_self
  · have hrelative : pathFor dir a.key = inDir dir (a.key ++ ascii ".rgba") := by
      rw [pathFor, inDir, hcons, if_neg (by simpa using habsolute)]
    have hhead : a.key.head? ≠ some 0x2F := by
      rw [hcons]
      simpa using habsolute
    rw [hrelative, directlyIn_inDir hdir, isFileName_iff, and_iff_right hhead]

/-! ## The requests for an event -/

end AvatarCache

namespace RpcEvent

/-- The avatars `main` requests for an event: the user and the hash. -/
def avatarRequests (ev : RpcEvent) : List (Bytes × Bytes) :=
  (if (ev.kind = .voiceCreate ∨ ev.kind = .voiceUpdate) ∧ ev.voice.avatarHash ≠ [] then
      [(ev.voice.userId, ev.voice.avatarHash)]
    else []) ++
  if ev.kind = .notification ∧ ev.notif.iconHash ≠ [] ∧ ev.userId ≠ [] then
    [(ev.userId, ev.notif.iconHash)]
  else []

/-- The keys and URLs of all images that `main` requests for an event, in order. -/
def imageRequests (ev : RpcEvent) : List (Bytes × Bytes) :=
  (ev.avatarRequests.map fun r => (r.2, AvatarCache.cdnUrl r.1 r.2)) ++ ev.emojiRequests

/-- The hashes among the keys. -/
def hashes (ev : RpcEvent) : List Bytes := ev.avatarRequests.map Prod.snd

variable {ev : RpcEvent}

theorem avatarRequests_spec {r : Bytes × Bytes} (hr : r ∈ ev.avatarRequests) :
    r.2 ≠ [] ∧ ev.avatarRequests = [r] := by
  rw [avatarRequests] at hr ⊢
  by_cases hvoice : (ev.kind = .voiceCreate ∨ ev.kind = .voiceUpdate) ∧ ev.voice.avatarHash ≠ []
  · have hkind : ¬(ev.kind = .notification ∧ ev.notif.iconHash ≠ [] ∧ ev.userId ≠ []) := by
      rintro ⟨hkind, -⟩
      rw [hkind] at hvoice
      simp at hvoice
    rw [if_pos hvoice, if_neg hkind, List.append_nil] at hr ⊢
    obtain rfl := List.mem_singleton.mp hr
    exact ⟨hvoice.2, rfl⟩
  · rw [if_neg hvoice, List.nil_append] at hr ⊢
    split at hr
    · rename_i hnotif
      obtain rfl := List.mem_singleton.mp hr
      exact ⟨hnotif.2.1, if_pos hnotif⟩
    · cases hr

/-- A key is the hash of the event, or one of an emoji. -/
theorem namesFile_of_request (hhash : ∀ hash ∈ ev.hashes, NamesFile hash) {r : Bytes × Bytes}
    (hr : r ∈ ev.imageRequests) : NamesFile r.1 := by
  rcases List.mem_append.mp hr with hr | hr
  · obtain ⟨q, hq, rfl⟩ := List.mem_map.mp hr
    exact hhash q.2 (List.mem_map_of_mem hq)
  · rw [emojiRequests] at hr
    split at hr
    · rcases key_of_mem_requests hr with hcustom | hunicode
      · exact hcustom.namesFile
      · exact hunicode.namesFile
    · cases hr

end RpcEvent

namespace AvatarCache

theorem cdnUrl_ne_nil (userId hash : Bytes) : cdnUrl userId hash ≠ [] := by
  intro h
  cases h

/-- Whatever the cache does for an event is done to files directly in its
directory exactly if the hash of the event names one. -/
theorem accesses_stay_iff (hdir : 0x00 ∉ dir) (env : Nat → RequestEnv) (s : AvatarCache)
    (ev : RpcEvent) :
    (∀ a ∈ s.accesses dir env ev.imageRequests, a.Stays dir) ↔
      ∀ hash ∈ ev.hashes, NamesFile hash := by
  constructor
  · intro hstays hash hhash
    obtain ⟨r, hr, rfl⟩ := List.mem_map.mp hhash
    obtain ⟨hkey, hreqs⟩ := RpcEvent.avatarRequests_spec hr
    -- The hash is requested first, so the cache comes to it.
    have hfirst : ev.imageRequests = (r.2, cdnUrl r.1 r.2) :: ev.emojiRequests := by
      rw [RpcEvent.imageRequests, hreqs]
      rfl
    obtain ⟨kind, hkind⟩ := List.exists_mem_of_ne_nil _
      (@attempt_ne_nil dir r.2 (env 0) (cdnUrl r.1 r.2) s hkey (cdnUrl_ne_nil r.1 r.2))
    have hmem : ⟨kind, r.2, pathFor dir r.2⟩ ∈ s.accesses dir env ev.imageRequests := by
      rw [hfirst, accesses]
      exact List.mem_append_left _ (List.mem_map_of_mem hkind)
    exact (stays_iff hdir hkey rfl).mp (hstays _ hmem)
  · intro hhash a ha
    obtain ⟨r, hr, hkey, hakey, hapath⟩ := of_mem_accesses ha
    rw [← hakey] at hkey hapath
    rw [stays_iff hdir hkey hapath, hakey]
    exact RpcEvent.namesFile_of_request hhash hr

end AvatarCache

/-! ## The directory -/

/-- `cache_home`. What `getenv` finds ends at the first zero byte. -/
def cacheHome (xdgCacheHome home : Option Bytes) : Bytes :=
  envOr (xdgCacheHome.map cString) (envOr (home.map cString) [] ++ ascii "/.cache")

/-- `avatar_cache_dir` -/
def avatarCacheDir (xdgCacheHome home : Option Bytes) : Bytes :=
  cacheHome xdgCacheHome home ++ ascii "/choir/avatars"

theorem nul_notMem_cString (s : Bytes) : 0x00 ∉ cString s := fun hmem => by
  simpa using List.mem_takeWhile_imp hmem

theorem nul_notMem_envOr {value : Option Bytes} {fallback : Bytes} (h : 0x00 ∉ fallback) :
    0x00 ∉ envOr (value.map cString) fallback := by
  cases value with
  | none => exact h
  | some v =>
    rw [Option.map_some, envOr]
    split
    · exact h
    · exact nul_notMem_cString v

theorem nul_notMem_avatarCacheDir (xdgCacheHome home : Option Bytes) :
    0x00 ∉ avatarCacheDir xdgCacheHome home := by
  have hhome : 0x00 ∉ envOr (home.map cString) [] ++ ascii "/.cache" := by
    rw [List.mem_append, not_or]
    exact ⟨nul_notMem_envOr List.not_mem_nil, by decide⟩
  rw [avatarCacheDir, List.mem_append, not_or]
  exact ⟨nul_notMem_envOr hhome, by decide⟩

/-- In the directory that `main` sets up, whatever the environment: what is done for
an event is done to files directly in it exactly if the avatar hash of the event
names one. A request announces its path exactly if `ready` is fired, and leaves a file it does
not write as it was. -/
theorem avatars_stay_iff (xdgCacheHome home : Option Bytes) (env : Nat → RequestEnv)
    (s : AvatarCache) (ev : RpcEvent) :
    ((∀ a ∈ s.accesses (avatarCacheDir xdgCacheHome home) env ev.imageRequests,
        a.Stays (avatarCacheDir xdgCacheHome home)) ↔
      ∀ hash ∈ ev.hashes, NamesFile hash) ∧
    ∀ (s : AvatarCache) (dir : Bytes) (env : RequestEnv) (key url : Bytes),
      (.announces ∈ (s.attempt dir env key url).1 ↔
        (s.requestUrl dir env key url).2.isSome = true) ∧
      ∀ path, (.writes ∈ (s.attempt dir env key url).1 → path ≠ AvatarCache.pathFor dir key) →
        (s.requestUrl dir env key url).1.files path = s.files path :=
  ⟨AvatarCache.accesses_stay_iff (nul_notMem_avatarCacheDir xdgCacheHome home) env s ev,
    fun _ _ _ _ _ => AvatarCache.attempt_spec⟩

/-! ## From Discord's messages -/

/-- A member with any string for an avatar. -/
def avatarFrame (hash : Bytes) : Json := .obj [(ascii "cmd", .str (ascii "DISPATCH")),
  (ascii "data", .obj [(ascii "user", .obj [(ascii "avatar", .str hash),
    (ascii "id", .str (ascii "7"))])]),
  (ascii "evt", .str (ascii "VOICE_STATE_UPDATE"))]

/-- The parser lets every string through. -/
theorem parseEvent_avatarFrame (hash : Bytes) : parseEvent (avatarFrame hash) =
    some { kind := .voiceUpdate, voice := { userId := ascii "7", avatarHash := hash } } := by
  rfl

/-- A hash that leads out of the directory. -/
def upwardHash : Bytes := ascii "../../autostart/x"

theorem parsed_upwardHash : ParsedFrom compactJson (JsonText.text (avatarFrame upwardHash))
    { kind := .voiceUpdate, voice := { userId := ascii "7", avatarHash := upwardHash } } :=
  .dispatch (compactJson.parse_dump (avatarFrame upwardHash) _ (by decide) rfl)
    (parseEvent_avatarFrame upwardHash)

/-- It is followed. -/
theorem upwardHash_leaves : ¬∀ text ev, ParsedFrom compactJson text ev →
    ∀ xdgCacheHome home env (s : AvatarCache),
      ∀ a ∈ s.accesses (avatarCacheDir xdgCacheHome home) env ev.imageRequests,
        a.Stays (avatarCacheDir xdgCacheHome home) := by
  intro hall
  have hstays := hall _ _ parsed_upwardHash none none (fun _ => {}) {}
  have hnames := (AvatarCache.accesses_stay_iff (by decide) _ _ _).mp hstays upwardHash (by decide)
  exact hnames.1 (by decide)

end Choir
