-- SUMMARY: A frame of the OpenGL overlay: the state of the context it changes and puts back, and the textures it uploads.
import ChoirOverlay.Gl.Interposer
import ChoirOverlay.Ipc.AvatarFile
import ChoirOverlay.Machine.Custody

/-!
# GlRenderer and GlAvatarTextures

What the calls of the overlay read and set of a context: how pixels are read in
an upload, and the texture that is bound. ImGui's own backend is not among the
sources; it is a parameter.
-/

namespace Choir

open Ownership

/-! ## The state of a context -/

/-- The name of a texture: one of the game's, one of the overlay's, or 0. -/
inductive GlTexture where
  | null
  | game (name : Nat)
  | overlay (id : Nat)
  deriving DecidableEq, Repr

/-- How pixels are read: from a buffer, or from the memory of the process. -/
structure GlUnpack where
  /-- `GL_PIXEL_UNPACK_BUFFER_BINDING`; 0 is none. -/
  buffer : Nat := 0
  alignment : Nat := 4
  rowLength : Nat := 0
  skipRows : Nat := 0
  skipPixels : Nat := 0
  deriving DecidableEq, Repr

structure GlState where
  unpack : GlUnpack := {}
  /-- `GL_TEXTURE_BINDING_2D`. -/
  binding : GlTexture := .null
  deriving DecidableEq, Repr

/-- How far `glTexImage2D` reads into its pixels, with four bytes for each. -/
def GlUnpack.extent (u : GlUnpack) (width height : Nat) : Nat :=
  let row := if u.rowLength = 0 then width else u.rowLength
  let stride := (4 * row + u.alignment - 1) / u.alignment * u.alignment
  (u.skipRows + height - 1) * stride + 4 * (u.skipPixels + width)

/-- A call of `glTexImage2D`: what it meets, and the pixels it is given. -/
structure GlUpload where
  unpack : GlUnpack
  binding : GlTexture
  width : Nat
  height : Nat
  pixels : Bytes
  deriving DecidableEq, Repr

/-- The upload reads its own pixels, and goes into a texture of the overlay. -/
structure GlUpload.Clean (u : GlUpload) : Prop where
  memory : u.unpack.buffer = 0
  inside : u.unpack.extent u.width u.height ≤ u.pixels.length
  own : ∃ id, u.binding = .overlay id

/-- The context a texture is made in: its handle, and which context of the handle
    it is. -/
abbrev GlOwner := GlContext × Nat

/-- What the overlay did in a process. -/
structure GlLog where
  textures : Ledger GlOwner := {}
  uploads : List GlUpload := []

/-! ## GlAvatarTextures -/

/-- What `get_or_load` meets. -/
structure GlLoadEnv where
  file : Option Bytes := none
  /-- `glGenTextures` gives a name. -/
  genTexture : Bool := true

structure GlAvatarTextures where
  textures : List (Bytes × Nat) := []

namespace GlAvatarTextures

/-- `get_or_load`; `ok` tells whether the functions are there. -/
def getOrLoad (ok : Bool) (owner : GlOwner) (env : GlLoadEnv) (hash : Bytes) (t : GlAvatarTextures)
    (l : GlLog) (s : GlState) : GlAvatarTextures × GlLog × GlState × Option Nat :=
  match t.textures.lookup hash with
  | some tex => (t, l, s, some tex)
  | none =>
    if !ok then (t, l, s, none)
    else
      match readAvatarRgba env.file with
      | none => (t, l, s, none)
      | some (w, h, rgba) =>
        if w = 0 ∨ h = 0 ∨ rgba.length < w.toNat * h.toNat * 4 then (t, l, s, none)
        else
          match l.textures.fresh env.genTexture with
          | none => (t, l, s, none)
          | some tex =>
            let prevTex := s.binding
            let prevAlign := s.unpack.alignment
            let s : GlState :=
              { unpack := { s.unpack with alignment := 1 }, binding := .overlay tex }
            let l : GlLog :=
              { textures := l.textures.create owner true
                uploads := ⟨s.unpack, s.binding, w.toNat, h.toNat, rgba⟩ :: l.uploads }
            let s : GlState :=
              { unpack := { s.unpack with alignment := prevAlign }, binding := prevTex }
            ({ textures := (hash, tex) :: t.textures }, l, s, some tex)

/-- The textures of a frame. -/
def loadAll (ok : Bool) (owner : GlOwner) (t : GlAvatarTextures) (l : GlLog) (s : GlState) :
    List (GlLoadEnv × Bytes) → GlAvatarTextures × GlLog × GlState
  | [] => (t, l, s)
  | (env, hash) :: rest =>
    let r := t.getOrLoad ok owner env hash l s
    loadAll ok owner r.1 r.2.1 r.2.2.1 rest

/-- `glDeleteTextures` unbinds the texture. -/
def deleteTexture (owner : GlOwner) (tex : Nat) (l : GlLog) (s : GlState) : GlLog × GlState :=
  ({ l with textures := l.textures.free owner (some tex) },
    if s.binding = .overlay tex then { s with binding := .null } else s)

/-- The loop of `shutdown`. -/
def deleteAll (owner : GlOwner) : List (Bytes × Nat) → GlLog → GlState → GlLog × GlState
  | [], l, s => (l, s)
  | (_, tex) :: rest, l, s =>
    let r := deleteTexture owner tex l s
    deleteAll owner rest r.1 r.2

/-- `shutdown` -/
def shutdown (ok : Bool) (owner : GlOwner) (t : GlAvatarTextures) (l : GlLog) (s : GlState) :
    GlLog × GlState :=
  if ok then deleteAll owner t.textures l s else (l, s)

/-- The textures it has. -/
def objects (owner : GlOwner) (t : GlAvatarTextures) : Multiset (Obj GlOwner) :=
  (t.textures.map fun e => owned owner (some e.2)).sum

end GlAvatarTextures

/-! ## GlRenderer -/

/-- ImGui's backend, as far as it touches this state. -/
structure GlBackend where
  /-- `ImGui_ImplOpenGL3_NewFrame` -/
  newFrame : GlState → GlState := id
  /-- `ImGui_ImplOpenGL3_RenderDrawData`, with the uploads of the font atlas. -/
  renderDrawData : GlState → GlState := id

/-- The backend binds back what it has found, and reads no pixels in `NewFrame`. -/
structure GlBackend.Restores (b : GlBackend) : Prop where
  newFrame : ∀ s, b.newFrame s = s
  buffer : ∀ s, (b.renderDrawData s).unpack.buffer = s.unpack.buffer
  binding : ∀ s, (b.renderDrawData s).binding = s.binding

namespace GlRenderer

/-- The constructor of `ScopedCleanUnpack`; `ok` tells whether the functions are
    there. -/
def cleanUnpack (ok : Bool) (s : GlState) : GlState := if ok then { s with unpack := {} } else s

/-- The destructor of `ScopedCleanUnpack`. -/
def restoreUnpack (ok : Bool) (saved : GlUnpack) (s : GlState) : GlState :=
  if ok then
    { s with
      unpack := { saved with
        buffer := if saved.buffer ≠ 0 then saved.buffer else s.unpack.buffer } }
  else s

/-- What a frame meets. -/
structure DrawEnv where
  /-- The functions of `PixelStoreGL` are there. -/
  pixelStore : Bool := true
  /-- The functions of the textures are there. -/
  functions : Bool := true
  /-- What `draw_overlay` asks for. -/
  loads : List (GlLoadEnv × Bytes) := []

/-- `draw` -/
def draw (b : GlBackend) (env : DrawEnv) (owner : GlOwner) (t : GlAvatarTextures) (l : GlLog)
    (s : GlState) : GlAvatarTextures × GlLog × GlState :=
  let saved := s.unpack
  let s := b.newFrame (cleanUnpack env.pixelStore s)
  let r := t.loadAll env.functions owner l s env.loads
  (r.1, r.2.1, restoreUnpack env.pixelStore saved (b.renderDrawData r.2.2))

end GlRenderer

/-! ## Uploads -/

theorem GlUnpack.extent_packed {u : GlUnpack} (width : Nat) {height : Nat}
    (halign : u.alignment = 1)
    (hrow : u.rowLength = 0) (hrows : u.skipRows = 0) (hpixels : u.skipPixels = 0)
    (hheight : height ≠ 0) : u.extent width height = width * height * 4 := by
  simp only [extent, halign, hrow, hrows, hpixels, if_true, Nat.add_sub_cancel, Nat.div_one,
    Nat.mul_one, Nat.zero_add]
  obtain ⟨n, rfl⟩ := Nat.exists_eq_succ_of_ne_zero hheight
  rw [Nat.succ_sub_one, Nat.succ_eq_add_one]
  ring

/-- Where the pixel store is clean, up to the alignment. -/
structure GlState.Plain (s : GlState) : Prop where
  buffer : s.unpack.buffer = 0
  rowLength : s.unpack.rowLength = 0
  skipRows : s.unpack.skipRows = 0
  skipPixels : s.unpack.skipPixels = 0

namespace GlAvatarTextures

variable {ok : Bool} {owner : GlOwner} {env : GlLoadEnv} {hash : Bytes} {t : GlAvatarTextures}
  {l : GlLog} {s : GlState}

/-- What a load leaves: the state of the context is as before, what was uploaded was clean,
and what was made is one texture more. -/
structure Loaded (owner : GlOwner) (t : GlAvatarTextures) (l : GlLog) (s : GlState)
    (t' : GlAvatarTextures) (l' : GlLog) (s' : GlState) : Prop where
  state : s' = s
  custody : ∃ held, Custody l.textures l'.textures held ∧ t'.objects owner = t.objects owner + held
  uploads : s.Plain → ∃ us, l'.uploads = us ++ l.uploads ∧ ∀ u ∈ us, GlUpload.Clean u

theorem Loaded.refl (t : GlAvatarTextures) (l : GlLog) (s : GlState) : Loaded owner t l s t l s :=
  ⟨rfl, ⟨0, .refl _, (add_zero _).symm⟩, fun _ => ⟨[], rfl, fun _ h => absurd h List.not_mem_nil⟩⟩

theorem Loaded.trans {t' t'' : GlAvatarTextures} {l' l'' : GlLog} {s' s'' : GlState}
    (h : Loaded owner t l s t' l' s') (h' : Loaded owner t' l' s' t'' l'' s'') :
    Loaded owner t l s t'' l'' s'' := by
  obtain ⟨held, hheld, hobjects⟩ := h.custody
  obtain ⟨held', hheld', hobjects'⟩ := h'.custody
  refine ⟨h'.state.trans h.state, ⟨held + held', hheld.trans hheld', ?_⟩, fun hplain => ?_⟩
  · rw [hobjects', hobjects, add_assoc]
  · obtain ⟨us, hus, hclean⟩ := h.uploads hplain
    obtain ⟨us', hus', hclean'⟩ := h'.uploads (h.state ▸ hplain)
    refine ⟨us' ++ us, by rw [hus', hus, List.append_assoc], fun u hu => ?_⟩
    rcases List.mem_append.mp hu with hu | hu
    · exact hclean' u hu
    · exact hclean u hu

theorem getOrLoad_loaded (ok : Bool) (owner : GlOwner) (env : GlLoadEnv) (hash : Bytes)
    (t : GlAvatarTextures) (l : GlLog) (s : GlState) :
    Loaded owner t l s (t.getOrLoad ok owner env hash l s).1 (t.getOrLoad ok owner env hash l s).2.1
      (t.getOrLoad ok owner env hash l s).2.2.1 := by
  unfold getOrLoad
  split
  · exact .refl t l s
  split
  · exact .refl t l s
  split
  · exact .refl t l s
  rename_i w h rgba hread
  split
  · exact .refl t l s
  rename_i hsize
  simp only [not_or, Nat.not_lt] at hsize
  obtain ⟨-, hh, hsize⟩ := hsize
  split
  · exact .refl t l s
  rename_i tex htex
  have hgen : env.genTexture = true := by
    by_contra hgen
    rw [Ledger.fresh, if_neg hgen] at htex
    cases htex
  rw [hgen] at htex
  have hmade := (Custody.refl l.textures).create owner true
  rw [htex, zero_add] at hmade
  refine ⟨rfl, ⟨_, hmade, ?_⟩, fun hplain => ?_⟩
  · rw [objects, List.map_cons, List.sum_cons, add_comm, objects]
  · refine ⟨[_], rfl, fun u hu => ?_⟩
    obtain rfl := List.mem_singleton.mp hu
    refine ⟨hplain.buffer, ?_, ⟨tex, rfl⟩⟩
    have hheight : h.toNat ≠ 0 := fun h0 => hh (UInt32.toNat_inj.mp h0)
    have hpacked := GlUnpack.extent_packed (u := { s.unpack with alignment := 1 })
      w.toNat rfl hplain.rowLength hplain.skipRows hplain.skipPixels hheight
    exact hpacked.trans_le hsize

theorem loadAll_loaded (ok : Bool) (owner : GlOwner) (t : GlAvatarTextures) (l : GlLog)
    (s : GlState) (loads : List (GlLoadEnv × Bytes)) :
    Loaded owner t l s (t.loadAll ok owner l s loads).1 (t.loadAll ok owner l s loads).2.1
      (t.loadAll ok owner l s loads).2.2 := by
  induction loads generalizing t l s with
  | nil => exact .refl t l s
  | cons load loads ih =>
    obtain ⟨env, hash⟩ := load
    exact (getOrLoad_loaded ok owner env hash t l s).trans (ih ..)

/-- Without the functions nothing is loaded. -/
theorem loadAll_false (owner : GlOwner) (t : GlAvatarTextures) (l : GlLog) (s : GlState)
    (loads : List (GlLoadEnv × Bytes)) : (t.loadAll false owner l s loads).1 = t := by
  induction loads with
  | nil => rfl
  | cons load loads ih =>
    obtain ⟨env, hash⟩ := load
    have hsame : t.getOrLoad false owner env hash l s = (t, l, s, t.textures.lookup hash) := by
      unfold getOrLoad
      cases t.textures.lookup hash <;> rfl
    rw [loadAll, hsame]
    exact ih

/-- `shutdown` deletes the textures it has, and leaves the state where none of them is
bound. -/
theorem deleteAll_spec (owner : GlOwner) (textures : List (Bytes × Nat)) (l : GlLog) (s : GlState)
    (hs : ∀ id, s.binding ≠ .overlay id) :
    (deleteAll owner textures l s).2 = s ∧ (deleteAll owner textures l s).1.uploads = l.uploads ∧
      Destroys l.textures (deleteAll owner textures l s).1.textures
        (textures.map fun e => owned owner (some e.2)).sum := by
  induction textures generalizing l with
  | nil => exact ⟨rfl, rfl, .refl _⟩
  | cons e textures ih =>
    obtain ⟨hash, tex⟩ := e
    have hstate : (deleteTexture owner tex l s).2 = s := if_neg (hs tex)
    obtain ⟨hlast, huploads, hgone⟩ := ih (deleteTexture owner tex l s).1
    rw [deleteAll, hstate, List.map_cons, List.sum_cons]
    exact ⟨hlast, huploads, (Destroys.free l.textures owner (some tex)).trans hgone⟩

end GlAvatarTextures

/-! ## A frame -/

namespace GlRenderer

variable {b : GlBackend} {env : DrawEnv} {owner : GlOwner} {t : GlAvatarTextures} {l : GlLog}
    {s : GlState}

/-- A frame leaves the state of the context as it was; what it uploads it reads from its
own pixels, whatever the game had set. -/
theorem draw_spec (hb : b.Restores) (hok : env.pixelStore = true) (owner : GlOwner)
    (t : GlAvatarTextures) (l : GlLog) (s : GlState) : (draw b env owner t l s).2.2 = s ∧
      (∃ held, Custody l.textures (draw b env owner t l s).2.1.textures held ∧
        (draw b env owner t l s).1.objects owner = t.objects owner + held) ∧
      ∃ us, (draw b env owner t l s).2.1.uploads = us ++ l.uploads ∧
        ∀ u ∈ us, GlUpload.Clean u := by
  have hloaded := t.loadAll_loaded env.functions owner l (b.newFrame (cleanUnpack env.pixelStore s))
    env.loads
  have hplain : (b.newFrame (cleanUnpack env.pixelStore s)).Plain := by
    rw [hb.newFrame, cleanUnpack, if_pos hok]
    exact ⟨rfl, rfl, rfl, rfl⟩
  refine ⟨?_, hloaded.custody, hloaded.uploads hplain⟩
  have hstate := hloaded.state
  rw [hb.newFrame, cleanUnpack, if_pos hok] at hstate
  unfold draw
  simp only [hb.newFrame, cleanUnpack, restoreUnpack, hok, if_true]
  rw [hstate]
  have hbinding := hb.binding { s with unpack := {} }
  have hbuffer := hb.buffer { s with unpack := {} }
  obtain ⟨⟨buffer, alignment, rowLength, skipRows, skipPixels⟩, binding⟩ := s
  simp only at hbinding hbuffer ⊢
  rw [hbinding, hbuffer]
  split
  · rfl
  · rename_i hzero
    rw [Decidable.not_not.mp hzero]

end GlRenderer

end Choir
