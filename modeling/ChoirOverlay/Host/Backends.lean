-- SUMMARY: The AppImage backend install: atomic file writes, the two libraries with the files that name them, and the freshness check.
import ChoirOverlay.Json.Value
import ChoirOverlay.Machine.Crash

/-!
# The backend install

The host copies two libraries out of the AppImage and writes a Vulkan manifest
and a wrapper script that name them. Every file operation may fail and the
process may die between any two of them, so both procedures are `Crash.Proc`s
over the files, with the outcome of each operation given.
-/

namespace Choir

open Crash Crash.Proc

/-! ## Paths -/

/-- The environment variables the install paths come from. -/
structure Environ where
  home : Option Bytes := none
  xdgDataHome : Option Bytes := none

/-- A variable that is unset or empty gives the fallback. -/
def envOr (v : Option Bytes) (fallback : Bytes) : Bytes :=
  match v with
  | some v => if v = [] then fallback else v
  | none => fallback

namespace Environ

def backendLibDir (e : Environ) : Bytes := envOr e.home [] ++ ascii "/.local/lib/choir"

def glWrapperPath (e : Environ) : Bytes := envOr e.home [] ++ ascii "/.local/bin/choir-run"

def dataHome (e : Environ) : Bytes := envOr e.xdgDataHome (envOr e.home [] ++ ascii "/.local/share")

def vulkanManifestPath (e : Environ) : Bytes :=
  e.dataHome ++ ascii "/vulkan/implicit_layer.d/choir_overlay.x86_64.json"

end Environ

def kLayerLib : Bytes := ascii "libchoir_overlay.so"

def kGlLib : Bytes := ascii "libchoir_gl.so"

/-- `fs::path::operator/` on a directory that does not end in a slash. -/
def joinPath (dir name : Bytes) : Bytes := dir ++ 0x2F :: name

/-- The files `install_backends` writes, in its order. -/
inductive BackendFile where
  | layerLib
  | glLib
  | wrapper
  | manifest
  deriving DecidableEq, Repr

def BackendFile.path (e : Environ) : BackendFile → Bytes
  | .layerLib => joinPath e.backendLibDir kLayerLib
  | .glLib => joinPath e.backendLibDir kGlLib
  | .wrapper => e.glWrapperPath
  | .manifest => e.vulkanManifestPath

/-- The sibling `write_atomic` writes first. -/
def tmpPath (path : Bytes) : Bytes := path ++ ascii ".choir-tmp"

/-! ## Files -/

/-- The content of each file there is. -/
abbrev Files := Bytes → Option Bytes

/-- How reading a file ends. -/
inductive FileRead where
  | whole
  /-- A read error after `n` bytes. It ends `ss << in.rdbuf()` and leaves no
      error bit in `in`, so `in.bad()` misses it. -/
  | cut (n : Nat)
  | fails
  | dies
  deriving DecidableEq, Repr

def readFile {σ : Type} (r : FileRead) (content : Option Bytes) : Proc σ (Option Bytes) :=
  match r with
  | .whole => done content
  | .cut n => done (content.map (List.take n))
  | .fails => done none
  | .dies => die

/-- How one `write` ends. -/
inductive FileWrite where
  | wrote (n : Nat)
  /-- `EINTR`. -/
  | interrupted
  | fails
  | dies
  deriving DecidableEq, Repr

/-- The outcomes of the calls of `write_atomic`. What `writes` leaves over is
    written at once. -/
structure WriteEnv where
  mkdir : Outcome := .ok
  openTmp : Outcome := .ok
  writes : List FileWrite := []
  close : Outcome := .ok
  rename : Outcome := .ok
  remove : Outcome := .ok

def appendTo (path bytes : Bytes) (fs : Files) : Files :=
  Function.update fs path ((fs path).map (· ++ bytes))

def renameTo (tmp path : Bytes) (fs : Files) : Files :=
  Function.update (Function.update fs path (fs tmp)) tmp none

def removeFile (path : Bytes) (fs : Files) : Files := Function.update fs path none

/-- The write loop. -/
def writeAll (tmp : Bytes) : List FileWrite → Bytes → Proc Files Bool
  | [], left => if left = [] then done true else op .ok (appendTo tmp left)
  | w :: ws, left =>
    if left = [] then
      done true
    else
      match w with
      | .wrote n => (op .ok (appendTo tmp (left.take n))).andThen (writeAll tmp ws (left.drop n))
      | .interrupted => writeAll tmp ws left
      | .fails => done false
      | .dies => die

def writeAtomic (env : WriteEnv) (path bytes : Bytes) : Proc Files Bool :=
  (ask env.mkdir).andThen <|
    (op env.openTmp fun fs => Function.update fs (tmpPath path) (some [])).andThen <|
      (writeAll (tmpPath path) env.writes bytes).bind fun ok =>
        (ask env.close).bind fun closed =>
          (if ok && closed then op env.rename (renameTo (tmpPath path) path) else done false).bind
            fun ok =>
              if ok then done true
              else (op env.remove (removeFile (tmpPath path))).bind fun _ => done false

/-! ## Contents -/

/-- POSIX single-quote escaping. -/
def shellQuote (s : Bytes) : Bytes :=
  [0x27] ++ s.flatMap (fun c => if c = 0x27 then [0x27, 0x5C, 0x27, 0x27] else [c]) ++ [0x27]

/-- The manifest's value, its keys in the order of a `std::map`. -/
def layerManifestJson (lib : Bytes) : Json :=
  let text (s : String) : Json := .str (ascii s)
  .obj [
    (ascii "file_format_version", text "1.2.0"),
    (ascii "layer", .obj [
      (ascii "api_version", text "1.1.0"),
      (ascii "description",
        .str (ascii "Choir " ++ [0xE2, 0x80, 0x94] ++ ascii " an overlay for Discord")),
      (ascii "disable_environment", .obj [(ascii "DISABLE_CHOIR_OVERLAY", text "1")]),
      (ascii "implementation_version", text "1"),
      (ascii "library_path", .str lib),
      (ascii "name", text "VK_LAYER_choir_overlay_x86_64"),
      (ascii "type", text "GLOBAL")])]

/-- The manifest says that `lib` is the library. -/
theorem libraryPath_layerManifestJson (lib : Bytes) :
    ((layerManifestJson lib).objOrEmpty "layer").strOr "library_path" = lib := by
  rfl

/-- `dump(2)` is the parameter `dump2`. It throws (`none`) on a path that is no
    UTF-8, and nobody catches that. -/
def layerManifest (dump2 : Json → Option Bytes) (lib : Bytes) : Option Bytes :=
  (dump2 (layerManifestJson lib)).map (· ++ [0x0A])

def glWrapperScript (glLib : Bytes) : Bytes :=
  let line (s : String) : Bytes := ascii s ++ [0x0A]
  let dash : Bytes := [0xE2, 0x80, 0x94]
  line "#!/bin/sh" ++
  line "# Inject the Choir GL overlay into an OpenGL game:" ++
  ascii "#   choir-run <game" ++ [0xE2, 0x80, 0xA6] ++ line ">            # direct" ++
  line "#   choir-run %command%          # Steam launch option" ++
  line "# Generated by the Choir host for this AppImage install; regenerated whenever the" ++
  line "# payload changes. Override the lib path with CHOIR_GL_LIB if needed." ++
  ascii "default_lib=" ++ shellQuote glLib ++ [0x0A] ++
  line "lib=\"$\x7bCHOIR_GL_LIB:-$default_lib\x7d\"" ++
  line "if [ -e \"$lib\" ]; then" ++
  line "  # PREPEND (not append) to any existing LD_PRELOAD so Choir loads FIRST. If another" ++
  line "  # GL overlay is already injected (e.g. MangoHud), the first interposer wins the hook" ++
  line "  # and chains down to the rest; appending would put Choir last, where the earlier" ++
  line "  # overlay can resolve the real swap directly and bypass us." ++
  line "  export LD_PRELOAD=\"$lib$\x7bLD_PRELOAD:+:$LD_PRELOAD\x7d\"" ++
  line "else" ++
  line "  # Don't preload a missing path: the loader would warn for the game AND every child" ++
  ascii "  # process it spawns. Launch anyway " ++ dash ++
    line " a broken overlay must never stop you playing." ++
  line "  echo \"choir-run: GL overlay library not found: $lib\" >&2" ++
  ascii "  echo \"           launching without the overlay; " ++
    line "set CHOIR_GL_LIB or reinstall Choir.\" >&2" ++
  line "fi" ++
  line "exec \"$@\""

/-! ## The procedures -/

/-- The libraries of an AppImage, where it has them. `released` are the bytes
    a layer library may have. -/
structure BackendPayload (released : Bytes → Prop) where
  layerLib : Option Bytes
  glLib : Option Bytes
  layer_released : ∀ bytes ∈ layerLib, released bytes

structure InstallEnv where
  readLayer : FileRead := .whole
  readGl : FileRead := .whole
  layer : WriteEnv := {}
  gl : WriteEnv := {}
  wrapper : WriteEnv := {}
  manifest : WriteEnv := {}

variable {released : Bytes → Prop}

def installBackends (dump2 : Json → Option Bytes) (e : Environ) (env : InstallEnv)
    (src : BackendPayload released) : Proc Files Bool :=
  (readFile env.readLayer src.layerLib).bind fun
  | none => done false
  | some layerBytes =>
    (readFile env.readGl src.glLib).bind fun
    | none => done false
    | some glBytes =>
      let layerLib := BackendFile.layerLib.path e
      let glLib := BackendFile.glLib.path e
      (writeAtomic env.layer layerLib layerBytes).andThen <|
        (writeAtomic env.gl glLib glBytes).andThen <|
          (writeAtomic env.wrapper e.glWrapperPath (glWrapperScript glLib)).andThen <|
            match layerManifest dump2 layerLib with
            | some text => writeAtomic env.manifest e.vulkanManifestPath text
            | none => die

structure UninstallEnv where
  manifest : Outcome := .ok
  wrapper : Outcome := .ok
  layer : Outcome := .ok
  gl : Outcome := .ok
  dir : Outcome := .ok

/-- The loop of `uninstall_backends`: it goes on after a failure. -/
def removeAll : List (Outcome × Bytes) → Bool → Proc Files Bool
  | [], ok => done ok
  | (o, path) :: rest, ok =>
    (op o (removeFile path)).bind fun removed => removeAll rest (ok && removed)

def uninstallBackends (e : Environ) (env : UninstallEnv) : Proc Files Bool :=
  (removeAll [(env.manifest, e.vulkanManifestPath), (env.wrapper, e.glWrapperPath),
    (env.layer, BackendFile.layerLib.path e), (env.gl, BackendFile.glLib.path e)] true).bind
    fun ok => (ask env.dir).bind fun _ => done ok

/-- How the four reads of `backends_up_to_date` end. -/
structure FreshEnv where
  layerSrc : FileRead := .whole
  layerDst : FileRead := .whole
  glSrc : FileRead := .whole
  glDst : FileRead := .whole

/-- One round of its loop. -/
def sameFile (readSrc readDst : FileRead) (src dst : Option Bytes) : Proc Files Bool :=
  (readFile readSrc src).bind fun
  | none => done false
  | some src => (readFile readDst dst).bind fun
    | none => done false
    | some dst => done (decide (src = dst))

def backendsUpToDate (e : Environ) (env : FreshEnv) (src : BackendPayload released) :
    Proc Files Bool :=
  fun fs =>
    ((sameFile env.layerSrc env.layerDst src.layerLib (fs (BackendFile.layerLib.path e))).andThen
      (sameFile env.glSrc env.glDst src.glLib (fs (BackendFile.glLib.path e)))) fs

end Choir
