-- SUMMARY: The image files of the cache: their format, and what a write leaves of one.
import ChoirOverlay.Base.Bytes
import ChoirOverlay.Machine.Crash
import Mathlib.Algebra.Ring.Nat

/-!
# Image files

The host writes an image in place, through a stream: a call that succeeds may
keep bytes back, and only the close writes the last of them.
-/

namespace Choir

open Crash Crash.Proc

def kMagic : Bytes := ascii "CHAV"

/-- The header of a file. -/
def avatarHeader (w h : UInt32) : Bytes := kMagic ++ (le32 w.toNat ++ le32 h.toNat)

/-- The file of an image. -/
def avatarFile (w h : UInt32) (rgba : Bytes) : Bytes := avatarHeader w h ++ rgba

theorem length_avatarHeader (w h : UInt32) : (avatarHeader w h).length = 12 := rfl

theorem length_avatarFile (w h : UInt32) (rgba : Bytes) :
    (avatarFile w h rgba).length = 12 + rgba.length := by
  rw [avatarFile, List.length_append, length_avatarHeader]

/-! ## Reading -/

/-- `get_u32_le` -/
def getU32Le (bytes : Bytes) (i : Nat) : UInt32 :=
  .ofNat (readLe32 (bytes.getD i 0) (bytes.getD (i + 1) 0) (bytes.getD (i + 2) 0)
    (bytes.getD (i + 3) 0))

def kMaxDim : UInt32 := 8192

/-- `read_avatar_rgba` of a file that may not be there. -/
def readAvatarRgba (file : Option Bytes) : Option (UInt32 × UInt32 × Bytes) := do
  let bytes ← file
  let header := bytes.take 12
  if header.length ≠ 12 then none
  else if header.take 4 ≠ kMagic then none
  else
    let w := getU32Le header 4
    let h := getU32Le header 8
    if w = 0 ∨ h = 0 ∨ kMaxDim < w ∨ kMaxDim < h then none
    else
      let body := w.toNat * h.toNat * 4
      let pixels := (bytes.drop 12).take body
      if pixels.length ≠ body then none
      -- Trailing garbage.
      else if bytes.length ≠ 12 + body then none
      else some (w, h, pixels)

theorem take_avatarFile (w h : UInt32) (rgba : Bytes) :
    (avatarFile w h rgba).take 12 = avatarHeader w h :=
  List.take_left' (length_avatarHeader w h)

theorem drop_avatarFile (w h : UInt32) (rgba : Bytes) : (avatarFile w h rgba).drop 12 = rgba :=
  List.drop_left' (length_avatarHeader w h)

theorem ofNat_readLe32 (n : UInt32) :
    UInt32.ofNat (readLe32 (UInt8.ofNat n.toNat) (UInt8.ofNat (n.toNat / 0x100))
      (UInt8.ofNat (n.toNat / 0x10000)) (UInt8.ofNat (n.toNat / 0x1000000))) = n := by
  rw [readLe32_le32 n.toNat_lt, UInt32.ofNat_toNat]

theorem getU32Le_width (w h : UInt32) : getU32Le (avatarHeader w h) 4 = w := ofNat_readLe32 w

theorem getU32Le_height (w h : UInt32) : getU32Le (avatarHeader w h) 8 = h := ofNat_readLe32 h

/-- What is left to check once the header is read. -/
theorem readAvatarRgba_of_header {w h : UInt32} {bytes : Bytes}
    (hheader : bytes.take 12 = avatarHeader w h) :
    readAvatarRgba (some bytes) =
      if w = 0 ∨ h = 0 ∨ kMaxDim < w ∨ kMaxDim < h then none
      else if ((bytes.drop 12).take (w.toNat * h.toNat * 4)).length ≠ w.toNat * h.toNat * 4 then
        none
      else if bytes.length ≠ 12 + w.toNat * h.toNat * 4 then none
      else some (w, h, (bytes.drop 12).take (w.toNat * h.toNat * 4)) := by
  have hlen : ¬ (avatarHeader w h).length ≠ 12 := not_not_intro (length_avatarHeader w h)
  have hmagic : ¬ (avatarHeader w h).take 4 ≠ kMagic := not_not_intro rfl
  simp only [readAvatarRgba, Option.bind_eq_bind, Option.bind_some, hheader, if_neg hlen,
    if_neg hmagic, getU32Le_width, getU32Le_height]

/-- The file of an image is read as it was written. -/
theorem readAvatarRgba_avatarFile {w h : UInt32} {rgba : Bytes} (hw : w ≠ 0 ∧ w ≤ kMaxDim)
    (hh : h ≠ 0 ∧ h ≤ kMaxDim) (hsize : rgba.length = w.toNat * h.toNat * 4) :
    readAvatarRgba (some (avatarFile w h rgba)) = some (w, h, rgba) := by
  have hdims : ¬ (w = 0 ∨ h = 0 ∨ kMaxDim < w ∨ kMaxDim < h) := by
    rintro (h0 | h0 | hlt | hlt)
    · exact hw.1 h0
    · exact hh.1 h0
    · exact UInt32.not_lt.mpr hw.2 hlt
    · exact UInt32.not_lt.mpr hh.2 hlt
  have hend : ¬ (avatarFile w h rgba).length ≠ 12 + w.toNat * h.toNat * 4 := by
    rw [length_avatarFile, hsize]
    exact not_not_intro rfl
  rw [readAvatarRgba_of_header (take_avatarFile w h rgba), drop_avatarFile, ← hsize,
    List.take_length, if_neg hdims, if_neg (not_not_intro rfl), hsize, if_neg hend]

/-- No proper front of a file is read. -/
theorem readAvatarRgba_take {w h : UInt32} {rgba : Bytes} {n : Nat}
    (hsize : rgba.length = w.toNat * h.toNat * 4) (hn : n < 12 + rgba.length) :
    readAvatarRgba (some ((avatarFile w h rgba).take n)) = none := by
  have hlen : ((avatarFile w h rgba).take n).length = n := by
    rw [List.length_take, length_avatarFile]
    omega
  rcases Nat.lt_or_ge n 12 with hshort | hlong
  · have hheader : (((avatarFile w h rgba).take n).take 12).length ≠ 12 := by
      rw [List.length_take, hlen]
      omega
    simp only [readAvatarRgba, Option.bind_eq_bind, Option.bind_some, if_pos hheader]
  · -- The header is whole, and asks for more pixels than are there.
    have hheader : ((avatarFile w h rgba).take n).take 12 = avatarHeader w h := by
      rw [List.take_take, Nat.min_eq_left hlong, take_avatarFile]
    have hpixels : ((((avatarFile w h rgba).take n).drop 12).take
        (w.toNat * h.toNat * 4)).length ≠ w.toNat * h.toNat * 4 := by
      rw [List.length_take, List.length_drop, hlen]
      omega
    rw [readAvatarRgba_of_header hheader, if_pos hpixels, ite_self]

/-! ## Writing -/

/-- How a call on a stream ends. -/
structure StdioCall where
  /-- The bytes that reach the file. -/
  reach : Nat := 0
  ending : Outcome := .ok

/-- The outcomes of the calls of `write_avatar_rgba`. -/
structure AvatarWrite where
  opens : Outcome := .ok
  header : StdioCall := {}
  body : StdioCall := {}
  close : StdioCall := {}

/-- Whether the call succeeds, and the bytes the stream keeps back. What a failed
call has not brought to the file is lost. -/
def fwrite (call : StdioCall) (due : Bytes) : Proc (Option Bytes) (Bool × Bytes) := fun file =>
  let written := file.map (· ++ due.take call.reach)
  match call.ending with
  | .ok => ⟨[written], some (true, due.drop call.reach)⟩
  | .fails => ⟨[written], some (false, [])⟩
  | .dies => ⟨[written], none⟩

def fclose (call : StdioCall) (due : Bytes) : Proc (Option Bytes) Bool := fun file =>
  match call.ending with
  | .ok => ⟨[file.map (· ++ due)], some true⟩
  | .fails => ⟨[file.map (· ++ due.take call.reach)], some false⟩
  | .dies => ⟨[file.map (· ++ due.take call.reach)], none⟩

/-- `write_avatar_rgba`, on the file of its path. No pixels are a null pointer. -/
def writeAvatarRgba (env : AvatarWrite) (w h : UInt32) (rgba : Bytes) :
    Proc (Option Bytes) Bool :=
  if rgba = [] ∧ w ≠ 0 ∧ h ≠ 0 then done false
  else
    let body := w.toNat * h.toNat * 4 % 2 ^ 64
    (op env.opens fun _ => some []).andThen <|
      (fwrite env.header (avatarHeader w h)).bind fun r =>
        (if r.1 && decide (0 < body) then fwrite env.body (r.2 ++ rgba.take body)
          else done r).bind fun r =>
            (fclose env.close r.2).bind fun closed => done (r.1 && closed)

/-- The bytes of a file of `size` pixel bytes that reach it. -/
def AvatarWrite.reached (env : AvatarWrite) (size : Nat) : Nat :=
  let header := min env.header.reach 12
  if env.header.ending ≠ .ok then header
  else
    let body := min (header + env.body.reach) (12 + size)
    if env.body.ending ≠ .ok then body
    else if env.close.ending ≠ .ok then min (body + env.close.reach) (12 + size)
    else 12 + size

/-- One of the calls that are made is cut by the end of the process. -/
def AvatarWrite.dies (env : AvatarWrite) : Bool :=
  match env.opens, env.header.ending, env.body.ending with
  | .dies, _, _ => true
  | .fails, _, _ => false
  | .ok, .dies, _ => true
  | .ok, .ok, .dies => true
  | .ok, _, _ => env.close.ending == .dies

/-- Every call succeeds. -/
def AvatarWrite.succeeds (env : AvatarWrite) : Bool :=
  env.opens == .ok && env.header.ending == .ok && env.body.ending == .ok && env.close.ending == .ok

theorem AvatarWrite.reached_le (env : AvatarWrite) (size : Nat) : env.reached size ≤ 12 + size := by
  simp only [reached]
  repeat' split
  all_goals omega

theorem AvatarWrite.opens_of_succeeds {env : AvatarWrite} (h : env.succeeds = true) :
    env.opens = .ok := by
  simp only [succeeds, Bool.and_eq_true, beq_iff_eq] at h
  exact h.1.1.1

theorem AvatarWrite.reached_of_succeeds {env : AvatarWrite} (h : env.succeeds = true) (size : Nat) :
    env.reached size = 12 + size := by
  simp only [succeeds, Bool.and_eq_true, beq_iff_eq] at h
  simp [reached, h]

/-- The next bytes of a file that holds its first `n`. -/
theorem take_append_take_drop (file : Bytes) (n r : Nat) :
    file.take n ++ (file.drop n).take r = file.take (min (n + r) file.length) := by
  rw [← List.take_add, List.take_eq_take_min]

/-- Its first bytes, the next ones and the rest. -/
theorem take_append_drop_drop (file : Bytes) (n r : Nat) :
    file.take n ++ ((file.drop n).take r ++ file.drop (n + r)) = file := by
  rw [← List.append_assoc, ← List.take_add, List.take_append_drop]

theorem take_append_take_drop_drop (file : Bytes) (n r k : Nat) :
    file.take n ++ ((file.drop n).take r ++ (file.drop (n + r)).take k) =
      file.take (min (min (n + r) file.length + k) file.length) := by
  rw [← List.append_assoc, ← List.take_add, ← List.take_add, List.take_eq_take_iff]
  omega

/-- What the calls leave of a file that was opened, and how they end. -/
theorem writeAvatarRgba_opened {env : AvatarWrite} (hopen : env.opens = .ok) {w h : UInt32}
    {rgba : Bytes} (hsize : rgba.length = w.toNat * h.toNat * 4) (hpos : 0 < rgba.length)
    (hlt : rgba.length < 2 ^ 64) (file : Option Bytes) :
    (writeAvatarRgba env w h rgba).last file =
        some ((avatarFile w h rgba).take (env.reached rgba.length)) ∧
      (writeAvatarRgba env w h rgba file).result =
        if env.dies then none else some env.succeeds := by
  have hnil : rgba ≠ [] := List.length_pos_iff.mp hpos
  have hbody : w.toNat * h.toNat * 4 % 2 ^ 64 = rgba.length := by
    rw [← hsize, Nat.mod_eq_of_lt hlt]
  have hlen := length_avatarFile w h rgba
  -- What the header brings to the file, and what is due with the pixels.
  have hfirst : (avatarHeader w h).take env.header.reach =
      (avatarFile w h rgba).take (min env.header.reach 12) := by
    rw [← take_avatarFile w h rgba, List.take_take]
  have hdue : (avatarHeader w h).drop env.header.reach ++ rgba =
      (avatarFile w h rgba).drop (min env.header.reach 12) := by
    rw [avatarFile, List.drop_append, length_avatarHeader]
    rcases Nat.le_total env.header.reach 12 with hle | hle
    · rw [Nat.min_eq_left hle, Nat.sub_eq_zero_of_le hle, List.drop_zero]
    · rw [Nat.min_eq_right hle, List.drop_of_length_le (Nat.le_of_eq (length_avatarHeader w h)),
        List.drop_of_length_le (by rw [length_avatarHeader]; exact hle), Nat.sub_self,
        List.drop_zero]
  simp only [writeAvatarRgba, hnil, false_and, if_false, hopen, hbody, List.take_length, andThen,
    AvatarWrite.reached, AvatarWrite.dies, AvatarWrite.succeeds]
  generalize avatarFile w h rgba = whole at hfirst hdue hlen
  cases hheader : env.header.ending with
  | fails =>
    cases hclose : env.close.ending <;>
      simp [Proc.last, Proc.bind, op, done, fwrite, fclose, hheader, hclose, hfirst]
  | dies => simp [Proc.last, Proc.bind, op, fwrite, hheader, hfirst]
  | ok =>
    cases hbodyEnd : env.body.ending with
    | fails =>
      cases hclose : env.close.ending <;>
        simp [Proc.last, Proc.bind, op, done, fwrite, fclose, hheader, hbodyEnd, hclose, hpos,
          hfirst, hdue, take_append_take_drop, hlen]
    | dies =>
      simp [Proc.last, Proc.bind, op, fwrite, hheader, hbodyEnd, hpos, hfirst, hdue,
        take_append_take_drop, hlen]
    | ok =>
      generalize min env.header.reach 12 = n at hfirst hdue ⊢
      -- The close brings all that is left, or some of it.
      have hall := take_append_drop_drop whole n env.body.reach
      have hsome := take_append_take_drop_drop whole n env.body.reach env.close.reach
      have hwhole : whole.take (12 + rgba.length) = whole :=
        List.take_of_length_le (Nat.le_of_eq hlen)
      rw [hlen] at hsome
      cases hclose : env.close.ending with
      | ok =>
        simpa [Proc.last, Proc.bind, op, done, fwrite, fclose, hheader, hbodyEnd, hclose, hpos,
          hfirst, hdue, hwhole] using hall
      | fails =>
        simpa [Proc.last, Proc.bind, op, done, fwrite, fclose, hheader, hbodyEnd, hclose, hpos,
          hfirst, hdue] using hsome
      | dies =>
        simpa [Proc.last, Proc.bind, op, done, fwrite, fclose, hheader, hbodyEnd, hclose, hpos,
          hfirst, hdue] using hsome

/-- The same of any file. -/
theorem writeAvatarRgba_spec (env : AvatarWrite) {w h : UInt32} {rgba : Bytes}
    (hsize : rgba.length = w.toNat * h.toNat * 4) (hpos : 0 < rgba.length)
    (hlt : rgba.length < 2 ^ 64) (file : Option Bytes) :
    (writeAvatarRgba env w h rgba).last file =
        (if env.opens = .ok then some ((avatarFile w h rgba).take (env.reached rgba.length))
          else file) ∧
      (writeAvatarRgba env w h rgba file).result =
        if env.dies then none else some env.succeeds := by
  have hnil : rgba ≠ [] := List.length_pos_iff.mp hpos
  cases hopen : env.opens with
  | ok => exact writeAvatarRgba_opened hopen hsize hpos hlt file
  | fails => simp [writeAvatarRgba, hnil, hopen, andThen, Proc.last, Proc.bind, op, done,
      AvatarWrite.dies, AvatarWrite.succeeds]
  | dies => simp [writeAvatarRgba, hnil, hopen, andThen, Proc.last, Proc.bind, op,
      AvatarWrite.dies]

/-! ## What is read -/

/-- The variables a read is given. -/
@[ext] structure AvatarOut where
  w : UInt32
  h : UInt32
  rgba : Bytes

/-- `read_avatar_rgba` with its output arguments. -/
def readAvatarInto (file : Option Bytes) (out : AvatarOut) : Bool × AvatarOut :=
  match file with
  | none => (false, out)
  | some bytes =>
    let header := bytes.take 12
    if header.length ≠ 12 then (false, out)
    else if header.take 4 ≠ kMagic then (false, out)
    else
      let fw := getU32Le header 4
      let fh := getU32Le header 8
      if fw = 0 ∨ fh = 0 ∨ kMaxDim < fw ∨ kMaxDim < fh then (false, out)
      else
        let body := fw.toNat * fh.toNat * 4
        let pixels := (bytes.drop 12).take body
        if pixels.length ≠ body then (false, out)
        else if (bytes.drop (12 + body)).take 1 ≠ [] then (false, out)
        else (true, { w := fw, h := fh, rgba := pixels })

/-- Once the pixels are there, nothing is left exactly where the size is right. -/
private theorem rest_eq_nil_iff {bytes : Bytes} {body : Nat}
    (hheader : (bytes.take 12).length = 12) (hpixels : ((bytes.drop 12).take body).length = body) :
    (bytes.drop (12 + body)).take 1 = [] ↔ bytes.length = 12 + body := by
  rw [List.length_take] at hheader
  rw [List.length_take, List.length_drop] at hpixels
  rw [List.take_eq_nil_iff, List.drop_eq_nil_iff]
  omega

theorem readAvatarInto_eq (file : Option Bytes) (out : AvatarOut) :
    readAvatarInto file out =
      match readAvatarRgba file with
      | some (w, h, rgba) => (true, ⟨w, h, rgba⟩)
      | none => (false, out) := by
  cases file with
  | none => rfl
  | some bytes =>
    simp only [readAvatarInto, readAvatarRgba, Option.bind_eq_bind, Option.bind_some]
    split
    · rfl
    rename_i hheader
    split
    · rfl
    split
    · rfl
    split
    · rfl
    rename_i hpixels
    have hrest := rest_eq_nil_iff (Decidable.not_not.mp hheader) (Decidable.not_not.mp hpixels)
    by_cases hend : bytes.length =
        12 + (getU32Le (bytes.take 12) 4).toNat * (getU32Le (bytes.take 12) 8).toNat * 4
    · rw [if_neg (not_not_intro (hrest.mpr hend)), if_neg (not_not_intro hend)]
    · rw [if_pos (mt hrest.mp hend), if_pos hend]

private theorem exists_four {bs : Bytes} (h : 4 ≤ bs.length) :
    ∃ a b c d rest, bs = a :: b :: c :: d :: rest := by
  rcases bs with _ | ⟨a, _ | ⟨b, _ | ⟨c, _ | ⟨d, rest⟩⟩⟩⟩
  case cons.cons.cons.cons => exact ⟨a, b, c, d, rest, rfl⟩
  all_goals simp at h

private theorem le32_ofNat_readLe32 (b₀ b₁ b₂ b₃ : UInt8) :
    le32 (UInt32.ofNat (readLe32 b₀ b₁ b₂ b₃)).toNat = [b₀, b₁, b₂, b₃] := by
  rw [UInt32.toNat_ofNat_of_lt' (readLe32_lt b₀ b₁ b₂ b₃), le32_readLe32]

/-- The header of the two numbers in it. -/
theorem avatarHeader_getU32Le {header : Bytes} (hlen : header.length = 12)
    (hmagic : header.take 4 = kMagic) :
    avatarHeader (getU32Le header 4) (getU32Le header 8) = header := by
  obtain ⟨m₀, m₁, m₂, m₃, dims, rfl⟩ := exists_four (show 4 ≤ header.length by omega)
  replace hlen : dims.length = 8 := by simpa using hlen
  obtain ⟨w₀, w₁, w₂, w₃, hs, rfl⟩ := exists_four (show 4 ≤ dims.length by omega)
  replace hlen : hs.length = 4 := by simpa using hlen
  obtain ⟨h₀, h₁, h₂, h₃, rest, rfl⟩ := exists_four (show 4 ≤ hs.length by omega)
  obtain rfl : rest = [] := by simpa using hlen
  have hw := le32_ofNat_readLe32 w₀ w₁ w₂ w₃
  have hh := le32_ofNat_readLe32 h₀ h₁ h₂ h₃
  show kMagic ++ (le32 (UInt32.ofNat (readLe32 w₀ w₁ w₂ w₃)).toNat ++
    le32 (UInt32.ofNat (readLe32 h₀ h₁ h₂ h₃)).toNat) = _
  rw [hw, hh, ← hmagic]
  rfl

/-- An image a file can hold. -/
def AvatarOut.Valid (out : AvatarOut) : Prop :=
  (1 ≤ out.w ∧ out.w ≤ 8192) ∧ (1 ≤ out.h ∧ out.h ≤ 8192) ∧
    out.rgba.length = out.w.toNat * out.h.toNat * 4

private theorem one_le_of_ne_zero {n : UInt32} (h : n ≠ 0) : 1 ≤ n := by
  rw [ne_eq, ← UInt32.toNat_inj] at h
  exact UInt32.le_iff_toNat_le.mpr (Nat.pos_of_ne_zero h)

private theorem ne_zero_of_one_le {n : UInt32} (h : 1 ≤ n) : n ≠ 0 := by
  intro heq
  rw [heq] at h
  exact absurd h (by decide)

/-- What is read is the one image whose file the bytes are. -/
theorem readAvatarRgba_eq_some_iff {bytes rgba : Bytes} {w h : UInt32} :
    readAvatarRgba (some bytes) = some (w, h, rgba) ↔
      AvatarOut.Valid ⟨w, h, rgba⟩ ∧ bytes = avatarFile w h rgba := by
  constructor
  · intro hread
    simp only [readAvatarRgba, Option.bind_eq_bind, Option.bind_some] at hread
    split at hread
    · cases hread
    rename_i hlen
    split at hread
    · cases hread
    rename_i hmagic
    split at hread
    · cases hread
    rename_i hdims
    split at hread
    · cases hread
    rename_i hpixels
    split at hread
    · cases hread
    rename_i hend
    replace hlen := Decidable.not_not.mp hlen
    replace hend := Decidable.not_not.mp hend
    have hheader := avatarHeader_getU32Le hlen (Decidable.not_not.mp hmagic)
    have hrest : (bytes.drop 12).length =
        (getU32Le (bytes.take 12) 4).toNat * (getU32Le (bytes.take 12) 8).toNat * 4 := by
      rw [List.length_drop, hend, Nat.add_sub_cancel_left]
    simp only [Option.some.injEq, Prod.mk.injEq] at hread
    obtain ⟨rfl, rfl, rfl⟩ := hread
    rw [List.take_of_length_le (Nat.le_of_eq hrest)]
    refine ⟨⟨?_, ?_, hrest⟩, ?_⟩
    · simp only [not_or, UInt32.not_lt] at hdims
      exact ⟨one_le_of_ne_zero hdims.1, hdims.2.2.1⟩
    · simp only [not_or, UInt32.not_lt] at hdims
      exact ⟨one_le_of_ne_zero hdims.2.1, hdims.2.2.2⟩
    · rw [avatarFile, hheader, List.take_append_drop]
  · rintro ⟨⟨hw, hh, hsize⟩, rfl⟩
    exact readAvatarRgba_avatarFile ⟨ne_zero_of_one_le hw.1, hw.2⟩ ⟨ne_zero_of_one_le hh.1, hh.2⟩
      hsize

/-- What a write that meets no failure leaves of an image a file can hold. -/
theorem writeAvatarRgba_valid {img : AvatarOut} (h : img.Valid) (file : Option Bytes) :
    (writeAvatarRgba {} img.w img.h img.rgba).last file = some (avatarFile img.w img.h img.rgba) ∧
      (writeAvatarRgba {} img.w img.h img.rgba file).result = some true := by
  obtain ⟨hw, hh, hsize⟩ := h
  have hwlo := UInt32.le_iff_toNat_le.mp hw.1
  have hwhi := UInt32.le_iff_toNat_le.mp hw.2
  have hhlo := UInt32.le_iff_toNat_le.mp hh.1
  have hhhi := UInt32.le_iff_toNat_le.mp hh.2
  have hlo : 0 < img.w.toNat * img.h.toNat := Nat.mul_pos hwlo hhlo
  have hhi : img.w.toNat * img.h.toNat ≤ 8192 * 8192 := Nat.mul_le_mul hwhi hhhi
  have hspec := writeAvatarRgba_spec {} hsize (by omega) (by omega) file
  refine ⟨hspec.1.trans ?_, hspec.2⟩
  rw [if_pos rfl, AvatarWrite.reached_of_succeeds rfl, List.take_of_length_le]
  exact Nat.le_of_eq (length_avatarFile _ _ _)

theorem readAvatarInto_eq_true_iff {file : Option Bytes} {out img : AvatarOut} :
    readAvatarInto file out = (true, img) ↔
      img.Valid ∧ file = (writeAvatarRgba {} img.w img.h img.rgba).last none := by
  have hwritten (h : img.Valid) : file = (writeAvatarRgba {} img.w img.h img.rgba).last none ↔
      file = some (avatarFile img.w img.h img.rgba) := by rw [(writeAvatarRgba_valid h none).1]
  rw [and_congr_right hwritten, readAvatarInto_eq]
  cases file with
  | none => simp [readAvatarRgba]
  | some bytes =>
    have hiff := @readAvatarRgba_eq_some_iff bytes img.rgba img.w img.h
    rw [Option.some.injEq, ← hiff]
    cases hread : readAvatarRgba (some bytes) with
    | none => simp
    | some r => simp [AvatarOut.ext_iff, Prod.ext_iff]

/-- A file is read exactly if it is what `write_avatar_rgba` writes for some
image of at most 8192 by 8192, which is the image read; otherwise the variables
stay as they were. -/
theorem readAvatarInto_spec (file : Option Bytes) (out : AvatarOut) :
    ((readAvatarInto file out).1 = true ↔
      ∃ img : AvatarOut, img.Valid ∧ file = (writeAvatarRgba {} img.w img.h img.rgba).last none) ∧
    (∀ img : AvatarOut, img.Valid → file = (writeAvatarRgba {} img.w img.h img.rgba).last none →
      readAvatarInto file out = (true, img)) ∧
    ((readAvatarInto file out).1 = false → (readAvatarInto file out).2 = out) ∧
    ∀ (img : AvatarOut) (old : Option Bytes), img.Valid →
      (writeAvatarRgba {} img.w img.h img.rgba old).result = some true ∧
        readAvatarInto ((writeAvatarRgba {} img.w img.h img.rgba).last old) out = (true, img) := by
  refine ⟨⟨fun hread => ?_, fun ⟨img, hvalid, hfile⟩ => ?_⟩, fun img hvalid hfile => ?_,
    fun hread => ?_, fun img old hvalid => ?_⟩
  · exact ⟨(readAvatarInto file out).2, readAvatarInto_eq_true_iff.mp (Prod.ext hread rfl)⟩
  · rw [readAvatarInto_eq_true_iff.mpr ⟨hvalid, hfile⟩]
  · exact readAvatarInto_eq_true_iff.mpr ⟨hvalid, hfile⟩
  · rw [readAvatarInto_eq] at hread ⊢
    split at hread
    · cases hread
    · rfl
  · obtain ⟨hlast, hresult⟩ := writeAvatarRgba_valid hvalid old
    refine ⟨hresult, readAvatarInto_eq_true_iff.mpr ⟨hvalid, ?_⟩⟩
    rw [hlast, (writeAvatarRgba_valid hvalid none).1]

end Choir
