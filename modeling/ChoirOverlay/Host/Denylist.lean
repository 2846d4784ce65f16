-- SUMMARY: The process denylist, and what the directory of a path argument has to do with its verdict.
import ChoirOverlay.Base.Glob
import ChoirOverlay.Discord.Bidi
import ChoirOverlay.Host.StateServer
import ChoirOverlay.Json.Text
import Mathlib.Data.List.DropRight

/-!
# Denylist

The last part of a path is cut off at a slash. A Wine game shows its path with
backslashes, so what is matched against the patterns then is the last part of
the directory together with the file name.
-/

namespace Choir

/-- `tolower`: beyond ASCII a byte of a UTF-8 locale has no case. -/
def toLowerByte (b : UInt8) : UInt8 := if 0x41 ≤ b ∧ b ≤ 0x5A then b + 0x20 else b

/-- `to_lower`. -/
def toLower (s : Bytes) : Bytes := s.map toLowerByte

/-- `basename_of`: what comes after the last slash. -/
def basenameOf (path : Bytes) : Bytes := path.rtakeWhile (· ≠ 0x2F)

/-- `c_str()` as a C function reads it. -/
def cString (s : Bytes) : Bytes := s.takeWhile (· ≠ 0)

/-- The characters of well-formed text. -/
def characters (s : Bytes) : Option (List Char) := s.toByteArray.utf8Decode?.map Array.toList

/-- What the user's locale decides, which `QApplication` sets. It is a UTF-8
one. -/
structure Locale where
  /-- How bracket expressions are read in texts. -/
  brackets : Glob.Brackets
  /-- How they are read where bytes are matched. -/
  byteBrackets : Glob.Brackets

/-- The POSIX locale with UTF-8 as its encoding. -/
def Locale.posix : Locale := ⟨Glob.posixBrackets, Glob.posixBrackets⟩

/-- `fnmatch(pattern, string, 0) == 0`: characters are matched, or bytes where
one of the two is no text. -/
def fnmatch (loc : Locale) (pattern string : Bytes) : Bool :=
  match characters (cString pattern), characters (cString string) with
  | some p, some s => (Glob.ofPattern loc.brackets p).any (Glob.accepts · s)
  | _, _ =>
    let octets (s : Bytes) : List Char := (cString s).map fun b => Char.ofNat b.toNat
    (Glob.ofPattern loc.byteBrackets (octets pattern)).any (Glob.accepts · (octets string))

structure Denylist where
  patterns : List Bytes
  deriving DecidableEq, Repr

namespace Denylist

def blocks (loc : Locale) (l : Denylist) (exeName : Bytes) : Bool :=
  let base := toLower (basenameOf exeName)
  l.patterns.any fun pat => fnmatch loc (toLower pat) base

def defaults : List Bytes :=
  ["Discord", "steam", "steamwebhelper", "gamescope", "obs", "obs-studio", "firefox", "chrome",
    "chromium", "code", "electron", "choir", "*launcher*", "faugus*", "protontricks*"].map ascii

end Denylist

/-! ## Paths -/

/-- A directory as the command line of a game shows it, with the separator that
follows it. -/
structure Directory where
  name : List Char
  separator : Char
  separator_eq : separator = '/' ∨ separator = '\\'
  nul_notMem : '\x00' ∉ name

structure FileName where
  name : List Char
  nul_notMem : '\x00' ∉ name
  slash_notMem : '/' ∉ name
  backslash_notMem : '\\' ∉ name

def FileName.text (f : FileName) : Bytes := encodeUtf8 f.name

/-- The path of a file in the directory. -/
def Directory.path (d : Directory) (f : FileName) : Bytes :=
  encodeUtf8 (d.name ++ d.separator :: f.name)

/-- The last part of the directory, with a backslash after it, in lower case. -/
def Directory.stem (d : Directory) : List Char :=
  (d.name.rtakeWhile (· ≠ '/') ++ ['\\']).map Char.toLower

/-- What a file name has for characters, in lower case. -/
def InFileName (c : Char) : Prop := ∃ c', c' ≠ '\x00' ∧ c' ≠ '/' ∧ c' ≠ '\\' ∧ c'.toLower = c

/-- An argument of a game: a path, or anything else. -/
inductive Argument where
  | path (d : Directory) (f : FileName)
  | other (text : Bytes)

def Argument.text : Argument → Bytes
  | .path d f => d.path f
  | .other text => text

/-- The argument without a directory. -/
def Argument.name : Argument → Bytes
  | .path _ f => f.text
  | .other text => text

namespace Denylist

/-- Every pattern is text, as those of a JSON document and of a text field are. -/
def Texts (l : Denylist) : Prop := ∀ pat ∈ l.patterns, validUtf8 pat = true

/-- The glob of a pattern that is text. -/
def glob (loc : Locale) (pat : Bytes) : Option (Glob Char) :=
  (characters (cString (toLower pat))).bind (Glob.ofPattern loc.brackets)

/-- The pattern cannot be spent on the directory: only stars in front of
whatever accepts a file name can take its last part. -/
def Skips (loc : Locale) (d : Directory) (pat : Bytes) : Prop :=
  ∀ g, glob loc pat = some g → Glob.Skips InFileName g d.stem

/-- Nor does the directory keep it from a file name: a pattern that accepts any
begins with a star. -/
def Ignores (loc : Locale) (d : Directory) (pat : Bytes) : Prop :=
  Skips loc d pat ∧ ∀ g, glob loc pat = some g → Glob.Leads InFileName g

end Denylist

/-! ## Texts -/

theorem rtakeWhile_append {α : Type} {p : α → Bool} {t : List α} (s : List α)
    (ht : ∀ a ∈ t, p a = true) : (s ++ t).rtakeWhile p = s.rtakeWhile p ++ t := by
  have hback : ∀ a ∈ t.reverse, p a = true := fun a ha => ht a (List.mem_reverse.mp ha)
  rw [List.rtakeWhile, List.rtakeWhile, List.reverse_append, List.takeWhile_append_of_pos hback,
    List.reverse_append, List.reverse_reverse]

/-- An ASCII character is one byte, and any other has no ASCII byte. -/
theorem utf8EncodeChar_ascii (c : Char) :
    c.val.toNat < 0x80 ∧ String.utf8EncodeChar c = [UInt8.ofNat c.val.toNat] ∨
      0x80 ≤ c.val.toNat ∧ ∀ b ∈ String.utf8EncodeChar c, 0x80 ≤ b := by
  have hmax : c.val.toNat < 0x110000 := by
    have hvalid := c.valid
    unfold UInt32.isValidChar Nat.isValidChar at hvalid
    omega
  have hle {n : Nat} (hn : 0x80 ≤ n % 0x100) : 0x80 ≤ UInt8.ofNat n := by
    rw [UInt8.le_iff_toNat_le, UInt8.toNat_ofNat']
    exact hn
  unfold String.utf8EncodeChar
  dsimp only
  split_ifs with h₁ h₂ h₃
  · exact .inl ⟨by omega, rfl⟩
  all_goals
    refine .inr ⟨by omega, fun b hb => ?_⟩
    simp only [List.mem_cons, List.not_mem_nil, or_false] at hb
  · rcases hb with rfl | rfl <;> exact hle (by omega)
  · rcases hb with rfl | rfl | rfl <;> exact hle (by omega)
  · rcases hb with rfl | rfl | rfl | rfl <;> exact hle (by omega)

/-- A byte of another character than `a`. -/
theorem ne_of_mem_utf8EncodeChar {a c : Char} {b : UInt8} (ha : a.val.toNat < 0x80) (hca : c ≠ a)
    (hb : b ∈ String.utf8EncodeChar c) : b ≠ UInt8.ofNat a.val.toNat := by
  rcases utf8EncodeChar_ascii c with ⟨hlt, hbytes⟩ | ⟨-, hbytes⟩
  · rw [hbytes, List.mem_singleton] at hb
    rintro heq
    rw [hb, ← UInt8.toNat_inj, UInt8.toNat_ofNat', UInt8.toNat_ofNat', Nat.mod_eq_of_lt (by omega),
      Nat.mod_eq_of_lt (by omega), UInt32.toNat_inj] at heq
    exact hca (Char.ext heq)
  · have hle := hbytes b hb
    rintro rfl
    rw [UInt8.le_iff_toNat_le, UInt8.toNat_ofNat', Nat.mod_eq_of_lt (by omega)] at hle
    exact absurd ha (Nat.not_lt.mpr hle)

theorem characters_encodeUtf8 (cs : List Char) : characters (encodeUtf8 cs) = some cs := by
  have hbytes : (encodeUtf8 cs).toByteArray = cs.utf8Encode := rfl
  rw [characters, hbytes, List.utf8Decode?_utf8Encode, Option.map_some]

theorem encodeUtf8_append (cs cs' : List Char) :
    encodeUtf8 (cs ++ cs') = encodeUtf8 cs ++ encodeUtf8 cs' := List.flatMap_append ..

theorem cString_encodeUtf8 (cs : List Char) :
    cString (encodeUtf8 cs) = encodeUtf8 (cs.takeWhile (· ≠ '\x00')) := by
  induction cs with
  | nil => rfl
  | cons c cs ih =>
    by_cases hc : c = '\x00'
    · subst hc
      rfl
    · have hbytes : ∀ b ∈ String.utf8EncodeChar c, decide (b ≠ 0) = true := fun b hb => by
        simpa using ne_of_mem_utf8EncodeChar (a := '\x00') (by decide) hc hb
      rw [encodeUtf8_cons, cString, List.takeWhile_append_of_pos hbytes,
        List.takeWhile_cons_of_pos (by simpa using hc), encodeUtf8_cons, ← ih]
      rfl

theorem all_ne {a : Char} {cs : List Char} (h : a ∉ cs) : ∀ c ∈ cs, decide (c ≠ a) = true :=
  fun _ hc => decide_eq_true (ne_of_mem_of_not_mem hc h)

theorem cString_of_nul_notMem {cs : List Char} (h : '\x00' ∉ cs) :
    cString (encodeUtf8 cs) = encodeUtf8 cs := by
  rw [cString_encodeUtf8, List.takeWhile_eq_self_iff.mpr (all_ne h)]

theorem basenameOf_encodeUtf8 (cs : List Char) :
    basenameOf (encodeUtf8 cs) = encodeUtf8 (cs.rtakeWhile (· ≠ '/')) := by
  induction cs using List.reverseRecOn with
  | nil => rfl
  | append_singleton cs c ih =>
    have hone : encodeUtf8 [c] = String.utf8EncodeChar c := List.append_nil _
    by_cases hc : c = '/'
    · subst hc
      have hbytes : encodeUtf8 ['/'] = [0x2F] := by decide
      rw [encodeUtf8_append, hbytes, basenameOf, List.rtakeWhile_concat_neg _ _ _ (by decide),
        List.rtakeWhile_concat_neg _ _ _ (by decide)]
      rfl
    · have hbytes : ∀ b ∈ String.utf8EncodeChar c, decide (b ≠ 0x2F) = true := fun b hb => by
        simpa using ne_of_mem_utf8EncodeChar (a := '/') (by decide) hc hb
      rw [encodeUtf8_append, hone, List.rtakeWhile_concat_pos _ _ _ (by simpa using hc),
        encodeUtf8_append, hone, ← ih, basenameOf, rtakeWhile_append _ hbytes, basenameOf]

theorem toLowerByte_of_le {b : UInt8} (h : 0x80 ≤ b) : toLowerByte b = b := by
  unfold toLowerByte
  grind

theorem toLower_of_le {c : Char} (h : 0x80 ≤ c.val.toNat) : c.toLower = c := by
  have hupper : ¬ (c.val ≥ 'A'.val ∧ c.val ≤ 'Z'.val) := by
    rintro ⟨-, hz⟩
    exact absurd (UInt32.le_iff_toNat_le.mp hz) (Nat.not_le.mpr (Nat.lt_of_lt_of_le (by decide) h))
  exact dif_neg hupper

/-- Lower case of a character, byte by byte. -/
theorem toLower_utf8EncodeChar (c : Char) :
    toLower (String.utf8EncodeChar c) = String.utf8EncodeChar c.toLower := by
  rcases utf8EncodeChar_ascii c with ⟨hlt, hbytes⟩ | ⟨hle, hbytes⟩
  · have hall : ∀ n < 0x80, toLower (String.utf8EncodeChar (Char.ofNat n)) =
        String.utf8EncodeChar (Char.ofNat n).toLower := by decide +kernel
    have hc := hall c.toNat hlt
    rwa [Char.ofNat_toNat] at hc
  · rw [toLower_of_le hle, toLower]
    exact (List.map_congr_left fun b hb => toLowerByte_of_le (hbytes b hb)).trans (List.map_id _)

theorem toLower_encodeUtf8 (cs : List Char) :
    toLower (encodeUtf8 cs) = encodeUtf8 (cs.map Char.toLower) := by
  induction cs with
  | nil => rfl
  | cons c cs ih =>
    rw [encodeUtf8_cons, List.map_cons, encodeUtf8_cons, ← ih, ← toLower_utf8EncodeChar]
    exact List.map_append

/-! ## Paths and patterns -/

theorem inFileName_of_mem (f : FileName) : ∀ c ∈ f.name.map Char.toLower, InFileName c := by
  intro c hc
  obtain ⟨c', hc', rfl⟩ := List.mem_map.mp hc
  refine ⟨c', ?_, ?_, ?_, rfl⟩
  · rintro rfl
    exact f.nul_notMem hc'
  · rintro rfl
    exact f.slash_notMem hc'
  · rintro rfl
    exact f.backslash_notMem hc'

/-- A text of such characters is a file name in lower case. -/
theorem exists_fileName {s : List Char} (hs : ∀ c ∈ s, InFileName c) :
    ∃ f : FileName, f.name.map Char.toLower = s := by
  induction s with
  | nil => exact ⟨⟨[], by simp, by simp, by simp⟩, rfl⟩
  | cons c s ih =>
    obtain ⟨⟨c', hnul, hslash, hback, rfl⟩, hrest⟩ := List.forall_mem_cons.mp hs
    obtain ⟨f, rfl⟩ := ih hrest
    exact ⟨⟨c' :: f.name, List.not_mem_cons_of_ne_of_not_mem hnul.symm f.nul_notMem,
      List.not_mem_cons_of_ne_of_not_mem hslash.symm f.slash_notMem,
      List.not_mem_cons_of_ne_of_not_mem hback.symm f.backslash_notMem⟩, rfl⟩

theorem toLower_ne_nul {c : Char} (h : c ≠ '\x00') : c.toLower ≠ '\x00' := by
  rcases Nat.lt_or_ge c.toNat 0x80 with hlt | hle
  · have hall : ∀ n < 0x80, Char.ofNat n ≠ '\x00' → (Char.ofNat n).toLower ≠ '\x00' := by
      decide +kernel
    have hc := hall c.toNat hlt
    rw [Char.ofNat_toNat] at hc
    exact hc h
  · rwa [toLower_of_le hle]

theorem nul_notMem_toLower {cs : List Char} (h : '\x00' ∉ cs) : '\x00' ∉ cs.map Char.toLower := by
  intro hmem
  obtain ⟨c, hc, hnul⟩ := List.mem_map.mp hmem
  refine toLower_ne_nul ?_ hnul
  rintro rfl
  exact h hc

namespace Directory

variable (d : Directory) (f : FileName)

theorem stem_ne_nil : d.stem ≠ [] := by simp [stem]

theorem nul_notMem_stem : '\x00' ∉ d.stem := by
  refine nul_notMem_toLower fun hmem => ?_
  rcases List.mem_append.mp hmem with hmem | hmem
  · exact d.nul_notMem ((List.rtakeWhile_suffix _ _).subset hmem)
  · exact absurd (List.mem_singleton.mp hmem) (by decide)

theorem basenameOf_text : basenameOf f.text = f.text := by
  rw [FileName.text, basenameOf_encodeUtf8, ← List.nil_append f.name,
    rtakeWhile_append _ (all_ne f.slash_notMem)]
  rfl

theorem basenameOf_path_slash (h : d.separator = '/') : basenameOf (d.path f) = f.text := by
  rw [path, h, basenameOf_encodeUtf8, ← List.singleton_append, ← List.append_assoc,
    rtakeWhile_append _ (all_ne f.slash_notMem), List.rtakeWhile_concat_neg _ _ _ (by decide),
    List.nil_append, FileName.text]

/-- A backslash leaves the directory in. -/
theorem base_path_backslash (h : d.separator = '\\') :
    toLower (basenameOf (d.path f)) = encodeUtf8 (d.stem ++ f.name.map Char.toLower) := by
  have hall : ∀ c ∈ '\\' :: f.name, decide (c ≠ '/') = true :=
    List.forall_mem_cons.mpr ⟨by decide, all_ne f.slash_notMem⟩
  rw [path, h, basenameOf_encodeUtf8, rtakeWhile_append _ hall, toLower_encodeUtf8, stem,
    ← List.map_append, List.append_assoc]
  rfl

end Directory

namespace Denylist

variable {loc : Locale} {l l' : Denylist} {d : Directory} {f : FileName} {pat : Bytes}

/-- A pattern that is text, against a text. -/
theorem fnmatch_text {s : List Char} (hpat : validUtf8 pat = true) (hs : '\x00' ∉ s) :
    fnmatch loc (toLower pat) (encodeUtf8 s) = true ↔
      ∃ g, glob loc pat = some g ∧ Glob.accepts g s = true := by
  obtain ⟨cs, rfl⟩ := exists_encodeUtf8 ((validUtf8_iff pat).mp hpat)
  rw [fnmatch, glob, toLower_encodeUtf8, cString_of_nul_notMem hs, cString_encodeUtf8,
    characters_encodeUtf8, characters_encodeUtf8, Option.bind_some]
  simp only [Option.any_eq_true]

theorem glob_encodeUtf8 (cs : List Char) : glob loc (encodeUtf8 cs) =
    Glob.ofPattern loc.brackets ((cs.map Char.toLower).takeWhile (· ≠ '\x00')) := by
  rw [glob, toLower_encodeUtf8, cString_encodeUtf8, characters_encodeUtf8, Option.bind_some]

theorem fnmatch_file (hpat : validUtf8 pat = true) :
    fnmatch loc (toLower pat) (toLower (basenameOf f.text)) = true ↔
      ∃ g, glob loc pat = some g ∧ Glob.accepts g (f.name.map Char.toLower) = true := by
  rw [Directory.basenameOf_text, FileName.text, toLower_encodeUtf8]
  exact fnmatch_text hpat (nul_notMem_toLower f.nul_notMem)

theorem fnmatch_path (hpat : validUtf8 pat = true) (h : d.separator = '\\') :
    fnmatch loc (toLower pat) (toLower (basenameOf (d.path f))) = true ↔
      ∃ g, glob loc pat = some g ∧
        Glob.accepts g (d.stem ++ f.name.map Char.toLower) = true := by
  rw [d.base_path_backslash f h]
  refine fnmatch_text hpat fun hmem => ?_
  exact (List.mem_append.mp hmem).elim d.nul_notMem_stem (nul_notMem_toLower f.nul_notMem)

/-- What holds of a glob and of every file name in lower case holds of the
pattern and of every file name. -/
theorem forall_fileName {P : Glob Char → List Char → Prop} :
    (∀ f : FileName, ∀ g, glob loc pat = some g → P g (f.name.map Char.toLower)) ↔
      ∀ g, glob loc pat = some g → ∀ s, (∀ c ∈ s, InFileName c) → P g s := by
  constructor
  · intro hall g hg s hs
    obtain ⟨f, rfl⟩ := exists_fileName hs
    exact hall f g hg
  · exact fun hall f g hg => hall g hg _ (inFileName_of_mem f)

theorem skips_iff (hpat : validUtf8 pat = true) (h : d.separator = '\\') :
    Skips loc d pat ↔ ∀ f : FileName,
      fnmatch loc (toLower pat) (toLower (basenameOf (d.path f))) = true →
        fnmatch loc (toLower pat) (toLower (basenameOf f.text)) = true := by
  simp only [Skips, Glob.skips_iff, ← forall_fileName, fnmatch_path hpat h, fnmatch_file hpat]
  refine forall_congr' fun f => ?_
  cases glob loc pat with
  | none => simp
  | some g => simp

theorem ignores_iff (hpat : validUtf8 pat = true) (h : d.separator = '\\') :
    Ignores loc d pat ↔ ∀ f : FileName,
      fnmatch loc (toLower pat) (toLower (basenameOf (d.path f))) =
        fnmatch loc (toLower pat) (toLower (basenameOf f.text)) := by
  have hboth : Ignores loc d pat ↔ ∀ g, glob loc pat = some g →
      Glob.Leads InFileName g ∧ Glob.Skips InFileName g d.stem := by
    unfold Ignores Skips
    rw [← forall_and]
    refine forall_congr' fun g => ?_
    rw [← imp_and, and_comm]
  simp only [hboth, Glob.leads_and_skips_iff d.stem_ne_nil, ← forall_fileName]
  refine forall_congr' fun f => ?_
  rw [Bool.eq_iff_iff, fnmatch_path hpat h, fnmatch_file hpat]
  cases glob loc pat with
  | none => simp
  | some g => simp

/-! ## Verdicts -/

theorem blocks_path_slash (l : Denylist) (f : FileName) (h : d.separator = '/') :
    l.blocks loc (d.path f) = l.blocks loc f.text := by
  rw [blocks, blocks, d.basenameOf_path_slash f h, Directory.basenameOf_text]

theorem blocks_singleton (name : Bytes) :
    blocks loc ⟨[pat]⟩ name = fnmatch loc (toLower pat) (toLower (basenameOf name)) := by
  simp [blocks]

theorem blocks_path_of_skips (htexts : l.Texts)
    (hd : d.separator = '/' ∨ ∀ pat ∈ l.patterns, Skips loc d pat)
    (hblocks : l.blocks loc (d.path f) = true) : l.blocks loc f.text = true := by
  rcases d.separator_eq with hsep | hsep
  · rwa [← l.blocks_path_slash f hsep]
  · have hskips := hd.resolve_left (by rw [hsep]; decide)
    obtain ⟨pat, hpat, hmatch⟩ := List.any_eq_true.mp hblocks
    exact List.any_eq_true.mpr
      ⟨pat, hpat, (skips_iff (htexts pat hpat) hsep).mp (hskips pat hpat) f hmatch⟩

theorem blocks_path_of_ignores (htexts : l.Texts)
    (hd : d.separator = '/' ∨ ∀ pat ∈ l.patterns, Ignores loc d pat) :
    l.blocks loc (d.path f) = l.blocks loc f.text := by
  rcases d.separator_eq with hsep | hsep
  · exact l.blocks_path_slash f hsep
  · have hignores := hd.resolve_left (by rw [hsep]; decide)
    rw [Bool.eq_iff_iff, blocks, blocks, List.any_eq_true, List.any_eq_true]
    refine exists_congr fun pat => and_congr_right fun hpat => ?_
    rw [(ignores_iff (htexts pat hpat) hsep).mp (hignores pat hpat) f]

/-- A Hello whose exe and names are let through. -/
structure LetsThrough (loc : Locale) (l : Denylist) (lib : JsonLib) (s : StateServer)
    (payload : Bytes) (args : List Argument) : Prop where
  gate : s.isBlocked = some (l.blocks loc)
  hello : ∃ j, lib.parse payload = some j ∧ l.blocks loc (j.strOr "exe") = false ∧
    StateServer.argvOf j = args.map Argument.text
  names : ∀ a ∈ args, l.blocks loc a.name = false

/-- Such a Hello is refused exactly for an argument that is blocked as a path. -/
theorem classify_inert_iff {lib : JsonLib} {s : StateServer} {payload : Bytes}
    {args : List Argument} (h : LetsThrough loc l lib s payload args) :
    (s.classify lib {} payload).inert = true ↔
      ∃ d f, .path d f ∈ args ∧ l.blocks loc (d.path f) = true := by
  obtain ⟨j, hj, hexe, hargv⟩ := h.hello
  have hblocks (name : Bytes) : s.blocks name = l.blocks loc name := by
    rw [StateServer.blocks, h.gate]
    rfl
  have hblocked : s.blocksHello lib payload = (args.map Argument.text).any (l.blocks loc) := by
    simp only [StateServer.blocksHello, hj, hblocks, hexe, hargv, Bool.false_or]
  have hclass : (s.classify lib {} payload).inert = s.blocksHello lib payload := by
    cases hb : s.blocksHello lib payload <;> simp [StateServer.classify, hb]
  rw [hclass, hblocked, List.any_map, List.any_eq_true]
  constructor
  · rintro ⟨a, ha, htext⟩
    cases a with
    | path d f => exact ⟨d, f, ha, htext⟩
    | other text =>
      have hname := h.names _ ha
      rw [Argument.name] at hname
      rw [Function.comp_apply, Argument.text, hname] at htext
      cases htext
  · rintro ⟨d, f, ha, htext⟩
    exact ⟨.path d f, ha, htext⟩

/-- The directory of a path does not count exactly behind a slash, and behind a
backslash where every pattern, which may be the only one of the list, ignores it.
A game is not blocked for a directory exactly where no pattern can be spent on
it. -/
theorem directory_ignored_iff (loc : Locale) (l : Denylist) (htexts : l.Texts) (d : Directory) :
    ((∀ l' : Denylist, l'.patterns ⊆ l.patterns → ∀ f,
        l'.blocks loc (d.path f) = l'.blocks loc f.text) ↔
      d.separator = '/' ∨ ∀ pat ∈ l.patterns, Ignores loc d pat) ∧
    ((∀ l' : Denylist, l'.patterns ⊆ l.patterns → ∀ f,
        l'.blocks loc (d.path f) = true → l'.blocks loc f.text = true) ↔
      d.separator = '/' ∨ ∀ pat ∈ l.patterns, Skips loc d pat) ∧
    ∀ (lib : JsonLib) (s : StateServer) (payload : Bytes) (args : List Argument),
      LetsThrough loc l lib s payload args →
      (∀ d f, .path d f ∈ args → d.separator = '/' ∨ ∀ pat ∈ l.patterns, Skips loc d pat) →
        (s.classify lib {} payload).inert = false := by
  have hsub {l' : Denylist} (hl' : l'.patterns ⊆ l.patterns) : l'.Texts :=
    fun pat hpat => htexts pat (hl' hpat)
  have hone {pat : Bytes} (hpat : pat ∈ l.patterns) : [pat] ⊆ l.patterns :=
    List.cons_subset.mpr ⟨hpat, List.nil_subset _⟩
  refine ⟨⟨fun hall => ?_, fun hd l' hl' f => ?_⟩, ⟨fun hall => ?_, fun hd l' hl' f => ?_⟩,
    fun lib s payload args hlets hargs => ?_⟩
  · refine d.separator_eq.imp_right fun hsep pat hpat => ?_
    refine (ignores_iff (htexts pat hpat) hsep).mpr fun f => ?_
    simpa only [blocks_singleton] using hall ⟨[pat]⟩ (hone hpat) f
  · exact blocks_path_of_ignores (hsub hl') (hd.imp_right fun hall pat hpat => hall pat (hl' hpat))
  · refine d.separator_eq.imp_right fun hsep pat hpat => ?_
    refine (skips_iff (htexts pat hpat) hsep).mpr fun f => ?_
    simpa only [blocks_singleton] using hall ⟨[pat]⟩ (hone hpat) f
  · exact blocks_path_of_skips (hsub hl') (hd.imp_right fun hall pat hpat => hall pat (hl' hpat))
  · rw [← Bool.not_eq_true, classify_inert_iff hlets]
    rintro ⟨d, f, ha, hblocks⟩
    have hname := blocks_path_of_skips htexts (hargs d f ha) hblocks
    have hlet := hlets.names _ ha
    rw [Argument.name, hname] at hlet
    cases hlet

/-- A directory of a launcher, as Wine shows it. -/
def wineDirectory : Directory :=
  ⟨"Z:\\Games\\SomeLauncher".toList, '\\', .inr rfl, by decide⟩

def wineGame : FileName := ⟨"MyGame.exe".toList, by decide, by decide, by decide⟩

theorem ignores_star : Ignores .posix wineDirectory (ascii "*.exe") := by
  have hglob : glob .posix (ascii "*.exe") =
      some [.many, .one (· == '.'), .one (· == 'e'), .one (· == 'x'), .one (· == 'e')] :=
    (glob_encodeUtf8 "*.exe".toList).trans rfl
  have hcuts : ∀ c ∈ Glob.cuts [.many, .one (· == '.'), .one (· == 'e'), .one (· == 'x'),
      .one (· == 'e')], Glob.accepts c.1 wineDirectory.stem = true →
        c.1.all Glob.Elem.isMany = true := by
    decide +kernel
  constructor
  · intro g hg c hc hacc _
    obtain rfl := Option.some.inj (hglob.symm.trans hg)
    exact hcuts c hc hacc
  · intro g hg _
    obtain rfl := Option.some.inj (hglob.symm.trans hg)
    rfl

/-- A pattern for every exe says the same of a game with its directory and
without. -/
theorem directory_ignored_exe :
    (Denylist.mk [ascii "*.exe"]).blocks .posix (wineDirectory.path wineGame) =
      (Denylist.mk [ascii "*.exe"]).blocks .posix wineGame.text :=
  (directory_ignored_iff .posix ⟨[ascii "*.exe"]⟩ (List.forall_mem_singleton.mpr (by decide))
    wineDirectory).1.mpr (.inr (List.forall_mem_singleton.mpr ignores_star)) _
      (List.Subset.refl _) wineGame

theorem defaults_block_directory :
    ¬ ∀ (loc : Locale) (l : Denylist), l.Texts → ∀ (d : Directory) (f : FileName),
      l.blocks loc (d.path f) = l.blocks loc f.text := by
  intro h
  have heq := h .posix ⟨defaults⟩ (by unfold Texts; decide +kernel) wineDirectory wineGame
  exact absurd heq (by decide +kernel)

end Denylist

end Choir
