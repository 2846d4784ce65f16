-- SUMMARY: The entry the autostart toggle writes, and exactly which executable paths it launches.
import ChoirOverlay.Base.DesktopEntry
import ChoirOverlay.Host.InPlace

/-!
# The autostart entry

The path of the host goes through three readings before it is launched: the
escapes of a string value, the quotes of an argument, the field codes. One
function quotes it, for the second of them.
-/

namespace Choir

open Crash Crash.Proc DesktopEntry

namespace Autostart

/-- What makes `quote_exec` quote a path. -/
def needsQuotes (b : UInt8) : Bool := (ascii " \t\"'\\$" ++ [0x60]).contains b

/-- A byte in quotes. -/
def quotedByte (b : UInt8) : Bytes :=
  if b = 0x22 ∨ b = 0x5C ∨ b = 0x24 ∨ b = 0x60 then [0x5C, b] else [b]

/-- `quote_exec` -/
def quoteExec (path : Bytes) : Bytes :=
  if path.any needsQuotes then 0x22 :: (path.flatMap quotedByte ++ [0x22]) else path

def entryHead : Bytes :=
  ascii "[Desktop Entry]\nType=Application\nName=Choir\n" ++
    ascii "Comment=Discord voice overlay for Vulkan and OpenGL games " ++
    ascii "(not affiliated with Discord Inc.)\n"

def entryTail : Bytes :=
  ascii "Icon=choir\nTerminal=false\nX-GNOME-Autostart-enabled=true\n"

/-- The text `set_autostart` writes. -/
def entryText (execPath : Bytes) : Bytes :=
  entryHead ++ (ascii "Exec=" ++ (quoteExec execPath ++ 0x0A :: entryTail))

/-- The outcomes of the calls of `set_autostart`. -/
structure ToggleEnv extends InPlaceEnv where
  remove : Outcome := .ok
  mkdir : Outcome := .ok

/-- `set_autostart` -/
def setAutostart (env : ToggleEnv) (path : Bytes) (on : Bool) (execPath : Bytes) :
    Proc Files Bool :=
  if on then (ask env.mkdir).andThen (writeInPlace env.toInPlaceEnv path (entryText execPath))
  else op env.remove (removeFile path)

/-! ## Reading the entry -/

def headTexts : List Bytes :=
  [ascii "[Desktop Entry]", ascii "Type=Application", ascii "Name=Choir",
    ascii "Comment=Discord voice overlay for Vulkan and OpenGL games " ++
      ascii "(not affiliated with Discord Inc.)"]

/-- What is read before the `Exec` line, and behind it. -/
def headLines : List Line :=
  [.group (ascii "Desktop Entry]"), .entry (ascii "Type") (ascii "Application"),
    .entry (ascii "Name") (ascii "Choir"),
    .entry (ascii "Comment") (ascii "Discord voice overlay for Vulkan and OpenGL games " ++
      ascii "(not affiliated with Discord Inc.)")]

def tailLines : List Line :=
  [.entry (ascii "Icon") (ascii "choir"), .entry (ascii "Terminal") (ascii "false"),
    .entry (ascii "X-GNOME-Autostart-enabled") (ascii "true")]

/-- The entry has these keys and no other, and whatever is put in place of the
field codes the command line of its `Exec` value is the path alone. -/
def Launches (content path : Bytes) : Prop :=
  ∃ value, DesktopEntry.read content =
      some (headLines ++ .entry (ascii "Exec") value :: tailLines) ∧
    ∀ code, readExec code value = some [path]

/-- The bytes that the quotes do not get through all readings. -/
def breaks (b : UInt8) : Bool := (ascii "\n\"\\$%" ++ [0x60]).contains b

/-- None of its bytes breaks the entry, and the reserved ones are quoted because
of a space, a tab or an apostrophe. -/
def Quotable (path : Bytes) : Prop :=
  (∀ b ∈ path, breaks b = false) ∧
    ((∃ b ∈ path, needsQuotes b = true) ∨ ∀ b ∈ path, isReserved b = false)

/-- The first lines are read off, whatever follows the `Exec` line. -/
theorem read_exec {value : Bytes} (hline : 0x0A ∉ value)
    (hvalue : ∀ b ∈ value.head?, DesktopEntry.isSpace b = false) (rest : Bytes) :
    DesktopEntry.read (entryHead ++ (ascii "Exec=" ++ (value ++ 0x0A :: rest))) =
      ((linesOf 0x0A rest).mapM readLine).map fun ls =>
        headLines ++ .entry (ascii "Exec") value :: ls.flatten := by
  have hhead : entryHead = headTexts.flatMap (· ++ [0x0A]) := by decide
  have hexec : 0x0A ∉ ascii "Exec=" ++ value := by
    rw [List.mem_append, not_or]
    exact ⟨by decide, hline⟩
  have hlines : linesOf 0x0A (entryHead ++ (ascii "Exec=" ++ (value ++ 0x0A :: rest))) =
      headTexts ++ (ascii "Exec=" ++ value) :: linesOf 0x0A rest := by
    rw [hhead, linesOf_flatMap (by decide), ← List.append_assoc (ascii "Exec="),
      linesOf_append hexec]
  have htexts : headTexts.mapM readLine = some (headLines.map fun l => [l]) := by decide
  have hentry : readLine (ascii "Exec=" ++ value) = some [.entry (ascii "Exec") value] := by
    have htrimmed : value.dropWhile DesktopEntry.isSpace = value := by
      cases value with
      | nil => rfl
      | cons b value => rw [List.dropWhile_cons_of_neg (by simp [hvalue b rfl])]
    show some [Line.entry (ascii "Exec") (value.dropWhile DesktopEntry.isSpace)] = _
    rw [htrimmed]
  rw [DesktopEntry.read, hlines, List.mapM_append, htexts]
  simp only [List.mapM_cons, hentry]
  cases (linesOf 0x0A rest).mapM readLine with
  | none => rfl
  | some ls => rfl

/-! ## Reading the quoted path -/

/-- The bytes of which a backslash makes no escape of a string value. -/
def unclear (b : UInt8) : Bool := b == 0x22 || b == 0x24 || b == 0x60

variable {path t : Bytes}

theorem unescape_quotedByte {b : UInt8} (hb : unclear b = false) :
    unescape (quotedByte b ++ t) = (unescape t).map (b :: ·) := by
  simp only [unclear, Bool.or_eq_false_iff, beq_eq_false_iff_ne] at hb
  unfold quotedByte
  by_cases hbackslash : b = 0x5C
  · rw [hbackslash]
    exact unescape_backslash t
  · rw [if_neg (by simp [hb, hbackslash])]
    exact unescape_cons hbackslash

theorem unescape_unclear {b : UInt8} (hb : unclear b = true) :
    unescape (quotedByte b ++ t) = none := by
  simp only [unclear, Bool.or_eq_true, beq_iff_eq] at hb
  rcases hb with (rfl | rfl) | rfl <;> exact unescape_of_no_escape rfl

/-- The string the quoted bytes stand for, when they stand for one. -/
theorem unescape_quoted (path : Bytes) : unescape (path.flatMap quotedByte ++ t) =
    if path.any unclear then none else (unescape t).map (path ++ ·) := by
  induction path with
  | nil => simp
  | cons b path ih =>
    rw [List.flatMap_cons, List.append_assoc, List.any_cons]
    cases hb : unclear b with
    | true => rw [unescape_unclear hb, Bool.true_or, if_pos rfl]
    | false =>
      rw [unescape_quotedByte hb, ih, Bool.false_or]
      split
      · rfl
      · rw [Option.map_map]
        rfl

/-- With codes that come to nothing, an argument that reads as the path has no
percent sign. -/
theorem not_mem_percent {arg : Bytes} (hlen : arg.length ≤ path.length)
    (h : expand (fun _ => []) arg = some path) : 0x25 ∉ arg ∧ arg.length = path.length := by
  obtain ⟨hle, hlt⟩ := length_expand_nothing h
  refine ⟨fun hmem => ?_, by omega⟩
  have := hlt hmem
  omega

theorem readExec_of_split {code : UInt8 → Bytes} {value s arg : Bytes}
    (hunescape : unescape value = some s) (hsplit : split .between s = some [arg]) :
    readExec code value = (expand code arg).map fun a => [a] := by
  rw [readExec, hunescape, Option.bind_some, hsplit, Option.bind_some, List.mapM_cons,
    List.mapM_nil]
  cases expand code arg <;> rfl

theorem readExec_of_not_split {code : UInt8 → Bytes} {value s : Bytes}
    (hunescape : unescape value = some s) (hsplit : split .between s = none) :
    readExec code value = none := by
  rw [readExec, hunescape, Option.bind_some, hsplit, Option.bind_none]

/-- One argument that is the path, if there is no percent sign in it. -/
theorem readExec_iff_of_split {value s arg : Bytes} (hunescape : unescape value = some s)
    (hsplit : split .between s = some [arg]) (hlen : arg.length ≤ path.length) :
    (∀ code, readExec code value = some [path]) ↔ arg = path ∧ 0x25 ∉ path := by
  simp only [readExec_of_split hunescape hsplit]
  constructor
  · intro h
    have hnothing : expand (fun _ => []) arg = some path := by
      simpa using h fun _ => []
    have hpercent := (not_mem_percent hlen hnothing).1
    have heq : arg = path := by
      rw [expand_of_not_mem hpercent] at hnothing
      exact Option.some.inj hnothing
    exact ⟨heq, heq ▸ hpercent⟩
  · rintro ⟨rfl, hpercent⟩ code
    rw [expand_of_not_mem hpercent]
    rfl

theorem breaks_eq (b : UInt8) : breaks b = (b == 0x0A || unclear b || b == 0x5C || b == 0x25) := by
  have hbytes : ascii "\n\"\\$%" ++ [0x60] = [0x0A, 0x22, 0x5C, 0x24, 0x25, 0x60] := rfl
  rw [breaks, hbytes]
  simp only [List.contains_cons, List.contains_nil, unclear]
  grind

theorem needsQuotes_eq (b : UInt8) :
    needsQuotes b = (b == 0x20 || b == 0x09 || b == 0x27 || unclear b || b == 0x5C) := by
  have hbytes : ascii " \t\"'\\$" ++ [0x60] = [0x20, 0x09, 0x22, 0x27, 0x5C, 0x24, 0x60] := rfl
  rw [needsQuotes, hbytes]
  simp only [List.contains_cons, List.contains_nil, unclear]
  grind

theorem isEscaped_eq (b : UInt8) : isEscaped b = (unclear b || b == 0x5C) := by
  rw [isEscaped, unclear]
  grind

/-- Bytes that need no quotes are one argument, or no argument where one of them
is reserved. -/
theorem split_unquoted {s : Bytes} (hs : s.any needsQuotes = false) (hhead : s.head? = some 0x2F) :
    unescape s = some s ∧
      split .between s = if s.any isReserved then none else some [s] := by
  have hplain : ∀ b ∈ s, b ≠ 0x20 ∧ b ≠ 0x5C := by
    intro b hb
    have hquotes := List.any_eq_false.mp hs b hb
    rw [needsQuotes_eq] at hquotes
    constructor <;> rintro rfl <;> simp at hquotes
  refine ⟨unescape_of_not_mem fun hmem => (hplain _ hmem).2 rfl, ?_⟩
  cases s with
  | nil => cases hhead
  | cons b s =>
    obtain rfl : b = 0x2F := by simpa using hhead
    have hspace : 0x20 ∉ s := fun hmem => (hplain _ (List.mem_cons_of_mem _ hmem)).1 rfl
    rw [split, if_neg (by decide), if_neg (by decide), show isReserved 0x2F = false by decide,
      if_neg Bool.false_ne_true, List.any_cons, show isReserved 0x2F = false by decide,
      Bool.false_or]
    cases hreserved : s.any isReserved with
    | true =>
      rw [if_pos rfl, split_plain_of_reserved hspace (List.any_eq_true.mp hreserved)]
    | false =>
      rw [if_neg Bool.false_ne_true, split_plain fun b hb => by
        simpa using List.any_eq_false.mp hreserved b hb]
      rfl

theorem unescape_in_quotes (path : Bytes) :
    unescape (0x22 :: (path.flatMap quotedByte ++ t)) =
      if path.any unclear then none else (unescape t).map fun s => 0x22 :: (path ++ s) := by
  rw [unescape_cons (by decide), unescape_quoted]
  split
  · rfl
  · rw [Option.map_map]
    rfl

theorem split_quote (s : Bytes) : split .between (0x22 :: s) = split (.quoted []) s := by
  rw [split, if_neg (by decide), if_pos rfl]

/-- No byte breaks the entry. -/
theorem forall_not_breaks_iff (hline : 0x0A ∉ path) :
    (∀ b ∈ path, breaks b = false) ↔
      path.any unclear = false ∧ 0x5C ∉ path ∧ 0x25 ∉ path := by
  simp only [breaks_eq, Bool.or_eq_false_iff, beq_eq_false_iff_ne, List.any_eq_false,
    Bool.not_eq_true]
  constructor
  · intro h
    refine ⟨fun b hb => (h b hb).1.1.2, fun hmem => ?_, fun hmem => ?_⟩
    · exact (h _ hmem).1.2 rfl
    · exact (h _ hmem).2 rfl
  · rintro ⟨hunclear, hbackslash, hpercent⟩ b hb
    refine ⟨⟨⟨?_, hunclear b hb⟩, ?_⟩, ?_⟩
    · rintro rfl
      exact hline hb
    · rintro rfl
      exact hbackslash hb
    · rintro rfl
      exact hpercent hb

/-- Without quotes it is read as the path exactly if no byte is reserved and no
percent sign is in it. -/
theorem readExec_unquoted_iff (hquotes : path.any needsQuotes = false)
    (habsolute : path.head? = some 0x2F) :
    (∀ code, readExec code path = some [path]) ↔
      path.any isReserved = false ∧ 0x25 ∉ path := by
  obtain ⟨hunescape, hsplit⟩ := split_unquoted hquotes habsolute
  cases hreserved : path.any isReserved with
  | true =>
    rw [hreserved, if_pos rfl] at hsplit
    simp [readExec_of_not_split hunescape hsplit]
  | false =>
    rw [hreserved, if_neg Bool.false_ne_true] at hsplit
    rw [readExec_iff_of_split hunescape hsplit (Nat.le_refl _)]
    simp

/-- In quotes a path loses its backslashes, or more. -/
theorem not_readExec_of_backslash {value : Bytes}
    (hunescape : unescape value = some (0x22 :: (path ++ [0x22]))) (hquote : 0x22 ∉ path)
    (hbackslash : 0x5C ∈ path) : ¬∀ code, readExec code value = some [path] := by
  intro h
  cases hsplit : split .between (0x22 :: (path ++ [0x22])) with
  | none =>
    have hread := h fun _ => []
    rw [readExec_of_not_split hunescape hsplit] at hread
    cases hread
  | some args =>
    have hquoted := hsplit
    rw [split_quote] at hquoted
    obtain ⟨arg, rfl, -, hlt⟩ := (length_split_quoted hquote).1 hquoted
    have hlen := hlt hbackslash
    rw [List.length_nil, Nat.zero_add] at hlen
    obtain ⟨rfl, -⟩ := (readExec_iff_of_split hunescape hsplit (Nat.le_of_lt hlen)).mp h
    exact absurd hlen (Nat.lt_irrefl _)

/-- In quotes it is read as the path exactly if there is no quote, dollar sign,
backquote or backslash to escape, and no percent sign. -/
theorem readExec_quoted_iff :
    (∀ code, readExec code (0x22 :: (path.flatMap quotedByte ++ [0x22])) = some [path]) ↔
      path.any unclear = false ∧ 0x5C ∉ path ∧ 0x25 ∉ path := by
  have hunescape := unescape_in_quotes (t := [0x22]) path
  cases hunclear : path.any unclear with
  | true =>
    rw [hunclear, if_pos rfl] at hunescape
    simp [readExec, hunescape]
  | false =>
    rw [hunclear, if_neg Bool.false_ne_true] at hunescape
    replace hunescape : unescape (0x22 :: (path.flatMap quotedByte ++ [0x22])) =
        some (0x22 :: (path ++ [0x22])) := hunescape
    have hquote : 0x22 ∉ path := fun hmem =>
      absurd (List.any_eq_false.mp hunclear _ hmem) (by decide)
    by_cases hbackslash : 0x5C ∈ path
    · exact iff_of_false (not_readExec_of_backslash hunescape hquote hbackslash)
        fun h => h.2.1 hbackslash
    · have hsplit : split .between (0x22 :: (path ++ [0x22])) = some [path] := by
        rw [split_quote, split_quoted, List.nil_append]
        intro b hb
        rw [isEscaped_eq, Bool.or_eq_false_iff, beq_eq_false_iff_ne]
        refine ⟨by simpa using List.any_eq_false.mp hunclear b hb, ?_⟩
        rintro rfl
        exact hbackslash hb
      rw [readExec_iff_of_split hunescape hsplit (Nat.le_refl _)]
      simp [hbackslash]

/-- Without a newline in it the path is read from what it is quoted as exactly
if it is quotable. -/
theorem readExec_quoteExec_iff (habsolute : path.head? = some 0x2F) (hline : 0x0A ∉ path) :
    (∀ code, readExec code (quoteExec path) = some [path]) ↔ Quotable path := by
  rw [Quotable, forall_not_breaks_iff hline, quoteExec]
  cases hquotes : path.any needsQuotes with
  | false =>
    rw [if_neg Bool.false_ne_true, readExec_unquoted_iff hquotes habsolute]
    have hnone := List.any_eq_false.mp hquotes
    constructor
    · rintro ⟨hreserved, hpercent⟩
      refine ⟨⟨List.any_eq_false.mpr fun b hb h => ?_, fun hmem => ?_, hpercent⟩, .inr ?_⟩
      · exact hnone b hb (by simp [needsQuotes_eq, h])
      · exact hnone _ hmem (by decide)
      · simpa using hreserved
    · rintro ⟨⟨-, -, hpercent⟩, ⟨b, hb, hneeds⟩ | hreserved⟩
      · exact absurd hneeds (hnone b hb)
      · exact ⟨by simpa using hreserved, hpercent⟩
  | true =>
    rw [if_pos rfl, readExec_quoted_iff]
    exact (and_iff_left (.inl (List.any_eq_true.mp hquotes))).symm

/-! ## Reading what is written -/

/-- What the written file launches is decided by the rest of its `Exec` line,
however much of the path that is. -/
theorem launches_iff {value rest : Bytes}
    (hexec : quoteExec path ++ 0x0A :: entryTail = value ++ 0x0A :: rest) (hline : 0x0A ∉ value)
    (hhead : ∀ b ∈ value.head?, DesktopEntry.isSpace b = false) :
    Launches (entryText path) path ↔
      DesktopEntry.read rest = some tailLines ∧ ∀ code, readExec code value = some [path] := by
  have hread : DesktopEntry.read (entryText path) =
      (DesktopEntry.read rest).map fun ls => headLines ++ .entry (ascii "Exec") value :: ls := by
    rw [entryText, hexec, read_exec hline hhead, DesktopEntry.read, Option.map_map]
    rfl
  rw [Launches, hread]
  constructor
  · rintro ⟨value', hlines, hlaunches⟩
    obtain ⟨ls, hls, heq⟩ := Option.map_eq_some_iff.mp hlines
    obtain ⟨hvalue, rfl⟩ := List.cons.inj (List.append_cancel_left heq)
    cases hvalue
    exact ⟨hls, hlaunches⟩
  · rintro ⟨hrest, hlaunches⟩
    exact ⟨value, by rw [hrest, Option.map_some], hlaunches⟩

theorem head_quoteExec (habsolute : path.head? = some 0x2F) :
    ∀ b ∈ (quoteExec path).head?, DesktopEntry.isSpace b = false := by
  intro b hb
  rw [quoteExec] at hb
  split at hb
  · cases hb
    rfl
  · rw [habsolute] at hb
    cases hb
    rfl

theorem newline_mem_quotedByte {b : UInt8} (h : 0x0A ∈ quotedByte b) : b = 0x0A := by
  rw [quotedByte] at h
  split at h
  · simp only [List.mem_cons, List.not_mem_nil, or_false] at h
    exact (h.resolve_left (by decide)).symm
  · exact (List.mem_singleton.mp h).symm

theorem newline_not_mem_flatMap (hline : 0x0A ∉ path) : 0x0A ∉ path.flatMap quotedByte := by
  intro hmem
  obtain ⟨b, hb, hquoted⟩ := List.mem_flatMap.mp hmem
  exact hline (newline_mem_quotedByte hquoted ▸ hb)

theorem newline_not_mem_quoteExec (hline : 0x0A ∉ path) : 0x0A ∉ quoteExec path := by
  rw [quoteExec]
  split
  · intro hmem
    rcases List.mem_cons.mp hmem with hquote | hmem
    · exact absurd hquote (by decide)
    · rcases List.mem_append.mp hmem with hmem | hquote
      · exact newline_not_mem_flatMap hline hmem
      · exact absurd (List.mem_singleton.mp hquote) (by decide)
  · exact hline

/-- A quote that is not closed is read as nothing. -/
theorem readExec_unclosed (code : UInt8 → Bytes) (front : Bytes) :
    readExec code (0x22 :: front.flatMap quotedByte) = none := by
  have hunescape := unescape_in_quotes (t := []) front
  rw [List.append_nil] at hunescape
  cases hunclear : front.any unclear with
  | true =>
    rw [hunclear, if_pos rfl] at hunescape
    rw [readExec, hunescape]
    rfl
  | false =>
    rw [hunclear, if_neg Bool.false_ne_true, unescape, Option.map_some,
      List.append_nil] at hunescape
    have hquote : 0x22 ∉ front := fun hmem =>
      absurd (List.any_eq_false.mp hunclear _ hmem) (by decide)
    have hsplit : split .between (0x22 :: front) = none := by
      rw [split_quote]
      exact (split_unclosed hquote).1
    exact readExec_of_not_split hunescape hsplit

/-- What is shorter than the path and not quoted is not read as it. -/
theorem not_readExec_of_shorter {front : Bytes} (hquotes : front.any needsQuotes = false)
    (habsolute : front.head? = some 0x2F) (hshorter : front.length < path.length) :
    ¬∀ code, readExec code front = some [path] := by
  intro hreads
  obtain ⟨hunescape, hsplit⟩ := split_unquoted hquotes habsolute
  split at hsplit
  · have hread := hreads fun _ => []
    rw [readExec_of_not_split hunescape hsplit] at hread
    cases hread
  · obtain ⟨rfl, -⟩ := (readExec_iff_of_split hunescape hsplit (Nat.le_of_lt hshorter)).mp hreads
    exact absurd hshorter (Nat.lt_irrefl _)

/-- A newline ends the `Exec` line, and what stands before it is not the path. -/
theorem not_launches_of_newline (habsolute : path.head? = some 0x2F) (hmem : 0x0A ∈ path) :
    ¬Launches (entryText path) path := by
  obtain ⟨pre, post, hpath, hline⟩ := List.eq_append_cons_of_mem hmem
  have hpre : pre.head? = some 0x2F := by
    cases pre with
    | nil =>
      rw [hpath] at habsolute
      exact absurd (Option.some.inj habsolute) (by decide)
    | cons b pre => rwa [hpath] at habsolute
  have hshorter : pre.length < path.length := by
    rw [hpath, List.length_append, List.length_cons]
    omega
  cases hquotes : path.any needsQuotes with
  | false =>
    have hprefix : pre.any needsQuotes = false := by
      rw [hpath, List.any_append, Bool.or_eq_false_iff] at hquotes
      exact hquotes.1
    have hexec : quoteExec path ++ 0x0A :: entryTail =
        pre ++ 0x0A :: (post ++ 0x0A :: entryTail) := by
      rw [quoteExec, hquotes, if_neg Bool.false_ne_true, hpath]
      simp
    rw [launches_iff hexec hline (by simp [hpre, DesktopEntry.isSpace])]
    rintro ⟨-, hreads⟩
    exact not_readExec_of_shorter hprefix hpre hshorter hreads
  | true =>
    have hexec : quoteExec path ++ 0x0A :: entryTail = (0x22 :: pre.flatMap quotedByte) ++
        0x0A :: (post.flatMap quotedByte ++ [0x22] ++ 0x0A :: entryTail) := by
      rw [quoteExec, hquotes, if_pos rfl, hpath]
      simp [quotedByte]
    have hquoted : 0x0A ∉ 0x22 :: pre.flatMap quotedByte := by
      rw [List.mem_cons, not_or]
      exact ⟨by decide, newline_not_mem_flatMap hline⟩
    rw [launches_iff hexec hquoted (by simp [DesktopEntry.isSpace])]
    rintro ⟨-, hreads⟩
    have hread := hreads fun _ => []
    rw [readExec_unclosed] at hread
    cases hread

/-- The file launches an absolute path exactly if it is quotable. -/
theorem launches_entryText_iff (habsolute : path.head? = some 0x2F) :
    Launches (entryText path) path ↔ Quotable path := by
  by_cases hmem : 0x0A ∈ path
  · refine iff_of_false (not_launches_of_newline habsolute hmem) fun h => ?_
    exact absurd (h.1 _ hmem) (by decide)
  · have htail : DesktopEntry.read entryTail = some tailLines := by decide
    rw [launches_iff rfl (newline_not_mem_quoteExec hmem) (head_quoteExec habsolute),
      and_iff_right htail, readExec_quoteExec_iff habsolute hmem]

theorem content_of_set {env : ToggleEnv} {file : Bytes} {fs : Files}
    (hset : (setAutostart env file true path fs).result = some true) :
    (setAutostart env file true path).last fs file = some (entryText path) := by
  rw [setAutostart, if_pos rfl] at hset ⊢
  have hmkdir : env.mkdir = .ok := by
    have hmade := (andThen_true.mp hset).1
    cases hmk : env.mkdir with
    | ok => rfl
    | fails | dies =>
      rw [hmk] at hmade
      cases hmade
  rw [hmkdir, ask_ok_andThen] at hset ⊢
  exact writeInPlace_written hset

/-- When the toggle says that it is on, the file launches an absolute path exactly
if that is quotable. -/
theorem launches_iff_quotable {env : ToggleEnv} {file execPath : Bytes} {fs : Files}
    (habsolute : execPath.head? = some 0x2F)
    (hset : (setAutostart env file true execPath fs).result = some true) :
    ∃ content, (setAutostart env file true execPath).last fs file = some content ∧
      (Launches content execPath ↔ Quotable execPath) :=
  ⟨entryText execPath, content_of_set hset, launches_entryText_iff habsolute⟩

theorem launches_spaced : ∃ content,
    (setAutostart {} (ascii "a.desktop") true (ascii "/home/u/My Apps/choir")).last
        (fun _ => none) (ascii "a.desktop") = some content ∧
      (Launches content (ascii "/home/u/My Apps/choir") ↔
        Quotable (ascii "/home/u/My Apps/choir")) :=
  launches_iff_quotable (by decide) (by decide)

/-- A path with a percent sign is not launched. -/
theorem percentPath_not_launched :
    ¬∀ execPath : Bytes, execPath.head? = some 0x2F → 0x00 ∉ execPath →
      ∀ content, (setAutostart {} (ascii "a.desktop") true execPath).last (fun _ => none)
          (ascii "a.desktop") = some content → Launches content execPath := by
  intro hall
  have habsolute : (ascii "/opt/100%/choir").head? = some 0x2F := rfl
  have hset : (setAutostart {} (ascii "a.desktop") true (ascii "/opt/100%/choir")).last
      (fun _ => none) (ascii "a.desktop") = some (entryText (ascii "/opt/100%/choir")) :=
    content_of_set (by decide)
  have hlaunches := hall (ascii "/opt/100%/choir") habsolute (by decide) _ hset
  have hquotable := (launches_entryText_iff habsolute).mp hlaunches
  exact absurd (hquotable.1 0x25 (by decide)) (by decide)

end Autostart

end Choir
