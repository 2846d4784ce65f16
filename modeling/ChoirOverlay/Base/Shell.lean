-- SUMMARY: How a POSIX shell breaks a script into tokens, and what an assignment word assigns.
import ChoirOverlay.Base.Bytes

/-!
# Shell tokens

The tokens of a script, recognised byte by byte. What needs more of the shell
than its quotes (command and arithmetic substitution, here-documents, lines that
go on behind a backslash, quotes within the braces of a parameter) has no
reading here, and neither has a script with a zero byte.
-/

namespace Choir.Shell

/-! ## Tokens -/

/-- A piece of a word: a byte, with or without quotes, or a parameter, in double
quotes or not. -/
inductive Piece where
  | plain (b : UInt8)
  | quoted (b : UInt8)
  | param (text : Bytes) (inQuotes : Bool)
  deriving DecidableEq, Repr

abbrev Word := List Piece

inductive Token where
  | word (w : Word)
  | oper (op : Bytes)
  | newline
  deriving DecidableEq, Repr

/-- Where the recognition is, with the word so far. `inQuotes` says whether the
parameter stands in double quotes. -/
inductive Mode where
  | between
  | comment
  | oper (op : Bytes)
  | word (w : Word)
  | escaped (w : Word)
  | single (w : Word)
  | double (w : Word)
  | doubleEscaped (w : Word)
  | dollar (inQuotes : Bool) (w : Word)
  | name (inQuotes : Bool) (text : Bytes) (w : Word)
  | braces (inQuotes : Bool) (text : Bytes) (w : Word)
  deriving DecidableEq, Repr

def isBlank (b : UInt8) : Bool := b == 0x20 || b == 0x09

/-- `&`, `(`, `)`, `;`, `<`, `>` and `|`. -/
def startsOperator (b : UInt8) : Bool :=
  [0x26, 0x28, 0x29, 0x3B, 0x3C, 0x3E, 0x7C].contains b

/-- The operators of more than one byte. -/
def isLongOperator (op : Bytes) : Bool :=
  ["&&", ";;", "||", ">>", "<&", ">&", "<>", ">|"].any fun s => ascii s == op

def isNameStart (b : UInt8) : Bool :=
  (0x41 ≤ b && b ≤ 0x5A) || (0x61 ≤ b && b ≤ 0x7A) || b == 0x5F

def isNameByte (b : UInt8) : Bool := isNameStart b || (0x30 ≤ b && b ≤ 0x39)

/-- A parameter that is one byte: a digit or a special one. -/
def isSpecial (b : UInt8) : Bool := (0x30 ≤ b && b ≤ 0x39) || (ascii "@*#?-$!").contains b

/-- What in braces has no reading. -/
def isNested (b : UInt8) : Bool := (ascii "'\"\\(" ++ [0x7B, 0x60]).contains b

/-- A byte in a word. -/
def stepWord (w : Word) (b : UInt8) : Option (List Token × Mode) :=
  if b = 0x0A then some ([.word w, .newline], .between)
  else if isBlank b then some ([.word w], .between)
  else if startsOperator b then some ([.word w], .oper [b])
  else if b = 0x27 then some ([], .single w)
  else if b = 0x22 then some ([], .double w)
  else if b = 0x5C then some ([], .escaped w)
  else if b = 0x24 then some ([], .dollar false w)
  else if b = 0x60 then none
  else some ([], .word (w ++ [.plain b]))

/-- A byte in double quotes. -/
def stepDouble (w : Word) (b : UInt8) : Option (List Token × Mode) :=
  if b = 0x22 then some ([], .word w)
  else if b = 0x5C then some ([], .doubleEscaped w)
  else if b = 0x24 then some ([], .dollar true w)
  else if b = 0x60 then none
  else some ([], .double (w ++ [.quoted b]))

/-- A byte where a token may start. -/
def stepBetween (b : UInt8) : Option (List Token × Mode) :=
  if b = 0x0A then some ([.newline], .between)
  else if isBlank b then some ([], .between)
  else if b = 0x23 then some ([], .comment)
  else if startsOperator b then some ([], .oper [b])
  else stepWord [] b

/-- A byte behind what is a parameter or no part of it. -/
def resume (inQuotes : Bool) (w : Word) (b : UInt8) : Option (List Token × Mode) :=
  if inQuotes then stepDouble w b else stepWord w b

def resumed (inQuotes : Bool) (w : Word) : Mode := if inQuotes then .double w else .word w

/-- The dollar sign that no parameter follows. -/
def bareDollar (inQuotes : Bool) : Piece := if inQuotes then .quoted 0x24 else .plain 0x24

/-- One byte: the tokens that end with it, and where the recognition is then. -/
def step : Mode → UInt8 → Option (List Token × Mode)
  | .between, b => stepBetween b
  | .comment, b => if b = 0x0A then some ([.newline], .between) else some ([], .comment)
  | .oper op, b =>
    if op ++ [b] = ascii "<<" then none
    else if isLongOperator (op ++ [b]) then some ([], .oper (op ++ [b]))
    else (stepBetween b).map fun r => (.oper op :: r.1, r.2)
  | .word w, b => stepWord w b
  | .escaped w, b => if b = 0x0A then none else some ([], .word (w ++ [.quoted b]))
  | .single w, b => some ([], if b = 0x27 then .word w else .single (w ++ [.quoted b]))
  | .double w, b => stepDouble w b
  | .doubleEscaped w, b =>
    if b = 0x0A then none
    else if b = 0x22 ∨ b = 0x5C ∨ b = 0x24 ∨ b = 0x60 then some ([], .double (w ++ [.quoted b]))
    else some ([], .double (w ++ [.quoted 0x5C, .quoted b]))
  | .dollar inQuotes w, b =>
    if isNameStart b then some ([], .name inQuotes [b] w)
    else if isSpecial b then some ([], resumed inQuotes (w ++ [.param [b] inQuotes]))
    else if b = 0x7B then some ([], .braces inQuotes [] w)
    else if b = 0x28 then none
    else resume inQuotes (w ++ [bareDollar inQuotes]) b
  | .name inQuotes text w, b =>
    if isNameByte b then some ([], .name inQuotes (text ++ [b]) w)
    else resume inQuotes (w ++ [.param text inQuotes]) b
  | .braces inQuotes text w, b =>
    if b = 0x7D then some ([], resumed inQuotes (w ++ [.param text inQuotes]))
    else if isNested b then none
    else some ([], .braces inQuotes (text ++ [b]) w)

/-- The end of the script. -/
def finish : Mode → Option (List Token)
  | .between => some []
  | .comment => some []
  | .oper op => some [.oper op]
  | .word w => some [.word w]
  | .name false text w => some [.word (w ++ [.param text false])]
  | .dollar false w => some [.word (w ++ [.plain 0x24])]
  | _ => none

/-- One byte after the other. -/
def run : Mode → Bytes → Option (List Token × Mode)
  | m, [] => some ([], m)
  | m, b :: rest =>
    if b = 0x00 then none
    else (step m b).bind fun r => (run r.2 rest).map fun r' => (r.1 ++ r'.1, r'.2)

def tokens (script : Bytes) : Option (List Token) :=
  (run .between script).bind fun r => (finish r.2).map (r.1 ++ ·)

/-! ## Assignments -/

def isName (name : Bytes) : Bool := name.head?.any isNameStart && name.all isNameByte

/-- The name and the value of an assignment word: an unquoted name and an unquoted
equals sign come first. -/
def assignment : Word → Option (Bytes × Word) :=
  go []
where
  go (name : Bytes) : Word → Option (Bytes × Word)
    | .plain b :: w =>
      if b = 0x3D then if isName name then some (name, w) else none else go (name ++ [b]) w
    | _ => none

/-- The bytes of a value in which nothing is expanded. A tilde without quotes may
be. -/
def literal (w : Word) : Option Bytes :=
  w.mapM fun
    | .quoted b => some b
    | .plain b => if b = 0x7E then none else some b
    | .param _ _ => none

/-! ## Running -/

variable {m m' : Mode} {s t : Bytes} {ts : List Token} {w : Word}

theorem run_append (h : run m s = some (ts, m')) :
    run m (s ++ t) = (run m' t).map fun r => (ts ++ r.1, r.2) := by
  induction s generalizing m ts with
  | nil =>
    cases h
    simp
  | cons b s ih =>
    rw [run] at h
    split at h
    · cases h
    rename_i hnul
    obtain ⟨r, hstep, hrest⟩ := Option.bind_eq_some_iff.mp h
    obtain ⟨r', hrun, heq⟩ := Option.map_eq_some_iff.mp hrest
    cases heq
    rw [List.cons_append, run, if_neg hnul, hstep, Option.bind_some, ih hrun, Option.map_map]
    simp [Function.comp_def, List.append_assoc]

/-- A script goes on from where its front ended. -/
theorem tokens_append (h : run .between s = some (ts, .between)) :
    tokens (s ++ t) = (tokens t).map (ts ++ ·) := by
  rw [tokens, run_append h, tokens]
  cases run .between t with
  | none => rfl
  | some r =>
    simp only [Option.map_some, Option.bind_some, Option.map_map]
    congr 1
    funext ts'
    exact List.append_assoc ..

/-! ## Single quotes -/

/-- A byte in single quotes; the quote itself stands between two of them. -/
def quoteByte (b : UInt8) : Bytes := if b = 0x27 then [0x27, 0x5C, 0x27, 0x27] else [b]

theorem run_quoteByte {b : UInt8} (hb : b ≠ 0x00) :
    run (.single w) (quoteByte b) = some ([], .single (w ++ [.quoted b])) := by
  unfold quoteByte
  split
  · rename_i hquote
    rw [hquote]
    simp [run, step, stepWord, show isBlank 0x5C = false by decide,
      show isBlank 0x27 = false by decide, show startsOperator 0x5C = false by decide,
      show startsOperator 0x27 = false by decide]
  · rename_i hquote
    simp [run, step, hquote, hb]

/-- The quotes take any bytes into the word, each of them quoted. -/
theorem run_quoted {s : Bytes} (hs : 0x00 ∉ s) :
    run (.single w) (s.flatMap quoteByte ++ [0x27]) = some ([], .word (w ++ s.map .quoted)) := by
  induction s generalizing w with
  | nil => simp [run, step]
  | cons b s ih =>
    rw [List.mem_cons, not_or] at hs
    rw [List.flatMap_cons, List.append_assoc, run_append (run_quoteByte (Ne.symm hs.1)), ih hs.2]
    simp

/-- A quoted text in a word. -/
theorem run_single {s : Bytes} (hs : 0x00 ∉ s) :
    run (.word w) (0x27 :: (s.flatMap quoteByte ++ [0x27])) =
      some ([], .word (w ++ s.map .quoted)) := by
  have hopen : run (.word w) [0x27] = some ([], .single w) := by
    simp [run, step, stepWord, show isBlank 0x27 = false by decide,
      show startsOperator 0x27 = false by decide]
  rw [← List.singleton_append, run_append hopen, run_quoted hs]
  rfl

theorem literal_quoted (s : Bytes) : literal (s.map .quoted) = some s := by
  rw [literal, List.mapM_map]
  induction s with
  | nil => rfl
  | cons b s ih =>
    rw [List.mapM_cons, ih]
    rfl

end Choir.Shell
