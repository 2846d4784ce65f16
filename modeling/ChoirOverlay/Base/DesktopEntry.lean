-- SUMMARY: Desktop entries as their specification has them read: lines, the escapes of a string value, and the arguments of an Exec value.
import ChoirOverlay.Base.Bytes
import ChoirOverlay.Base.Lines
import Mathlib.Data.List.DropRight

/-!
# Desktop entries

Where the specification leaves open what a spelling means, there is no reading
of it. What a launcher puts in place of a field code is a parameter.
-/

namespace Choir.DesktopEntry

/-! ## Lines -/

inductive Line where
  | group (name : Bytes)
  | entry (key value : Bytes)
  deriving DecidableEq, Repr

def isSpace (b : UInt8) : Bool := b == 0x20 || b == 0x09

/-- A line; a comment and a blank line are no entry, and any other line without an
equals sign is malformed. -/
def readLine (line : Bytes) : Option (List Line) :=
  match line with
  | [] => some []
  | b :: rest =>
    if b = 0x23 then some []
    else if b = 0x5B then some [.group rest]
    else
      match line.dropWhile (· ≠ 0x3D) with
      | [] => none
      | _ :: value =>
        some [.entry ((line.takeWhile (· ≠ 0x3D)).rdropWhile isSpace) (value.dropWhile isSpace)]

def read (content : Bytes) : Option (List Line) :=
  ((linesOf 0x0A content).mapM readLine).map List.flatten

/-! ## String values -/

def unescapeByte (b : UInt8) : Option UInt8 :=
  if b = 0x73 then some 0x20
  else if b = 0x6E then some 0x0A
  else if b = 0x74 then some 0x09
  else if b = 0x72 then some 0x0D
  else if b = 0x5C then some 0x5C
  else none

/-- The string a value stands for. -/
def unescape : Bytes → Option Bytes
  | [] => some []
  | b :: rest =>
    if b = 0x5C then
      match rest with
      | [] => none
      | c :: rest => (unescapeByte c).bind fun d => (unescape rest).map (d :: ·)
    else (unescape rest).map (b :: ·)

/-! ## Arguments -/

/-- The bytes an argument has only in quotes: space, tab, newline and the
characters special to a shell. -/
def isReserved (b : UInt8) : Bool := (ascii " \t\n\"'\\><~|&;$*?#()" ++ [0x60]).contains b

/-- What a backslash stands before in quotes. -/
def isEscaped (b : UInt8) : Bool := b == 0x22 || b == 0x60 || b == 0x24 || b == 0x5C

/-- Where a reader of arguments is, with the argument so far. -/
inductive Mode where
  | between
  | plain (arg : Bytes)
  | quoted (arg : Bytes)
  | escaped (arg : Bytes)
  /-- Behind the closing quote; an argument is quoted in whole. -/
  | closed (arg : Bytes)

def split : Mode → Bytes → Option (List Bytes)
  | .between, [] => some []
  | .plain arg, [] => some [arg]
  | .closed arg, [] => some [arg]
  | .quoted _, [] => none
  | .escaped _, [] => none
  | .between, b :: rest =>
    if b = 0x20 then split .between rest
    else if b = 0x22 then split (.quoted []) rest
    else if isReserved b then none
    else split (.plain [b]) rest
  | .plain arg, b :: rest =>
    if b = 0x20 then (split .between rest).map (arg :: ·)
    else if isReserved b then none
    else split (.plain (arg ++ [b])) rest
  | .quoted arg, b :: rest =>
    if b = 0x22 then split (.closed arg) rest
    else if b = 0x5C then split (.escaped arg) rest
    else if isEscaped b then none
    else split (.quoted (arg ++ [b])) rest
  | .escaped arg, b :: rest => if isEscaped b then split (.quoted (arg ++ [b])) rest else none
  | .closed arg, b :: rest => if b = 0x20 then (split .between rest).map (arg :: ·) else none

/-! ## Field codes -/

def isFieldCode (b : UInt8) : Bool := (ascii "fFuUdDnNickvm").contains b

/-- An argument with its field codes replaced. -/
def expand (code : UInt8 → Bytes) : Bytes → Option Bytes
  | [] => some []
  | b :: rest =>
    if b = 0x25 then
      match rest with
      | [] => none
      | c :: rest =>
        if c = 0x25 then (expand code rest).map (0x25 :: ·)
        else if isFieldCode c then (expand code rest).map (code c ++ ·)
        else none
    else (expand code rest).map (b :: ·)

/-- The command line of an Exec value. Control characters are taken as they are, and so is an
equals sign in the name of the program. -/
def readExec (code : UInt8 → Bytes) (value : Bytes) : Option (List Bytes) :=
  (unescape value).bind fun s => (split .between s).bind fun args => args.mapM (expand code)

/-! ## Unescaping -/

variable {s t rest arg : Bytes} {b : UInt8} {code : UInt8 → Bytes}

theorem unescape_cons (hb : b ≠ 0x5C) : unescape (b :: rest) = (unescape rest).map (b :: ·) := by
  rw [unescape.eq_def]
  simp only [if_neg hb]

theorem unescape_backslash (rest : Bytes) :
    unescape (0x5C :: 0x5C :: rest) = (unescape rest).map (0x5C :: ·) := by
  rw [unescape.eq_def]
  rfl

/-- A backslash before a byte that makes no escape has no reading. -/
theorem unescape_of_no_escape (hb : unescapeByte b = none) :
    unescape (0x5C :: b :: rest) = none := by
  rw [unescape.eq_def]
  simp only [if_true, hb, Option.bind_none]

theorem unescape_of_not_mem (h : 0x5C ∉ s) : unescape s = some s := by
  induction s with
  | nil => rfl
  | cons b s ih =>
    have hb : b ≠ 0x5C := fun heq => h (heq ▸ List.mem_cons_self)
    rw [unescape_cons hb, ih fun hmem => h (List.mem_cons_of_mem b hmem)]
    rfl

/-! ## Splitting -/

/-- An argument without reserved bytes is itself. -/
theorem split_plain (h : ∀ b ∈ s, isReserved b = false) :
    split (.plain arg) s = some [arg ++ s] := by
  induction s generalizing arg with
  | nil => rw [split, List.append_nil]
  | cons b s ih =>
    obtain ⟨hb, hs⟩ := List.forall_mem_cons.mp h
    have hspace : b ≠ 0x20 := by
      rintro rfl
      exact absurd hb (by decide)
    rw [split, if_neg hspace, hb, if_neg Bool.false_ne_true, ih hs, List.append_assoc,
      List.singleton_append]

theorem split_plain_of_reserved (hspace : 0x20 ∉ s) (h : ∃ b ∈ s, isReserved b = true) :
    split (.plain arg) s = none := by
  induction s generalizing arg with
  | nil =>
    obtain ⟨b, hb, -⟩ := h
    cases hb
  | cons b s ih =>
    rw [List.mem_cons, not_or] at hspace
    rw [split, if_neg (Ne.symm hspace.1)]
    split
    · rfl
    · rename_i hplain
      obtain ⟨c, hc, hreserved⟩ := h
      rcases List.mem_cons.mp hc with rfl | hc
      · exact absurd hreserved hplain
      · exact ih hspace.2 ⟨c, hc, hreserved⟩

/-- A quote that nothing closes. -/
theorem split_unclosed (h : 0x22 ∉ s) :
    split (.quoted arg) s = none ∧ split (.escaped arg) s = none := by
  induction s generalizing arg with
  | nil => exact ⟨rfl, rfl⟩
  | cons b s ih =>
    rw [List.mem_cons, not_or] at h
    have hs := fun arg => (@ih arg h.2)
    rw [split, split, if_neg (Ne.symm h.1), (hs arg).2, (hs (arg ++ [b])).1]
    simp

/-- A quoted argument in which nothing is escaped is itself. -/
theorem split_quoted (h : ∀ b ∈ s, isEscaped b = false) :
    split (.quoted arg) (s ++ [0x22]) = some [arg ++ s] := by
  induction s generalizing arg with
  | nil => rw [List.nil_append, split, if_pos rfl, split, List.append_nil]
  | cons b s ih =>
    obtain ⟨hb, hs⟩ := List.forall_mem_cons.mp h
    have hquote : b ≠ 0x22 := by
      rintro rfl
      exact absurd hb (by decide)
    have hbackslash : b ≠ 0x5C := by
      rintro rfl
      exact absurd hb (by decide)
    rw [List.cons_append, split, if_neg hquote, if_neg hbackslash, hb, if_neg Bool.false_ne_true,
      ih hs, List.append_assoc, List.singleton_append]

/-- Without a quote in it a quoted argument is read as one, and every backslash
makes it shorter. -/
theorem length_split_quoted {args : List Bytes} (h : 0x22 ∉ s) :
    (split (.quoted arg) (s ++ [0x22]) = some args →
      ∃ r, args = [r] ∧ r.length ≤ arg.length + s.length ∧
        (0x5C ∈ s → r.length < arg.length + s.length)) ∧
    (split (.escaped arg) (s ++ [0x22]) = some args →
      ∃ r, args = [r] ∧ r.length ≤ arg.length + s.length) := by
  induction s generalizing arg with
  | nil =>
    constructor
    · intro hsplit
      cases hsplit
      exact ⟨arg, rfl, Nat.le_refl _, fun hmem => absurd hmem List.not_mem_nil⟩
    · intro hsplit
      cases hsplit
  | cons b s ih =>
    rw [List.mem_cons, not_or] at h
    have hlen := @List.length_append _ arg [b]
    rw [List.length_singleton] at hlen
    constructor
    · intro hsplit
      rw [List.cons_append, split, if_neg (Ne.symm h.1)] at hsplit
      split at hsplit
      · rename_i hb
        obtain ⟨r, rfl, hr⟩ := (@ih arg h.2).2 hsplit
        exact ⟨r, rfl, by rw [List.length_cons]; omega, fun _ => by rw [List.length_cons]; omega⟩
      · rename_i hb
        split at hsplit
        · cases hsplit
        · obtain ⟨r, rfl, hr, hlt⟩ := (@ih (arg ++ [b]) h.2).1 hsplit
          rw [hlen] at hr hlt
          refine ⟨r, rfl, by rw [List.length_cons]; omega, fun hmem => ?_⟩
          rcases List.mem_cons.mp hmem with heq | hmem
          · exact absurd heq.symm hb
          · have := hlt hmem
            rw [List.length_cons]
            omega
    · intro hsplit
      rw [List.cons_append, split] at hsplit
      split at hsplit
      · obtain ⟨r, rfl, hr, -⟩ := (@ih (arg ++ [b]) h.2).1 hsplit
        rw [hlen] at hr
        exact ⟨r, rfl, by rw [List.length_cons]; omega⟩
      · cases hsplit

/-! ## Expanding -/

/-- What has no percent sign has no field code. -/
theorem expand_of_not_mem (h : 0x25 ∉ s) : expand code s = some s := by
  induction s with
  | nil => rfl
  | cons b s ih =>
    have hb : b ≠ 0x25 := fun heq => h (heq ▸ List.mem_cons_self)
    rw [expand.eq_def]
    simp only [if_neg hb, ih fun hmem => h (List.mem_cons_of_mem b hmem), Option.map_some]

/-- Where the codes come to nothing, an argument with a percent sign gets
shorter. -/
theorem length_expand_nothing (h : expand (fun _ => []) s = some t) :
    t.length ≤ s.length ∧ (0x25 ∈ s → t.length < s.length) := by
  fun_induction expand (fun _ => []) s generalizing t
  case case1 =>
    cases h
    exact ⟨Nat.le_refl _, fun hmem => absurd hmem List.not_mem_nil⟩
  case case2 => cases h
  case case3 ih =>
    obtain ⟨t', ht', rfl⟩ := Option.map_eq_some_iff.mp h
    have hlen := (ih ht').1
    exact ⟨by simp only [List.length_cons]; omega, fun _ => by simp only [List.length_cons]; omega⟩
  case case4 ih =>
    obtain ⟨t', ht', rfl⟩ := Option.map_eq_some_iff.mp h
    have hlen := (ih ht').1
    simp only [List.nil_append, List.length_cons]
    exact ⟨by omega, fun _ => by omega⟩
  case case5 => cases h
  case case6 hb ih =>
    obtain ⟨t', ht', rfl⟩ := Option.map_eq_some_iff.mp h
    obtain ⟨hle, hlt⟩ := ih ht'
    simp only [List.length_cons]
    refine ⟨by omega, fun hmem => ?_⟩
    rcases List.mem_cons.mp hmem with heq | hmem
    · exact absurd heq.symm hb
    · have := hlt hmem
      omega

end Choir.DesktopEntry
