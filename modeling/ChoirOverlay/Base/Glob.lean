-- SUMMARY: Shell patterns: which texts they accept, how a pattern is cut where a text is, when a front of the text does not count, and how `fnmatch` reads one.
import Mathlib.Data.List.Infix
import Mathlib.Data.Bool.Basic

/-!
# Globs

A glob is a list of elements over any characters. The reading of a pattern is
that of `fnmatch` without flags: nothing is special about a slash or a leading
period. What a bracket expression stands for is up to the locale.
-/

namespace Glob

inductive Elem (α : Type) where
  /-- `*`. -/
  | many
  /-- One character: `?`, a bracket expression or the character itself. -/
  | one (set : α → Bool)

end Glob

abbrev Glob (α : Type) := List (Glob.Elem α)

namespace Glob

variable {α : Type}

/-- The glob matches the whole text. -/
def accepts : Glob α → List α → Bool
  | [], s => s.isEmpty
  | .many :: g, s => s.tails.any (accepts g)
  | .one _ :: _, [] => false
  | .one set :: g, c :: s => set c && accepts g s

/-- The ways to cut a glob in two. A star that is cut stands on both sides. -/
def cuts : Glob α → List (Glob α × Glob α)
  | [] => [([], [])]
  | .many :: g =>
    ([], .many :: g) :: ([.many], .many :: g) :: (cuts g).map fun c => (.many :: c.1, c.2)
  | .one set :: g =>
    ([], .one set :: g) :: (cuts g).map fun c => (.one set :: c.1, c.2)

/-! ## Cutting -/

theorem accepts_many {g : Glob α} {s : List α} :
    accepts (.many :: g) s = true ↔ ∃ s₁ s₂, s = s₁ ++ s₂ ∧ accepts g s₂ = true := by
  rw [accepts, List.any_eq_true]
  constructor
  · rintro ⟨s₂, hs, hg⟩
    obtain ⟨s₁, rfl⟩ := (List.mem_tails _ _).mp hs
    exact ⟨s₁, s₂, rfl, hg⟩
  · rintro ⟨s₁, s₂, rfl, hg⟩
    exact ⟨s₂, (List.mem_tails _ _).mpr (List.suffix_append s₁ s₂), hg⟩

theorem accepts_many_nil (s : List α) : accepts [.many] s = true :=
  accepts_many.mpr ⟨s, [], (List.append_nil s).symm, rfl⟩

/-- What a star takes in front of what the rest accepts. -/
theorem accepts_many_append {g : Glob α} {t : List α} (h : accepts (.many :: g) t = true)
    (s : List α) : accepts (.many :: g) (s ++ t) = true := by
  obtain ⟨t₁, t₂, rfl, hg⟩ := accepts_many.mp h
  exact accepts_many.mpr ⟨s ++ t₁, t₂, (List.append_assoc ..).symm, hg⟩

/-- A glob accepts a text of two parts exactly if it can be cut into globs that
accept the parts. -/
theorem accepts_append (g : Glob α) (s t : List α) :
    accepts g (s ++ t) = true ↔
      ∃ c ∈ cuts g, accepts c.1 s = true ∧ accepts c.2 t = true := by
  induction g generalizing s with
  | nil => cases s <;> simp [accepts, cuts]
  | cons e g ih =>
    cases e with
    | one set =>
      cases s with
      | nil => simp [cuts, accepts]
      | cons a s =>
        simp only [List.cons_append, accepts, Bool.and_eq_true, ih]
        constructor
        · rintro ⟨ha, c, hc, h₁, h₂⟩
          refine ⟨(.one set :: c.1, c.2), by simp [cuts, hc], ?_, h₂⟩
          rw [accepts, ha, h₁]
          rfl
        · rintro ⟨c, hc, h₁, h₂⟩
          simp only [cuts, List.mem_cons, List.mem_map] at hc
          rcases hc with rfl | ⟨c, hc, rfl⟩
          · cases h₁
          · rw [accepts, Bool.and_eq_true] at h₁
            exact ⟨h₁.1, c, hc, h₁.2, h₂⟩
    | many =>
      constructor
      · intro h
        obtain ⟨u₁, u₂, hu, hg⟩ := accepts_many.mp h
        rcases List.append_eq_append_iff.mp hu with ⟨v, rfl, rfl⟩ | ⟨v, rfl, rfl⟩
        · -- The star takes the first part and more.
          refine ⟨([.many], .many :: g), by simp [cuts], accepts_many_nil s, ?_⟩
          exact accepts_many.mpr ⟨v, u₂, rfl, hg⟩
        · -- The rest of the glob starts in the first part.
          obtain ⟨c, hc, h₁, h₂⟩ := (ih v).mp hg
          refine ⟨(.many :: c.1, c.2), by simp [cuts, hc], ?_, h₂⟩
          exact accepts_many.mpr ⟨u₁, v, rfl, h₁⟩
      · rintro ⟨c, hc, h₁, h₂⟩
        simp only [cuts, List.mem_cons, List.mem_map] at hc
        rcases hc with rfl | rfl | ⟨c, hc, rfl⟩
        · rw [accepts, List.isEmpty_iff] at h₁
          subst h₁
          exact h₂
        · exact accepts_many_append h₂ s
        · obtain ⟨s₁, s₂, rfl, hg⟩ := accepts_many.mp h₁
          rw [List.append_assoc]
          exact accepts_many.mpr ⟨s₁, s₂ ++ t, rfl, (ih s₂).mpr ⟨c, hc, hg, h₂⟩⟩

/-! ## A front that does not count

Behind a fixed front a glob accepts the same texts as without it, if the front is
left to a star the glob begins with. -/

def Elem.isMany : Elem α → Bool
  | .many => true
  | .one _ => false

/-- How many characters the glob asks for. -/
def ones (g : Glob α) : Nat := g.countP fun e => !e.isMany

/-- Every element can take a character of these. -/
def Spells (ok : α → Prop) (g : Glob α) : Prop := ∀ set, .one set ∈ g → ∃ c, ok c ∧ set c = true

/-- Only stars of the glob can take the front, or what is left of it accepts no
text of these characters. -/
def Skips (ok : α → Prop) (g : Glob α) (front : List α) : Prop :=
  ∀ c ∈ cuts g, accepts c.1 front = true → Spells ok c.2 → c.1.all Elem.isMany = true

/-- If the glob accepts any text of these characters, it begins with a star. -/
def Leads (ok : α → Prop) (g : Glob α) : Prop := Spells ok g → g.head?.any Elem.isMany = true

variable {g : Glob α} {ok : α → Prop} {s front : List α}

@[simp] theorem ones_nil : ones ([] : Glob α) = 0 := rfl

@[simp] theorem ones_many : ones (.many :: g) = ones g := rfl

@[simp] theorem ones_one (set : α → Bool) : ones (.one set :: g) = ones g + 1 := by
  rw [ones, List.countP_cons_of_pos rfl, ones]

theorem ones_eq_zero : ones g = 0 ↔ g.all Elem.isMany = true := by
  simp [ones, List.countP_eq_zero]

/-- A cut shares out what the glob asks for. -/
theorem ones_of_mem_cuts {c : Glob α × Glob α} (hc : c ∈ cuts g) :
    ones c.1 + ones c.2 = ones g := by
  induction g generalizing c with
  | nil =>
    obtain rfl := List.mem_singleton.mp hc
    rfl
  | cons e g ih =>
    cases e with
    | many =>
      simp only [cuts, List.mem_cons, List.mem_map] at hc
      rcases hc with rfl | rfl | ⟨c, hc, rfl⟩
      · simp
      · simp
      · simpa using ih hc
    | one set =>
      simp only [cuts, List.mem_cons, List.mem_map] at hc
      rcases hc with rfl | ⟨c, hc, rfl⟩
      · simp
      · have hones := ih hc
        simp only [ones_one]
        omega

theorem ones_le_length (h : accepts g s = true) : ones g ≤ s.length := by
  induction g generalizing s with
  | nil => exact Nat.zero_le _
  | cons e g ih =>
    cases e with
    | many =>
      obtain ⟨s₁, s₂, rfl, hg⟩ := accepts_many.mp h
      have hle := ih hg
      rw [ones_many, List.length_append]
      omega
    | one set =>
      cases s with
      | nil => cases h
      | cons c s =>
        rw [accepts, Bool.and_eq_true] at h
        rw [ones_one, List.length_cons]
        exact Nat.succ_le_succ (ih h.2)

theorem spells_of_accepts (hs : ∀ c ∈ s, ok c) (h : accepts g s = true) : Spells ok g := by
  induction g generalizing s with
  | nil => exact fun _ hmem => absurd hmem List.not_mem_nil
  | cons e g ih =>
    intro set hmem
    cases e with
    | many =>
      obtain ⟨s₁, s₂, rfl, hg⟩ := accepts_many.mp h
      refine ih (fun c hc => hs c (List.mem_append_right _ hc)) hg set ?_
      simpa using hmem
    | one set' =>
      cases s with
      | nil => cases h
      | cons c s =>
        rw [accepts, Bool.and_eq_true] at h
        rcases List.mem_cons.mp hmem with heq | hmem
        · obtain rfl := Elem.one.inj heq
          exact ⟨c, hs c List.mem_cons_self, h.1⟩
        · exact ih (fun c hc => hs c (List.mem_cons_of_mem _ hc)) h.2 set hmem

/-- A shortest text the glob accepts: its stars take nothing. -/
theorem exists_shortest (h : Spells ok g) :
    ∃ s, (∀ c ∈ s, ok c) ∧ accepts g s = true ∧ s.length = ones g := by
  induction g with
  | nil => exact ⟨[], List.forall_mem_nil _, rfl, rfl⟩
  | cons e g ih =>
    obtain ⟨s, hs, hacc, hlen⟩ := ih fun set hmem => h set (List.mem_cons_of_mem _ hmem)
    cases e with
    | many => exact ⟨s, hs, accepts_many.mpr ⟨[], s, rfl, hacc⟩, hlen⟩
    | one set =>
      obtain ⟨c, hc, hset⟩ := h set List.mem_cons_self
      have hlen' : (c :: s).length = ones (.one set :: g) := by
        rw [ones_one, List.length_cons, hlen]
      refine ⟨c :: s, List.forall_mem_cons.mpr ⟨hc, hs⟩, ?_, hlen'⟩
      rw [accepts, hset, hacc]
      rfl

/-- What is left after stars accepts nothing new. -/
theorem accepts_of_stars {c : Glob α × Glob α} (hc : c ∈ cuts g)
    (hstars : c.1.all Elem.isMany = true) (h : accepts c.2 s = true) : accepts g s = true := by
  induction g generalizing c with
  | nil =>
    obtain rfl := List.mem_singleton.mp hc
    exact h
  | cons e g ih =>
    cases e with
    | many =>
      simp only [cuts, List.mem_cons, List.mem_map] at hc
      rcases hc with rfl | rfl | ⟨c, hc, rfl⟩
      · exact h
      · exact h
      · have hrest : c.1.all Elem.isMany = true := by simpa [Elem.isMany] using hstars
        exact accepts_many.mpr ⟨[], s, rfl, ih hc hrest h⟩
    | one set =>
      simp only [cuts, List.mem_cons, List.mem_map] at hc
      rcases hc with rfl | ⟨c, hc, rfl⟩
      · exact h
      · simp [Elem.isMany] at hstars

/-- Stars that take something stand at the start of the glob. -/
theorem head_of_stars {c : Glob α × Glob α} (hc : c ∈ cuts g) (hne : c.1 ≠ [])
    (hstars : c.1.all Elem.isMany = true) : g.head?.any Elem.isMany = true := by
  cases g with
  | nil =>
    obtain rfl := List.mem_singleton.mp hc
    exact absurd rfl hne
  | cons e g =>
    cases e with
    | many => rfl
    | one set =>
      simp only [cuts, List.mem_cons, List.mem_map] at hc
      rcases hc with rfl | ⟨c, -, rfl⟩
      · exact absurd rfl hne
      · simp [Elem.isMany] at hstars

/-- A front adds no text exactly if only stars can take it: otherwise what is
left accepts a text too short for the glob. -/
theorem skips_iff : Skips ok g front ↔
    ∀ s, (∀ c ∈ s, ok c) → accepts g (front ++ s) = true → accepts g s = true := by
  constructor
  · intro hskips s hs hacc
    obtain ⟨c, hc, hfront, hrest⟩ := (accepts_append g front s).mp hacc
    exact accepts_of_stars hc (hskips c hc hfront (spells_of_accepts hs hrest)) hrest
  · intro hall c hc hfront hspells
    obtain ⟨s, hs, hrest, hlen⟩ := exists_shortest hspells
    have hacc := hall s hs ((accepts_append g front s).mpr ⟨c, hc, hfront, hrest⟩)
    have hle := ones_le_length hacc
    have hones := ones_of_mem_cuts hc
    exact ones_eq_zero.mp (by omega)

/-- A front does not count exactly if the glob leaves it to a star it begins
with. -/
theorem leads_and_skips_iff (hfront : front ≠ []) : Leads ok g ∧ Skips ok g front ↔
    ∀ s, (∀ c ∈ s, ok c) → (accepts g (front ++ s) = true ↔ accepts g s = true) := by
  constructor
  · rintro ⟨hleads, hskips⟩ s hs
    refine ⟨skips_iff.mp hskips s hs, fun hacc => ?_⟩
    have hhead := hleads (spells_of_accepts hs hacc)
    cases g with
    | nil => cases hhead
    | cons e g =>
      cases e with
      | many => exact accepts_many_append hacc front
      | one set => cases hhead
  · intro hall
    have hskips : Skips ok g front := skips_iff.mpr fun s hs => (hall s hs).mp
    refine ⟨fun hspells => ?_, hskips⟩
    obtain ⟨s, hs, hacc, -⟩ := exists_shortest hspells
    obtain ⟨c, hc, htaken, hrest⟩ := (accepts_append g front s).mp ((hall s hs).mpr hacc)
    refine head_of_stars hc ?_ (hskips c hc htaken (spells_of_accepts hs hrest))
    intro hnil
    rw [hnil, accepts, List.isEmpty_iff] at htaken
    exact hfront htaken

/-! ## Reading a pattern -/

/-- How a locale reads what follows an opening bracket: the characters it stands
for, and how many characters of the pattern it takes. Without a closing bracket
the opening one stands for itself. -/
abbrev Brackets := List Char → Option ((Char → Bool) × Nat)

/-- The glob of a pattern; `none` is matched by nothing. Each element takes a
character of the pattern. -/
def read (brackets : Brackets) : Nat → List Char → Option (Glob Char)
  | _, [] => some []
  | 0, _ :: _ => none
  | fuel + 1, c :: rest =>
    if c = '*' then (read brackets fuel rest).map (.many :: ·)
    else if c = '?' then (read brackets fuel rest).map (.one (fun _ => true) :: ·)
    else if c = '\\' then
      match rest with
      | [] => none
      | c :: rest => (read brackets fuel rest).map (.one (· == c) :: ·)
    else if c = '[' then
      match brackets rest with
      | some (set, n) => (read brackets fuel (rest.drop n)).map (.one set :: ·)
      | none => (read brackets fuel rest).map (.one (· == c) :: ·)
    else (read brackets fuel rest).map (.one (· == c) :: ·)

def ofPattern (brackets : Brackets) (pattern : List Char) : Option (Glob Char) :=
  read brackets pattern.length pattern

/-! ### The POSIX locale -/

def isGraph (c : Char) : Bool := '!' ≤ c && c ≤ '~'

/-- The character class of a name. -/
def classOf (name : List Char) : Option (Char → Bool) :=
  let named (s : String) := name = s.toList
  if named "alnum" then some Char.isAlphanum
  else if named "alpha" then some Char.isAlpha
  else if named "blank" then some fun c => c == ' ' || c == '\t'
  else if named "cntrl" then some fun c => c < ' ' || c == '\x7F'
  else if named "digit" then some Char.isDigit
  else if named "graph" then some isGraph
  else if named "lower" then some Char.isLower
  else if named "print" then some fun c => c == ' ' || isGraph c
  else if named "punct" then some fun c => isGraph c && !c.isAlphanum
  else if named "space" then some fun c => c == ' ' || ('\t' ≤ c && c ≤ '\r')
  else if named "upper" then some Char.isUpper
  else if named "xdigit" then some fun c =>
    c.isDigit || ('A' ≤ c && c ≤ 'F') || ('a' ≤ c && c ≤ 'f')
  else none

/-- What follows an opening bracket. -/
inductive Bracket where
  | items (set : Char → Bool) (rest : List Char)
  /-- No bracket closes it. -/
  | unclosed
  /-- It names a class there is not. -/
  | malformed

/-- One more item in front. -/
def Bracket.or (set : Char → Bool) : Bracket → Bracket
  | .items more rest => .items (fun c => set c || more c) rest
  | b => b

/-- A character of a bracket expression: as it is, escaped, or as `[.c.]` or
`[=c=]`. -/
def bracketChar : List Char → Option (Char × List Char)
  | '\\' :: c :: rest => some (c, rest)
  | '[' :: '.' :: c :: '.' :: ']' :: rest => some (c, rest)
  | '[' :: '=' :: c :: '=' :: ']' :: rest => some (c, rest)
  | c :: rest => some (c, rest)
  | [] => none

/-- A letter of a class name; no class has a `z` in its name. -/
def isClassLetter (c : Char) : Bool := 'a' ≤ c && c < 'z'

/-- The name of a class, and what follows it, after `[:`. -/
def className (s : List Char) : Option (List Char × List Char) :=
  match s.dropWhile isClassLetter with
  | ':' :: ']' :: rest => some (s.takeWhile isClassLetter, rest)
  | _ => none

/-- The items up to the closing bracket, which does not come `first`. -/
def bracketItems : Nat → Bool → List Char → Bracket
  | 0, _, _ => .unclosed
  | fuel + 1, first, s =>
    if s.head? = some ']' ∧ first = false then .items (fun _ => false) s.tail
    else
      match (if s.take 2 = ['[', ':'] then className (s.drop 2) else none) with
      | some (name, rest) =>
        match classOf name with
        | some set => (bracketItems fuel false rest).or set
        | none => .malformed
      | none =>
        match bracketChar s with
        | none => .unclosed
        | some (lo, rest) =>
          -- A minus before the closing bracket stands for itself.
          if rest.head? = some '-' ∧ rest.tail.head? ≠ some ']' then
            match bracketChar rest.tail with
            | none => .unclosed
            | some (hi, rest) => (bracketItems fuel false rest).or fun c => lo ≤ c && c ≤ hi
          else (bracketItems fuel false rest).or (· == lo)

/-- Ranges go by code points, and classes are those of ASCII. -/
def posixBrackets : Brackets := fun s =>
  let negated := s.head? = some '!' || s.head? = some '^'
  let body := if negated then s.tail else s
  match bracketItems (body.length + 1) true body with
  | .items set rest => some (fun c => set c != negated, s.length - rest.length)
  | .unclosed => none
  | .malformed => some (fun _ => false, s.length)

example : (ofPattern posixBrackets "[[:z:]".toList).any (accepts · "z".toList) = true := by
  decide +kernel

end Glob
