-- SUMMARY: Whether an autostart file is disabled in place: the two keys that say so, and the spelling of one that is missed.
import ChoirOverlay.Base.Lines
import ChoirOverlay.Host.Denylist

/-!
# The autostart file

The file is read line by line, without regard to its groups. A line disables
the entry if it hides it or turns it off; the two keys are looked for in two
ways.
-/

namespace Choir

namespace Autostart

def lines (content : Bytes) : List Bytes := linesOf 0x0A content

/-- What is tolerated before an equals sign. -/
def isBlank (b : UInt8) : Bool := b == 0x20 || b == 0x09

/-- What is trimmed off a value. -/
def isTrimmed (b : UInt8) : Bool := isBlank b || b == 0x0D

def trim (value : Bytes) : Bytes := (value.dropWhile isTrimmed).rdropWhile isTrimmed

/-- The value is "true", whatever its case. -/
def isTrue (value : Bytes) : Bool := toLower (trim value) == ascii "true"

/-- `key_is_true` -/
def keyIsTrue (line key : Bytes) : Bool :=
  if !key.isPrefixOf line || line.length ≤ key.length then
    false
  else
    let rest := line.drop key.length
    match rest.dropWhile (· ≠ 0x3D) with
    | [] => false
    | _ :: value =>
      if !(rest.takeWhile (· ≠ 0x3D)).all isBlank then false
      else if value.all isTrimmed then false
      else isTrue value

def kHidden : Bytes := ascii "Hidden"

def kEnabled : Bytes := ascii "X-GNOME-Autostart-enabled"

/-- A line at which `autostart_enabled` gives up. -/
def disables (line : Bytes) : Bool :=
  keyIsTrue line kHidden ||
    ((kEnabled ++ [0x3D]).isPrefixOf line && !keyIsTrue line kEnabled)

/-- `autostart_enabled` -/
def enabled : Option Bytes → Bool
  | none => false
  | some content => (lines content).all fun line => !disables line

/-! ## Assignments -/

/-- The line gives the value to the key, with these blanks before the equals
sign. -/
def Assigns (line key blanks value : Bytes) : Prop :=
  blanks.all isBlank = true ∧ line = key ++ (blanks ++ 0x3D :: value)

variable {line key blanks value : Bytes}

theorem takeWhile_assigned (h : blanks.all isBlank = true) :
    (blanks ++ 0x3D :: value).takeWhile (· ≠ 0x3D) = blanks ∧
      (blanks ++ 0x3D :: value).dropWhile (· ≠ 0x3D) = 0x3D :: value := by
  have hblank : ∀ b ∈ blanks, decide (b ≠ 0x3D) = true := by
    intro b hb
    have hb' := List.all_eq_true.mp h b hb
    rw [decide_eq_true_eq]
    rintro rfl
    exact absurd hb' (by decide)
  rw [List.takeWhile_append_of_pos hblank, List.dropWhile_append_of_pos hblank]
  simp

theorem isTrue_of_all_trimmed (h : value.all isTrimmed = true) : isTrue value = false := by
  have hnil : value.dropWhile isTrimmed = [] :=
    List.dropWhile_eq_nil_iff.mpr (List.all_eq_true.mp h)
  rw [isTrue, trim, hnil]
  decide

theorem keyIsTrue_of_assigns (h : Assigns line key blanks value) :
    keyIsTrue line key = isTrue value := by
  obtain ⟨hblanks, rfl⟩ := h
  obtain ⟨htake, hdrop⟩ := @takeWhile_assigned blanks value hblanks
  have hprefix : key.isPrefixOf (key ++ (blanks ++ 0x3D :: value)) = true :=
    List.isPrefixOf_iff_prefix.mpr (List.prefix_append _ _)
  have hlen : ¬ (key ++ (blanks ++ 0x3D :: value)).length ≤ key.length := by
    simp
  simp only [keyIsTrue, hprefix, hlen, List.drop_left, htake, hdrop, hblanks]
  cases htrimmed : value.all isTrimmed with
  | true => simp [isTrue_of_all_trimmed htrimmed]
  | false => simp

/-- `key_is_true` holds of the lines that assign true to the key. -/
theorem keyIsTrue_iff : keyIsTrue line key = true ↔
    ∃ blanks value, Assigns line key blanks value ∧ isTrue value = true := by
  constructor
  · intro h
    unfold keyIsTrue at h
    split at h
    · cases h
    rename_i hprefix
    simp only [Bool.or_eq_true, Bool.not_eq_true', decide_eq_true_eq, not_or, Bool.not_eq_false]
      at hprefix
    obtain ⟨rest, rfl⟩ := List.isPrefixOf_iff_prefix.mp hprefix.1
    simp only [List.drop_left] at h
    split at h
    · cases h
    rename_i b value hdrop
    split at h
    · cases h
    rename_i hblanks
    split at h
    · cases h
    have hb : b = 0x3D := by
      have hhead := List.head?_dropWhile_not (· ≠ 0x3D) rest
      rw [hdrop] at hhead
      simpa using hhead
    refine ⟨rest.takeWhile (· ≠ 0x3D), value, ⟨by simpa using hblanks, ?_⟩, h⟩
    rw [hb] at hdrop
    rw [← hdrop, List.takeWhile_append_dropWhile]
  · rintro ⟨blanks, value, hassigns, htrue⟩
    rw [keyIsTrue_of_assigns hassigns, htrue]

/-- A line gives up on the entry if it hides it, or turns it off with the equals
sign right behind the key. -/
theorem disables_iff : disables line = true ↔
    (∃ blanks value, Assigns line kHidden blanks value ∧ isTrue value = true) ∨
      ∃ value, Assigns line kEnabled [] value ∧ isTrue value = false := by
  rw [disables, Bool.or_eq_true, keyIsTrue_iff]
  refine or_congr_right ?_
  rw [Bool.and_eq_true, List.isPrefixOf_iff_prefix, Bool.not_eq_true']
  constructor
  · rintro ⟨⟨value, rfl⟩, hfalse⟩
    have hassigns : Assigns (kEnabled ++ [0x3D] ++ value) kEnabled [] value :=
      ⟨rfl, List.append_assoc _ _ _⟩
    rw [keyIsTrue_of_assigns hassigns] at hfalse
    exact ⟨value, hassigns, hfalse⟩
  · rintro ⟨value, hassigns, hfalse⟩
    refine ⟨⟨value, ?_⟩, (keyIsTrue_of_assigns hassigns).trans hfalse⟩
    exact (List.append_assoc _ _ _).trans hassigns.2.symm

/-! ## Entries disabled in place -/

/-- A line assigns true to `Hidden`, or something else to
`X-GNOME-Autostart-enabled`. -/
def Disabled (content : Bytes) : Prop :=
  ∃ line ∈ lines content, ∃ blanks value,
    Assigns line kHidden blanks value ∧ isTrue value = true ∨
      Assigns line kEnabled blanks value ∧ isTrue value = false

/-- No line turns the entry off with blanks before the equals sign, unless
another one disables it anyhow. -/
def Tight (content : Bytes) : Prop :=
  (∀ line ∈ lines content, ∀ blanks value, Assigns line kEnabled blanks value →
      isTrue value = false → blanks = []) ∨
    ∃ line ∈ lines content,
      (∃ blanks value, Assigns line kHidden blanks value ∧ isTrue value = true) ∨
      ∃ value, Assigns line kEnabled [] value ∧ isTrue value = false

theorem enabled_eq_false_iff (content : Bytes) :
    enabled (some content) = false ↔ ∃ line ∈ lines content, disables line = true := by
  rw [enabled, List.all_eq_false]
  simp

/-- A file reads as disabled exactly if it is, wherever it turns the entry off
without blanks or is disabled in another line. -/
theorem enabled_iff_tight (content : Bytes) :
    (enabled (some content) = false ↔ Disabled content) ↔ Tight content := by
  have hread : enabled (some content) = false ↔ ∃ line ∈ lines content,
      (∃ blanks value, Assigns line kHidden blanks value ∧ isTrue value = true) ∨
        ∃ value, Assigns line kEnabled [] value ∧ isTrue value = false := by
    rw [enabled_eq_false_iff]
    exact exists_congr fun line => and_congr_right fun _ => disables_iff
  rw [hread]
  constructor
  · intro hiff
    by_cases htight : ∀ line ∈ lines content, ∀ blanks value, Assigns line kEnabled blanks value →
        isTrue value = false → blanks = []
    · exact .inl htight
    · refine .inr (hiff.mpr ?_)
      push Not at htight
      obtain ⟨line, hline, blanks, value, hassigns, hfalse, -⟩ := htight
      exact ⟨line, hline, blanks, value, .inr ⟨hassigns, hfalse⟩⟩
  · intro htight
    constructor
    · rintro ⟨line, hline, ⟨blanks, value, hhidden⟩ | ⟨value, hoff⟩⟩
      · exact ⟨line, hline, blanks, value, .inl hhidden⟩
      · exact ⟨line, hline, [], value, .inr hoff⟩
    · rintro ⟨line, hline, blanks, value, hhidden | ⟨hassigns, hfalse⟩⟩
      · exact ⟨line, hline, .inl ⟨blanks, value, hhidden⟩⟩
      · rcases htight with htight | hother
        · obtain rfl := htight line hline blanks value hassigns hfalse
          exact ⟨line, hline, .inr ⟨value, hassigns, hfalse⟩⟩
        · exact hother

/-- An entry that is turned off, with blanks around the equals sign. -/
def spacedFile : Bytes := ascii "[Desktop Entry]\nX-GNOME-Autostart-enabled = false\n"

/-- It reads as enabled. -/
theorem spacedFile_enabled :
    ¬ ∀ content, (enabled (some content) = false ↔ Disabled content) := by
  intro hall
  have hdisabled : Disabled spacedFile := by
    refine ⟨ascii "X-GNOME-Autostart-enabled = false", by decide, [0x20], ascii " false", .inr ?_⟩
    exact ⟨⟨rfl, rfl⟩, by decide⟩
  exact absurd ((hall spacedFile).mpr hdisabled) (by decide)

end Autostart

end Choir
