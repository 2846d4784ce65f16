-- SUMMARY: The wrapper script as a shell reads it: the path of the library is one quoted word, whatever its bytes.
import ChoirOverlay.Base.Shell
import ChoirOverlay.Host.Backends

/-!
# The wrapper script

Its seventh line assigns the path of the library. The text around that is the
same for every path, and so are its tokens.
-/

namespace Choir

open Shell

/-- The text before the assignment and the text behind it. -/
def Surrounds (head tail : Bytes) : Prop :=
  ∀ lib, glWrapperScript lib =
    head ++ ((ascii "default_lib=" ++ (shellQuote lib ++ [0x0A])) ++ tail)

/-- There are six lines of comments before the assignment, and the text behind it
has tokens. -/
theorem exists_surrounds : ∃ head tail, Surrounds head tail ∧
    run .between head = some (List.replicate 6 .newline, .between) ∧
    (tokens tail).isSome = true := by
  refine ⟨?head, ?tail, fun lib => ?script, ?_, ?_⟩
  case script =>
    unfold glWrapperScript
    dsimp only
    rw [List.append_assoc (ascii "default_lib="), List.append_assoc (shellQuote lib)]
    -- One for each of the pieces behind the first six lines.
    iterate 19 rw [List.append_assoc]
  · decide +kernel
  · decide +kernel

/-- The word of the assignment. -/
def libWord (lib : Bytes) : Word := (ascii "default_lib=").map .plain ++ lib.map .quoted

theorem run_assignment {lib : Bytes} (hlib : 0x00 ∉ lib) :
    run .between (ascii "default_lib=" ++ (shellQuote lib ++ [0x0A])) =
      some ([.word (libWord lib), .newline], .between) := by
  have hname : run .between (ascii "default_lib=") =
      some ([], .word ((ascii "default_lib=").map .plain)) := by decide +kernel
  have hvalue : run (.word ((ascii "default_lib=").map .plain)) (shellQuote lib) =
      some ([], .word (libWord lib)) := run_single hlib
  rw [run_append hname, run_append hvalue]
  rfl

theorem assignment_libWord (lib : Bytes) :
    assignment (libWord lib) = some (ascii "default_lib", lib.map .quoted) := by
  rfl

/-- For every path the tokens are those of the text before, the word of the
assignment, and those of the text behind it, which are the same for every path.
The value that is assigned is the path, with nothing in it to expand. -/
theorem tokens_glWrapperScript : ∃ head tail before after, Surrounds head tail ∧
    tokens head = some before ∧ before.getLast? = some .newline ∧ tokens tail = some after ∧
    ∀ lib : Bytes, 0x00 ∉ lib → ∃ w value,
      tokens (glWrapperScript lib) = some (before ++ (.word w :: .newline :: after)) ∧
        assignment w = some (ascii "default_lib", value) ∧ literal value = some lib := by
  obtain ⟨head, tail, hscript, hhead, htail⟩ := exists_surrounds
  obtain ⟨after, hafter⟩ := Option.isSome_iff_exists.mp htail
  have hbefore : tokens head = some (List.replicate 6 .newline) := by
    rw [tokens, hhead]
    rfl
  refine ⟨head, tail, _, after, hscript, hbefore, rfl, hafter, fun lib hlib => ?_⟩
  refine ⟨libWord lib, lib.map .quoted, ?_, assignment_libWord lib, literal_quoted lib⟩
  rw [hscript, tokens_append hhead, tokens_append (run_assignment hlib), hafter]
  rfl

/-- A path with quotes, a newline and a command to substitute. -/
def hostileLib : Bytes := ascii "/home/o'neil's\n$(id)\\''"

theorem tokens_hostileLib : ∃ before after w value,
    tokens (glWrapperScript hostileLib) = some (before ++ (.word w :: .newline :: after)) ∧
      assignment w = some (ascii "default_lib", value) ∧ literal value = some hostileLib := by
  obtain ⟨-, -, before, after, -, -, -, -, hlib⟩ := tokens_glWrapperScript
  obtain ⟨w, value, h⟩ := hlib hostileLib (by decide)
  exact ⟨before, after, w, value, h⟩

end Choir
