-- SUMMARY: When the Hello of a game reaches the server, and whether the server then blocks the game.
import ChoirOverlay.Host.StateServer
import ChoirOverlay.Json.Text
import ChoirOverlay.Overlay.StateClient

/-!
# Hello

The kernel hands out names as bytes, JSON carries text. A name that is not
UTF-8 makes the dump throw in the client's thread, which ends the process.
-/

namespace Choir

variable {lib : JsonLib} {self : ProcSelf}

/-- What the kernel says of the process is text: the first line of `comm`, and
    every NUL-separated piece of `cmdline`. -/
structure ProcSelf.IsText (proc : ProcSelf) : Prop where
  name : ∀ bytes ∈ proc.comm, validUtf8 (bytes.takeWhile (· ≠ 0x0A)) = true
  args : ∀ arg ∈ splitNul [] proc.cmdline, validUtf8 arg = true

/-! ## The client's side -/

theorem validUtf8_selfExeName :
    validUtf8 (selfExeName self) = true ↔
      ∀ bytes ∈ self.comm, validUtf8 (bytes.takeWhile (· ≠ 0x0A)) = true := by
  unfold selfExeName
  cases self.comm with
  | none => simp [show validUtf8 (ascii "unknown") = true by decide]
  | some bytes =>
    simp only [Option.mem_def, Option.some.injEq, forall_eq']
    split
    · rename_i h
      rw [h]
      decide
    · rfl

theorem validUtf8_selfArgv :
    (∀ arg ∈ selfArgv self, validUtf8 arg = true) ↔
      ∀ arg ∈ splitNul [] self.cmdline, validUtf8 arg = true := by
  rw [selfArgv_eq]
  constructor
  · intro h arg harg
    by_cases hne : arg = []
    · rw [hne]
      decide
    · exact h arg (List.mem_filter.mpr ⟨harg, by simpa using hne⟩)
  · exact fun h arg harg => h arg (List.mem_of_mem_filter harg)

theorem utf8_hello :
    (hello self).utf8 = true ↔
      validUtf8 (selfExeName self) = true ∧ ∀ arg ∈ selfArgv self, validUtf8 arg = true := by
  have hargs : Json.utf8List ((selfArgv self).map .str) = (selfArgv self).all validUtf8 := by
    rw [Json.utf8List_eq_all, List.all_map]
    rfl
  simp only [hello, Json.utf8, Json.utf8Entries, hargs,
    show validUtf8 (ascii "argv") = true by decide, show validUtf8 (ascii "exe") = true by decide,
    show validUtf8 (ascii "pid") = true by decide, show validUtf8 (ascii "proto") = true by decide,
    Bool.true_and, Bool.and_true, Bool.and_eq_true, List.all_eq_true]
  exact And.comm

/-- The payload exists exactly when the names of the process are text. -/
theorem exists_helloPayload (lib : JsonLib) :
    (∃ text, helloPayload lib self = some text) ↔ self.IsText := by
  rw [← Option.isSome_iff_exists, helloPayload, lib.dump_isSome, utf8_hello,
    validUtf8_selfExeName, validUtf8_selfArgv]
  exact ⟨fun h => ⟨h.1, h.2⟩, fun h => ⟨h.name, h.args⟩⟩

/-! ## The server's side -/

theorem storable_hello : (hello self).storable = true := by
  have hargs : Json.storableList ((selfArgv self).map .str) = true := by
    rw [Json.storableList_eq_all, List.all_map]
    exact List.all_eq_true.mpr fun _ _ => rfl
  have hlo := self.pid.le_toInt
  have hhi := self.pid.toInt_lt
  have hpid : -2 ^ 63 ≤ self.pid.toInt ∧ self.pid.toInt < 2 ^ 64 := by omega
  simp only [hello, Json.storable, Json.storableEntries, hargs, hpid, List.head?_cons,
    List.head?_nil, Option.all_some, Option.all_none, and_self, decide_true]
  rfl

/-- The server reads the names the client wrote. -/
theorem blocksHello_helloPayload (s : StateServer) {text : Bytes}
    (h : helloPayload lib self = some text) :
    s.blocksHello lib text =
      (s.blocks (selfExeName self) || (selfArgv self).any fun arg => s.blocks arg) := by
  have hexe : (hello self).strOr "exe" = selfExeName self := rfl
  have hargv : StateServer.argvOf (hello self) = selfArgv self := by
    have hfind : (hello self).find? "argv" = some (.arr ((selfArgv self).map .str)) := rfl
    simp only [StateServer.argvOf, hfind, List.filterMap_map]
    exact List.filterMap_some
  simp only [StateServer.blocksHello, lib.parse_dump _ _ storable_hello h, hexe, hargv]

/-- The Hello of a process reaches the server, which then blocks the new client
    exactly for a blocked name or argument, whenever the names of the process
    are text, and never else. -/
theorem hello_classified_iff (lib : JsonLib) (self : ProcSelf) (s : StateServer) :
    (∃ text, helloPayload lib self = some text ∧
        ((s.classify lib {} text).inert = true ↔
          s.blocks (selfExeName self) = true ∨ ∃ arg ∈ selfArgv self, s.blocks arg = true)) ↔
      self.IsText := by
  rw [← exists_helloPayload lib]
  constructor
  · rintro ⟨text, htext, -⟩
    exact ⟨text, htext⟩
  · rintro ⟨text, htext⟩
    refine ⟨text, htext, ?_⟩
    have hclass : (s.classify lib {} text).inert = s.blocksHello lib text := by
      cases h : s.blocksHello lib text <;> simp [StateServer.classify, h]
    rw [hclass, blocksHello_helloPayload s htext, Bool.or_eq_true, List.any_eq_true]

/-- A `comm` the kernel cut inside a character: the game goes down with the
    client's thread. -/
theorem helloPayload_cut_name :
    let self : ProcSelf := { comm := some (ascii "pokemon-editio" ++ [0xC3, 0x0A]) }
    helloPayload compactJson self = none ∧
      (StateClient.step compactJson { self } (.connected true)).ended = true := by
  decide +kernel

end Choir
