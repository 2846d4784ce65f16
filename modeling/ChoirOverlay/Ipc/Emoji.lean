-- SUMMARY: Custom-emoji markup in notification text: the matcher and the restoring of the ids Discord strips.
import ChoirOverlay.Base.Bytes

/-! # Custom emoji markup -/

namespace Choir.Emoji

/-- `isalnum` in the C locale, or `_`. -/
def isNameByte (b : UInt8) : Bool :=
  isDigit b || (0x41 ≤ b && b ≤ 0x5A) || (0x61 ≤ b && b ≤ 0x7A) || b == 0x5F

/-- The bytes after `b`, when `b` comes first. -/
def eat (b : UInt8) : Bytes → Option Bytes
  | [] => none
  | c :: rest => if c = b then some rest else none

/-- `match_custom`: the markup `<a?:name:id>` at the front of `s`. Its name, its
    id and the bytes it takes. -/
def matchCustom (s : Bytes) : Option (Bytes × Bytes × Nat) := do
  let q ← eat 0x3C s
  let q := (eat 0x61 q).getD q
  let q ← eat 0x3A q
  let name := q.takeWhile isNameByte
  if name = [] then none
  let q ← eat 0x3A (q.dropWhile isNameByte)
  let id := q.takeWhile isDigit
  if id = [] then none
  let q ← eat 0x3E (q.dropWhile isDigit)
  return (name, id, s.length - q.length)

/-- Name to full markup; the newest entry comes first, so the last markup of a
    duplicated name wins. -/
abbrev Markup := List (Bytes × Bytes)

/-- The first loop of `restore_custom_markup`. `skip` bytes belong to a markup
    already matched. -/
def harvest (markup : Markup) : Nat → Bytes → Markup
  | _, [] => markup
  | skip + 1, _ :: rest => harvest markup skip rest
  | 0, b :: rest =>
    match matchCustom (b :: rest) with
    | some (name, _, n) => harvest ((name, (b :: rest).take n) :: markup) (n - 1) rest
    | none => harvest markup 0 rest

/-- A `:name:` shortcode at the front whose name has a markup: the markup and
    the bytes after the leading colon it takes. -/
def shortcode (markup : Markup) : Bytes → Option (Bytes × Nat)
  | [] => none
  | b :: rest =>
    let name := rest.takeWhile isNameByte
    if b = 0x3A ∧ name ≠ [] ∧ (rest.dropWhile isNameByte).head? = some 0x3A then
      (markup.lookup name).map fun m => (m, name.length + 1)
    else none

/-- The second loop of `restore_custom_markup`. -/
def rewriteShortcodes (markup : Markup) : Nat → Bytes → Bytes
  | _, [] => []
  | skip + 1, _ :: rest => rewriteShortcodes markup skip rest
  | 0, b :: rest =>
    match shortcode markup (b :: rest) with
    | some (m, n) => m ++ rewriteShortcodes markup n rest
    | none => b :: rewriteShortcodes markup 0 rest

def restoreCustomMarkup (display raw : Bytes) : Bytes :=
  match harvest [] 0 raw with
  | [] => display
  | markup => rewriteShortcodes markup 0 display

example : restoreCustomMarkup (ascii "hi :a_b: :x:") (ascii "hi <a:a_b:42> :x:")
    = ascii "hi <a:a_b:42> :x:" := by decide

end Choir.Emoji
