-- SUMMARY: Notification text split into text and emoji runs, and the image an emoji run asks for.
import ChoirOverlay.Ipc.Emoji

/-!
# Runs

Host and overlay split the same text with the same code, so that they agree on
the keys of its images.
-/

namespace Choir.Emoji

/-! ## Code points -/

/-- The continuation bytes of a character, `left` of them. -/
def decodeTail : Nat → Nat → Bytes → Option Nat
  | 0, cp, _ => some cp
  | _ + 1, _, [] => none
  | left + 1, cp, b :: rest =>
    if 0x80 ≤ b ∧ b ≤ 0xBF then decodeTail left (cp * 0x40 + b.toNat % 0x40) rest else none

/-- `decode_utf8`: the code point at the front and the bytes it takes. Overlong
forms pass. -/
def decodeUtf8 : Bytes → Option (Nat × Nat)
  | [] => none
  | b :: rest =>
    if b < 0x80 then some (b.toNat, 1)
    else if 0xC0 ≤ b ∧ b ≤ 0xDF then (decodeTail 1 (b.toNat % 0x20) rest).map (·, 2)
    else if 0xE0 ≤ b ∧ b ≤ 0xEF then (decodeTail 2 (b.toNat % 0x10) rest).map (·, 3)
    else if 0xF0 ≤ b ∧ b ≤ 0xF7 then (decodeTail 3 (b.toNat % 0x08) rest).map (·, 4)
    else none

def kVS16 : Nat := 0xFE0F
def kZWJ : Nat := 0x200D
def kKeycap : Nat := 0x20E3

/-- `always_emoji`. -/
def alwaysEmoji (cp : Nat) : Bool :=
  (0x1F000 ≤ cp && cp ≤ 0x1FAFF) || (0x2600 ≤ cp && cp ≤ 0x27BF) ||
    (0x2B05 ≤ cp && cp ≤ 0x2B07) || cp == 0x2B1B || cp == 0x2B1C || cp == 0x2B50 ||
    cp == 0x2B55 || cp == 0x231A || cp == 0x231B || (0x23E9 ≤ cp && cp ≤ 0x23FA)

/-- `vs16_gated`. -/
def vs16Gated (cp : Nat) : Bool :=
  cp == 0x00A9 || cp == 0x00AE || cp == 0x2122 || cp == 0x203C || cp == 0x2049 || cp == 0x2139 ||
    (0x2194 ≤ cp && cp ≤ 0x2199) || cp == 0x21A9 || cp == 0x21AA || cp == 0x2328 ||
    cp == 0x23CF || cp == 0x24C2 || cp == 0x25AA || cp == 0x25AB || cp == 0x25B6 ||
    cp == 0x25C0 || (0x25FB ≤ cp && cp ≤ 0x25FE) || cp == 0x2934 || cp == 0x2935 ||
    cp == 0x3030 || cp == 0x303D || cp == 0x3297 || cp == 0x3299

/-- `is_regional_indicator`. -/
def isRegionalIndicator (cp : Nat) : Bool := 0x1F1E6 ≤ cp && cp ≤ 0x1F1FF

/-- `is_skin_tone`. -/
def isSkinTone (cp : Nat) : Bool := 0x1F3FB ≤ cp && cp ≤ 0x1F3FF

/-- `is_tag`. -/
def isTag (cp : Nat) : Bool := 0xE0020 ≤ cp && cp ≤ 0xE007F

/-! ## Unicode emoji -/

/-- One turn of the loop of `match_unicode`: what extends the sequence. -/
def joined (q : Bytes) : Option (List Nat × Nat) := do
  let (cp, n) ← decodeUtf8 q
  if isSkinTone cp || cp == kVS16 || isTag cp then return ([cp], n)
  if cp ≠ kZWJ then none
  let (cp', n') ← decodeUtf8 (q.drop n)
  if alwaysEmoji cp' || vs16Gated cp' then return ([kZWJ, cp'], n + n') else none

/-- The loop of `match_unicode`: the code points that extend the sequence and
the bytes they take. `skip` bytes belong to a turn already taken. -/
def extend : Nat → Bytes → List Nat × Nat
  | _, [] => ([], 0)
  | skip + 1, _ :: rest => extend skip rest
  | 0, b :: rest =>
    match joined (b :: rest) with
    | none => ([], 0)
    | some (cps, n) =>
      let (more, m) := extend (n - 1) rest
      (cps ++ more, n + m)

/-- The digit, `#` or `*` at the front is a keycap. -/
def keycap (cp n : Nat) (q : Bytes) : Option (List Nat × Nat) := do
  let (cp', n') ← decodeUtf8 q
  if cp' = kVS16 then
    let (cp'', n'') ← decodeUtf8 (q.drop n')
    if cp'' = kKeycap then return ([cp, kVS16, cp''], n + n' + n'') else none
  else if cp' = kKeycap then return ([cp, kVS16, cp'], n + n') else none

/-- The emoji that starts with `cp`, before it is extended. -/
def base (cp n : Nat) (q : Bytes) : Option (List Nat × Nat) :=
  if alwaysEmoji cp then some ([cp], n)
  else if vs16Gated cp then do
    let (cp', n') ← decodeUtf8 q
    if cp' = kVS16 then return ([cp, kVS16], n + n') else none
  else none

/-- A flag, or an indicator that stands alone. -/
def flag (cp n : Nat) (q : Bytes) : List Nat × Nat :=
  match decodeUtf8 q with
  | some (cp', n') => if isRegionalIndicator cp' then ([cp, cp'], n + n') else ([cp], n)
  | none => ([cp], n)

/-- `match_unicode`: the code points of the emoji at the front and the bytes it
takes. -/
def matchUnicode (s : Bytes) : Option (List Nat × Nat) := do
  let (cp, n) ← decodeUtf8 s
  if (0x30 ≤ cp && cp ≤ 0x39) || cp == 0x23 || cp == 0x2A then keycap cp n (s.drop n)
  else if isRegionalIndicator cp then return flag cp n (s.drop n)
  else
    let (cps, n) ← base cp n (s.drop n)
    let (more, m) := extend 0 (s.drop n)
    return (cps ++ more, n + m)

/-! ## Keys -/

/-- `%x`. -/
def hex (n : Nat) : Bytes := (Nat.toDigits 16 n).map fun c => UInt8.ofNat c.toNat

/-- `twemoji_stem`. -/
def twemojiStem (cps : List Nat) : Bytes :=
  let shown := cps.filter fun cp => !(cp == kVS16 && !cps.contains kZWJ)
  [0x2D].intercalate (shown.map hex)

/-- `url_for`. -/
def urlFor (key : Bytes) : Bytes :=
  let kCustom := ascii "emoji.c."
  let kUnicode := ascii "emoji.u."
  if kCustom.isPrefixOf key && decide (kCustom.length < key.length) then
    ascii "https://cdn.discordapp.com/emojis/" ++ key.drop kCustom.length ++
      ascii ".png?size=64"
  else if kUnicode.isPrefixOf key && decide (kUnicode.length < key.length) then
    ascii "https://cdn.jsdelivr.net/gh/jdecked/twemoji@v17.0.3/assets/72x72/" ++
      key.drop kUnicode.length ++ ascii ".png"
  else []

/-! ## Splitting -/

structure Run where
  text : Bytes
  /-- Empty for a text run. -/
  key : Bytes
  deriving DecidableEq, Repr

/-- `flush`. -/
def flush (text : Bytes) : List Run := if text = [] then [] else [⟨text, []⟩]

/-- The bytes that pass through as text where no emoji is: a character, or a
byte that starts none. -/
def textStep (s : Bytes) : Nat := ((decodeUtf8 s).map Prod.snd).getD 1

/-- The loop of `split_runs`, with the text it has gathered. `skip` bytes belong
to what was already taken. -/
def splitLoop : Bytes → Nat → Bytes → List Run
  | text, _, [] => flush text
  | text, skip + 1, _ :: rest => splitLoop text skip rest
  | text, 0, b :: rest =>
    match matchCustom (b :: rest) with
    | some (name, id, n) =>
      flush text ++ ⟨0x3A :: (name ++ [0x3A]), ascii "emoji.c." ++ id⟩ ::
        splitLoop [] (n - 1) rest
    | none =>
      match matchUnicode (b :: rest) with
      | some (cps, n) =>
        flush text ++ ⟨(b :: rest).take n, ascii "emoji.u." ++ twemojiStem cps⟩ ::
          splitLoop [] (n - 1) rest
      | none =>
        let n := textStep (b :: rest)
        splitLoop (text ++ (b :: rest).take n) (n - 1) rest

def splitRuns (s : Bytes) : List Run := splitLoop [] 0 s

-- A heart on fire: the variation selector stays in the key where a joiner is.
example : splitRuns (ascii "go <:pog:1>" ++
      [0xE2, 0x9D, 0xA4, 0xEF, 0xB8, 0x8F, 0xE2, 0x80, 0x8D, 0xF0, 0x9F, 0x94, 0xA5]) =
    [⟨ascii "go ", []⟩, ⟨ascii ":pog:", ascii "emoji.c.1"⟩,
      ⟨[0xE2, 0x9D, 0xA4, 0xEF, 0xB8, 0x8F, 0xE2, 0x80, 0x8D, 0xF0, 0x9F, 0x94, 0xA5],
        ascii "emoji.u.2764-fe0f-200d-1f525"⟩] := by decide +kernel

/-- The keys of the emoji among the runs, in order. -/
def emojiKeys (runs : List Run) : List Bytes := (runs.map Run.key).filter (· ≠ [])

@[simp] theorem emojiKeys_nil : emojiKeys [] = [] := rfl

@[simp] theorem emojiKeys_append (runs runs' : List Run) :
    emojiKeys (runs ++ runs') = emojiKeys runs ++ emojiKeys runs' := by
  rw [emojiKeys, List.map_append, List.filter_append]
  rfl

theorem emojiKeys_cons_text {r : Run} (h : r.key = []) (runs : List Run) :
    emojiKeys (r :: runs) = emojiKeys runs := by
  rw [emojiKeys, List.map_cons, List.filter_cons_of_neg (by simpa using h), emojiKeys]

theorem emojiKeys_cons_emoji {r : Run} (h : r.key ≠ []) (runs : List Run) :
    emojiKeys (r :: runs) = r.key :: emojiKeys runs := by
  rw [emojiKeys, List.map_cons, List.filter_cons_of_pos (by simpa using h), emojiKeys]

end Choir.Emoji
