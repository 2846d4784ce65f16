-- SUMMARY: No proper front of the text of an object parses, which the compact parser shows.
import ChoirOverlay.Json.Text
import Mathlib.Data.List.TakeWhile

/-!
# Fronts of a text

An object ends with the brace that closes it, so a text that is cut short is no
JSON. Of the compact parser this follows from reading on: what it reads off a
text it reads off every longer one, as long as it had not come to the end.
-/

namespace Choir

/-- A text of an object that is cut short is refused. -/
def JsonLib.RefusesFronts (lib : JsonLib) : Prop :=
  ∀ j text n, j.isObject = true → j.storable → lib.dump j = some text → n < text.length →
    lib.parse (text.take n) = none

namespace JsonText

/-! ## Reading on -/

variable {s q rest : Bytes} {b : UInt8}

theorem parseChars_append {k : Bytes} (h : parseChars s = some (k, rest)) (q : Bytes) :
    parseChars (s ++ q) = some (k, rest ++ q) := by
  fun_induction parseChars s generalizing k
  case case1 => cases h
  case case2 =>
    cases h
    rw [List.cons_append, parseChars.eq_def]
    rfl
  case case3 => cases h
  case case4 hescape hquote ih =>
    obtain ⟨⟨k', rest'⟩, hk, heq⟩ := Option.map_eq_some_iff.mp h
    cases heq
    simp only [List.cons_append]
    rw [parseChars.eq_def]
    simp only [if_neg hquote, if_true, hescape, ih hk, Option.map_some]
  case case5 hescape _ _ _ _ _ hcode hquote ih =>
    obtain ⟨⟨k', rest'⟩, hk, heq⟩ := Option.map_eq_some_iff.mp h
    cases heq
    simp only [List.cons_append]
    rw [parseChars.eq_def]
    simp only [if_neg hquote, if_true, hescape, if_pos hcode, ih hk, Option.map_some]
  case case6 => cases h
  case case7 => cases h
  case case8 => cases h
  case case9 hquote hescape hlow ih =>
    obtain ⟨⟨k', rest'⟩, hk, heq⟩ := Option.map_eq_some_iff.mp h
    cases heq
    rw [List.cons_append, parseChars.eq_def]
    simp only [if_neg hquote, if_neg hescape, if_neg hlow, ih hk, Option.map_some]

/-- What is not a digit ends a number wherever the text goes on. -/
theorem parseNat_append {n : Nat} (h : parseNat s = some (n, b :: rest)) (q : Bytes) :
    parseNat (s ++ q) = some (n, b :: rest ++ q) := by
  unfold parseNat at h ⊢
  split at h
  · cases h
  · rename_i hdigits
    obtain ⟨rfl, hdrop⟩ := Prod.mk.inj (Option.some.inj h)
    have hsplit : s = s.takeWhile isDigit ++ b :: rest := by
      rw [← hdrop, List.takeWhile_append_dropWhile]
    have hall : ∀ c ∈ s.takeWhile isDigit, isDigit c = true := fun c hc =>
      List.mem_takeWhile_imp hc
    have hb : ¬ isDigit b = true := by
      have hhead := List.head?_dropWhile_not isDigit s
      rw [hdrop] at hhead
      simpa using hhead
    generalize s.takeWhile isDigit = ds at hsplit hdigits hall
    rw [hsplit, List.append_assoc, List.cons_append, List.takeWhile_append_of_pos hall,
      List.dropWhile_append_of_pos hall, List.takeWhile_cons_of_neg hb,
      List.dropWhile_cons_of_neg hb, List.append_nil, if_neg hdigits]

theorem parseInt_append {n : Int} (h : parseInt s = some (n, b :: rest)) (q : Bytes) :
    parseInt (s ++ q) = some (n, b :: rest ++ q) := by
  cases s with
  | nil => cases h
  | cons c s =>
    rw [List.cons_append, parseInt]
    rw [parseInt] at h
    split at h
    all_goals
      rename_i hsign
      obtain ⟨⟨m, rest'⟩, hm, heq⟩ := Option.map_eq_some_iff.mp h
      cases heq
    · rw [if_pos hsign, parseNat_append hm q]
      rfl
    · rw [if_neg hsign, ← List.cons_append, parseNat_append hm q]
      rfl

theorem parseNumber_append {j : Json} (h : parseNumber s = some (j, b :: rest)) (q : Bytes) :
    parseNumber (s ++ q) = some (j, b :: rest ++ q) := by
  unfold parseNumber at h ⊢
  split at h
  · cases h
  · cases h
  · rename_i m c rest' hm
    rw [parseInt_append hm q]
    simp only [List.cons_append]
    split at h
    · rename_i hexp
      obtain ⟨⟨e, rest''⟩, he, heq⟩ := Option.map_eq_some_iff.mp h
      cases heq
      rw [if_pos hexp, parseInt_append he q]
      rfl
    · rename_i hexp
      cases h
      rw [if_neg hexp]

theorem parseWord_append {word : String} {v j : Json} (h : parseWord word v s = some (j, rest))
    (q : Bytes) : parseWord word v (s ++ q) = some (j, rest ++ q) := by
  unfold parseWord at h ⊢
  split at h
  · rename_i hword
    obtain ⟨t, rfl⟩ := List.isPrefixOf_iff_prefix.mp hword
    cases h
    rw [List.append_assoc, List.drop_left, List.drop_left,
      if_pos (List.isPrefixOf_iff_prefix.mpr (List.prefix_append _ _))]
  · cases h

/-- A value that does not end the text is read the same off a longer one, with
no less fuel. -/
private def ReadsOnValue (fuel : Nat) : Prop :=
  ∀ fuel' s j b rest q, fuel ≤ fuel' → parseValue fuel s = some (j, b :: rest) →
    parseValue fuel' (s ++ q) = some (j, b :: rest ++ q)

private def ReadsOnElems (fuel : Nat) : Prop :=
  ∀ fuel' s xs rest q, fuel ≤ fuel' → parseElems fuel s = some (xs, rest) →
    parseElems fuel' (s ++ q) = some (xs, rest ++ q)

private def ReadsOnMembers (fuel : Nat) : Prop :=
  ∀ fuel' s es rest q, fuel ≤ fuel' → parseMembers fuel s = some (es, rest) →
    parseMembers fuel' (s ++ q) = some (es, rest ++ q)

private theorem parseElems_nil (fuel : Nat) : parseElems fuel [] = none := by
  cases fuel with
  | zero => rfl
  | succ fuel =>
    rw [parseElems]
    cases fuel <;> rfl

private theorem parseMembers_nil (fuel : Nat) : parseMembers fuel [] = none := by
  cases fuel <;> rfl

private theorem object_append {fuel fuel' : Nat} {j : Json} (ihm : ReadsOnMembers fuel)
    (hfuel : fuel ≤ fuel') (h : parseValue (fuel + 1) (0x7B :: s) = some (j, rest)) (q : Bytes) :
    parseValue (fuel' + 1) (0x7B :: s ++ q) = some (j, rest ++ q) := by
  cases s with
  | nil =>
    rw [parseValue, if_neg (by decide), if_neg (by decide), if_pos rfl, if_neg (by decide),
      parseMembers_nil] at h
    cases h
  | cons c s =>
    rw [parseValue, if_neg (by decide), if_neg (by decide), if_pos rfl, List.head?_cons] at h
    simp only [List.cons_append]
    rw [parseValue, if_neg (by decide), if_neg (by decide), if_pos rfl, List.head?_cons]
    split at h
    · rename_i hclose
      cases h
      rw [if_pos hclose]
      rfl
    · rename_i hopen
      obtain ⟨⟨es, rest'⟩, hes, heq⟩ := Option.map_eq_some_iff.mp h
      cases heq
      rw [if_neg hopen, ← List.cons_append, ihm fuel' _ es rest' q hfuel hes]
      rfl

private theorem array_append {fuel fuel' : Nat} {j : Json} (ihe : ReadsOnElems fuel)
    (hfuel : fuel ≤ fuel') (h : parseValue (fuel + 1) (0x5B :: s) = some (j, rest)) (q : Bytes) :
    parseValue (fuel' + 1) (0x5B :: s ++ q) = some (j, rest ++ q) := by
  cases s with
  | nil =>
    rw [parseValue, if_neg (by decide), if_pos rfl, if_neg (by decide), parseElems_nil] at h
    cases h
  | cons c s =>
    rw [parseValue, if_neg (by decide), if_pos rfl, List.head?_cons] at h
    simp only [List.cons_append]
    rw [parseValue, if_neg (by decide), if_pos rfl, List.head?_cons]
    split at h
    · rename_i hclose
      cases h
      rw [if_pos hclose]
      rfl
    · rename_i hopen
      obtain ⟨⟨xs, rest'⟩, hxs, heq⟩ := Option.map_eq_some_iff.mp h
      cases heq
      rw [if_neg hopen, ← List.cons_append, ihe fuel' _ xs rest' q hfuel hxs]
      rfl

private theorem readsOnValue_succ {fuel : Nat} (ihe : ReadsOnElems fuel)
    (ihm : ReadsOnMembers fuel) : ReadsOnValue (fuel + 1) := by
  intro fuel' s j b rest q hfuel h
  cases fuel' with
  | zero => exact absurd hfuel (Nat.not_succ_le_zero fuel)
  | succ fuel' =>
    replace hfuel := Nat.le_of_succ_le_succ hfuel
    cases s with
    | nil => cases h
    | cons c s =>
      by_cases hobject : c = 0x7B
      · rw [hobject] at h ⊢
        exact object_append ihm hfuel h q
      by_cases harray : c = 0x5B
      · rw [harray] at h ⊢
        exact array_append ihe hfuel h q
      rw [parseValue, if_neg harray, if_neg hobject] at h
      rw [List.cons_append, parseValue, if_neg harray, if_neg hobject, ← List.cons_append]
      split at h
      · rename_i hquote
        obtain ⟨⟨k, rest'⟩, hk, heq⟩ := Option.map_eq_some_iff.mp h
        cases heq
        rw [if_pos hquote, parseChars_append hk q]
        rfl
      · rename_i hquote
        rw [if_neg hquote]
        split at h
        · rename_i hnull
          rw [if_pos hnull, parseWord_append h q]
        · rename_i hnull
          rw [if_neg hnull]
          split at h
          · rename_i htrue
            rw [if_pos htrue, parseWord_append h q]
          · rename_i htrue
            rw [if_neg htrue]
            split at h
            · rename_i hfalse
              rw [if_pos hfalse, parseWord_append h q]
            · rename_i hfalse
              rw [if_neg hfalse, parseNumber_append h q]

private theorem readsOnElems_succ {fuel : Nat} (ihv : ReadsOnValue fuel)
    (ihe : ReadsOnElems fuel) : ReadsOnElems (fuel + 1) := by
  intro fuel' s xs rest q hfuel h
  cases fuel' with
  | zero => exact absurd hfuel (Nat.not_succ_le_zero fuel)
  | succ fuel' =>
    replace hfuel := Nat.le_of_succ_le_succ hfuel
    rw [parseElems] at h ⊢
    split at h
    · rename_i x b rest' hx
      rw [ihv fuel' s x b rest' q hfuel hx]
      simp only [List.cons_append]
      split at h
      · rename_i hcomma
        obtain ⟨⟨ys, rest''⟩, hys, heq⟩ := Option.map_eq_some_iff.mp h
        cases heq
        rw [if_pos hcomma, ihe fuel' rest' ys rest'' q hfuel hys]
        rfl
      · rename_i hcomma
        split at h
        · rename_i hclose
          cases h
          rw [if_neg hcomma, if_pos hclose]
        · cases h
    · cases h

private theorem readsOnMembers_succ {fuel : Nat} (ihv : ReadsOnValue fuel)
    (ihm : ReadsOnMembers fuel) : ReadsOnMembers (fuel + 1) := by
  intro fuel' s es rest q hfuel h
  cases fuel' with
  | zero => exact absurd hfuel (Nat.not_succ_le_zero fuel)
  | succ fuel' =>
    replace hfuel := Nat.le_of_succ_le_succ hfuel
    cases s with
    | nil => cases h
    | cons c s =>
      rw [parseMembers] at h
      rw [List.cons_append, parseMembers]
      split at h
      · rename_i hquote
        rw [if_pos hquote]
        split at h
        · rename_i k d rest' hk
          rw [parseChars_append hk q]
          simp only [List.cons_append]
          split at h
          · rename_i hcolon
            rw [if_pos hcolon]
            split at h
            · rename_i v b rest'' hv
              rw [ihv fuel' rest' v b rest'' q hfuel hv]
              simp only [List.cons_append]
              split at h
              · rename_i hcomma
                obtain ⟨⟨fs, left⟩, hfs, heq⟩ := Option.map_eq_some_iff.mp h
                cases heq
                rw [if_pos hcomma, ihm fuel' rest'' fs left q hfuel hfs]
                rfl
              · rename_i hcomma
                split at h
                · rename_i hclose
                  cases h
                  rw [if_neg hcomma, if_pos hclose]
                · cases h
            · cases h
          · cases h
        · cases h
      · cases h

/-- By induction on the fuel, for values, elements and members together. -/
private theorem readsOn (fuel : Nat) :
    ReadsOnValue fuel ∧ ReadsOnElems fuel ∧ ReadsOnMembers fuel := by
  induction fuel with
  | zero =>
    refine ⟨fun _ _ _ _ _ _ _ h => ?_, fun _ _ _ _ _ _ h => ?_, fun _ _ _ _ _ _ h => ?_⟩
    all_goals cases h
  | succ fuel ih =>
    obtain ⟨ihv, ihe, ihm⟩ := ih
    exact ⟨readsOnValue_succ ihe ihm, readsOnElems_succ ihv ihe, readsOnMembers_succ ihv ihm⟩

/-- An object is read the same off a longer text, even where it ends its own. -/
theorem parseValue_object_append {fuel fuel' : Nat} {j : Json} (hfuel : fuel ≤ fuel')
    (h : parseValue fuel (0x7B :: s) = some (j, rest)) (q : Bytes) :
    parseValue fuel' (0x7B :: s ++ q) = some (j, rest ++ q) := by
  cases fuel with
  | zero => cases h
  | succ fuel =>
    cases fuel' with
    | zero => exact absurd hfuel (Nat.not_succ_le_zero fuel)
    | succ fuel' => exact object_append (readsOn fuel).2.2 (Nat.le_of_succ_le_succ hfuel) h q

/-- The text of an object starts with a brace. -/
theorem text_object {j : Json} (h : j.isObject = true) : ∃ tail, text j = 0x7B :: tail := by
  cases j with
  | obj es =>
    cases es with
    | nil => exact ⟨_, rfl⟩
    | cons e es => exact ⟨_, rfl⟩
  | null | bool | int | float | str | arr => cases h

end JsonText

open JsonText in
theorem compactJson_refusesFronts : compactJson.RefusesFronts := by
  intro j t n hobject hstorable ht hn
  replace ht : dump j = some t := ht
  unfold dump at ht
  split at ht
  · cases ht
    show parse ((text j).take n) = none
    -- What was read off a front would be read off the whole, with the rest left over.
    have hwhole := parseValue_text (text j).length j [] hstorable (Nat.le_refl _) (by simp [Ends])
    rw [List.append_nil] at hwhole
    have hrest : (text j).drop n ≠ [] := by
      intro hnil
      have hlen := congrArg List.length hnil
      rw [List.length_drop, List.length_nil] at hlen
      omega
    obtain ⟨tail, htail⟩ := text_object hobject
    cases n with
    | zero => rfl
    | succ n =>
      have hfront : (text j).take (n + 1) = 0x7B :: tail.take n := by
        rw [htail, List.take_succ_cons]
      unfold parse
      split
      · rename_i v hv
        have hle : ((text j).take (n + 1)).length ≤ (text j).length := by
          rw [List.length_take]
          exact Nat.min_le_right _ _
        rw [hfront] at hv hle
        have hon := parseValue_object_append hle hv ((text j).drop (n + 1))
        rw [← hfront, List.take_append_drop, hwhole] at hon
        cases hrest (Prod.mk.inj (Option.some.inj hon)).2.symm
      · rfl
  · cases ht

end Choir
