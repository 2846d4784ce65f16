-- SUMMARY: Runs of a deterministic machine over a list of inputs, and the rules that carry a property along them.

/-!
# Runs

A machine is a step function on states and inputs. The environment's choices
are part of the inputs, so a machine is deterministic and a run is a fold.

`Along good s es` says that every input of the run meets `good` in the state it
finds. A property that good inputs preserve holds after the run; when bad
inputs are exactly the ones that break it, the two statements are equivalent.
-/

universe u v w

namespace Machine

variable {σ : Type u} {ε : Type v}

/-- The state after the inputs `es`, from `s`. -/
def run (step : σ → ε → σ) (s : σ) (es : List ε) : σ := es.foldl step s

variable {step : σ → ε → σ}

@[simp] theorem run_nil (s : σ) : run step s [] = s := rfl

@[simp] theorem run_cons (s : σ) (e : ε) (es : List ε) :
    run step s (e :: es) = run step (step s e) es := rfl

@[simp] theorem run_append (s : σ) (es es' : List ε) :
    run step s (es ++ es') = run step (run step s es) es' := List.foldl_append ..

/-- What every step preserves holds after any run. -/
theorem run_invariant {P : σ → Prop} (hstep : ∀ s e, P s → P (step s e)) {s : σ} (h : P s)
    (es : List ε) : P (run step s es) := by
  induction es generalizing s with
  | nil => exact h
  | cons e es ih => exact ih (hstep s e h)

/-- Every input of the run meets `good` in the state it finds. -/
def Along (step : σ → ε → σ) (good : σ → ε → Prop) : σ → List ε → Prop
  | _, [] => True
  | s, e :: es => good s e ∧ Along step good (step s e) es

variable {good : σ → ε → Prop} {P : σ → Prop}

instance decidableAlong [∀ s e, Decidable (good s e)] :
    (s : σ) → (es : List ε) → Decidable (Along step good s es)
  | _, [] => .isTrue trivial
  | s, e :: es =>
    have := decidableAlong (step s e) es
    inferInstanceAs (Decidable (good s e ∧ Along step good (step s e) es))

@[simp] theorem along_nil (s : σ) : Along step good s [] := trivial

@[simp] theorem along_cons (s : σ) (e : ε) (es : List ε) :
    Along step good s (e :: es) ↔ good s e ∧ Along step good (step s e) es := Iff.rfl

@[simp] theorem along_append (s : σ) (es es' : List ε) :
    Along step good s (es ++ es') ↔
      Along step good s es ∧ Along step good (run step s es) es' := by
  induction es generalizing s with
  | nil => simp
  | cons e es ih => simp only [List.cons_append, along_cons, run_cons, ih, and_assoc]

/-- Inputs that are good in any state. -/
theorem along_of_forall {good : ε → Prop} {s : σ} {es : List ε} (h : ∀ e ∈ es, good e) :
    Along step (fun _ => good) s es := by
  induction es generalizing s with
  | nil => trivial
  | cons e es ih =>
    exact ⟨h e List.mem_cons_self, ih fun e he => h e (List.mem_cons_of_mem _ he)⟩

theorem Along.imp {good' : σ → ε → Prop} (himp : ∀ s e, good s e → good' s e) {s : σ}
    {es : List ε} (h : Along step good s es) : Along step good' s es := by
  induction es generalizing s with
  | nil => trivial
  | cons e es ih => exact ⟨himp s e h.1, ih h.2⟩

theorem Along.and {good' : σ → ε → Prop} {s : σ} {es : List ε} (h : Along step good s es)
    (h' : Along step good' s es) : Along step (fun s e => good s e ∧ good' s e) s es := by
  induction es generalizing s with
  | nil => trivial
  | cons e es ih => exact ⟨⟨h.1, h'.1⟩, ih h.2 h'.2⟩

/-- A run of good inputs begins with one. -/
theorem Along.of_prefix {s : σ} {pre es : List ε} (h : Along step good s es) (hpre : pre <+: es) :
    Along step good s pre := by
  obtain ⟨post, rfl⟩ := hpre
  exact ((along_append s pre post).mp h).1

/-- A property that good inputs preserve holds after a run of good inputs. -/
theorem Along.invariant (hstep : ∀ s e, P s → good s e → P (step s e)) {s : σ} {es : List ε}
    (h : Along step good s es) (hs : P s) : P (run step s es) := by
  induction es generalizing s with
  | nil => exact hs
  | cons e es ih => exact ih h.2 (hstep s e hs h.1)

/-- A relation to another machine that good inputs preserve holds after a run of good inputs. -/
theorem Along.related {σ' : Type w} {step' : σ' → ε → σ'} {R : σ → σ' → Prop}
    (hstep : ∀ s s' e, R s s' → good s e → R (step s e) (step' s' e)) {s : σ} {s' : σ'}
    {es : List ε} (h : Along step good s es) (hs : R s s') :
    R (run step s es) (run step' s' es) := by
  induction es generalizing s s' with
  | nil => exact hs
  | cons e es ih => exact ih h.2 (hstep s s' e hs h.1)

/-- What good inputs have in the states of an invariant, the inputs of a good
    run have. -/
theorem Along.imp_of_invariant {good' : σ → ε → Prop}
    (hstep : ∀ s e, P s → good s e → P (step s e)) (himp : ∀ s e, P s → good s e → good' s e)
    {s : σ} {es : List ε} (h : Along step good s es) (hs : P s) : Along step good' s es := by
  induction es generalizing s with
  | nil => trivial
  | cons e es ih => exact ⟨himp s e hs h.1, ih h.2 (hstep s e hs h.1)⟩

/-- When an input breaks `P` exactly when it is bad, a run keeps `P` in every
    state it passes exactly when all its inputs are good. -/
theorem forall_prefix_iff_along (hstep : ∀ s e, P s → (P (step s e) ↔ good s e)) {s : σ}
    (hs : P s) (es : List ε) :
    (∀ pre, pre <+: es → P (run step s pre)) ↔ Along step good s es := by
  constructor
  · intro h
    induction es generalizing s with
    | nil => trivial
    | cons e es ih =>
      have he : P (step s e) := h [e] (List.prefix_append [e] es)
      refine ⟨(hstep s e hs).mp he, ih he ?_⟩
      intro pre hpre
      exact h (e :: pre) (List.cons_prefix_cons.mpr ⟨rfl, hpre⟩)
  · rintro h pre ⟨post, rfl⟩
    exact ((along_append s pre post).mp h).1.invariant (fun s e hs hg => (hstep s e hs).mpr hg) hs

/-- A property of what a run has left behind: each step keeps it and adds to it
    exactly when its input is good. -/
theorem run_iff_along {Inv : σ → Prop} (hinv : ∀ s e, Inv s → Inv (step s e))
    (hstep : ∀ s e, Inv s → (P (step s e) ↔ P s ∧ good s e)) {s : σ} (hs : Inv s) (es : List ε) :
    P (run step s es) ↔ P s ∧ Along step good s es := by
  induction es generalizing s with
  | nil => simp
  | cons e es ih => rw [run_cons, ih (hinv s e hs), hstep s e hs, along_cons, and_assoc]

/-- A number that every step can keep or raise can be chosen along a whole run so
    that it never falls. By induction from the end of the run. -/
theorem exists_rising {P : List ε → Nat → Prop} {es : List ε} {k : Nat} (hinit : P [] k)
    (hstep : ∀ pre e k, pre ++ [e] <+: es → P pre k → ∃ k', k ≤ k' ∧ P (pre ++ [e]) k') :
    ∃ level : Nat → Nat, (∀ m n, m ≤ n → level m ≤ level n) ∧ ∀ n, P (es.take n) (level n) := by
  suffices h : ∀ len, len ≤ es.length → ∃ level : Nat → Nat,
      (∀ m n, m ≤ n → level m ≤ level n) ∧ ∀ n, n ≤ len → P (es.take n) (level n) by
    obtain ⟨level, hmono, hlevel⟩ := h es.length (Nat.le_refl _)
    refine ⟨fun n => level (min n es.length), fun m n hmn => hmono _ _ (by omega), fun n => ?_⟩
    have hn := hlevel (min n es.length) (Nat.min_le_right ..)
    rwa [List.take_eq_take_min]
  intro len
  induction len with
  | zero =>
    refine fun _ => ⟨fun _ => k, fun _ _ _ => Nat.le_refl _, fun n hn => ?_⟩
    rw [Nat.le_zero.mp hn]
    exact hinit
  | succ len ih =>
    intro hlen
    obtain ⟨level, hmono, hlevel⟩ := ih (Nat.le_of_lt hlen)
    have htake : es.take (len + 1) = es.take len ++ [es[len]] :=
      List.take_succ_eq_append_getElem hlen
    obtain ⟨k', hk', hP⟩ := hstep (es.take len) es[len] (level len)
      (htake ▸ List.take_prefix _ _) (hlevel len (Nat.le_refl _))
    refine ⟨fun n => if n ≤ len then level n else k', fun m n hmn => ?_, fun n hn => ?_⟩
    · by_cases hn : n ≤ len
      · simpa only [if_pos hn, if_pos (Nat.le_trans hmn hn)] using hmono m n hmn
      · simp only [if_neg hn]
        split
        · rename_i hm
          exact Nat.le_trans (hmono m len hm) hk'
        · exact Nat.le_refl _
    · dsimp only
      split
      · rename_i hle
        exact hlevel n hle
      · rename_i hnot
        obtain rfl : n = len + 1 := by omega
        rw [htake]
        exact hP

/-! ## Steps that may fail -/

variable {φ : Type u} {stepM : σ → ε → Except φ σ}

/-- A computation returns when its first part does and the rest does from there. -/
theorem bind_eq_ok {α β : Type v} {x : Except φ α} {f : α → Except φ β} {r : β} :
    (x >>= f) = .ok r ↔ ∃ a, x = .ok a ∧ f a = .ok r := by
  cases x with
  | error fault => simp [bind, Except.bind]
  | ok a => simp [bind, Except.bind]

/-- The state after the inputs `es`, when every step returns one. -/
def runM (stepM : σ → ε → Except φ σ) (s : σ) (es : List ε) : Except φ σ := es.foldlM stepM s

theorem runM_cons (s : σ) (e : ε) (es : List ε) :
    runM stepM s (e :: es) = (stepM s e >>= fun s' => runM stepM s' es) := rfl

/-- A run returns when its first step does and the rest does from there. -/
theorem runM_cons_eq_ok {s t : σ} {e : ε} {es : List ε} :
    runM stepM s (e :: es) = .ok t ↔ ∃ s', stepM s e = .ok s' ∧ runM stepM s' es = .ok t := by
  rw [runM_cons, bind_eq_ok]

theorem runM_append_eq_ok {s t : σ} {es es' : List ε} :
    runM stepM s (es ++ es') = .ok t ↔ ∃ m, runM stepM s es = .ok m ∧ runM stepM m es' = .ok t := by
  rw [runM, List.foldlM_append, bind_eq_ok]
  rfl

theorem runM_singleton (s : σ) (e : ε) : runM stepM s [e] = stepM s e := by
  rw [runM_cons]
  cases stepM s e <;> rfl

/-- What every step that returns preserves holds where a run returns. -/
theorem runM_invariant {P : σ → Prop} (es : List ε)
    (hstep : ∀ s e s', e ∈ es → P s → stepM s e = .ok s' → P s') {s t : σ} (h : P s)
    (hrun : runM stepM s es = .ok t) : P t := by
  induction es generalizing s with
  | nil =>
    obtain rfl : s = t := Except.ok.inj hrun
    exact h
  | cons e es ih =>
    obtain ⟨s', hs', hrest⟩ := runM_cons_eq_ok.mp hrun
    exact ih (fun s e' t he => hstep s e' t (List.mem_cons_of_mem _ he))
      (hstep s e s' List.mem_cons_self h hs') hrest

end Machine
