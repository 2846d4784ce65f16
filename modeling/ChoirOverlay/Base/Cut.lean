-- SUMMARY: Cutting a text at the leftmost tokens of a language: which cut that is, and that there is exactly one.

/-!
# Cuts

A text is cut into tokens and single elements. The cut at the leftmost tokens
is the one where no token starts at an element that is left over; it is the one
a scan from the left finds, that tries for a token at each place and goes on
behind it.
-/

universe u v w

namespace Cut

variable {α : Type u} {τ : Type v} {β : Type w}

/-- Each piece of a cut replaced by a text. -/
def render (one : α → List β) (token : τ → List β) (ps : List (α ⊕ τ)) : List β :=
  ps.flatMap (Sum.elim one token)

/-- The text that was cut. -/
def flatten (text : τ → List α) (ps : List (α ⊕ τ)) : List α := render (fun a => [a]) text ps

/-- The tokens of a cut, in order. -/
def tokens (ps : List (α ⊕ τ)) : List τ := ps.filterMap Sum.getRight?

/-- A token is at the front of a text. -/
def Starts (text : τ → List α) (s : List α) : Prop := ∃ t rest, s = text t ++ rest

/-- A token is somewhere in a text. -/
def Occurs (text : τ → List α) (s : List α) : Prop :=
  ∃ before t after, s = before ++ text t ++ after

/-- No token starts at an element that is left over. -/
def Leftmost (text : τ → List α) : List (α ⊕ τ) → Prop
  | [] => True
  | .inl a :: ps => ¬ Starts text (a :: flatten text ps) ∧ Leftmost text ps
  | .inr _ :: ps => Leftmost text ps

/-- At most one token is at the front of a text, and it takes some of it. -/
structure Unambiguous (text : τ → List α) : Prop where
  ne_nil : ∀ t, text t ≠ []
  inj : ∀ {t t' : τ} {rest rest' : List α}, text t ++ rest = text t' ++ rest' → t = t'

variable {text : τ → List α} {one : α → List β} {token : τ → List β} {a : α} {t : τ}
variable {ps ps' : List (α ⊕ τ)} {s : List α}

@[simp] theorem render_nil : render one token ([] : List (α ⊕ τ)) = [] := rfl

@[simp] theorem render_inl : render one token (.inl a :: ps) = one a ++ render one token ps := rfl

@[simp] theorem render_inr : render one token (.inr t :: ps) = token t ++ render one token ps := rfl

@[simp] theorem render_append :
    render one token (ps ++ ps') = render one token ps ++ render one token ps' :=
  List.flatMap_append

@[simp] theorem flatten_nil : flatten text [] = [] := rfl

@[simp] theorem flatten_inl : flatten text (.inl a :: ps) = a :: flatten text ps := rfl

@[simp] theorem flatten_inr : flatten text (.inr t :: ps) = text t ++ flatten text ps := rfl

@[simp] theorem tokens_nil : tokens ([] : List (α ⊕ τ)) = [] := rfl

@[simp] theorem tokens_inl : tokens (.inl a :: ps) = tokens ps := rfl

@[simp] theorem tokens_inr : tokens (.inr t :: ps) = t :: tokens ps := rfl

@[simp] theorem tokens_append : tokens (ps ++ ps') = tokens ps ++ tokens ps' :=
  List.filterMap_append

@[simp] theorem render_map_inl {rest : List α} :
    render one token (rest.map .inl) = rest.flatMap one := by
  rw [render, List.flatMap_map]
  rfl

theorem render_eq_nil (hone : ∀ a, one a ≠ []) (htoken : ∀ t, token t ≠ [])
    (h : render one token ps = []) : ps = [] := by
  cases ps with
  | nil => rfl
  | cons p ps =>
    have hp := (List.append_eq_nil_iff.mp h).1
    cases p with
    | inl a => exact absurd hp (hone a)
    | inr t => exact absurd hp (htoken t)

/-- The front of a cut is known by what it is replaced with. -/
theorem eq_of_render_eq (hone : ∀ a, one a ≠ []) (htoken : ∀ t, token t ≠ [])
    {rest rest' : List (α ⊕ τ)} (heq : ps ++ rest = ps' ++ rest')
    (h : render one token ps = render one token ps') : ps = ps' := by
  rcases List.append_eq_append_iff.mp heq with ⟨qs, rfl, -⟩ | ⟨qs, rfl, -⟩
  · rw [render_append, List.self_eq_append_right] at h
    rw [render_eq_nil hone htoken h, List.append_nil]
  · rw [render_append, List.append_right_eq_self] at h
    rw [render_eq_nil hone htoken h, List.append_nil]

@[simp] theorem flatten_append :
    flatten text (ps ++ ps') = flatten text ps ++ flatten text ps' := render_append

@[simp] theorem flatten_map_inl {rest : List α} : flatten text (rest.map .inl) = rest := by
  simp [flatten]

@[simp] theorem tokens_map_inl {rest : List α} :
    tokens (rest.map .inl : List (α ⊕ τ)) = [] := by
  simp [tokens]

/-- Elements no token starts with are left over. -/
theorem Leftmost.map_inl_append {rest : List α} (hrest : ∀ a ∈ rest, ∀ s, ¬ Starts text (a :: s))
    (h : Leftmost text ps) : Leftmost text (rest.map .inl ++ ps) := by
  induction rest with
  | nil => exact h
  | cons a rest ih =>
    obtain ⟨ha, hrest⟩ := List.forall_mem_cons.mp hrest
    exact ⟨ha _, ih hrest⟩

theorem Occurs.append_left (rest : List α) (h : Occurs text s) : Occurs text (rest ++ s) := by
  obtain ⟨before, t, after, rfl⟩ := h
  exact ⟨rest ++ before, t, after, by simp only [List.append_assoc]⟩

theorem Starts.occurs (h : Starts text s) : Occurs text s := by
  obtain ⟨t, rest, rfl⟩ := h
  exact ⟨[], t, rest, rfl⟩

theorem occurs_of_mem_tokens (h : t ∈ tokens ps) : Occurs text (flatten text ps) := by
  induction ps with
  | nil => cases h
  | cons p ps ih =>
    cases p with
    | inl a => exact (ih h).append_left [a]
    | inr t' =>
      rcases List.mem_cons.mp h with rfl | h
      · exact Starts.occurs ⟨t, flatten text ps, rfl⟩
      · exact (ih h).append_left _

/-- Where the leftmost cut has no tokens there are none. -/
theorem Leftmost.not_occurs (htext : Unambiguous text) (h : Leftmost text ps)
    (htokens : tokens ps = []) : ¬ Occurs text (flatten text ps) := by
  induction ps with
  | nil =>
    rintro ⟨before, t, after, heq⟩
    exact htext.ne_nil t (List.append_eq_nil_iff.mp (List.append_eq_nil_iff.mp heq.symm).1).2
  | cons p ps ih =>
    cases p with
    | inr t => cases htokens
    | inl a =>
      rintro ⟨before, t, after, heq⟩
      cases before with
      | nil => exact h.1 ⟨t, after, heq⟩
      | cons b before =>
        obtain ⟨-, hrest⟩ := List.cons.inj heq
        exact ih h.2 htokens ⟨before, t, after, hrest⟩

/-- A text has at most one cut. By induction on one of them. -/
theorem Leftmost.unique (htext : Unambiguous text) (h : Leftmost text ps)
    (h' : Leftmost text ps') (heq : flatten text ps = flatten text ps') : ps = ps' := by
  induction ps generalizing ps' with
  | nil =>
    cases ps' with
    | nil => rfl
    | cons p ps' =>
      cases p with
      | inl a => cases heq
      | inr t => exact absurd (List.append_eq_nil_iff.mp heq.symm).1 (htext.ne_nil t)
  | cons p ps ih =>
    cases p with
    | inl a =>
      cases ps' with
      | nil => cases heq
      | cons p' ps' =>
        cases p' with
        | inl a' =>
          obtain ⟨rfl, hrest⟩ := List.cons.inj heq
          rw [ih h.2 h'.2 hrest]
        | inr t' => exact absurd ⟨t', flatten text ps', heq⟩ h.1
    | inr t =>
      cases ps' with
      | nil => exact absurd (List.append_eq_nil_iff.mp heq).1 (htext.ne_nil t)
      | cons p' ps' =>
        cases p' with
        | inl a' => exact absurd ⟨t, flatten text ps, heq.symm⟩ h'.1
        | inr t' =>
          obtain rfl : t = t' := htext.inj heq
          rw [flatten_inr, flatten_inr, List.append_cancel_left_eq] at heq
          have hps' : Leftmost text ps' := h'
          rw [ih h hps' heq]

/-- Every text has one. By induction on the length. -/
theorem exists_leftmost (htext : Unambiguous text) (s : List α) :
    ∃ ps, flatten text ps = s ∧ Leftmost text ps := by
  by_cases hstarts : Starts text s
  · obtain ⟨t, rest, hs⟩ := hstarts
    have hlt : rest.length < s.length := by
      have hpos := List.length_pos_iff.mpr (htext.ne_nil t)
      rw [hs, List.length_append]
      omega
    obtain ⟨ps, hrest, hps⟩ := exists_leftmost htext rest
    exact ⟨.inr t :: ps, by rw [flatten_inr, hrest, hs], hps⟩
  · cases s with
    | nil => exact ⟨[], rfl, trivial⟩
    | cons a rest =>
      obtain ⟨ps, rfl, hps⟩ := exists_leftmost htext rest
      exact ⟨.inl a :: ps, rfl, hstarts, hps⟩
termination_by s.length
decreasing_by
  · exact hlt
  · exact Nat.lt_succ_self _

end Cut
