-- SUMMARY: When every draw of the interposer uses a renderer that was initialised in the context it draws in.
import ChoirOverlay.Gl.Interposer
import ChoirOverlay.Machine.Run

/-!
# Contexts and their renderers

`g_ctxs` is the state under handles of `Machine.Handles`: a drawing swap uses
it, the destroy hooks drop it. A context that is destroyed by a pointer from
`dlsym` or `GetProcAddress`, or swapped once more after the hook ran, leaves
its state to the next context of the handle.
-/

namespace Choir

/-- The state of a context, as its handle's history tells it. -/
def CtxState.ofEntry (e : Handles.Entry) : CtxState :=
  { ready := e.ok, skip := !e.ok, initialisedFor := if e.ok then some e.madeFor else none }

namespace GlProcess

variable {g : GlProcess} {ctx : GlContext} {env : SwapEnv}

/-- The map holds what the history tells. -/
def Kept (g : GlProcess) : Prop :=
  ∀ ctx, g.ctxs.lookup ctx = (Handles.entry ctx g.history).map CtxState.ofEntry

/-- Every draw was made with a renderer of its own context. -/
def DrawsOwn (g : GlProcess) : Prop := ∀ d ∈ g.draws, d.initialisedFor = some d.incarnation

/-- A swap that draws is not made on stale state: a renderer set up under the
    handle before the present context had it, and not dropped by a destroy hook. -/
def Fresh (g : GlProcess) : Call → Prop
  | .enter entry route ctx env =>
    g.swaps entry route ctx = true → ctx ≠ 0 → env.draws = true →
      Handles.stale ctx g.history = false
  | .create _ | .free _ => True

instance (g : GlProcess) : DecidablePred g.Fresh := fun c => by
  unfold Fresh
  split <;> infer_instance

/-! ## One swap -/

/-- The state a drawing swap leaves, and the draw it makes when that works. -/
theorem drawOverlayFor_eq (h : g.Kept) (hctx : ctx ≠ 0) (hdraws : env.draws = true) :
    ∃ e, Handles.entry ctx (.use ctx env.initOk :: g.history) = some e ∧
      g.drawOverlayFor env ctx =
        { g with
          history := .use ctx env.initOk :: g.history
          ctxs := g.ctxs.insert ctx (.ofEntry e)
          draws := if e.ok then ⟨ctx, g.incarnation ctx, some e.madeFor⟩ :: g.draws
            else g.draws } := by
  unfold drawOverlayFor
  rw [if_neg (by simp [hctx, hdraws])]
  simp only [h ctx]
  rw [Handles.entry, if_pos rfl]
  cases hentry : Handles.entry ctx g.history with
  | none =>
    -- The first drawing swap since the state was last dropped sets the renderer up.
    refine ⟨⟨g.incarnation ctx, env.initOk⟩, rfl, ?_⟩
    cases hok : env.initOk <;> rfl
  | some e =>
    obtain ⟨madeFor, ok⟩ := e
    refine ⟨⟨madeFor, ok⟩, rfl, ?_⟩
    cases ok <;> rfl

/-- The history of a drawing swap decides about the state as the one before it. -/
theorem stale_use (ok : Bool) :
    Handles.stale ctx (.use ctx ok :: g.history) = Handles.stale ctx g.history := rfl

theorem Kept.drawOverlayFor (h : g.Kept) : (g.drawOverlayFor env ctx).Kept := by
  by_cases hgate : ctx = 0 ∨ env.draws = false
  · rw [GlProcess.drawOverlayFor, if_pos (by simpa using hgate)]
    exact h
  · rw [not_or, Bool.not_eq_false] at hgate
    obtain ⟨e, he, heq⟩ := drawOverlayFor_eq h hgate.1 hgate.2
    rw [heq]
    intro other
    by_cases ho : other = ctx
    · subst ho
      simp only [AList.lookup_insert, he, Option.map_some]
    · rw [AList.lookup_insert_ne ho, h other, Handles.entry, if_neg (Ne.symm ho)]

theorem Kept.destroyCtx (h : g.Kept) : (g.destroyCtx ctx).Kept := by
  intro other
  by_cases ho : other = ctx
  · subst ho
    simp [GlProcess.destroyCtx, Handles.entry]
  · simp only [GlProcess.destroyCtx, AList.lookup_erase_ne ho, h other, Handles.entry,
      if_neg (Ne.symm ho)]

theorem Kept.step (h : g.Kept) (c : Call) : (g.step c).Kept := by
  cases c with
  | create ctx =>
    simp only [GlProcess.step]
    split
    · exact h
    · exact h
  | free ctx => exact h
  | enter entry route ctx env =>
    simp only [GlProcess.step]
    split
    · exact h.drawOverlayFor
    split
    · exact h.destroyCtx
    · exact h

/-- A swap adds a draw with the context's own renderer, or none, exactly when it
    is not made on stale state. -/
theorem drawOverlayFor_drawsOwn (h : g.Kept) :
    (g.drawOverlayFor env ctx).DrawsOwn ↔
      g.DrawsOwn ∧ (ctx ≠ 0 → env.draws = true → Handles.stale ctx g.history = false) := by
  by_cases hgate : ctx = 0 ∨ env.draws = false
  · rw [GlProcess.drawOverlayFor, if_pos (by simpa using hgate)]
    refine (and_iff_left fun hctx hdraws => ?_).symm
    rcases hgate with hnull | hoff
    · exact absurd hnull hctx
    · rw [hoff] at hdraws
      cases hdraws
  · rw [not_or, Bool.not_eq_false] at hgate
    obtain ⟨e, he, heq⟩ := drawOverlayFor_eq h hgate.1 hgate.2
    rw [heq, imp_iff_right hgate.1, imp_iff_right hgate.2]
    cases hok : e.ok with
    | true =>
      have hown := (Handles.madeFor_eq_iff he hok).2
      rw [stale_use] at hown
      rw [← hown, and_comm]
      simp only [DrawsOwn, if_true, List.forall_mem_cons, Option.some.injEq]
      rfl
    | false =>
      refine (and_iff_left ?_).symm
      rw [← stale_use env.initOk, Bool.eq_false_iff]
      intro hstale
      have hentry := Handles.entry_ok_of_stale hstale
      rw [he, Option.any_some, hok] at hentry
      cases hentry

/-! ## Runs -/

theorem step_drawsOwn (h : g.Kept) (c : Call) : (g.step c).DrawsOwn ↔ g.DrawsOwn ∧ g.Fresh c := by
  cases c with
  | create ctx =>
    simp only [step]
    split <;> exact (and_iff_left trivial).symm
  | free ctx => exact (and_iff_left trivial).symm
  | enter entry route ctx env =>
    simp only [step, Fresh]
    split
    · rename_i hswaps
      rw [drawOverlayFor_drawsOwn h, imp_iff_right hswaps]
    · rename_i hswaps
      have hfresh : g.swaps entry route ctx = true → ctx ≠ 0 → env.draws = true →
          Handles.stale ctx g.history = false := fun hs => absurd hs hswaps
      split
      · exact (and_iff_left hfresh).symm
      · exact (and_iff_left hfresh).symm

/-- Over any run of a game, whatever handles the driver uses again: every draw
    uses a renderer that was initialised in the context it draws in, exactly
    when no drawing swap is made on stale state. -/
theorem run_drawsOwn_iff (calls : List Call) :
    (Machine.run step {} calls).DrawsOwn ↔ Machine.Along step Fresh {} calls := by
  have hkept : Kept {} := fun ctx => by simp [Handles.entry]
  have hnone : DrawsOwn {} := fun d hd => absurd hd List.not_mem_nil
  rw [Machine.run_iff_along (fun g c hg => Kept.step hg c) (fun g c hg => step_drawsOwn hg c) hkept,
    and_iff_right hnone]

/-- A game that got its destroy function from `dlsym`, and whose second context
    has the handle of the first. -/
def reusedHandle : List Call :=
  let env : SwapEnv := { client := { latest := some { inVoice := true } } }
  [.create 1, .enter .eglSwapBuffers .linked 1 env,
    .enter .eglDestroyContext (.dlsym false) 1 {}, .free 1, .create 1,
    .enter .eglSwapBuffers .linked 1 env]

/-- The second context is drawn in with the renderer of the first. -/
theorem reusedHandle_draws_stale : ¬ (Machine.run step {} reusedHandle).DrawsOwn := by
  intro h
  have hdraws : (Machine.run step {} reusedHandle).draws =
      [⟨1, 2, some 1⟩, ⟨1, 1, some 1⟩] := by decide +kernel
  have hfirst := h ⟨1, 2, some 1⟩ (by rw [hdraws]; exact List.mem_cons_self)
  cases hfirst

end GlProcess

end Choir
