-- SUMMARY: What a process shows comes from the history of the session and never goes back.
import ChoirOverlay.System.Deployment

/-!
# Views

At any moment of a run a process shows what some beginning of the history
says, also while frames are on their way and after its connection has ended.
The beginning only grows: a later view is never of an earlier session.
-/

namespace Choir

namespace Deployment

variable {loc : Locale} {lib : JsonLib} {cfg : Config} {d : Deployment} {h : List OverlayInput}
variable {es : List Event} {frames sent : List Frame} {k : Nat} {p : Nat}

/-- The snapshot the reducer has after the first `k` inputs. -/
def viewAt (h : List OverlayInput) (k : Nat) : Snapshot := (OverlayState.after (h.take k)).snap

/-- Frames that bring a view of the first `k` inputs forward, and never back. -/
def Trails (lib : JsonLib) (h : List OverlayInput) : Nat → List Frame → Prop
  | k, [] => k ≤ h.length
  | k, f :: frames =>
    if f.type = .snapshot then
      ∃ m, k ≤ m ∧ (viewAt h m).toJsonStr lib = some f.payload ∧ Trails lib h m frames
    else Trails lib h k frames

theorem viewAt_length (h : List OverlayInput) :
    viewAt h h.length = (OverlayState.after h).snap := by
  rw [viewAt, List.take_length]

theorem viewAt_append {more : List OverlayInput} (hk : k ≤ h.length) :
    viewAt (h ++ more) k = viewAt h k := by
  rw [viewAt, List.take_append_of_le_length hk, viewAt]

theorem Trails.le (ht : Trails lib h k frames) : k ≤ h.length := by
  induction frames generalizing k with
  | nil => exact ht
  | cons f frames ih =>
    rw [Trails] at ht
    split at ht
    · obtain ⟨m, hkm, -, hrest⟩ := ht
      exact hkm.trans (ih hrest)
    · exact ih ht

/-- The history goes on. -/
theorem Trails.extend (ht : Trails lib h k frames) (more : List OverlayInput) :
    Trails lib (h ++ more) k frames := by
  induction frames generalizing k with
  | nil =>
    rw [Trails, List.length_append]
    exact Nat.le_add_right_of_le ht
  | cons f frames ih =>
    rw [Trails] at ht ⊢
    split
    · rename_i htype
      rw [if_pos htype] at ht
      obtain ⟨m, hkm, htext, hrest⟩ := ht
      exact ⟨m, hkm, by rw [viewAt_append hrest.le, htext], ih hrest⟩
    · rename_i htype
      rw [if_neg htype] at ht
      exact ih ht

/-- Frames that carry the latest snapshot are put at the end. -/
theorem Trails.send (ht : Trails lib h k frames)
    (hsent : ∀ f ∈ sent, f.type = .snapshot → (viewAt h h.length).toJsonStr lib = some f.payload) :
    Trails lib h k (frames ++ sent) := by
  induction frames generalizing k with
  | nil =>
    rw [List.nil_append]
    induction sent generalizing k with
    | nil => exact ht
    | cons f sent ih =>
      have hlater {k : Nat} (hk : Trails lib h k []) : Trails lib h k sent :=
        ih (fun g hg => hsent g (List.mem_cons_of_mem _ hg)) hk
      rw [Trails]
      split
      · rename_i htype
        exact ⟨h.length, ht, hsent f List.mem_cons_self htype, hlater (Nat.le_refl h.length)⟩
      · exact hlater ht
  | cons f frames ih =>
    rw [List.cons_append, Trails]
    rw [Trails] at ht
    split
    · rename_i htype
      rw [if_pos htype] at ht
      obtain ⟨m, hkm, htext, hrest⟩ := ht
      exact ⟨m, hkm, htext, ih hrest⟩
    · rename_i htype
      rw [if_neg htype] at ht
      exact ih ht

/-- What a process shows is the view of the first `k` inputs, if it has seen
    any. -/
def Sees (h : List OverlayInput) (k : Nat) (c : StateClient) : Prop :=
  ∀ snap, c.latest = some snap → snap = viewAt h k

theorem Sees.congr {c c' : StateClient} (hs : Sees h k c) (hshown : c'.shown = c.shown) :
    Sees h k c' := by
  intro snap hsnap
  rw [StateClient.shown, StateClient.shown, Prod.mk.injEq] at hshown
  exact hs snap (hshown.1 ▸ hsnap)

/-- Taking frames moves the view forward. By induction on the frames. -/
theorem Trails.take {c : StateClient} {left : List Frame} (hserv : Servable lib h)
    (ht : Trails lib h k (frames ++ left)) (hs : Sees h k c) :
    ∃ m, k ≤ m ∧ Trails lib h m left ∧
      Sees h m (frames.foldl (StateClient.dispatch lib) c) := by
  induction frames generalizing k c with
  | nil => exact ⟨k, Nat.le_refl k, ht, hs⟩
  | cons f frames ih =>
    rw [List.cons_append, Trails] at ht
    rw [List.foldl_cons]
    have hseen := congrArg Replica.latest (StateClient.dispatch_replica lib c f)
    split at ht
    · rename_i htype
      obtain ⟨m, hkm, htext, hrest⟩ := ht
      have hback := (hserv _ (List.take_prefix m h)).roundTrips
      have hnew : (StateClient.dispatch lib c f).latest = some (viewAt h m) := by
        obtain ⟨type, payload⟩ := f
        obtain rfl : type = .snapshot := htype
        rw [Replica.see_snapshot hback htext] at hseen
        exact hseen
      obtain ⟨n, hmn, hleft, hlater⟩ := ih hrest fun snap hsnap =>
        Option.some.inj (hsnap.symm.trans hnew)
      exact ⟨n, hkm.trans hmn, hleft, hlater⟩
    · rename_i htype
      refine ih ht fun snap hsnap => hs snap ?_
      rw [← hsnap]
      refine Eq.symm (hseen.trans ?_)
      unfold Replica.see
      cases hf : f.type with
      | snapshot => exact absurd hf htype
      | avatarReady =>
        simp only
        split
        · split <;> rfl
        · rfl
      | hello | disabled | ping | pong | unknown => rfl

/-- A process shows a view of the history, and what is on its way to it leads
    from there towards the latest one. -/
structure View (lib : JsonLib) (h : List OverlayInput) (p : Nat) (k : Nat) (d : Deployment) :
    Prop where
  le : k ≤ h.length
  sees : Sees h k (d.world.procs p)
  trails : ∀ sock, d.world.link p = some sock →
    ∃ frames, d.world.Pipe p sock frames ∧ Trails lib h k frames

theorem view_init (cfg : Config) (procs : Nat → ProcSelf) (p : Nat) :
    View lib (history cfg []) p 0 (init loc cfg procs) where
  le := Nat.zero_le _
  sees snap hsnap := by cases hsnap
  trails sock hlink := by cases hlink

/-- One event keeps the view or moves it forward. -/
theorem View.step {e : Event} (hv : View lib h p k d) (hd : d.Inv lib h)
    (hserv : Servable lib (h ++ e.input?.toList)) (he : e.Modest lib) :
    ∃ k', k ≤ k' ∧ View lib (h ++ e.input?.toList) p k' (d.step loc lib e) := by
  obtain ⟨hinv, hmoves⟩ := step_spec hd hserv he p
  have hsees : Sees (h ++ e.input?.toList) k (d.world.procs p) := fun snap hsnap =>
    (hv.sees snap hsnap).trans (viewAt_append hv.le).symm
  have hle : k ≤ (h ++ e.input?.toList).length := by
    rw [List.length_append]
    exact Nat.le_add_right_of_le hv.le
  cases hlink : d.world.link p with
  | none =>
    obtain ⟨hshown, hopens⟩ := hmoves.opens hlink
    refine ⟨k, Nat.le_refl k, hle, hsees.congr hshown, fun sock hsock => ?_⟩
    rcases hopens with hnone | hpipe
    · exact absurd (hsock.symm.trans hnone) (by simp)
    · obtain rfl := Option.some.inj (hsock.symm.trans hpipe.link)
      exact ⟨[], hpipe, hle⟩
  | some sock =>
    obtain ⟨frames, hpipe, htrails⟩ := hv.trails sock hlink
    rcases hmoves.flows sock frames hpipe with ⟨hnone, hshown⟩ | hflow
    · exact ⟨k, Nat.le_refl k, hle, hsees.congr hshown, fun sock' hsock' =>
        absurd (hsock'.symm.trans hnone) (by simp)⟩
    · obtain ⟨taken, left, sent, rfl, hpipe', hshown, hsent⟩ := hflow
      have hup := hinv.world.alive p sock hpipe'.link
      have hserved : (d.step loc lib e).world.server.current =
          viewAt (h ++ e.input?.toList) (h ++ e.input?.toList).length := by
        rw [viewAt_length, hinv.current hup, hinv.overlay hup]
      have hall : Trails lib (h ++ e.input?.toList) k (taken ++ left ++ sent) :=
        (htrails.extend e.input?.toList).send fun f hf htype =>
          hserved ▸ (hsent f hf).1.snapshot htype
      rw [List.append_assoc] at hall
      obtain ⟨m, hkm, hleft, hseen⟩ := hall.take hserv hsees
      refine ⟨m, hkm, hleft.le, hseen.congr hshown, fun sock' hsock' => ?_⟩
      obtain rfl := Option.some.inj (hsock'.symm.trans hpipe'.link)
      exact ⟨left ++ sent, hpipe', hleft⟩

/-- Whatever a process shows in the course of a run, on whatever connection and
    however much is still on its way: it is what the reducer made of a beginning
    of the history, and that beginning never gets shorter. -/
theorem views_never_go_back (loc : Locale) (lib : JsonLib) (cfg : Config) (procs : Nat → ProcSelf)
    (es : List Event) (hserv : Servable lib (history cfg es)) (hes : ∀ e ∈ es, e.Modest lib)
    (p : Nat) :
    ∃ level : Nat → Nat, (∀ m n, m ≤ n → level m ≤ level n) ∧ ∀ n,
      let d := Machine.run (step loc lib) (init loc cfg procs) (es.take n)
      level n ≤ (history cfg (es.take n)).length ∧
      ∀ snap, (d.world.procs p).latest = some snap →
        snap = (OverlayState.after ((history cfg es).take (level n))).snap ∧
        Pictures ((history cfg es).take (level n)) snap := by
  have hrises : ∀ pre e k, pre ++ [e] <+: es →
      View lib (history cfg pre) p k (Machine.run (step loc lib) (init loc cfg procs) pre) →
      ∃ k', k ≤ k' ∧ View lib (history cfg (pre ++ [e])) p k'
        (Machine.run (step loc lib) (init loc cfg procs) (pre ++ [e])) := by
    intro pre e k hpre hv
    have hbefore : Servable lib (history cfg (pre ++ [e])) :=
      hserv.of_front (history_front cfg hpre)
    have hmodest : ∀ e' ∈ pre ++ [e], e'.Modest lib := fun e' he' => hes e' (hpre.subset he')
    have hd : (Machine.run (step loc lib) (init loc cfg procs) pre).Inv lib (history cfg pre) :=
      run_inv cfg procs (hbefore.of_front (history_front cfg (List.prefix_append _ _)))
        fun e' he' => hmodest e' (List.mem_append_left _ he')
    rw [Machine.run_append, Machine.run_cons, Machine.run_nil]
    rw [history_concat] at hbefore ⊢
    exact hv.step hd hbefore (hmodest e (by simp))
  obtain ⟨level, hmono, hlevel⟩ := Machine.exists_rising (view_init cfg procs p) hrises
  refine ⟨level, hmono, fun n => ?_⟩
  have hv := hlevel n
  refine ⟨hv.le, fun snap hsnap => ?_⟩
  obtain ⟨more, hmore⟩ := history_front cfg (List.take_prefix n es)
  have hview : snap = viewAt (history cfg es) (level n) := by
    rw [hv.sees snap hsnap, ← hmore, viewAt_append hv.le]
  rw [hview]
  exact ⟨rfl, pictures_after _⟩

/-- The views of a short session. -/
theorem views_never_go_back_joining :
    ∃ level : Nat → Nat, (∀ m n, m ≤ n → level m ≤ level n) ∧ ∀ n,
      let d := Machine.run (step .posix compactJson) (init .posix {} fun _ => {}) (joining.take n)
      level n ≤ (history {} (joining.take n)).length ∧
      ∀ snap, (d.world.procs 0).latest = some snap →
        snap = (OverlayState.after ((history {} joining).take (level n))).snap ∧
        Pictures ((history {} joining).take (level n)) snap :=
  views_never_go_back .posix compactJson {} (fun _ => {}) joining joining_servable joining_modest 0

end Deployment

end Choir
