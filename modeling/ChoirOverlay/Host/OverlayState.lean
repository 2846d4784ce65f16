-- SUMMARY: The reducer that folds RPC events into the snapshot, and what each event does to the roster.
import ChoirOverlay.Discord.Messages
import Mathlib.Data.List.InsertIdx
import Mathlib.Data.List.Nodup

/-! # OverlayState -/

namespace Choir

/-- `kMaxNotifications`. -/
def kMaxNotifications : Nat := 20

structure OverlayState where
  /-- `snap_`. -/
  snap : Snapshot := {}
  /-- `index_`: the position of each user in the roster. -/
  index : Bytes → Option Nat := fun _ => none
  /-- The snapshots `on_change` was fired with, newest first. -/
  changes : List Snapshot := []

namespace OverlayState

def commit (s : OverlayState) : OverlayState :=
  let snap := { s.snap with revision := s.snap.revision + 1 }
  { s with snap, changes := snap :: s.changes }

/-- Bind a user to a position. -/
def bind (index : Bytes → Option Nat) (user : Bytes) (pos : Nat) : Bytes → Option Nat :=
  fun u => if u = user then some pos else index u

/-- The index built from scratch over a roster that starts at position `pos`. -/
def reindex (index : Bytes → Option Nat) (pos : Nat) : List Participant → Bytes → Option Nat
  | [] => index
  | p :: rest => reindex (bind index p.userId pos) (pos + 1) rest

/-- Everything a voice event says, except `speaking`. -/
def updateVoice (p : Participant) (v : VoiceState) : Participant :=
  { p with displayName := v.nick, avatarHash := v.avatarHash, mute := v.mute, deaf := v.deaf,
           selfMute := v.selfMute, selfDeaf := v.selfDeaf }

def setSpeaking (speaking : Bool) (p : Participant) : Participant := { p with speaking }

/-- `apply`; `now` is what the clock reads. -/
def apply (now : Int) (ev : RpcEvent) (s : OverlayState) : OverlayState :=
  match ev.kind with
  | .channelSelect =>
    commit { s with
      snap := { s.snap with
        inVoice := !ev.channelId.isEmpty, channelName := ev.channelId, participants := [] }
      index := fun _ => none }
  | .voiceCreate | .voiceUpdate =>
    match s.index ev.voice.userId with
    | none =>
      let p := updateVoice { userId := ev.voice.userId } ev.voice
      commit { s with
        snap := { s.snap with participants := s.snap.participants ++ [p] }
        index := bind s.index ev.voice.userId s.snap.participants.length }
    | some i =>
      commit { s with
        snap := { s.snap with
          participants := s.snap.participants.modify i (updateVoice · ev.voice) } }
  | .voiceDelete =>
    match s.index ev.voice.userId with
    | none => s
    | some i =>
      let rest := s.snap.participants.eraseIdx i
      commit { s with
        snap := { s.snap with participants := rest }
        index := reindex (fun _ => none) 0 rest }
  | .speakingStart | .speakingStop =>
    match s.index ev.userId with
    | none => s
    | some i =>
      commit { s with
        snap := { s.snap with
          participants :=
            s.snap.participants.modify i (setSpeaking (decide (ev.kind = .speakingStart))) } }
  | .notification =>
    let n := { ev.notif with createdMs := now }
    commit { s with
      snap := { s.snap with notifications := (n :: s.snap.notifications).take kMaxNotifications } }

def setConfig (cfg : AppearanceConfig) (s : OverlayState) : OverlayState :=
  commit { s with snap := { s.snap with config := cfg } }

/-! ## The roster -/

/-- The users of the roster, in order. -/
def roster (s : OverlayState) : List Bytes := s.snap.participants.map (·.userId)

/-- The index maps each user of the roster to the position it stands at, and
    nobody else. -/
def Indexed (s : OverlayState) : Prop :=
  ∀ u i, s.index u = some i ↔ s.roster[i]? = some u

@[simp] theorem commit_index (s : OverlayState) : s.commit.index = s.index := rfl
@[simp] theorem commit_roster (s : OverlayState) : s.commit.roster = s.roster := rfl
@[simp] theorem commit_participants (s : OverlayState) :
    s.commit.snap.participants = s.snap.participants := rfl
@[simp] theorem commit_inVoice (s : OverlayState) : s.commit.snap.inVoice = s.snap.inVoice := rfl
@[simp] theorem commit_channelName (s : OverlayState) :
    s.commit.snap.channelName = s.snap.channelName := rfl

@[simp] theorem updateVoice_userId (p : Participant) (v : VoiceState) :
    (updateVoice p v).userId = p.userId := rfl

/-- Changing an entry in place leaves what the change keeps. -/
theorem map_modify {α β : Type} {f : α → α} {g : α → β} (hf : ∀ a, g (f a) = g a)
    (l : List α) (i : Nat) : (l.modify i f).map g = l.map g := by
  apply List.ext_getElem?
  intro j
  simp only [List.getElem?_map, List.getElem?_modify]
  cases l[j]? with
  | none => rfl
  | some a => by_cases hij : i = j <;> simp [hij, hf]

theorem Indexed.nodup {s : OverlayState} (h : s.Indexed) : s.roster.Nodup := by
  rw [List.nodup_iff_getElem?_ne_getElem?]
  intro i j hij hj heq
  have hu : s.roster[j]? = some (s.roster[j]) := List.getElem?_eq_getElem hj
  have hi := (h _ i).mpr (heq.trans hu)
  rw [(h _ j).mpr hu] at hi
  simp only [Option.some.injEq] at hi
  omega

theorem Indexed.eq_none {s : OverlayState} (h : s.Indexed) {u : Bytes} :
    s.index u = none ↔ u ∉ s.roster := by
  rw [List.mem_iff_getElem?]
  constructor
  · rintro hn ⟨i, hi⟩
    rw [(h u i).mpr hi] at hn
    cases hn
  · intro hn
    cases hi : s.index u with
    | none => rfl
    | some i => exact absurd ⟨i, (h u i).mp hi⟩ hn

/-- A rebuilt index finds each user where the roster has it. -/
private theorem reindex_eq_some {index : Bytes → Option Nat} {ps : List Participant} {pos : Nat}
    (hps : (ps.map (·.userId)).Nodup) (u : Bytes) (i : Nat) :
    reindex index pos ps u = some i ↔
      (∃ k, (ps.map (·.userId))[k]? = some u ∧ i = pos + k) ∨
        (u ∉ ps.map (·.userId) ∧ index u = some i) := by
  induction ps generalizing index pos with
  | nil => simp [reindex]
  | cons p ps ih =>
    simp only [List.map_cons, List.nodup_cons] at hps
    obtain ⟨hp, hps⟩ := hps
    rw [reindex, ih hps]
    by_cases hu : u = p.userId
    · subst hu
      have hnone : ∀ k : Nat, (ps.map (·.userId))[k]? ≠ some p.userId :=
        fun k hk => hp (List.mem_iff_getElem?.mpr ⟨k, hk⟩)
      constructor
      · rintro (⟨k, hk, -⟩ | ⟨-, hb⟩)
        · exact absurd hk (hnone k)
        · simp only [bind, if_true, Option.some.injEq] at hb
          exact .inl ⟨0, rfl, by omega⟩
      · rintro (⟨k, hk, hi⟩ | ⟨hmem, -⟩)
        · cases k with
          | zero => exact .inr ⟨hp, by simp [bind, hi]⟩
          | succ k => exact absurd hk (hnone k)
        · simp at hmem
    · have hbind : bind index p.userId pos u = index u := by simp [bind, hu]
      have hshift : (∃ k, (ps.map (·.userId))[k]? = some u ∧ i = pos + 1 + k) ↔
          ∃ k, (p.userId :: ps.map (·.userId))[k]? = some u ∧ i = pos + k := by
        constructor
        · rintro ⟨k, hk, hi⟩
          exact ⟨k + 1, by simpa using hk, by omega⟩
        · rintro ⟨k, hk, hi⟩
          cases k with
          | zero =>
            simp only [List.getElem?_cons_zero, Option.some.injEq] at hk
            exact absurd hk.symm hu
          | succ k => exact ⟨k, by simpa using hk, by omega⟩
      rw [hbind, hshift]
      simp only [List.map_cons, List.mem_cons, hu, false_or]

/-- The users of the roster with their speaking flags. -/
def flags (s : OverlayState) : List (Bytes × Bool) :=
  s.snap.participants.map fun p => (p.userId, p.speaking)

theorem flags_fst (s : OverlayState) : s.flags.map Prod.fst = s.roster := by
  simp [flags, roster]

/-- What `apply` does to the flags. -/
theorem flags_apply (now : Int) (ev : RpcEvent) (s : OverlayState) :
    (apply now ev s).flags =
      match ev.kind with
      | .channelSelect => []
      | .voiceCreate | .voiceUpdate =>
        if s.index ev.voice.userId = none then s.flags ++ [(ev.voice.userId, false)] else s.flags
      | .voiceDelete =>
        match s.index ev.voice.userId with
        | none => s.flags
        | some i => s.flags.eraseIdx i
      | .speakingStart | .speakingStop =>
        match s.index ev.userId with
        | none => s.flags
        | some i => s.flags.modify i fun flag => (flag.1, decide (ev.kind = .speakingStart))
      | .notification => s.flags := by
  unfold apply
  cases ev.kind with
  | channelSelect => rfl
  | voiceCreate | voiceUpdate =>
    cases hi : s.index ev.voice.userId with
    | none => simp [flags, updateVoice]
    | some i =>
      rw [if_neg (by simp)]
      exact map_modify (f := (updateVoice · ev.voice)) (fun _ => rfl) _ i
  | voiceDelete =>
    cases hi : s.index ev.voice.userId with
    | none => rfl
    | some i => simp [flags, List.eraseIdx_map]
  | speakingStart | speakingStop =>
    cases hi : s.index ev.userId with
    | none => rfl
    | some i =>
      apply List.ext_getElem?
      intro j
      simp only [flags, commit_participants, List.getElem?_map, List.getElem?_modify]
      cases s.snap.participants[j]? with
      | none => rfl
      | some p => by_cases hij : i = j <;> simp [hij, setSpeaking]
  | notification => rfl

/-- What `apply` does to the roster. -/
theorem roster_apply (now : Int) (ev : RpcEvent) (s : OverlayState) :
    (apply now ev s).roster =
      match ev.kind with
      | .channelSelect => []
      | .voiceCreate | .voiceUpdate =>
        if s.index ev.voice.userId = none then s.roster ++ [ev.voice.userId] else s.roster
      | .voiceDelete =>
        match s.index ev.voice.userId with
        | none => s.roster
        | some i => s.roster.eraseIdx i
      | .speakingStart | .speakingStop | .notification => s.roster := by
  rw [← flags_fst, flags_apply]
  cases ev.kind with
  | channelSelect => rfl
  | voiceCreate | voiceUpdate =>
    simp only
    split <;> simp [flags_fst]
  | voiceDelete => cases s.index ev.voice.userId <;> simp [← List.eraseIdx_map, flags_fst]
  | speakingStart | speakingStop =>
    simp only
    rw [← flags_fst]
    cases s.index ev.userId with
    | none => rfl
    | some i =>
      apply map_modify
      exact fun _ => rfl
  | notification => exact flags_fst s

/-- Every event keeps the index in step with the roster. -/
theorem Indexed.apply {s : OverlayState} (h : s.Indexed) (now : Int) (ev : RpcEvent) :
    (apply now ev s).Indexed := by
  intro u i
  rw [roster_apply]
  unfold OverlayState.apply
  cases ev.kind with
  | channelSelect => simp
  | voiceCreate | voiceUpdate =>
    cases hi : s.index ev.voice.userId with
    | none =>
      have hnew : ev.voice.userId ∉ s.roster := h.eq_none.mp hi
      have hlen : s.snap.participants.length = s.roster.length := by simp [roster]
      simp only [commit_index, bind, if_true, hlen]
      by_cases hu : u = ev.voice.userId
      · subst hu
        simp only [if_true, Option.some.injEq, List.getElem?_append]
        split
        · rename_i hlt
          refine iff_of_false (by omega) fun hmem => hnew ?_
          exact List.mem_iff_getElem?.mpr ⟨i, hmem⟩
        · rename_i hge
          rcases Nat.eq_or_lt_of_not_lt hge with heq | hgt
          · simp [heq]
          · have hpos : i - s.roster.length ≠ 0 := by omega
            refine iff_of_false (by omega) ?_
            obtain ⟨k, hk⟩ := Nat.exists_eq_succ_of_ne_zero hpos
            simp [hk]
      · rw [if_neg hu, h u i, List.getElem?_append]
        split
        · rfl
        · rename_i hge
          rw [List.getElem?_eq_none (by omega)]
          refine iff_of_false (by simp) fun hone => hu ?_
          rw [List.getElem?_singleton] at hone
          split at hone
          · simpa using hone.symm
          · cases hone
    | some j => simpa using h u i
  | voiceDelete =>
    cases hi : s.index ev.voice.userId with
    | none => exact h u i
    | some j =>
      have hnodup : ((s.snap.participants.eraseIdx j).map (·.userId)).Nodup := by
        rw [← List.eraseIdx_map]
        exact h.nodup.sublist (List.eraseIdx_sublist ..)
      simp [reindex_eq_some hnodup, List.eraseIdx_map, roster]
  | speakingStart | speakingStop =>
    cases hi : s.index ev.userId with
    | none => exact h u i
    | some j => exact h u i
  | notification => exact h u i

theorem indexed_init : ({} : OverlayState).Indexed := fun u i => by simp [roster]

/-! ## The session -/

/-- Only a channel select enters, leaves or renames a channel. -/
theorem apply_channel (now : Int) (s : OverlayState) {ev : RpcEvent}
    (hk : ev.kind ≠ .channelSelect) :
    (apply now ev s).snap.inVoice = s.snap.inVoice ∧
      (apply now ev s).snap.channelName = s.snap.channelName := by
  unfold apply
  cases hkind : ev.kind with
  | channelSelect => exact absurd hkind hk
  | voiceCreate | voiceUpdate => cases s.index ev.voice.userId <;> exact ⟨rfl, rfl⟩
  | voiceDelete => cases s.index ev.voice.userId <;> exact ⟨rfl, rfl⟩
  | speakingStart | speakingStop => cases s.index ev.userId <;> exact ⟨rfl, rfl⟩
  | notification => exact ⟨rfl, rfl⟩

/-- Only a voice event brings participants. -/
theorem apply_participants_nil (now : Int) (ev : RpcEvent) {s : OverlayState}
    (hk : ev.kind ≠ .voiceCreate ∧ ev.kind ≠ .voiceUpdate) (h : s.snap.participants = []) :
    (apply now ev s).snap.participants = [] := by
  unfold apply
  cases hkind : ev.kind with
  | channelSelect => rfl
  | voiceCreate => exact absurd hkind hk.1
  | voiceUpdate => exact absurd hkind hk.2
  | voiceDelete => cases s.index ev.voice.userId <;> simp [h]
  | speakingStart | speakingStop => cases s.index ev.userId <;> simp [h]
  | notification => exact h

theorem apply_channelSelect (now : Int) (id : Bytes) (s : OverlayState) :
    (apply now { kind := .channelSelect, channelId := id } s).snap.inVoice = !id.isEmpty ∧
      (apply now { kind := .channelSelect, channelId := id } s).snap.channelName = id ∧
      (apply now { kind := .channelSelect, channelId := id } s).snap.participants = [] :=
  ⟨rfl, rfl, rfl⟩

/-- A voice event puts its user on the roster and moves nobody off it. -/
theorem mem_roster_voice {s : OverlayState} (h : s.Indexed) (now : Int) {ev : RpcEvent}
    (hk : ev.kind = .voiceCreate ∨ ev.kind = .voiceUpdate) (u : Bytes) :
    u ∈ (apply now ev s).roster ↔ u ∈ s.roster ∨ u = ev.voice.userId := by
  have hroster : (apply now ev s).roster =
      if s.index ev.voice.userId = none then s.roster ++ [ev.voice.userId] else s.roster := by
    rw [roster_apply]
    rcases hk with hk | hk <;> simp only [hk]
  rw [hroster]
  by_cases hi : s.index ev.voice.userId = none
  · simp [hi]
  · have hmem : ev.voice.userId ∈ s.roster := by
      by_contra hn
      exact hi (h.eq_none.mpr hn)
    rw [if_neg hi]
    exact ⟨.inl, fun hu => hu.elim id fun he => he ▸ hmem⟩

/-- Nobody comes onto the roster but the user of a voice event. -/
theorem mem_of_mem_roster_apply {s : OverlayState} (now : Int) {ev : RpcEvent}
    (hk : ev.kind ≠ .voiceCreate ∧ ev.kind ≠ .voiceUpdate) {u : Bytes}
    (hu : u ∈ (apply now ev s).roster) : u ∈ s.roster := by
  rw [roster_apply] at hu
  cases hkind : ev.kind with
  | channelSelect => simp [hkind] at hu
  | voiceCreate => exact absurd hkind hk.1
  | voiceUpdate => exact absurd hkind hk.2
  | voiceDelete =>
    simp only [hkind] at hu
    cases hi : s.index ev.voice.userId with
    | none => simpa [hi] using hu
    | some i =>
      simp only [hi] at hu
      exact List.mem_of_mem_eraseIdx hu
  | speakingStart | speakingStop | notification => simpa [hkind] using hu

/-! ## What the voice events work on -/

/-- The part of the state that voice events read and write. -/
def voice (s : OverlayState) : Bool × Bytes × List Participant × (Bytes → Option Nat) :=
  (s.snap.inVoice, s.snap.channelName, s.snap.participants, s.index)

@[simp] theorem setConfig_voice (cfg : AppearanceConfig) (s : OverlayState) :
    (setConfig cfg s).voice = s.voice := rfl

theorem roster_of_voice {s t : OverlayState} (h : s.voice = t.voice) : s.roster = t.roster :=
  congrArg (fun v => v.2.2.1.map (·.userId)) h

theorem channelName_of_voice {s t : OverlayState} (h : s.voice = t.voice) :
    s.snap.channelName = t.snap.channelName := congrArg (fun v => v.2.1) h

/-- An event makes the same of states that agree there, whatever the clock. -/
theorem voice_apply {s t : OverlayState} (h : s.voice = t.voice) (now now' : Int) (ev : RpcEvent) :
    (apply now ev s).voice = (apply now' ev t).voice := by
  simp only [voice, Prod.mk.injEq] at h
  obtain ⟨hvoice, hname, hparts, hindex⟩ := h
  unfold apply
  cases ev.kind with
  | channelSelect => rfl
  | voiceCreate | voiceUpdate =>
    simp only [hindex]
    cases t.index ev.voice.userId <;> simp [voice, commit, hvoice, hname, hparts]
  | voiceDelete =>
    simp only [hindex]
    cases t.index ev.voice.userId with
    | none => simp [voice, hvoice, hname, hparts, hindex]
    | some i => simp [voice, commit, hvoice, hname, hparts]
  | speakingStart | speakingStop =>
    simp only [hindex]
    cases t.index ev.userId <;> simp [voice, commit, hvoice, hname, hparts, hindex]
  | notification => simp [voice, commit, hvoice, hname, hparts, hindex]

/-- Fold a sequence of events. -/
def applyAll (evs : List RpcEvent) (s : OverlayState) : OverlayState :=
  evs.foldl (fun s ev => apply 0 ev s) s

theorem applyAll_cons (ev : RpcEvent) (evs : List RpcEvent) (s : OverlayState) :
    applyAll (ev :: evs) s = applyAll evs (apply 0 ev s) := rfl

theorem voice_applyAll {s t : OverlayState} (h : s.voice = t.voice) (evs : List RpcEvent) :
    (applyAll evs s).voice = (applyAll evs t).voice := by
  induction evs generalizing s t with
  | nil => exact h
  | cons ev evs ih => exact ih (voice_apply h 0 0 ev)

/-- The users of a reply, each an event of its own. -/
def creates (states : List VoiceState) : List RpcEvent :=
  states.map fun v => { kind := .voiceCreate, voice := v }

theorem applyAll_creates_cons (v : VoiceState) (states : List VoiceState) (s : OverlayState) :
    applyAll (creates (v :: states)) s =
      applyAll (creates states) (apply 0 { kind := .voiceCreate, voice := v } s) := rfl

theorem applyAll_creates_channelName (states : List VoiceState) (s : OverlayState) :
    (applyAll (creates states) s).snap.channelName = s.snap.channelName := by
  induction states generalizing s with
  | nil => rfl
  | cons v states ih => exact (ih _).trans (apply_channel 0 s (by simp)).2

/-- They add the users to the roster, and nobody else. -/
theorem Indexed.mem_roster_creates {s : OverlayState} (h : s.Indexed) (states : List VoiceState)
    (u : Bytes) :
    u ∈ (OverlayState.applyAll (creates states) s).roster ↔
      u ∈ s.roster ∨ ∃ v ∈ states, v.userId = u := by
  induction states generalizing s with
  | nil => simp [creates, OverlayState.applyAll]
  | cons v states ih =>
    rw [applyAll_creates_cons, ih (h.apply 0 _), mem_roster_voice h 0 (.inl rfl),
      List.exists_mem_cons_iff, or_assoc, eq_comm (a := u)]

/-! ## Who speaks -/

theorem flags_of_voice {s t : OverlayState} (h : s.voice = t.voice) : s.flags = t.flags :=
  congrArg (fun v => v.2.2.1.map fun p => (p.userId, p.speaking)) h

/-- A user has one flag. -/
theorem Indexed.flag_unique {s : OverlayState} (h : s.Indexed) {u : Bytes} {b b' : Bool}
    (hb : (u, b) ∈ s.flags) (hb' : (u, b') ∈ s.flags) : b = b' := by
  have hnodup : (s.flags.map Prod.fst).Nodup := by
    rw [flags_fst]
    exact h.nodup
  exact congrArg Prod.snd (List.inj_on_of_nodup_map hnodup hb hb' rfl)

private theorem mem_modify {α : Type} {f : α → α} {l : List α} {i : Nat} {a : α}
    (h : a ∈ l.modify i f) : a ∈ l ∨ ∃ b, l[i]? = some b ∧ f b = a := by
  obtain ⟨j, hj⟩ := List.mem_iff_getElem?.mp h
  rw [List.getElem?_modify] at hj
  cases hl : l[j]? with
  | none => simp [hl] at hj
  | some b =>
    by_cases hij : i = j
    · subst hij
      exact .inr ⟨b, hl, by simpa [hl] using hj⟩
    · refine .inl (List.mem_of_getElem? (hl.trans ?_))
      simpa [hl, hij] using hj

/-- Only a speaking event about a user changes that user's flag. -/
theorem Indexed.flag_apply {s : OverlayState} (h : s.Indexed) (now : Int) (ev : RpcEvent)
    {u : Bytes} {b b' : Bool} (hb : (u, b) ∈ s.flags)
    (hb' : (u, b') ∈ (OverlayState.apply now ev s).flags) (hne : b ≠ b') :
    (ev.kind = .speakingStart ∨ ev.kind = .speakingStop) ∧ ev.userId = u := by
  have hkept : (u, b') ∉ s.flags := fun hmem => hne (h.flag_unique hb hmem)
  rw [flags_apply] at hb'
  cases hkind : ev.kind with
  | channelSelect => simp [hkind] at hb'
  | voiceCreate | voiceUpdate =>
    simp only [hkind] at hb'
    split at hb'
    · rename_i hnew
      rcases List.mem_append.mp hb' with hmem | hmem
      · exact absurd hmem hkept
      · obtain ⟨rfl, rfl⟩ := Prod.mk.inj (List.mem_singleton.mp hmem)
        refine absurd ?_ (h.eq_none.mp hnew)
        rw [← flags_fst]
        exact List.mem_map.mpr ⟨_, hb, rfl⟩
    · exact absurd hb' hkept
  | voiceDelete =>
    simp only [hkind] at hb'
    split at hb'
    · exact absurd hb' hkept
    · exact absurd (List.mem_of_mem_eraseIdx hb') hkept
  | speakingStart | speakingStop =>
    simp only [hkind] at hb'
    refine ⟨by simp, ?_⟩
    split at hb'
    · exact absurd hb' hkept
    · rename_i i hi
      -- the flag changed is the one at the position the index gives
      obtain ⟨flag, hflag, hu⟩ := (mem_modify hb').resolve_left hkept
      have hroster := (h ev.userId i).mp hi
      rw [← flags_fst, List.getElem?_map, hflag, Option.map_some] at hroster
      exact (Option.some.inj hroster).symm.trans (congrArg Prod.fst hu)
  | notification => exact absurd (by simpa [hkind] using hb') hkept

end OverlayState

end Choir
