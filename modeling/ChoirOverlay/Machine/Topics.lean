-- SUMMARY: Tables of subscriptions kept by commands: what a batch of commands for one topic does to a table.
import Mathlib.Data.Finset.Basic
import Mathlib.Data.Finset.Lattice.Lemmas

/-!
# Subscription tables

One side sends commands that add or remove an event of a topic, the other side
keeps the table they amount to. Subscribing to a topic and dropping it again
are batches of commands, one for each event.
-/

universe u v

namespace Topics

structure Command (ε : Type u) (κ : Type v) where
  subscribe : Bool
  event : ε
  topic : κ
  deriving DecidableEq

variable {ε : Type u} {κ : Type v} [DecidableEq ε] [DecidableEq κ]

/-- What one command makes of the table. -/
def Command.apply (cmd : Command ε κ) (table : Finset (ε × κ)) : Finset (ε × κ) :=
  if cmd.subscribe then insert (cmd.event, cmd.topic) table
  else table.erase (cmd.event, cmd.topic)

/-- What a sequence of commands makes of it. -/
def after (cmds : List (Command ε κ)) (table : Finset (ε × κ)) : Finset (ε × κ) :=
  cmds.foldl (fun t cmd => cmd.apply t) table

/-- All the `events` of a topic. -/
def scope (events : List ε) (topic : κ) : Finset (ε × κ) := (events.map (·, topic)).toFinset

/-- The commands for all the `events` of a topic. -/
def batch (subscribe : Bool) (events : List ε) (topic : κ) : List (Command ε κ) :=
  events.map fun event => { subscribe, event, topic }

/-- The table holds events of `topic` only. -/
def Within (topic : κ) (table : Finset (ε × κ)) : Prop := ∀ s ∈ table, s.2 = topic

/-- No two topics are in the table at once. -/
def OneTopic (table : Finset (ε × κ)) : Prop := ∀ s ∈ table, ∀ t ∈ table, s.2 = t.2

variable {cmd : Command ε κ} {cmds : List (Command ε κ)} {table : Finset (ε × κ)} {topic : κ}

@[simp] theorem after_nil : after ([] : List (Command ε κ)) table = table := rfl

@[simp] theorem after_cons : after (cmd :: cmds) table = after cmds (cmd.apply table) := rfl

@[simp] theorem scope_nil : scope ([] : List ε) topic = ∅ := rfl

@[simp] theorem scope_cons (event : ε) (events : List ε) :
    scope (event :: events) topic = insert (event, topic) (scope events topic) :=
  List.toFinset_cons

/-! ## One topic -/

omit [DecidableEq ε] [DecidableEq κ] in
theorem within_empty : Within topic (∅ : Finset (ε × κ)) := by
  intro s hs
  cases hs

omit [DecidableEq ε] [DecidableEq κ] in
theorem Within.oneTopic (h : Within topic table) : OneTopic table := by
  intro s hs t ht
  rw [h s hs, h t ht]

theorem within_scope (events : List ε) : Within topic (scope events topic) := by
  intro s hs
  obtain ⟨event, -, rfl⟩ := List.mem_map.mp (List.mem_toFinset.mp hs)
  rfl

/-- A command for the table's own topic brings in no other. -/
theorem Within.apply (h : Within topic table) (hcmd : cmd.topic = topic) :
    Within topic (cmd.apply table) := by
  intro s hs
  unfold Command.apply at hs
  split at hs
  · rcases Finset.mem_insert.mp hs with rfl | hs
    · exact hcmd
    · exact h s hs
  · exact h s (Finset.mem_of_mem_erase hs)

/-! ## Batches -/

omit [DecidableEq ε] [DecidableEq κ] in
theorem batch_topic {subscribe : Bool} {events : List ε} (h : cmd ∈ batch subscribe events topic) :
    cmd.topic = topic := by
  obtain ⟨event, -, rfl⟩ := List.mem_map.mp h
  rfl

theorem after_batch_subscribe (events : List ε) :
    after (batch true events topic) table = table ∪ scope events topic := by
  induction events generalizing table with
  | nil => simp [batch]
  | cons event events ih =>
    have hcons : after (batch true (event :: events) topic) table =
        after (batch true events topic) (insert (event, topic) table) := rfl
    rw [hcons, ih, scope_cons, Finset.union_insert, Finset.insert_union]

theorem after_batch_unsubscribe (events : List ε) :
    after (batch false events topic) table = table \ scope events topic := by
  induction events generalizing table with
  | nil => simp [batch]
  | cons event events ih =>
    have hcons : after (batch false (event :: events) topic) table =
        after (batch false events topic) (table.erase (event, topic)) := rfl
    rw [hcons, ih, scope_cons, Finset.sdiff_insert, Finset.erase_sdiff_comm]

end Topics
