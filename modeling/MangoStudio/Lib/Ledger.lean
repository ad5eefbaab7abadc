import Mathlib.Data.List.Basic

/-!
# A log that is reported with a delay

A component takes entries into a log and reports each of them to a listener.
An entry of one kind is reported at once, unless entries of the other kind are
open: those are reported when they close, and hold back whatever comes after
them.

* `record` opens an entry, `finish` closes and reports it, and lets go of what
  was held back once nothing is open.
* `InStep` says that the log is what has been reported, then what is open, then
  what is held back.  The listener is then behind the log, and never beside it.
* `record` keeps `InStep` if nothing is held back, and `finish` keeps it for the
  entry that was opened first.  Neither condition can be dropped: what is held
  back stands before an entry that is opened now, and is reported after it.
-/

/-- A log of entries `ρ`.  Some are opened under a key `ι`, and some are events `ε`. -/
structure Ledger (ρ ι ε : Type*) where
  taken : List ρ
  reported : List ρ
  pending : List ι
  held : List ε

namespace Ledger

open List

variable {ρ ι ε : Type*} (opened : ι → ρ) (event : ε → ρ) (ledger : Ledger ρ ι ε)

/-! ## Operations -/

/-- Takes an event, and reports it unless an entry is open. -/
def admitEvent (entry : ε) : Ledger ρ ι ε :=
  if ledger.pending.isEmpty then
    { ledger with
      taken := ledger.taken ++ [event entry]
      reported := ledger.reported ++ [event entry] }
  else
    { ledger with
      taken := ledger.taken ++ [event entry]
      held := ledger.held ++ [entry] }

/-- Takes an event and reports it in any case. -/
def announce (entry : ε) : Ledger ρ ι ε :=
  { ledger with
    taken := ledger.taken ++ [event entry]
    reported := ledger.reported ++ [event entry] }

def record (key : ι) : Ledger ρ ι ε :=
  { ledger with
    taken := ledger.taken ++ [opened key]
    pending := ledger.pending ++ [key] }

def drain : Ledger ρ ι ε :=
  { ledger with
    reported := ledger.reported ++ ledger.held.map event
    held := [] }

def finish [DecidableEq ι] (key : ι) : Ledger ρ ι ε :=
  let closed := { ledger with
    reported := ledger.reported ++ [opened key]
    pending := ledger.pending.erase key }
  if closed.pending.isEmpty then closed.drain event else closed

@[simp] theorem finish_taken [DecidableEq ι] (key : ι) :
    (ledger.finish opened event key).taken = ledger.taken := by
  unfold finish
  dsimp only
  split_ifs
  · rfl
  · rfl

@[simp] theorem finish_pending [DecidableEq ι] (key : ι) :
    (ledger.finish opened event key).pending = ledger.pending.erase key := by
  unfold finish
  dsimp only
  split_ifs
  · rfl
  · rfl

/-! ## The listener is behind the log -/

structure InStep : Prop where
  order : ledger.taken = ledger.reported ++ (ledger.pending.map opened ++ ledger.held.map event)
  quiet : ledger.pending = [] → ledger.held = []

variable {opened event ledger}

section

variable (h : ledger.InStep opened event)

include h

theorem InStep.reported_eq (hnone : ledger.pending = []) : ledger.reported = ledger.taken := by
  rw [h.order, hnone, h.quiet hnone]
  exact (append_nil _).symm

theorem InStep.drain_eq (hnone : ledger.pending = []) : ledger.drain event = ledger := by
  unfold drain
  rw [h.quiet hnone, map_nil, append_nil, ← h.quiet hnone]

theorem InStep.announce (hnone : ledger.pending = []) (entry : ε) :
    (ledger.announce event entry).InStep opened event where
  order := by
    show ledger.taken ++ [event entry] =
      (ledger.reported ++ [event entry]) ++ (ledger.pending.map opened ++ ledger.held.map event)
    rw [← h.reported_eq hnone, hnone, h.quiet hnone]
    exact (append_nil _).symm
  quiet := h.quiet

theorem InStep.admitEvent (entry : ε) : (ledger.admitEvent event entry).InStep opened event := by
  unfold Ledger.admitEvent
  split_ifs with hempty
  · exact h.announce (isEmpty_iff.mp hempty) entry
  · refine ⟨?_, fun hnone => absurd (isEmpty_iff.mpr hnone) hempty⟩
    show ledger.taken ++ [event entry] =
      ledger.reported ++ (ledger.pending.map opened ++ (ledger.held ++ [entry]).map event)
    rw [h.order, map_append, append_assoc, append_assoc]
    rfl

theorem InStep.record (hnone : ledger.held = []) (key : ι) :
    (ledger.record opened key).InStep opened event where
  order := by
    show ledger.taken ++ [opened key] =
      ledger.reported ++ ((ledger.pending ++ [key]).map opened ++ ledger.held.map event)
    rw [h.order, hnone, map_append]
    simp
  quiet := fun _ => hnone

end

theorem InStep.finish [DecidableEq ι] (h : ledger.InStep opened event) {key : ι}
    (hfirst : ledger.pending.head? = some key) :
    (ledger.finish opened event key).InStep opened event := by
  obtain ⟨rest, hpending⟩ := head?_eq_some_iff.mp hfirst
  have herase : ledger.pending.erase key = rest := by
    rw [hpending, erase_cons_head]
  have horder : ledger.taken =
      (ledger.reported ++ [opened key]) ++ (rest.map opened ++ ledger.held.map event) := by
    rw [h.order, hpending, append_assoc]
    rfl
  unfold Ledger.finish
  dsimp only
  rw [herase]
  split_ifs with hempty
  · refine ⟨?_, fun _ => rfl⟩
    rw [isEmpty_iff.mp hempty, map_nil, nil_append] at horder
    show ledger.taken = ((ledger.reported ++ [opened key]) ++ ledger.held.map event) ++
      (rest.map opened ++ [])
    rw [horder, isEmpty_iff.mp hempty]
    exact (append_nil _).symm
  · exact ⟨horder, fun hnone => absurd (isEmpty_iff.mpr hnone) hempty⟩

end Ledger
