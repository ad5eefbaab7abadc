import Mathlib.Data.List.Basic
import Mathlib.Logic.Function.Basic

/-!
# Undo logs

A log of writes to a store of values by key.  An item of the log says where it
wrote (`key`) and what was there before (`before`); the newest item comes first.
`undo` puts the items back, newest first.

* A write that is logged is taken back by its own item: `undo_write`.
* A key that the log names ends as the log says, whatever is there now:
  `undo_update_of_mem`.  A key that it does not name stays as it is:
  `undo_update_of_notMem`.

* A log that agrees with a target leads to it: `undo_eq_of_forall`.

`Rewinds fits` says that each item, when its turn comes, finds a value there
that fits it.
-/

namespace UndoLog

open Function List

variable {ι K V : Type} [DecidableEq K] (key : ι → K) (before : ι → V)

/-- Puts the items back, newest first. -/
def undo : List ι → (K → V) → K → V
  | [], state => state
  | item :: older, state => undo older (Function.update state (key item) (before item))

/-- Each item finds a value that fits it when it is put back. -/
def Rewinds (fits : ι → V → Prop) : List ι → (K → V) → Prop
  | [], _ => True
  | item :: older, state =>
    fits item (state (key item)) ∧
      Rewinds fits older (Function.update state (key item) (before item))

variable {key before}

theorem undo_write {item : ι} {state : K → V} (hbefore : before item = state (key item))
    (log : List ι) (value : V) :
    undo key before (item :: log) (update state (key item) value) =
      undo key before log state := by
  show undo key before log
    (update (update state (key item) value) (key item) (before item)) = _
  rw [update_idem, hbefore, update_eq_self]

variable {log : List ι}

theorem undo_update_of_mem {place : K} (hmem : place ∈ log.map key) (state : K → V) (value : V) :
    undo key before log (update state place value) = undo key before log state := by
  induction log generalizing state with
  | nil => cases hmem
  | cons item older ih =>
    show undo key before older (update (update state place value) _ _) =
      undo key before older (update state _ _)
    by_cases hitem : place = key item
    · rw [hitem, update_idem]
    · rw [update_comm hitem]
      refine ih ?_ _
      rw [map_cons, mem_cons] at hmem
      exact hmem.resolve_left hitem

theorem undo_update_of_notMem {place : K} (hmem : place ∉ log.map key) (state : K → V) (value : V) :
    undo key before log (update state place value) =
      update (undo key before log state) place value := by
  induction log generalizing state with
  | nil => rfl
  | cons item older ih =>
    rw [map_cons, mem_cons, not_or] at hmem
    show undo key before older (update (update state place value) _ _) = _
    rw [update_comm hmem.1, ih hmem.2]
    rfl

theorem undo_congr {before' : ι → V} (h : ∀ item ∈ log, before item = before' item)
    (state : K → V) : undo key before log state = undo key before' log state := by
  induction log generalizing state with
  | nil => rfl
  | cons item older ih =>
    show undo key before older _ = undo key before' older _
    rw [h item mem_cons_self]
    exact ih (fun other hother => h other (mem_cons_of_mem item hother)) _

theorem undo_apply_congr {place : K} {state state' : K → V} (h : state place = state' place)
    (log : List ι) : undo key before log state place = undo key before log state' place := by
  induction log generalizing state state' with
  | nil => exact h
  | cons item older ih =>
    refine ih ?_
    by_cases hitem : place = key item
    · rw [hitem, update_self, update_self]
    · rw [update_of_ne hitem, update_of_ne hitem, h]

theorem undo_eq_of_forall {target : K → V} {state : K → V}
    (hlog : ∀ item ∈ log, before item = target (key item))
    (hrest : ∀ place, place ∉ log.map key → state place = target place) :
    undo key before log state = target := by
  induction log generalizing state with
  | nil => exact funext fun place => hrest place not_mem_nil
  | cons item older ih =>
    refine ih (fun other hother => hlog other (mem_cons_of_mem item hother))
      fun place hplace => ?_
    by_cases hitem : place = key item
    · rw [hitem, update_self]
      exact hlog item mem_cons_self
    · rw [update_of_ne hitem]
      refine hrest place fun hmem => ?_
      rw [map_cons, mem_cons] at hmem
      exact hmem.elim hitem hplace

section Rewinds

variable {fits : ι → V → Prop}

variable {log : List ι} {state : K → V}

theorem Rewinds.mono {fits' : ι → V → Prop} (hlog : Rewinds key before fits log state)
    (h : ∀ item ∈ log, ∀ value, fits item value → fits' item value) :
    Rewinds key before fits' log state := by
  induction log generalizing state with
  | nil => exact trivial
  | cons item older ih =>
    exact ⟨h item mem_cons_self _ hlog.1,
      ih hlog.2 fun other hother => h other (mem_cons_of_mem item hother)⟩

theorem Rewinds.agree {state state' : K → V} (hlog : Rewinds key before fits log state)
    (h : ∀ item ∈ log, state (key item) = state' (key item)) :
    Rewinds key before fits log state' := by
  induction log generalizing state state' with
  | nil => exact trivial
  | cons item older ih =>
    refine ⟨h item mem_cons_self ▸ hlog.1, ih hlog.2 fun other hother => ?_⟩
    by_cases hitem : key other = key item
    · rw [hitem, update_self, update_self]
    · rw [update_of_ne hitem, update_of_ne hitem]
      exact h other (mem_cons_of_mem item hother)

theorem rewinds_of_nodup (hnodup : (log.map key).Nodup)
    (h : ∀ item ∈ log, fits item (state (key item))) : Rewinds key before fits log state := by
  induction log generalizing state with
  | nil => exact trivial
  | cons item older ih =>
    rw [map_cons, nodup_cons] at hnodup
    refine ⟨h item mem_cons_self, ih hnodup.2 fun other hother => ?_⟩
    have hne : key other ≠ key item := fun heq => hnodup.1 (heq ▸ mem_map_of_mem hother)
    rw [update_of_ne hne]
    exact h other (mem_cons_of_mem item hother)

theorem rewinds_write {item : ι} (hbefore : before item = state (key item))
    (hlog : Rewinds key before fits log state) {value : V} (hfits : fits item value) :
    Rewinds key before fits (item :: log) (update state (key item) value) := by
  refine ⟨?_, ?_⟩
  · rw [update_self]
    exact hfits
  · rw [update_idem, hbefore, update_eq_self]
    exact hlog

theorem Rewinds.congr {before' : ι → V} (hlog : Rewinds key before fits log state)
    (h : ∀ item ∈ log, before item = before' item) :
    Rewinds key before' fits log state := by
  induction log generalizing state with
  | nil => exact trivial
  | cons item older ih =>
    refine ⟨hlog.1, ?_⟩
    rw [← h item mem_cons_self]
    exact ih hlog.2 fun other hother => h other (mem_cons_of_mem item hother)

theorem Rewinds.fits_of_nodup (hlog : Rewinds key before fits log state)
    (hnodup : (log.map key).Nodup) :
    ∀ item ∈ log, fits item (state (key item)) := by
  induction log generalizing state with
  | nil => exact fun item hitem => nomatch hitem
  | cons newest older ih =>
    rw [map_cons, nodup_cons] at hnodup
    intro item hitem
    rcases mem_cons.1 hitem with rfl | hitem
    · exact hlog.1
    · have hne : key item ≠ key newest := fun heq =>
        hnodup.1 (heq ▸ mem_map_of_mem hitem)
      have hfits := ih hlog.2 hnodup.2 item hitem
      rw [update_of_ne hne] at hfits
      exact hfits

end Rewinds

end UndoLog
