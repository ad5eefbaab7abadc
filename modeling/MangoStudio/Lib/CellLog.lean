import Mathlib.Data.Option.Basic
import Mathlib.Data.List.Basic

/-!
# The undo log of one cell

A cell holds a value or nothing.  It is changed in place, its value is moved
out to another cell, or a value is moved in from another cell.  The log has an
entry for each change, newest first, with what is needed to take it back and a
mark of the value that it left.

A change in place makes no entry if the latest change that started at this cell
was in place as well: the mark of that entry is overwritten (`amend`).  Entries
of arriving values do not start at this cell, so `amend` looks past them.  What
this costs is the subject of this module.

* `undo` takes the entries back one by one.  Taking back a departure needs an
  empty cell, and taking back an arrival a full one.
* `Place` follows what the log says about the cell.  It is `covered` by a value
  that arrived over an entry in place: from then on changes in place leave no
  trace at the head of the log.  A second arrival over such a value is `broken`,
  since the departure between the two is in no entry.
* `Tracked` is the invariant.  Only a covered cell can differ from what the log
  says (`Tracked.matches_iff`), and an unbroken log leads a cell that does not
  back to the start (`Tracked.undo_eq`).
-/

namespace CellLog

open List Option

variable {α η : Type*}

/-- What happens to a cell: a change in place, its value leaves, or a value
arrives. -/
inductive Change (α : Type*) where
  | own (value : Option α)
  | out
  | arrive (value : α)

/-- One entry of the log: what was there before a change that started here, and
the mark of what was there after it. -/
inductive Entry (α η : Type*) where
  | own (before : Option α) (after : η)
  | out (before : α)
  | arrive (after : η)

/-! ## The log -/

/-- Overwrites the mark of the latest entry that started here, if it was a
change in place. -/
def amend (mark : η) : List (Entry α η) → Option (List (Entry α η))
  | [] => none
  | .own before _ :: older => some (.own before mark :: older)
  | .out _ :: _ => none
  | .arrive after :: older => (amend mark older).map (.arrive after :: ·)

/-- The cell after a change. -/
def Change.apply : Change α → Option α
  | .own value => value
  | .out => none
  | .arrive value => some value

/-- A value can leave a full cell, and arrive at an empty one. -/
def Change.Possible : Change α → Option α → Prop
  | .own _, _ => True
  | .out, cell => cell ≠ none
  | .arrive _, cell => cell = none

/-- The log after a change of a cell. -/
def record (mark : Option α → η) (log : List (Entry α η)) (cell : Option α) :
    Change α → List (Entry α η)
  | .own value => (amend (mark value) log).getD (.own cell (mark value) :: log)
  | .out =>
    match cell with
    | some value => .out value :: log
    | none => log
  | .arrive value => .arrive (mark (some value)) :: log

/-- The mark that the log has for the cell. -/
def expected (mark : Option α → η) : List (Entry α η) → Option η
  | [] => none
  | .own _ after :: _ => some after
  | .out _ :: _ => some (mark none)
  | .arrive after :: _ => some after

/-- What was there before the change. -/
def Entry.before : Entry α η → Option α
  | .own before _ => before
  | .out before => some before
  | .arrive _ => none

/-- What the log says was there at the start. -/
def origin (log : List (Entry α η)) : Option (Option α) :=
  (log.map Entry.before).getLast?

/-- Takes the entries back, newest first. -/
def undo : List (Entry α η) → Option α → Option (Option α)
  | [], cell => some cell
  | .own before _ :: older, _ => undo older before
  | .out before :: older, none => undo older (some before)
  | .out _ :: _, some _ => none
  | .arrive _ :: older, some _ => undo older none
  | .arrive _ :: _, none => none

theorem origin_cons {entry : Entry α η} {log : List (Entry α η)} (hne : log ≠ []) :
    origin (entry :: log) = origin log := by
  cases log with
  | nil => exact absurd rfl hne
  | cons next older => rw [origin, origin, map_cons, map_cons, getLast?_cons_cons]

section

variable {mark : η} {log amended : List (Entry α η)} (h : amend mark log = some amended)

include h

theorem undo_amend (cell : Option α) : undo amended cell = undo log cell := by
  induction log generalizing amended cell with
  | nil => cases h
  | cons entry older ih =>
    cases entry with
    | own before after =>
      obtain rfl := some.inj h
      rfl
    | out before => cases h
    | arrive after =>
      obtain ⟨rest, hrest, rfl⟩ := map_eq_some_iff.mp h
      cases cell with
      | none => rfl
      | some value => exact ih hrest none

theorem map_before_amend : amended.map Entry.before = log.map Entry.before := by
  induction log generalizing amended with
  | nil => cases h
  | cons entry older ih =>
    cases entry with
    | own before after =>
      obtain rfl := some.inj h
      rfl
    | out before => cases h
    | arrive after =>
      obtain ⟨rest, hrest, rfl⟩ := map_eq_some_iff.mp h
      rw [map_cons, map_cons, ih hrest]

theorem amend_amend_ne_none (other : η) : amend other amended ≠ none := by
  induction log generalizing amended with
  | nil => cases h
  | cons entry older ih =>
    cases entry <;> grind [amend, map_eq_some_iff, map_eq_none_iff]

end

/-! ## Places -/

/-- What the head of the log has to do with the cell. -/
inductive Place (α : Type*) where
  /-- Nothing started here, or the value left. -/
  | free
  /-- A change in place. -/
  | own
  /-- A value arrived, and nothing in place is behind it. -/
  | arrived
  /-- A value arrived over a change in place. -/
  | covered (value : α)

def Place.next : Place α → Change α → Place α
  | .covered value, .own _ => .covered value
  | .free, .own _ | .own, .own _ | .arrived, .own _ => .own
  | _, .out => .free
  | .free, .arrive _ | .arrived, .arrive _ => .arrived
  | .own, .arrive value | .covered _, .arrive value => .covered value

/-- A value arrives where another one covered the cell. -/
def Place.breaks : Place α → Change α → Bool
  | .covered _, .arrive _ => true
  | _, _ => false

/-- The place after a list of changes, and whether one of them broke the log. -/
def course (changes : List (Change α)) : Place α × Bool :=
  changes.foldl (fun course change => (course.1.next change, course.2 || course.1.breaks change))
    (.free, false)

theorem course_concat (changes : List (Change α)) (change : Change α) :
    course (changes ++ [change]) =
      ((course changes).1.next change, (course changes).2 || (course changes).1.breaks change) := by
  rw [course, foldl_concat, course]

/-- What the log looks like at a place. -/
def Shape (mark : Option α → η) (cell : Option α) : Place α → List (Entry α η) → Prop
  | .free, log => (∀ other, amend other log = none) ∧
    (log = [] ∨ cell = none ∧ ∃ before older, log = .out before :: older)
  | .own, log => ∃ before older, log = .own before (mark cell) :: older
  | .arrived, log => cell ≠ none ∧ ∃ older, log = .arrive (mark cell) :: older ∧
    ∀ other, amend other older = none
  | .covered value, log => ∃ older, log = .arrive (mark (some value)) :: older ∧
    ∀ other, amend other older ≠ none

/-- The values of the cell from which there is a way back. -/
def Admits (cell : Option α) : Place α → Option α → Prop
  | .free, other => other = cell
  | .own, _ => True
  | .arrived, other | .covered _, other => other ≠ none

structure Tracked (mark : Option α → η) (start cell : Option α) (log : List (Entry α η))
    (course : Place α × Bool) : Prop where
  shape : Shape mark cell course.1 log
  back : course.2 = false → ∀ other, Admits cell course.1 other → undo log other = some start
  lost : course.2 = true → ∀ other, undo log other = none
  fresh : log = [] → cell = start
  oldest : log ≠ [] → origin log = some start

section Step

variable {mark : Option α → η} {start cell : Option α} {log : List (Entry α η)}
  {place : Place α} {broken : Bool}

theorem Tracked.push {entry : Entry α η} {next : Place α} {after : Option α} {breaks : Bool}
    (h : Tracked mark start cell log (place, broken)) (hshape : Shape mark after next (entry :: log))
    (hbefore : entry.before = cell)
    (hundo : ∀ other, undo (entry :: log) other = undo log cell ∨ undo (entry :: log) other = none)
    (hback : broken = false → breaks = false → ∀ other, Admits after next other →
      undo (entry :: log) other = some start)
    (hbreaks : breaks = true → undo log cell = none) :
    Tracked mark start after (entry :: log) (next, broken || breaks) := by
  refine ⟨hshape, ?_, ?_, fun hnil => absurd hnil (cons_ne_nil _ _), fun _ => ?_⟩
  · intro hunbroken
    obtain ⟨hbroken, hnot⟩ := Bool.or_eq_false_iff.mp hunbroken
    exact hback hbroken hnot
  · grind [cases Tracked]
  · cases hlog : log with
    | nil =>
      rw [CellLog.origin, map_singleton, getLast?_singleton, hbefore, h.fresh hlog]
    | cons next older =>
      rw [origin_cons (cons_ne_nil _ _), ← hlog]
      exact h.oldest (by rw [hlog]; exact cons_ne_nil _ _)

theorem Tracked.overwrite {other : η} {amended : List (Entry α η)} {after : Option α} {next : Place α}
    (h : Tracked mark start cell log (place, broken)) (hamend : amend other log = some amended)
    (hshape : Shape mark after next amended)
    (hadmits : ∀ value, Admits after next value → Admits cell place value) :
    Tracked mark start after amended (next, broken) := by
  have hne : log ≠ [] := by
    intro hnil
    rw [hnil] at hamend
    cases hamend
  have hne' : amended ≠ [] := by
    intro hnil
    have hmap := map_before_amend hamend
    rw [hnil] at hmap
    exact hne (map_eq_nil_iff.mp hmap.symm)
  refine ⟨hshape, ?_, ?_, fun hnil => absurd hnil hne', fun _ => ?_⟩
  · intro hunbroken value hvalue
    rw [undo_amend hamend]
    exact h.back hunbroken value (hadmits value hvalue)
  · intro hlost value
    rw [undo_amend hamend]
    exact h.lost hlost value
  · rw [CellLog.origin, map_before_amend hamend]
    exact h.oldest hne

section

variable (h : Tracked mark start cell log (place, broken))

include h

theorem Tracked.own (value : Option α) :
    Tracked mark start value (record mark log cell (.own value))
      (place.next (.own value), broken || place.breaks (.own value)) := by
  have hpush : (∀ other, amend other log = none) → Admits cell place cell →
      Tracked mark start value (.own cell (mark value) :: log) (.own, broken || false) := by
    intro _ hadmits
    refine h.push ⟨cell, log, rfl⟩ rfl (fun _ => .inl rfl) ?_ (fun hbreak => (by cases hbreak))
    exact fun hunbroken _ _ _ => h.back hunbroken cell hadmits
  rw [record]
  cases place with
  | free =>
    rw [h.shape.1, getD_none]
    exact hpush h.shape.1 rfl
  | arrived =>
    obtain ⟨hfull, older, rfl, hnone⟩ := id h.shape
    have hamend : ∀ other, amend other (.arrive (mark cell) :: older) = none := by
      intro other
      rw [amend, hnone, map_none]
    rw [hamend, getD_none]
    exact hpush hamend hfull
  | own =>
    obtain ⟨before, older, rfl⟩ := id h.shape
    rw [amend, getD_some]
    simp only [Place.next, Place.breaks, Bool.or_false]
    exact h.overwrite rfl ⟨before, older, rfl⟩ fun _ _ => trivial
  | covered arrival =>
    obtain ⟨older, rfl, hsome⟩ := id h.shape
    obtain ⟨rest, hrest⟩ := ne_none_iff_exists'.mp (hsome (mark value))
    have hamend : amend (mark value) (.arrive (mark (some arrival)) :: older) =
        some (.arrive (mark (some arrival)) :: rest) := by
      rw [amend, hrest, map_some]
    rw [hamend, getD_some]
    simp only [Place.next, Place.breaks, Bool.or_false]
    exact h.overwrite hamend ⟨rest, rfl, amend_amend_ne_none hrest⟩ fun _ hadmits => hadmits

theorem Tracked.out (hfull : cell ≠ none) :
    Tracked mark start none (record mark log cell .out)
      (place.next .out, broken || place.breaks .out) := by
  obtain ⟨value, rfl⟩ := ne_none_iff_exists'.mp hfull
  have hnext : place.next .out = .free := by cases place <;> rfl
  have hbreaks : place.breaks .out = false := by cases place <;> rfl
  have hadmits : Admits (some value) place (some value) := by
    cases place with
    | free => rfl
    | own => trivial
    | arrived | covered => exact hfull
  rw [record, hnext, hbreaks]
  refine h.push ⟨fun _ => rfl, .inr ⟨rfl, value, log, rfl⟩⟩ rfl ?_ ?_ (fun hbreak => (by cases hbreak))
  · intro other
    cases other with
    | none => exact .inl rfl
    | some _ => exact .inr rfl
  · intro hunbroken _ other hother
    obtain rfl : other = none := hother
    exact h.back hunbroken _ hadmits

theorem Tracked.arrive (hempty : cell = none) (value : α) :
    Tracked mark start (some value) (record mark log cell (.arrive value))
      (place.next (.arrive value), broken || place.breaks (.arrive value)) := by
  subst hempty
  have hundo : ∀ other, undo (.arrive (mark (some value)) :: log) other = undo log none ∨
      undo (.arrive (mark (some value)) :: log) other = none := by
    intro other
    cases other with
    | none => exact .inr rfl
    | some _ => exact .inl rfl
  have hback : Admits none place none → broken = false → ∀ other, other ≠ none →
      undo (.arrive (mark (some value)) :: log) other = some start := by
    intro hadmits hunbroken other hother
    obtain ⟨content, rfl⟩ := ne_none_iff_exists'.mp hother
    exact h.back hunbroken none hadmits
  rw [record]
  cases place with
  | free =>
    exact h.push ⟨some_ne_none _, log, rfl, h.shape.1⟩ rfl hundo
      (fun hunbroken _ => hback rfl hunbroken) (fun hbreak => (by cases hbreak))
  | own =>
    obtain ⟨before, older, rfl⟩ := id h.shape
    exact h.push ⟨_, rfl, fun other => by simp [amend]⟩ rfl hundo
      (fun hunbroken _ => hback trivial hunbroken) (fun hbreak => (by cases hbreak))
  | arrived => exact absurd rfl h.shape.1
  | covered arrival =>
    obtain ⟨older, rfl, hsome⟩ := id h.shape
    refine h.push ⟨_, rfl, fun other => ?_⟩ rfl hundo (fun _ hnot => (by cases hnot)) (fun _ => rfl)
    rw [amend, ne_eq, map_eq_none_iff]
    exact hsome other

end

theorem Tracked.record {course : Place α × Bool} (h : Tracked mark start cell log course)
    {change : Change α} (hpossible : change.Possible cell) :
    Tracked mark start change.apply (CellLog.record mark log cell change)
      (course.1.next change, course.2 || course.1.breaks change) := by
  cases change with
  | own value => exact h.own value
  | out => exact h.out hpossible
  | arrive value => exact h.arrive hpossible value

theorem Tracked.initial (mark : Option α → η) (start : Option α) :
    Tracked mark start start [] (.free, false) := by
  refine ⟨⟨fun _ => rfl, .inl rfl⟩, fun _ other hother => ?_, fun hlost => (by cases hlost),
    fun _ => rfl, fun hne => absurd rfl hne⟩
  obtain rfl : other = start := hother
  rfl

end Step

/-! ## The way back -/

section Back

variable {mark : Option α → η} {start cell : Option α} {log : List (Entry α η)}
  {course : Place α × Bool}

/-- The cell is what its log says. -/
def Matches (mark : Option α → η) (log : List (Entry α η)) (cell : Option α) : Prop :=
  ∀ other, expected mark log = some other → other = mark cell

theorem Tracked.matches_iff (h : Tracked mark start cell log course)
    (hmark : Function.Injective mark) :
    Matches mark log cell ↔ ∀ value, course.1 = .covered value → cell = some value := by
  obtain ⟨place, broken⟩ := course
  cases place with
  | free =>
    refine ⟨fun _ value hcovered => (by cases hcovered), fun _ other hother => ?_⟩
    rcases h.shape.2 with hnil | ⟨hcell, before, older, hlog⟩
    · rw [hnil] at hother
      cases hother
    · rw [hlog] at hother
      rw [hcell]
      exact (some.inj hother).symm
  | own =>
    obtain ⟨before, older, rfl⟩ := h.shape
    exact ⟨fun _ value hcovered => (by cases hcovered),
      fun _ other hother => (some.inj hother).symm⟩
  | arrived =>
    obtain ⟨-, older, rfl, -⟩ := h.shape
    exact ⟨fun _ value hcovered => (by cases hcovered),
      fun _ other hother => (some.inj hother).symm⟩
  | covered arrival =>
    obtain ⟨older, rfl, -⟩ := h.shape
    constructor
    · intro hmatches value hcovered
      obtain rfl := Place.covered.inj hcovered
      exact (hmark (hmatches _ rfl)).symm
    · intro hcell other hother
      rw [hcell arrival rfl]
      exact (some.inj hother).symm

theorem Tracked.undo_eq (h : Tracked mark start cell log course) (hunbroken : course.2 = false)
    (hcell : ∀ value, course.1 = .covered value → cell = some value) :
    undo log cell = some start := by
  refine h.back hunbroken cell ?_
  obtain ⟨place, broken⟩ := course
  cases place with
  | free => rfl
  | own => trivial
  | arrived => exact h.shape.1
  | covered arrival =>
    rw [hcell arrival rfl]
    exact some_ne_none _

end Back

end CellLog
