import MangoStudio.Conversation.LiveView

/-!
# Runs of prose

`mergeMessageParts` of `apps/shared/src/generation/merge-message-parts.ts`: the
text and the reasoning of a turn arrive as deltas, and adjacent parts of one
kind are read as one run.  The API merges before it stores, and the browser
merges before it renders.

* The parts that are no prose stay as they are, and in order (`solid_merge`).
* A change of those parts can be made before or after (`merge_map`).
* A delta that is appended to the trailing run merges to the same as a part of
  its own (`merge_appendTrailingText`).
-/

namespace MangoStudio.Conversation

open List Option

def isMergeable : MessagePart → Bool
  | .text _ _ | .thinking _ _ _ => true
  | _ => false

/-- The run that a part makes with the run before it, if the two are of one kind.
`incomplete` is the newer part's, and `redacted` stays. -/
def joined (previous part : MessagePart) : Option MessagePart :=
  match previous, part with
  | .text before _, .text prose incomplete => some (.text (before ++ prose) incomplete)
  | .thinking before hidden _, .thinking prose redacted incomplete =>
    some (.thinking (before ++ prose) (hidden || redacted) incomplete)
  | _, _ => none

/-- Prose with no text says nothing. -/
def isEmptyText : MessagePart → Bool
  | .text prose _ => prose == ""
  | _ => false

/-- One more part after the runs so far. -/
def mergeInto (merged : List MessagePart) (part : MessagePart) : List MessagePart :=
  if isEmptyText part then merged
  else
    match merged.getLast?.bind (joined · part) with
    | some run => merged.dropLast ++ [run]
    | none => merged ++ [part]

def mergeMessageParts (parts : List MessagePart) : List MessagePart :=
  parts.foldl mergeInto []

theorem merge_concat (parts : List MessagePart) (part : MessagePart) :
    mergeMessageParts (parts ++ [part]) = mergeInto (mergeMessageParts parts) part := by
  unfold mergeMessageParts
  rw [foldl_append]
  rfl

/-! ## One part -/

theorem mergeInto_empty {part : MessagePart} (h : isEmptyText part = true)
    (merged : List MessagePart) : mergeInto merged part = merged :=
  if_pos h

variable {last part run : MessagePart}

theorem mergeInto_joins (hsaid : isEmptyText part = false) (h : joined last part = some run)
    (merged : List MessagePart) :
    mergeInto (merged ++ [last]) part = merged ++ [run] := by
  simp [mergeInto, hsaid, h]

theorem mergeInto_opens {merged : List MessagePart} {part : MessagePart}
    (hsaid : isEmptyText part = false) (h : merged.getLast?.bind (joined · part) = none) :
    mergeInto merged part = merged ++ [part] := by
  simp [mergeInto, hsaid, h]

theorem joins_or_opens (merged : List MessagePart) (part : MessagePart) :
    (∃ init last run, merged = init ++ [last] ∧ joined last part = some run) ∨
      merged.getLast?.bind (joined · part) = none := by
  rcases eq_nil_or_concat merged with rfl | ⟨init, last, rfl⟩
  · exact .inr rfl
  · rw [concat_eq_append, getLast?_concat, bind_some]
    cases hjoined : joined last part <;> grind

theorem joined_cases (h : joined last part = some run) :
    (∃ before mark prose incomplete, last = .text before mark ∧ part = .text prose incomplete ∧
      run = .text (before ++ prose) incomplete) ∨
    (∃ before hidden mark prose redacted incomplete, last = .thinking before hidden mark ∧
      part = .thinking prose redacted incomplete ∧
      run = .thinking (before ++ prose) (hidden || redacted) incomplete) := by
  unfold joined at h
  grind

theorem joined_isMergeable (h : joined last part = some run) :
    isMergeable last = true ∧ isMergeable part = true ∧ isMergeable run = true := by
  rcases joined_cases h with ⟨_, _, _, _, rfl, rfl, rfl⟩ | ⟨_, _, _, _, _, _, rfl, rfl, rfl⟩
  · exact ⟨rfl, rfl, rfl⟩
  · exact ⟨rfl, rfl, rfl⟩

/-! ## The parts that are no prose -/

def solidParts (parts : List MessagePart) : List MessagePart :=
  parts.filter fun part => !isMergeable part

theorem solid_append (left right : List MessagePart) :
    solidParts (left ++ right) = solidParts left ++ solidParts right :=
  filter_append ..

theorem solid_mergeInto (merged : List MessagePart) (part : MessagePart) :
    solidParts (mergeInto merged part) = solidParts (merged ++ [part]) := by
  cases hempty : isEmptyText part with
  | true =>
    have hprose : isMergeable part = true := by
      cases part with
      | text prose incomplete => rfl
      | _ => cases hempty
    rw [mergeInto_empty hempty, solid_append]
    simp [solidParts, hprose]
  | false =>
    rcases joins_or_opens merged part with ⟨init, last, run, rfl, hjoined⟩ | hopens
    · obtain ⟨hlast, hpart, hrun⟩ := joined_isMergeable hjoined
      rw [mergeInto_joins hempty hjoined, solid_append, solid_append, solid_append]
      simp [solidParts, hlast, hpart, hrun]
    · rw [mergeInto_opens hempty hopens]

theorem solid_merge (parts : List MessagePart) :
    solidParts (mergeMessageParts parts) = solidParts parts := by
  induction parts using reverseRecOn with
  | nil => rfl
  | append_singleton parts part ih =>
    rw [merge_concat, solid_mergeInto, solid_append, solid_append, ih]

/-- Changes that leave prose alone, and make none. -/
structure LeavesProse (change : MessagePart → MessagePart) : Prop where
  prose : ∀ part, isMergeable part = true → change part = part
  solid : ∀ part, isMergeable part = false → isMergeable (change part) = false

theorem joined_none {last part : MessagePart}
    (h : isMergeable last = false ∨ isMergeable part = false) : joined last part = none := by
  cases hjoined : joined last part with
  | none => rfl
  | some run =>
    obtain ⟨hlast, hpart, _⟩ := joined_isMergeable hjoined
    rw [hlast, hpart] at h
    rcases h with h | h
    · cases h
    · cases h

theorem mergeInto_solid {part : MessagePart} (h : isMergeable part = false)
    (merged : List MessagePart) : mergeInto merged part = merged ++ [part] := by
  have hsaid : isEmptyText part = false := by
    cases part with
    | text prose incomplete => cases h
    | _ => rfl
  refine mergeInto_opens hsaid ?_
  cases merged.getLast? with
  | none => rfl
  | some last => exact joined_none (.inr h)

variable {change : MessagePart → MessagePart}

theorem joined_map (h : LeavesProse change) (last part : MessagePart) :
    joined (change last) (change part) = (joined last part).map change := by
  cases hjoined : joined last part <;> grind [joined_isMergeable, joined_none, cases LeavesProse]

theorem isEmptyText_map (h : LeavesProse change)
    (part : MessagePart) : isEmptyText (change part) = isEmptyText part := by
  cases hpart : isMergeable part with
  | true => rw [h.prose part hpart]
  | false =>
    have hsolid : ∀ solid, isMergeable solid = false → isEmptyText solid = false := by
      intro solid hnone
      cases solid with
      | text prose incomplete => cases hnone
      | _ => rfl
    rw [hsolid _ (h.solid part hpart), hsolid _ hpart]

theorem mergeInto_map (h : LeavesProse change) (merged : List MessagePart) (part : MessagePart) :
    mergeInto (merged.map change) (change part) = (mergeInto merged part).map change := by
  cases hempty : isEmptyText part with
  | true => rw [mergeInto_empty hempty, mergeInto_empty ((isEmptyText_map h part).trans hempty)]
  | false =>
    have hsaid := (isEmptyText_map h part).trans hempty
    rcases joins_or_opens merged part with ⟨init, last, run, rfl, hjoined⟩ | hopens
    · have hchanged : joined (change last) (change part) = some (change run) := by
        rw [joined_map h, hjoined, map_some]
      rw [mergeInto_joins hempty hjoined, map_append, map_singleton,
        mergeInto_joins hsaid hchanged, map_append, map_singleton]
    · have hchanged : (merged.map change).getLast?.bind (joined · (change part)) = none := by
        rw [getLast?_map]
        cases hlast : merged.getLast? with
        | none => rfl
        | some last =>
          rw [hlast, bind_some] at hopens
          rw [map_some, bind_some, joined_map h, hopens, map_none]
      rw [mergeInto_opens hempty hopens, mergeInto_opens hsaid hchanged, map_append,
        map_singleton]

theorem merge_map (h : LeavesProse change) (parts : List MessagePart) :
    mergeMessageParts (parts.map change) = (mergeMessageParts parts).map change := by
  induction parts using reverseRecOn with
  | nil => rfl
  | append_singleton parts part ih =>
    rw [map_append, map_singleton, merge_concat, merge_concat, ih, mergeInto_map h]

/-! ## Deltas -/

/-- A part of prose that the turn did not stop inside. -/
def isUnmarked : MessagePart → Bool
  | .text _ incomplete => !incomplete
  | .thinking _ _ incomplete => !incomplete
  | _ => true

theorem joined_ofProse {last grown : MessagePart} {kind : ProseKind} {delta : String}
    (h : last.appended kind delta = some grown) (hmark : isUnmarked last = true) :
    joined last (.ofProse kind delta) = some grown := by
  cases last with
  | text prose incomplete =>
    obtain ⟨rfl, rfl⟩ := ite_some_none_eq_some.mp h
    cases incomplete with
    | false => rfl
    | true => cases hmark
  | thinking prose redacted incomplete =>
    obtain ⟨rfl, rfl⟩ := ite_some_none_eq_some.mp h
    cases incomplete with
    | false => exact congrArg (fun hidden => some (MessagePart.thinking _ hidden _)) (Bool.or_false _)
    | true => cases hmark
  | _ => cases h

theorem joined_assoc {first second third right : MessagePart}
    (hright : joined second third = some right) :
    joined first right = (joined first second).bind (joined · third) := by
  rcases joined_cases hright with
    ⟨before, mark, prose, incomplete, rfl, rfl, rfl⟩ |
    ⟨before, hidden, mark, prose, redacted, incomplete, rfl, rfl, rfl⟩
  · cases first with
    | text text mark =>
      show some (MessagePart.text _ _) = some (.text _ _)
      rw [String.append_assoc]
    | _ => rfl
  · cases first with
    | thinking text withheld mark =>
      show some (MessagePart.thinking _ _ _) = some (.thinking _ _ _)
      rw [String.append_assoc, Bool.or_assoc]
    | _ => rfl

theorem joined_isSome {first second third left right : MessagePart}
    (hleft : joined first second = some left) (hright : joined second third = some right) :
    ∃ whole, joined left third = some whole := by
  rcases joined_cases hleft with
    ⟨before, mark, prose, incomplete, rfl, rfl, rfl⟩ |
    ⟨before, hidden, mark, prose, redacted, incomplete, rfl, rfl, rfl⟩
  · rcases joined_cases hright with ⟨_, _, _, _, _, rfl, _⟩ | ⟨_, _, _, _, _, _, hnone, _⟩
    · exact ⟨_, rfl⟩
    · cases hnone
  · rcases joined_cases hright with ⟨_, _, _, _, hnone, _⟩ | ⟨_, _, _, _, _, _, _, rfl, _⟩
    · cases hnone
    · exact ⟨_, rfl⟩

section

variable (h : joined last part = some run)

include h

theorem joined_empty (hmark : isUnmarked last = true) (hpart : isUnmarked part = true) :
    (isEmptyText last = true → run = part) ∧ (isEmptyText part = true → run = last) := by
  rcases joined_cases h with
    ⟨before, mark, prose, incomplete, rfl, rfl, rfl⟩ | ⟨_, _, _, _, _, _, rfl, rfl, rfl⟩
  · constructor
    · intro hempty
      rw [show before = "" from beq_iff_eq.mp hempty, String.empty_append]
    · intro hempty
      have hmark' : mark = false := Bool.not_eq_true' _ ▸ hmark
      have hpart' : incomplete = false := Bool.not_eq_true' _ ▸ hpart
      rw [show prose = "" from beq_iff_eq.mp hempty, String.append_empty, hmark', hpart']
  · exact ⟨fun hempty => (nomatch hempty), fun hempty => (nomatch hempty)⟩

theorem isEmptyText_joined (hpart : isEmptyText part = false) : isEmptyText run = false := by
  rcases joined_cases h with
    ⟨before, mark, prose, incomplete, rfl, rfl, rfl⟩ | ⟨_, _, _, _, _, _, rfl, rfl, rfl⟩
  · refine beq_eq_false_iff_ne.mpr fun hempty => beq_eq_false_iff_ne.mp hpart ?_
    exact (String.append_eq_empty_iff.mp hempty).2
  · rfl

theorem mergeInto_joined_said (hlast : isEmptyText last = false) (hempty : isEmptyText part = false)
    (merged : List MessagePart) :
    mergeInto (mergeInto merged last) part = mergeInto merged run := by
  have hrun := isEmptyText_joined h hempty
  rcases joins_or_opens merged last with ⟨init, first, left, rfl, hleft⟩ | hopens
  · obtain ⟨whole, hwhole⟩ := joined_isSome hleft h
    have hassoc : joined first run = some whole := by
      rw [joined_assoc h, hleft, bind_some, hwhole]
    rw [mergeInto_joins hlast hleft, mergeInto_joins hempty hwhole, mergeInto_joins hrun hassoc]
  · grind [joined_assoc, mergeInto_opens, mergeInto_joins]

theorem mergeInto_joined (hmark : isUnmarked last = true) (hpart : isUnmarked part = true)
    (merged : List MessagePart) :
    mergeInto (mergeInto merged last) part = mergeInto merged run := by
  have hquiet := joined_empty h hmark hpart
  cases hempty : isEmptyText part <;> grind [mergeInto_empty, mergeInto_joined_said]

end

theorem merge_appendTrailingText {parts : List MessagePart}
    (hmarks : ∀ part ∈ parts, isUnmarked part = true) (kind : ProseKind) (delta : String) :
    mergeMessageParts (appendTrailingText parts kind delta) =
      mergeMessageParts (parts ++ [.ofProse kind delta]) := by
  rcases eq_nil_or_concat parts with rfl | ⟨init, last, rfl⟩
  · rfl
  · rw [concat_eq_append] at hmarks ⊢
    have hlast := hmarks last (mem_append_right _ (mem_singleton_self _))
    cases hgrown : last.appended kind delta with
    | none => rw [appendTrailingText_opened hgrown]
    | some grown =>
      have hdelta : isUnmarked (.ofProse kind delta) = true := by
        cases kind with
        | _ => rfl
      rw [appendTrailingText_grown hgrown, merge_concat, merge_concat, merge_concat,
        mergeInto_joined (joined_ofProse hgrown hlast) hlast hdelta]

end MangoStudio.Conversation
