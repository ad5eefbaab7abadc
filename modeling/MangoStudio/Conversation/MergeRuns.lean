import MangoStudio.Conversation.MergeParts
import Mathlib.Data.List.Chain

/-!
# A merged message is the list of its runs

A stored message is merged again on every continuation, so the merge must not
depend on where a message was cut.

* `IsRun` says what one part of a merged message stands for: a part that is no
  prose, or a run of prose of one kind.  The runs of a message, in order, are its
  parts without the empty texts (`merge_runs`).
* Two adjacent runs are never of one kind (`merge_alternates`), and no run of text
  is empty (`merge_said`).
* Merging pieces first makes no difference (`foldl_merge`), so a message merged at
  every continuation is the message merged once.
-/

namespace MangoStudio.Conversation

open List

namespace MessagePart

def proseKind : MessagePart → Option ProseKind
  | .text _ _ => some .text
  | .thinking _ _ _ => some .thinking
  | _ => none

def prose : MessagePart → String
  | .text prose _ => prose
  | .thinking prose _ _ => prose
  | _ => ""

def isRedacted : MessagePart → Bool
  | .thinking _ redacted _ => redacted
  | _ => false

def isIncomplete : MessagePart → Bool
  | .text _ incomplete => incomplete
  | .thinking _ _ incomplete => incomplete
  | _ => false

end MessagePart

open MessagePart

/-- All prose of one kind. -/
def proseOf (kind : ProseKind) (parts : List MessagePart) : String :=
  String.join ((parts.filter fun part => part.proseKind == some kind).map prose)

/-- What a part of a merged message stands for. -/
inductive IsRun (members : List MessagePart) (run : MessagePart) : Prop where
  | solid (hsolid : run.proseKind = none) (hmembers : members = [run])
  | prose (kind : ProseKind) (hkind : run.proseKind = some kind) (hsome : members ≠ [])
      (hmembers : ∀ part ∈ members, part.proseKind = some kind)
      (hprose : run.prose = String.join (members.map MessagePart.prose))
      (hredacted : run.isRedacted = members.any isRedacted)
      (hincomplete : run.isIncomplete = members.getLast?.any isIncomplete)

/-! ## Joining -/

theorem join_concat (texts : List String) (text : String) :
    String.join (texts ++ [text]) = String.join texts ++ text := by
  rw [String.join, foldl_append]
  rfl

theorem joined_spec {last part run : MessagePart} (h : joined last part = some run) :
    ∃ kind, last.proseKind = some kind ∧ part.proseKind = some kind ∧
      run.proseKind = some kind ∧ run.prose = last.prose ++ part.prose ∧
        run.isRedacted = (last.isRedacted || part.isRedacted) ∧
          run.isIncomplete = part.isIncomplete := by
  rcases joined_cases h with
    ⟨before, mark, prose, incomplete, rfl, rfl, rfl⟩ | ⟨_, _, _, _, _, _, rfl, rfl, rfl⟩
  · exact ⟨.text, rfl, rfl, rfl, rfl, rfl, rfl⟩
  · exact ⟨.thinking, rfl, rfl, rfl, rfl, rfl, rfl⟩

theorem joined_of_kind {last part : MessagePart} {kind : ProseKind}
    (hlast : last.proseKind = some kind) (hpart : part.proseKind = some kind) :
    ∃ run, joined last part = some run := by
  cases last with
  | text prose incomplete =>
    cases part with
    | text => exact ⟨_, rfl⟩
    | _ => cases hlast; cases hpart
  | thinking prose redacted incomplete =>
    cases part with
    | thinking => exact ⟨_, rfl⟩
    | _ => cases hlast; cases hpart
  | _ => cases hlast

theorem IsRun.single (part : MessagePart) : IsRun [part] part := by
  cases hkind : part.proseKind with
  | none => exact .solid hkind rfl
  | some kind =>
    refine .prose kind hkind (cons_ne_nil _ _) ?_ ?_ ?_ rfl
    · intro member hmember
      rw [mem_singleton.mp hmember, hkind]
    · exact (String.empty_append).symm
    · simp

theorem IsRun.extend {members : List MessagePart} {last part run : MessagePart}
    (hrun : IsRun members last) (h : joined last part = some run) :
    IsRun (members ++ [part]) run := by
  obtain ⟨kind, hlast, hpart, hkind, hprose, hredacted, hincomplete⟩ := joined_spec h
  cases hrun with
  | solid hsolid =>
    rw [hlast] at hsolid
    cases hsolid
  | prose kind' hkind' _ hmembers hprose' hredacted' _ =>
    have hsame : kind' = kind := by
      rw [hlast] at hkind'
      exact (Option.some.inj hkind').symm
    refine .prose kind hkind (by simp) ?_ ?_ ?_ ?_
    · grind
    · rw [hprose, hprose', map_append, map_singleton, join_concat]
    · rw [hredacted, hredacted', any_append, any_cons, any_nil, Bool.or_false]
    · rw [hincomplete, getLast?_concat]
      rfl

/-! ## The runs of a message -/

/-- A message without its empty texts. -/
def saidParts (parts : List MessagePart) : List MessagePart :=
  parts.filter fun part => !isEmptyText part

theorem saidParts_concat (parts : List MessagePart) (part : MessagePart) :
    saidParts (parts ++ [part]) =
      if isEmptyText part then saidParts parts else saidParts parts ++ [part] := by
  cases hempty : isEmptyText part <;> simp [saidParts, hempty]

theorem forall₂_concat_right {α β : Type} {rel : α → β → Prop} {lefts : List α}
    {rights : List β} {last : β} (h : List.Forall₂ rel lefts (rights ++ [last])) :
    ∃ init left, lefts = init ++ [left] ∧ List.Forall₂ rel init rights ∧ rel left last := by
  induction rights generalizing lefts with
  | nil =>
    cases h with
    | cons hlast hnil =>
      cases hnil
      exact ⟨[], _, rfl, .nil, hlast⟩
  | cons right rights ih =>
    cases h with
    | cons hhead htail =>
      obtain ⟨init, left, rfl, hinit, hlast⟩ := ih htail
      exact ⟨_ :: init, left, rfl, .cons hhead hinit, hlast⟩

theorem merge_runs (parts : List MessagePart) :
    ∃ groups : List (List MessagePart), groups.flatten = saidParts parts ∧
      List.Forall₂ IsRun groups (mergeMessageParts parts) := by
  induction parts using reverseRecOn with
  | nil => exact ⟨[], rfl, .nil⟩
  | append_singleton parts part ih =>
    obtain ⟨groups, hflatten, hruns⟩ := ih
    rw [merge_concat, saidParts_concat]
    cases hempty : isEmptyText part with
    | true =>
      rw [mergeInto_empty hempty, if_pos rfl]
      exact ⟨groups, hflatten, hruns⟩
    | false =>
      rw [if_neg Bool.false_ne_true]
      rcases joins_or_opens (mergeMessageParts parts) part with
        ⟨init, last, run, hmerged, hjoined⟩ | hopens
      · -- The last group grows.
        rw [hmerged] at hruns
        obtain ⟨before, group, rfl, hbefore, hgroup⟩ := forall₂_concat_right hruns
        refine ⟨before ++ [group ++ [part]], ?_, ?_⟩
        · rw [← hflatten]
          simp
        · rw [hmerged, mergeInto_joins hempty hjoined]
          exact rel_append hbefore (.cons (hgroup.extend hjoined) .nil)
      · refine ⟨groups ++ [[part]], ?_, ?_⟩
        · rw [← hflatten]
          simp
        · rw [mergeInto_opens hempty hopens]
          exact rel_append hruns (.cons (.single part) .nil)

theorem merge_said (parts : List MessagePart) :
    ∀ part ∈ mergeMessageParts parts, isEmptyText part = false := by
  induction parts using reverseRecOn with
  | nil => exact fun part hpart => absurd hpart not_mem_nil
  | append_singleton parts part ih =>
    rw [merge_concat]
    cases hempty : isEmptyText part with
    | true =>
      rw [mergeInto_empty hempty]
      exact ih
    | false =>
      rcases joins_or_opens (mergeMessageParts parts) part with
        ⟨init, last, run, hmerged, hjoined⟩ | hopens
      · rw [hmerged, mergeInto_joins hempty hjoined]
        grind [mem_append_left, isEmptyText_joined]
      · grind [mergeInto_opens]

/-- Two adjacent parts are not prose of one kind. -/
def Alternates (parts : List MessagePart) : Prop :=
  parts.IsChain fun first second => joined first second = none

theorem alternates_concat {parts : List MessagePart} {part : MessagePart} :
    Alternates (parts ++ [part]) ↔
      Alternates parts ∧ parts.getLast?.bind (joined · part) = none := by
  unfold Alternates
  rw [isChain_append]
  cases parts.getLast? <;> simp

theorem merge_alternates (parts : List MessagePart) : Alternates (mergeMessageParts parts) := by
  induction parts using reverseRecOn with
  | nil => exact .nil
  | append_singleton parts part ih =>
    rw [merge_concat]
    cases hempty : isEmptyText part with
    | true =>
      rw [mergeInto_empty hempty]
      exact ih
    | false =>
      rcases joins_or_opens (mergeMessageParts parts) part with
        ⟨init, last, run, hmerged, hjoined⟩ | hopens
      · rw [hmerged] at ih
        obtain ⟨hinit, hlast⟩ := alternates_concat.mp ih
        rw [hmerged, mergeInto_joins hempty hjoined]
        grind [alternates_concat, joined_assoc]
      · rw [mergeInto_opens hempty hopens]
        exact alternates_concat.mpr ⟨ih, hopens⟩

/-! ## Merging in pieces -/

theorem foldl_merge (merged parts : List MessagePart) :
    (mergeMessageParts parts).foldl mergeInto merged = parts.foldl mergeInto merged := by
  induction parts using reverseRecOn with
  | nil => rfl
  | append_singleton parts part ih =>
    rw [merge_concat, foldl_append, ← ih]
    cases hempty : isEmptyText part with
    | true =>
      rw [mergeInto_empty hempty]
      exact (mergeInto_empty hempty _).symm
    | false =>
      rcases joins_or_opens (mergeMessageParts parts) part with
        ⟨init, last, run, hmerged, hjoined⟩ | hopens
      · have hlast : isEmptyText last = false :=
          merge_said parts last (by rw [hmerged]; exact mem_append_right _ (.head _))
        rw [hmerged, mergeInto_joins hempty hjoined, foldl_append, foldl_append]
        exact (mergeInto_joined_said hjoined hlast hempty _).symm
      · rw [mergeInto_opens hempty hopens, foldl_append]

theorem merge_append_eq (first second : List MessagePart) :
    mergeMessageParts (first ++ second) = second.foldl mergeInto (mergeMessageParts first) :=
  foldl_append

theorem merge_merge (parts : List MessagePart) :
    mergeMessageParts (mergeMessageParts parts) = mergeMessageParts parts :=
  foldl_merge [] parts

theorem merge_merge_append (first second : List MessagePart) :
    mergeMessageParts (mergeMessageParts first ++ second) = mergeMessageParts (first ++ second) := by
  rw [merge_append_eq, merge_merge, merge_append_eq]

theorem merge_continued (row : List MessagePart) (pieces : List (List MessagePart)) :
    pieces.foldl (fun row piece => mergeMessageParts (row ++ piece)) (mergeMessageParts row) =
      mergeMessageParts (row ++ pieces.flatten) := by
  induction pieces generalizing row with
  | nil => rw [foldl_nil, flatten_nil, append_nil]
  | cons piece pieces ih =>
    rw [foldl_cons, merge_merge_append, ih, flatten_cons, append_assoc]

/-! ## The prose of a message -/

theorem join_append (first second : List String) :
    String.join (first ++ second) = String.join first ++ String.join second := by
  induction second using reverseRecOn with
  | nil => rw [append_nil]; exact String.append_empty.symm
  | append_singleton second text ih =>
    rw [← append_assoc, join_concat, ih, join_concat, String.append_assoc]

theorem proseOf_append (kind : ProseKind) (first second : List MessagePart) :
    proseOf kind (first ++ second) = proseOf kind first ++ proseOf kind second := by
  rw [proseOf, filter_append, map_append, join_append]
  rfl

theorem proseOf_single (kind : ProseKind) (part : MessagePart) :
    proseOf kind [part] = if part.proseKind = some kind then part.prose else "" := by
  by_cases hkind : part.proseKind = some kind
  · simp [proseOf, hkind, String.join]
  · simp [proseOf, hkind, String.join]

theorem proseOf_merge (kind : ProseKind) (parts : List MessagePart) :
    proseOf kind (mergeMessageParts parts) = proseOf kind parts := by
  induction parts using reverseRecOn with
  | nil => rfl
  | append_singleton parts part ih =>
    rw [merge_concat, proseOf_append, ← ih, proseOf_single]
    cases hempty : isEmptyText part with
    | true =>
      have hquiet : part.prose = "" := by
        cases part with
        | text prose incomplete => exact beq_iff_eq.mp hempty
        | _ => cases hempty
      rw [mergeInto_empty hempty, hquiet, ite_self, String.append_empty]
    | false =>
      rcases joins_or_opens (mergeMessageParts parts) part with
        ⟨init, last, run, hmerged, hjoined⟩ | hopens
      · obtain ⟨kind', hlast, hpart, hkind, hprose, -⟩ := joined_spec hjoined
        rw [hmerged, mergeInto_joins hempty hjoined, proseOf_append, proseOf_append,
          proseOf_single, proseOf_single, hlast, hpart, hkind, hprose]
        split_ifs
        · rw [String.append_assoc]
        · rw [String.append_empty, String.append_empty]
      · rw [mergeInto_opens hempty hopens, proseOf_append, proseOf_single]

/-- The merge is compatible with continuation, and it loses nothing but empty texts. -/
theorem merge_compatible (first second : List MessagePart) :
    mergeMessageParts (mergeMessageParts first ++ mergeMessageParts second) =
        mergeMessageParts (first ++ second) ∧
      mergeMessageParts (mergeMessageParts first) = mergeMessageParts first ∧
      (∀ kind, proseOf kind (mergeMessageParts first) = proseOf kind first) ∧
      ((mergeMessageParts first).IsChain fun before after =>
        ∀ kind, ¬ (before.proseKind = some kind ∧ after.proseKind = some kind)) ∧
      (∀ part ∈ mergeMessageParts first, isEmptyText part = false) ∧
      solidParts (mergeMessageParts first) = solidParts first ∧
      (∃ groups : List (List MessagePart), groups.flatten = saidParts first ∧
        List.Forall₂ IsRun groups (mergeMessageParts first)) ∧
      ∀ pieces : List (List MessagePart),
        pieces.foldl (fun row piece => mergeMessageParts (row ++ piece))
            (mergeMessageParts first) =
          mergeMessageParts (first ++ pieces.flatten) := by
  refine ⟨?_, merge_merge first, fun kind => proseOf_merge kind first, ?_, merge_said first,
    solid_merge first, merge_runs first, merge_continued first⟩
  · rw [merge_merge_append, merge_append_eq, foldl_merge, ← merge_append_eq]
  · refine (merge_alternates first).imp fun before after hnone kind hkinds => ?_
    obtain ⟨run, hrun⟩ := joined_of_kind hkinds.1 hkinds.2
    rw [hnone] at hrun
    cases hrun

end MangoStudio.Conversation
