import MangoStudio.Library.Propagation
import Mathlib.Data.List.Basic

/-!
# What an apply leaves for its caller to find

The machines an apply gets to are `reached`: it goes on past a machine that
answers without failures, and stops at the first that does not.

* `writeBatches_append` runs the loop over machines that answer without
  failures; what the loop gives is then read off the machine it stops at
  (`writeBatches_clean`, `writeBatches_failed`, `writeBatches_rejected`).
* A machine that rejects takes with it the handles of the machines before it:
  the loop throws, and neither the result nor the index has them.
  `accounted_iff` says that, the acknowledgements apart, this is the only way a
  handle is lost.
-/

namespace MangoStudio.Library

open List

namespace ApplyDeps

variable (deps : ApplyDeps)

/-- The machine answers, and nothing failed on it. -/
def Clean (batch : Batch) : Prop :=
  ∃ answer, deps.runWriteEngine batch = .ok answer ∧ answer.failed = []

/-- Whether the loop goes on after a machine. -/
def goesOn (batch : Batch) : Bool :=
  match deps.runWriteEngine batch with
  | .ok answer => answer.failed.isEmpty
  | .error _ => false

/-- The machines the loop gets to. -/
def reached : List Batch → List Batch
  | [] => []
  | batch :: rest => batch :: if deps.goesOn batch then reached rest else []

/-- The handles a machine answers with. -/
def handles (batch : Batch) : List PropagationBackupHandle :=
  match deps.runWriteEngine batch with
  | .ok answer => answer.backups
  | .error _ => []

variable {deps} {before rest : List Batch} {last : Batch} {answer : PropagationApply}
  {error : ApplyError}

theorem goesOn_iff {batch : Batch} : deps.goesOn batch = true ↔ deps.Clean batch := by
  unfold goesOn Clean
  cases deps.runWriteEngine batch with
  | error | ok => simp

theorem handles_of_ok {batch : Batch}
    (hanswer : deps.runWriteEngine batch = .ok answer) : deps.handles batch = answer.backups := by
  rw [handles, hanswer]

theorem reached_cases (batches : List Batch) :
    (∀ batch ∈ batches, deps.Clean batch) ∧ deps.reached batches = batches ∨
      ∃ before last rest, batches = before ++ last :: rest ∧
        (∀ batch ∈ before, deps.Clean batch) ∧ ¬ deps.Clean last ∧
        deps.reached batches = before ++ [last] := by
  induction batches with
  | nil => exact .inl ⟨fun _ hmem => absurd hmem not_mem_nil, rfl⟩
  | cons batch batches ih =>
    by_cases hclean : deps.Clean batch
    · rw [reached, if_pos (goesOn_iff.2 hclean)]
      grind
    · refine .inr ⟨[], batch, batches, rfl, fun _ hmem => absurd hmem not_mem_nil, hclean, ?_⟩
      rw [reached, if_neg (fun h => hclean (goesOn_iff.1 h)), nil_append]

/-! ## The loop -/

theorem writeBatches_append {before : List Batch} (hbefore : ∀ batch ∈ before, deps.Clean batch)
    (written : PropagationApply) (rest : List Batch) :
    ∃ merged, deps.writeBatches written (before ++ rest) = deps.writeBatches merged rest ∧
      merged.backups = written.backups ++ before.flatMap deps.handles ∧
      merged.failed = written.failed := by
  induction before generalizing written with
  | nil => exact ⟨written, rfl, (append_nil _).symm, rfl⟩
  | cons batch before ih =>
    obtain ⟨answer, hanswer, hfailed⟩ := hbefore batch mem_cons_self
    obtain ⟨merged, hrun, hbackups, hmerged⟩ :=
      ih (fun b hb => hbefore b (mem_cons_of_mem _ hb)) (merge written answer)
    refine ⟨merged, ?_, ?_, ?_⟩
    · rw [cons_append, writeBatches, hanswer]
      show (if answer.failed ≠ [] then _ else _) = _
      rw [if_neg (not_not_intro hfailed)]
      exact hrun
    · rw [hbackups, flatMap_cons, handles_of_ok hanswer, ← append_assoc]
      rfl
    · rw [hmerged]
      show written.failed ++ answer.failed = _
      rw [hfailed, append_nil]

theorem writeBatches_clean {batches : List Batch} (hall : ∀ batch ∈ batches, deps.Clean batch) :
    ∃ written, deps.writeBatches nothing batches = .ok written ∧
      written.backups = batches.flatMap deps.handles ∧ written.failed = [] := by
  obtain ⟨merged, hrun, hbackups, hfailed⟩ := writeBatches_append hall nothing []
  rw [append_nil] at hrun
  exact ⟨merged, hrun, hbackups, hfailed⟩

/-- A machine that answers with a failure ends the loop, and the result is partial where a
machine before it has a backup. -/
theorem writeBatches_failed (hbefore : ∀ batch ∈ before, deps.Clean batch)
    (hanswer : deps.runWriteEngine last = .ok answer) (hfailed : answer.failed ≠ []) :
    ∃ written, deps.writeBatches nothing (before ++ last :: rest) = .ok written ∧
      written.backups = (before ++ [last]).flatMap deps.handles ∧ written.failed ≠ [] ∧
      (before.flatMap deps.handles ≠ [] → written.isPartial = true) := by
  obtain ⟨merged, hrun, hbackups, -⟩ := writeBatches_append hbefore nothing (last :: rest)
  refine ⟨{ merge merged answer with
      isPartial := (merge merged answer).isPartial ||
        decide (answer.backups.length < (merge merged answer).backups.length) }, ?_, ?_, ?_, ?_⟩
  · rw [hrun, writeBatches, hanswer]
    show (if answer.failed ≠ [] then _ else _) = _
    rw [if_pos hfailed]
    rfl
  · show merged.backups ++ answer.backups = _
    rw [hbackups, flatMap_append, flatMap_singleton, handles_of_ok hanswer]
    rfl
  · exact append_ne_nil_of_right_ne_nil _ hfailed
  · intro hhandles
    have hmerged : merged.backups ≠ [] := by
      rw [hbackups]
      exact append_ne_nil_of_right_ne_nil _ hhandles
    have hlength : answer.backups.length < (merged.backups ++ answer.backups).length := by
      have := length_pos_iff.2 hmerged
      rw [length_append]
      omega
    show (_ || decide (answer.backups.length < (merged.backups ++ answer.backups).length)) = true
    rw [decide_eq_true hlength, Bool.or_true]

theorem writeBatches_rejected (hbefore : ∀ batch ∈ before, deps.Clean batch)
    (herror : deps.runWriteEngine last = .error error) :
    deps.writeBatches nothing (before ++ last :: rest) = .error error := by
  obtain ⟨merged, hrun, -, -⟩ := writeBatches_append hbefore nothing (last :: rest)
  rw [hrun, writeBatches, herror]
  rfl

/-! ## The end of the apply -/

theorem forM_eq_ok_iff {α ε : Type} {action : α → Except ε Unit} {items : List α} :
    items.forM action = .ok () ↔ ∀ item ∈ items, action item = .ok () := by
  induction items with
  | nil => exact iff_of_true rfl fun _ hmem => absurd hmem not_mem_nil
  | cons item items ih =>
    show (action item >>= fun _ => items.forM action) = .ok () ↔ _
    rw [forall_mem_cons, ← ih]
    cases action item with
    | error error => exact iff_of_false nofun fun h => nomatch h.1
    | ok value => exact ⟨fun h => ⟨rfl, h⟩, fun h => h.2⟩

variable {batches : List Batch} {skipped : List Placement} {acknowledgements : List String}

theorem applyPrepared_clean (hall : ∀ batch ∈ batches, deps.Clean batch) :
    ∃ written : PropagationApply, written.backups = batches.flatMap deps.handles ∧
      deps.applyPrepared batches skipped acknowledgements =
        ⟨(acknowledgements.forM deps.acknowledge).map fun _ => written,
          (batches.flatMap deps.handles).filter deps.recordBackup⟩ := by
  obtain ⟨written, hrun, hbackups, hfailed⟩ := writeBatches_clean hall
  by_cases hempty : batches = []
  · subst hempty
    refine ⟨{ nothing with skipped }, rfl, ?_⟩
    rw [applyPrepared, runPreparedWrites, if_pos rfl]
    rfl
  · refine ⟨{ written with
      backupId := singleBackupId written.backups, skipped := skipped ++ written.skipped },
      hbackups, ?_⟩
    rw [applyPrepared, runPreparedWrites, if_neg hempty, runWriteEngineAcrossEnvironments, hrun]
    show (if written.failed = [] then _ else _) = _
    rw [if_pos hfailed, ← hbackups]

theorem applyPrepared_failed (hbefore : ∀ batch ∈ before, deps.Clean batch)
    (hanswer : deps.runWriteEngine last = .ok answer) (hfailed : answer.failed ≠ []) :
    ∃ result, (deps.applyPrepared (before ++ last :: rest) skipped acknowledgements).outcome =
        .ok result ∧
      result.backups = (before ++ [last]).flatMap deps.handles ∧
      (before.flatMap deps.handles ≠ [] → result.isPartial = true) := by
  obtain ⟨written, hrun, hbackups, hwritten, hreported⟩ :=
    @writeBatches_failed _ _ rest _ _ hbefore hanswer hfailed
  refine ⟨{ written with
    backupId := singleBackupId written.backups, skipped := skipped ++ written.skipped }, ?_,
    hbackups, hreported⟩
  rw [applyPrepared, runPreparedWrites, if_neg (by simp), runWriteEngineAcrossEnvironments, hrun]
  show (if written.failed = [] then _ else _ : Settled).outcome = _
  rw [if_neg hwritten]

theorem applyPrepared_rejected (hbefore : ∀ batch ∈ before, deps.Clean batch)
    (herror : deps.runWriteEngine last = .error error) :
    deps.applyPrepared (before ++ last :: rest) skipped acknowledgements = ⟨.error error, []⟩ := by
  rw [applyPrepared, runPreparedWrites, if_neg (by simp), runWriteEngineAcrossEnvironments,
    writeBatches_rejected hbefore herror]
  rfl

/-! ## The handles -/

variable (deps)

/-- Every handle a machine answered with is in the result or in the index, and the result says
that the apply is partial where a later machine did not answer without failures. -/
def Accounted (batches : List Batch) (settled : Settled) : Prop :=
  ∀ before batch after, deps.reached batches = before ++ batch :: after →
    ∀ handle ∈ deps.handles batch,
      ((∃ result, settled.outcome = .ok result ∧ handle ∈ result.backups) ∨
        handle ∈ settled.filed) ∧
      ((∃ later ∈ after, ¬ deps.Clean later) →
        ∃ result, settled.outcome = .ok result ∧ result.isPartial = true)

/-- No machine rejects after one that answered with a handle; and where every machine answered
without failures and a handle cannot be filed, no acknowledgement is rejected. -/
structure Undisturbed (batches : List Batch) (acknowledgements : List String) : Prop where
  answered : ∀ before last rest error, batches = before ++ last :: rest →
    (∀ batch ∈ before, deps.Clean batch) → deps.runWriteEngine last = .error error →
    before.flatMap deps.handles = []
  acknowledged : (∀ batch ∈ batches, deps.Clean batch) →
    ∀ handle ∈ batches.flatMap deps.handles, deps.recordBackup handle = false →
    ∀ acknowledgement ∈ acknowledgements, deps.acknowledge acknowledgement = .ok ()

variable {deps}

theorem reached_split (hbefore : ∀ batch ∈ before, deps.Clean batch)
    (hlast : ¬ deps.Clean last) :
    deps.reached (before ++ last :: rest) = before ++ [last] := by
  induction before with
  | nil =>
    rw [nil_append, reached, if_neg (fun h => hlast (goesOn_iff.1 h)), nil_append]
  | cons batch before ih =>
    rw [cons_append, reached, if_pos (goesOn_iff.2 (hbefore batch mem_cons_self)),
      ih fun b hb => hbefore b (mem_cons_of_mem _ hb), cons_append]

theorem reached_clean (hall : ∀ batch ∈ batches, deps.Clean batch) :
    deps.reached batches = batches := by
  grind [reached_cases]

theorem Accounted.undisturbed
    (haccounted : deps.Accounted batches (deps.applyPrepared batches skipped acknowledgements)) :
    deps.Undisturbed batches acknowledgements := by
  constructor
  case answered =>
    rintro before last rest error rfl hbefore herror
    have hlast : ¬ deps.Clean last := by
      rintro ⟨answer, hanswer, -⟩
      rw [herror] at hanswer
      cases hanswer
    by_contra hlost
    obtain ⟨handle, hhandle⟩ := exists_mem_of_ne_nil _ hlost
    obtain ⟨batch, hbatch, hmem⟩ := mem_flatMap.1 hhandle
    obtain ⟨first, second, rfl⟩ := append_of_mem hbatch
    have hreached := (@reached_split deps _ rest last hbefore hlast).trans
      (append_assoc first (batch :: second) [last])
    have hfound := (haccounted first batch (second ++ [last]) hreached handle hmem).1
    rw [applyPrepared_rejected hbefore herror] at hfound
    rcases hfound with ⟨result, hresult, -⟩ | hfiled
    · cases hresult
    · exact not_mem_nil hfiled
  case acknowledged =>
    intro hall handle hhandle hunfiled
    obtain ⟨written, -, hsettled⟩ :=
      @applyPrepared_clean deps batches skipped acknowledgements hall
    rw [hsettled] at haccounted
    obtain ⟨batch, hbatch, hmem⟩ := mem_flatMap.1 hhandle
    obtain ⟨first, second, hsplit⟩ := append_of_mem hbatch
    have hreached := (reached_clean hall).trans hsplit
    rcases (haccounted first batch second hreached handle hmem).1 with ⟨result, hresult, -⟩ | hfiled
    · apply forM_eq_ok_iff.1
      cases hforM : acknowledgements.forM deps.acknowledge with
      | ok value => rfl
      | error error =>
        rw [hforM] at hresult
        cases hresult
    · rw [mem_filter, hunfiled] at hfiled
      exact absurd hfiled.2 Bool.false_ne_true

theorem Undisturbed.accounted (hundisturbed : deps.Undisturbed batches acknowledgements) :
    deps.Accounted batches (deps.applyPrepared batches skipped acknowledgements) := by
  intro before batch after hsplit handle hhandle
  rcases @reached_cases deps batches with
    ⟨hall, hreached⟩ | ⟨clean, last, rest, rfl, hclean, hlast, hreached⟩
  · -- Every machine answered without failures: the result is lost only to an acknowledgement.
    obtain ⟨written, hbackups, hsettled⟩ :=
      @applyPrepared_clean deps batches skipped acknowledgements hall
    have hmem : handle ∈ batches.flatMap deps.handles := by
      grind
    rw [hsettled]
    refine ⟨?_, ?_⟩
    · cases hfiled : deps.recordBackup handle with
      | true => exact .inr (mem_filter.2 ⟨hmem, hfiled⟩)
      | false =>
        have hforM := forM_eq_ok_iff.2 (hundisturbed.acknowledged hall handle hmem hfiled)
        refine .inl ⟨written, ?_, hbackups ▸ hmem⟩
        rw [hforM]
        rfl
    · grind
  · -- The loop stopped at `last`, which answered with a failure or rejected.
    have hmem : handle ∈ (clean ++ [last]).flatMap deps.handles := by
      rw [← hreached, hsplit]
      exact mem_flatMap.2 ⟨batch, mem_append_right _ mem_cons_self, hhandle⟩
    cases hanswer : deps.runWriteEngine last with
    | error error =>
      have hnone := hundisturbed.answered clean last rest error rfl hclean hanswer
      rw [flatMap_append, hnone, nil_append, flatMap_singleton, handles,
        hanswer] at hmem
      exact absurd hmem not_mem_nil
    | ok answer =>
      have hfailed : answer.failed ≠ [] := fun h => hlast ⟨answer, hanswer, h⟩
      obtain ⟨result, hresult, hbackups, hreported⟩ :=
        @applyPrepared_failed deps clean rest last answer skipped acknowledgements hclean hanswer
          hfailed
      refine ⟨.inl ⟨result, hresult, hbackups ▸ hmem⟩, ?_⟩
      rintro ⟨later, hlater, -⟩
      refine ⟨result, hresult, hreported ?_⟩
      -- The machine with the handle is before the last one reached.
      have hclean' : batch ∈ clean := by
        have hends : clean ++ [last] = before ++ batch :: after := hreached.symm.trans hsplit
        rcases eq_nil_or_concat after with rfl | ⟨init, final, rfl⟩
        · exact absurd hlater not_mem_nil
        · rw [concat_eq_append, ← cons_append, ← append_assoc] at hends
          rw [(append_inj' hends rfl).1]
          exact mem_append_right _ mem_cons_self
      exact ne_nil_of_mem (mem_flatMap.2 ⟨batch, hclean', hhandle⟩)

/-- The handles of an apply can be found afterwards exactly when no machine rejects after one
that answered with a handle, and no acknowledgement is rejected where a handle was not filed. -/
theorem accounted_iff (deps : ApplyDeps) (batches : List Batch) (skipped : List Placement)
    (acknowledgements : List String) :
    deps.Accounted batches (deps.applyPrepared batches skipped acknowledgements) ↔
      deps.Undisturbed batches acknowledgements :=
  ⟨Accounted.undisturbed, Undisturbed.accounted⟩

/-- Two machines: the first is written and answers with its backup set, the second rejects. -/
def secondRejects : ApplyDeps where
  connect := fun _ => .ok ⟨"/backups", 10, 1000⟩
  apply := fun environmentId _ =>
    if environmentId = "a" then
      .ok { nothing with backups := [⟨"a", "set"⟩], applied := [⟨"skill", "a", "agents"⟩] }
    else .error (.engine "The request timed out.")
  recordBackup := fun _ => true
  acknowledge := fun _ => .ok ()

/-- The first machine is changed, and its handle is neither returned nor filed. -/
theorem handle_lost :
    let write : PreparedPropagationOperation := ⟨"skill", "agents", .file, "hash", some [1], none⟩
    let batches : List Batch := [⟨"a", [write]⟩, ⟨"b", [write]⟩]
    let settled := secondRejects.applyPrepared batches [] []
    secondRejects.handles ⟨"a", [write]⟩ = [⟨"a", "set"⟩] ∧ settled.filed = [] ∧
      settled.outcome = .error (.engine "The request timed out.") ∧
      ¬ secondRejects.Accounted batches settled := by
  intro write batches settled
  have hhandles : secondRejects.handles ⟨"a", [write]⟩ = [⟨"a", "set"⟩] := by decide
  have hreached : secondRejects.reached batches = [] ++ ⟨"a", [write]⟩ :: [⟨"b", [write]⟩] := by
    decide
  have hfiled : settled.filed = [] := by decide
  have houtcome : settled.outcome = .error (.engine "The request timed out.") := by decide
  refine ⟨hhandles, hfiled, houtcome, ?_⟩
  intro haccounted
  rcases (haccounted _ _ _ hreached ⟨"a", "set"⟩ (hhandles ▸ List.mem_cons_self)).1 with
    ⟨result, hresult, -⟩ | hmem
  · rw [houtcome] at hresult
    cases hresult
  · rw [hfiled] at hmem
    exact absurd hmem List.not_mem_nil

end ApplyDeps

end MangoStudio.Library
