import MangoStudio.Filesystem.Patch

/-!
# What a prepared patch knows

Everything that `fs.apply-patch` does before its first step on the files only
reads: it uses entries of the ledger and changes none of them (`SameContents`).
If it comes to an end, each operation is planned on the content that the files
have (`Plans`), was found so again (`Revalidated`), and no path belongs to two
operations.
-/

namespace MangoStudio.Filesystem

open Attempt List

variable {μ η : Type}

/-- Two ledgers with the same entries, the order of their use aside. -/
def SameContents (ledger other : Ledger AbsolutePath μ) : Prop :=
  ∀ chatId path, other.snapshot chatId path = ledger.snapshot chatId path

/-- How a planned operation goes with an operation of the request. -/
inductive Plans (applyUpdateHunks : String → List η → String → Except String AppliedUpdate)
    (files : Files AbsolutePath) : PatchOperation η → PlannedOperation → Prop
  | add {inputPath : String} {path : AbsolutePath} {content : String}
      (hfree : files path = none) :
      Plans applyUpdateHunks files (.add inputPath path content) (.add inputPath path content)
  | delete {inputPath : String} {path : AbsolutePath} {source : Bytes}
      (hsource : files path = some source) :
      Plans applyUpdateHunks files (.delete inputPath path) (.delete inputPath path source)
  | update {inputPath : String} {path : AbsolutePath} {moveTo : Option String}
      {resolvedMoveTo : Option AbsolutePath} {hunks : List η} {source : Bytes}
      {applied : AppliedUpdate} (hsource : files path = some source)
      (happlied : patchedText applyUpdateHunks inputPath hunks source = .ok applied)
      (hpaired : moveTo.isSome = resolvedMoveTo.isSome)
      (hdestination : ∀ destination, resolvedMoveTo = some destination →
        destination ≠ path ∧ files destination = none) :
      Plans applyUpdateHunks files (.update inputPath path moveTo resolvedMoveTo hunks)
        (.update inputPath path moveTo resolvedMoveTo source applied.content (!hunks.isEmpty)
          applied.lineNumbersValidThroughLine)

/-- What revalidation found is what was planned on. -/
def Revalidated (operation : PlannedOperation) (observed : Option (Observed μ)) : Prop :=
  match operation with
  | .add _ _ _ => observed = none
  | .delete _ _ source | .update _ _ _ _ source _ _ _ =>
    ∃ found, observed = some found ∧ found.bytes = source

section Checks

variable {sha256 : Bytes → String} {env : Environment μ} {files : Files AbsolutePath}
  {ledger : Ledger AbsolutePath μ} {chatId : String} {stage : Stage} {index : Nat}
  {path : AbsolutePath}

theorem readFile_ok {maxBytes : Nat} {observed : Observed μ}
    (h : readFile env files stage index path maxBytes = .ok observed) :
    files path = some observed.bytes := by
  grind [readFile]

theorem keeps_readFresh :
    Attempt.Keeps (SameContents ledger) (readFresh sha256 env files chatId stage index path)
      fun observed => files path = some observed.bytes := by
  refine keeps_andThen ?_ fun entry => ?_
  · exact keeps_act (fun _ hsame => hsame) fun _ _ _ => trivial
  refine keeps_bind (fun observed => files path = some observed.bytes) ?_
    fun observed hobserved => ?_
  · grind [keeps_ofExcept, readFile_ok]
  refine keeps_andThen ?_ fun _ => keeps_pure hobserved
  refine keeps_act (fun state hsame otherChat other => ?_) fun _ _ _ => trivial
  rw [Ledger.snapshot_assertDigest]
  exact hsame otherChat other

theorem keeps_readPatchTarget :
    Attempt.Keeps (SameContents ledger) (readPatchTarget sha256 env files chatId stage index path)
      fun observed => files path = some observed.bytes := by
  refine keeps_andThen keeps_refuse fun _ => ?_
  refine keeps_andThen (keeps_ofExcept fun _ _ => trivial) fun _ => ?_
  refine keeps_bind _ (keeps_observe keeps_readFresh) fun result hresult => ?_
  cases result with
  | ok observed => exact keeps_pure (hresult observed rfl)
  | error error => exact keeps_throw

variable {inputPath : String} {value : Unit}

theorem assertDestinationAvailable_ok
    (h : assertDestinationAvailable files path inputPath = .ok value) : files path = none := by
  unfold assertDestinationAvailable at h
  split at h
  · assumption
  · cases h

theorem keeps_checkDestination :
    Attempt.Keeps (SameContents ledger) (checkDestination env files stage index path inputPath)
      fun _ => files path = none := by
  refine keeps_andThen keeps_refuse fun _ => ?_
  exact keeps_ofExcept fun _ hok => assertDestinationAvailable_ok hok

theorem forall₂_getLeft {ι α β : Type} {post : ι → α → Prop} {items : List ι} {start : Nat}
    {results : List (α ⊕ β)}
    (h : List.Forall₂ (fun item result => ∀ value, result = Sum.inl value → post item.1 value)
      (items.zipIdx start) results)
    (hnone : results.filterMap Sum.getRight? = []) :
    List.Forall₂ post items (results.filterMap Sum.getLeft?) := by
  induction items generalizing start results with
  | nil =>
    cases h
    exact .nil
  | cons item items ih =>
    rw [zipIdx_cons] at h
    cases h with
    | @cons _ result _ results hfirst hrest =>
      cases result with
      | inl value =>
        exact .cons (hfirst value rfl) (ih hrest hnone)
      | inr failure => cases hnone

theorem keeps_checkAll {ι α : Type} {describe : ι → String} {check : ι → Nat → LedgerM μ α}
    {post : ι → α → Prop} {items : List ι}
    (h : ∀ item index, Attempt.Keeps (SameContents ledger) (check item index) (post item)) :
    Attempt.Keeps (SameContents ledger) (checkAll describe check items) fun values =>
      List.Forall₂ post items values := by
  refine keeps_bind
    (List.Forall₂ (fun item result => ∀ value, result = Sum.inl value → post item.1 value)
      items.zipIdx)
    (keeps_mapM fun item _ => ?_) fun results hresults => ?_
  · refine keeps_bind _ (keeps_observe (h item.1 item.2)) fun result hresult => ?_
    grind [keeps_pure, keeps_throw]
  · dsimp only
    split_ifs with hempty
    · exact keeps_pure (forall₂_getLeft hresults (isEmpty_iff.mp hempty))
    · exact keeps_throw

variable {applyUpdateHunks : String → List η → String → Except String AppliedUpdate}
  {params : ApplyPatchParams η}

variable {resolvedMoveTo : Option AbsolutePath} {moveTo : Option String}

theorem keeps_checkMoveDestination :
    Attempt.Keeps (SameContents ledger)
      (checkMoveDestination env files index path moveTo resolvedMoveTo)
      fun _ => ∀ destination, resolvedMoveTo = some destination →
        destination ≠ path ∧ files destination = none := by
  cases resolvedMoveTo with
  | none => exact keeps_pure fun destination heq => by cases heq
  | some target =>
    rw [checkMoveDestination]
    split_ifs with hsame
    · exact keeps_throw
    · refine keeps_checkDestination.mono fun _ hfree destination heq => ?_
      rw [← Option.some.inj heq]
      exact ⟨hsame, hfree⟩

theorem checkMoveFields_ok (h : checkMoveFields inputPath moveTo resolvedMoveTo = .ok value) :
    moveTo.isSome = resolvedMoveTo.isSome := by
  unfold checkMoveFields at h
  split_ifs at h with hpaired
  exact not_not.mp hpaired

theorem keeps_planOperation (operation : PatchOperation η) (index : Nat) :
    Attempt.Keeps (SameContents ledger)
      (planOperation sha256 env files applyUpdateHunks params operation index)
      (Plans applyUpdateHunks files operation) := by
  refine keeps_andThen keeps_refuse fun _ => ?_
  cases operation with
  | add inputPath resolvedPath content =>
    refine keeps_andThen (keeps_ofExcept fun _ _ => trivial) fun _ => ?_
    refine keeps_bind _ keeps_checkDestination fun _ hfree => ?_
    exact keeps_pure (Plans.add hfree)
  | delete inputPath resolvedPath =>
    refine keeps_bind _ keeps_readPatchTarget fun observed hsource => ?_
    refine keeps_andThen (keeps_ofExcept fun _ _ => trivial) fun _ => ?_
    exact keeps_pure (Plans.delete hsource)
  | update inputPath resolvedPath moveTo resolvedMoveTo hunks =>
    refine keeps_bind _ (keeps_ofExcept fun _ hok => checkMoveFields_ok hok)
      fun _ hpaired => ?_
    refine keeps_bind _ keeps_readPatchTarget fun observed hsource => ?_
    refine keeps_andThen (keeps_ofExcept fun _ _ => trivial) fun _ => ?_
    refine keeps_bind _ (keeps_ofExcept fun _ hok => hok) fun applied happlied => ?_
    refine keeps_andThen (keeps_ofExcept fun _ _ => trivial) fun _ => ?_
    refine keeps_bind _ keeps_checkMoveDestination fun _ hdestination => ?_
    exact keeps_pure (Plans.update hsource happlied hpaired hdestination)

theorem assertUnchanged_ok {observed : Observed μ} {source : Bytes}
    (h : assertUnchanged path observed source = .ok value) : observed.bytes = source := by
  unfold assertUnchanged at h
  split_ifs at h with hsame
  exact not_not.mp hsame

theorem keeps_recheckMoveDestination :
    Attempt.Keeps (SameContents ledger)
      (recheckMoveDestination env files index moveTo resolvedMoveTo) fun _ => True := by
  cases resolvedMoveTo with
  | none => exact keeps_pure trivial
  | some destination =>
    refine keeps_andThen keeps_refuse fun _ => ?_
    exact keeps_checkDestination.mono fun _ _ => trivial

theorem keeps_revalidateOperation (operation : PlannedOperation) (index : Nat) :
    Attempt.Keeps (SameContents ledger)
      (revalidateOperation sha256 env files chatId operation index) (Revalidated operation) := by
  refine keeps_andThen keeps_refuse fun _ => ?_
  cases operation with
  | add inputPath resolvedPath content =>
    exact keeps_bind _ keeps_checkDestination fun _ _ => keeps_pure rfl
  | delete inputPath resolvedPath source =>
    refine keeps_bind _ keeps_readPatchTarget fun observed _ => ?_
    refine keeps_bind _ (keeps_ofExcept fun _ hok => assertUnchanged_ok hok)
      fun _ hsource => ?_
    exact keeps_pure ⟨observed, rfl, hsource⟩
  | update inputPath resolvedPath moveTo resolvedMoveTo source content hasContentChanges valid =>
    refine keeps_bind _ keeps_readPatchTarget fun observed _ => ?_
    refine keeps_bind _ (keeps_ofExcept fun _ hok => assertUnchanged_ok hok)
      fun _ hsource => ?_
    refine keeps_andThen keeps_recheckMoveDestination fun _ => ?_
    exact keeps_pure ⟨observed, rfl, hsource⟩

end Checks

/-! ## Conflicts -/

theorem claimPath_free {state : List (AbsolutePath × String) × List String}
    {claim : AbsolutePath × String} (hnone : (claimPath state claim).2 = []) :
    state.2 = [] ∧ (claimPath state claim).1 = state.1 ++ [claim] ∧
      claim.1 ∉ state.1.map Prod.fst := by
  unfold claimPath at hnone ⊢
  split at hnone
  · exact absurd hnone (append_ne_nil_of_right_ne_nil _ (cons_ne_nil _ _))
  · rename_i hfree
    refine ⟨hnone, rfl, ?_⟩
    intro hmem
    obtain ⟨owner, howner, heq⟩ := mem_map.mp hmem
    apply find?_eq_none.mp hfree owner howner
    rw [heq, isPrefix, Bool.or_self]
    exact isPrefixOf_iff_prefix.mpr (prefix_refl _)

theorem foldl_claimPath_free {claims : List (AbsolutePath × String)}
    (hnone : (claims.foldl claimPath ([], [])).2 = []) :
    (claims.foldl claimPath ([], [])).1 = claims ∧ (claims.map Prod.fst).Nodup := by
  induction claims using reverseRecOn <;> grind [claimPath_free]

theorem nodup_of_assertNoPathConflicts {planned : List PlannedOperation} {value : Unit}
    (h : assertNoPathConflicts planned = .ok value) :
    (planned.flatMap operationPaths).Nodup := by
  unfold assertNoPathConflicts at h
  dsimp only at h
  split_ifs at h with hempty
  have hnodup := (foldl_claimPath_free (isEmpty_iff.mp hempty)).2
  rw [map_flatMap] at hnodup
  simpa only [map_map, Function.comp_def, map_id'] using hnodup

/-! ## The whole preparation -/

/-- How an item of the commit goes with an operation of the request. -/
def Prepared (applyUpdateHunks : String → List η → String → Except String AppliedUpdate)
    (files : Files AbsolutePath) (operation : PatchOperation η) (item : CommitItem μ) : Prop :=
  Plans applyUpdateHunks files operation item.operation ∧
    Revalidated item.operation item.observed

section Prepare

variable {sha256 : Bytes → String} {env : Environment μ} {files : Files AbsolutePath}
  {ledger : Ledger AbsolutePath μ}
  {applyUpdateHunks : String → List η → String → Except String AppliedUpdate}

theorem prepared_items {operations : List (PatchOperation η)} {planned : List PlannedOperation}
    {revalidated : List (Option (Observed μ))}
    (hplanned : List.Forall₂ (Plans applyUpdateHunks files) operations planned)
    (hrevalidated : List.Forall₂ Revalidated planned revalidated) (start : Nat) :
    List.Forall₂ (Prepared applyUpdateHunks files) operations
        (((planned.zip revalidated).zipIdx start).map fun entry =>
          ⟨entry.1.1, entry.1.2, entry.2⟩) ∧
      (((planned.zip revalidated).zipIdx start).map fun entry =>
        (⟨entry.1.1, entry.1.2, entry.2⟩ : CommitItem μ)).map CommitItem.operation = planned := by
  induction hplanned generalizing revalidated start with
  | nil => exact ⟨.nil, rfl⟩
  | cons hplan _ ih =>
    cases hrevalidated with
    | cons hfound hrest =>
      obtain ⟨hitems, hoperations⟩ := ih hrest (start + 1)
      refine ⟨.cons ⟨hplan, hfound⟩ hitems, ?_⟩
      rw [zip_cons_cons, zipIdx_cons, map_cons, map_cons, hoperations]

theorem keeps_prepare {params : ApplyPatchParams η} {responseId : String}
    {responseLimitBytes : Nat} :
    Attempt.Keeps (SameContents ledger)
      (prepare sha256 env applyUpdateHunks responseId responseLimitBytes params files)
      fun items => List.Forall₂ (Prepared applyUpdateHunks files) params.operations items ∧
        (items.flatMap fun item => operationPaths item.operation).Nodup := by
  refine keeps_bind _ (keeps_checkAll keeps_planOperation) fun planned hplanned => ?_
  refine keeps_bind _
    (keeps_ofExcept fun _ hok => nodup_of_assertNoPathConflicts hok) fun _ hnodup => ?_
  refine keeps_andThen (keeps_ofExcept fun _ _ => trivial) fun _ => ?_
  refine keeps_andThen keeps_refuse fun _ => ?_
  refine keeps_bind _ (keeps_checkAll keeps_revalidateOperation)
    fun revalidated hrevalidated => ?_
  grind [keeps_andThen, keeps_refuse, prepared_items, keeps_pure]

end Prepare

end MangoStudio.Filesystem
