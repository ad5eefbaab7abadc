import Mathlib
import MangoStudio.Lib.Run

/-!
# The scratch leaf of an external-agent open

`supervisor.rs` creates the leaf in a future that may be dropped at its next await, and every exit
removes it by itself.

* A `Script` says what the awaits and checks of one open answer.
* `Leaks` is an open that leaves its leaf: the vendor has not answered when the grace ends and the
  future is dropped, or the leaf cannot be restricted or removed.
* `leaf_removed_iff` is the law for an open and the closes after it.
-/

namespace MangoStudio.ExternalAgents.Supervisor

open Run

variable {ε σ : Type}

/-- Whether the leaf is there; no other open uses its name. -/
abbrev Leaf := Bool

/-- The error of a leaf that cannot be removed is dropped. -/
def removeScratch (removes : Bool) (leaf : Leaf) : Leaf := leaf && !removes

/-- `create_private_dir`: a directory that cannot be restricted has been created. -/
inductive Creation (ε : Type) where
  | failed (error : ε)
  | unrestricted (error : ε)
  | made

inductive VendorClose where
  | closed
  | failed (detail : String)
  | timedOut (bound : Nat)

/-- The vendor close, then the leaf. -/
def finishClose (removes : Bool) (leaf : Leaf) (vendor : VendorClose) :
    Leaf × Except String Unit :=
  (removeScratch removes leaf, match vendor with
    | .closed => .ok ()
    | .failed detail => .error detail
    | .timedOut bound => .error s!"the vendor close did not finish within {bound} ms")

/-- One open.  An await with `none` has no answer when the grace of `bounded` ends. -/
structure Script (ε σ : Type) where
  /-- What comes before the leaf: the configuration, the workspaces, the executable, the root. -/
  authorized : Option (Except ε Unit)
  leaf : Creation ε
  stoppedBeforeLaunch : Option ε
  vendor : Option (Except ε σ)
  /-- The deadline, the caller or shutdown, and whether the future is ready before it. -/
  stop : ε
  inTime : Bool
  close : VendorClose
  /-- A close, a revocation or shutdown came before the registration. -/
  claimed : Bool
  /-- Whether the leaf can be removed, which is tried once. -/
  removes : Bool

namespace Script

/-- The future of `run_open`, without an outcome where it is dropped. -/
def work (script : Script ε σ) : Leaf × Option (Except ε σ) :=
  match script.authorized with
  | none => (false, none)
  | some (.error error) => (false, some (.error error))
  | some (.ok ()) =>
    match script.leaf with
    | .failed error => (false, some (.error error))
    | .unrestricted error => (true, some (.error error))
    | .made =>
      match script.stoppedBeforeLaunch, script.vendor with
      | some error, _ => (removeScratch script.removes true, some (.error error))
      | none, none => (true, none)
      | none, some (.error error) => (removeScratch script.removes true, some (.error error))
      | none, some (.ok session) => (true, some (.ok session))

/-- An error comes with the session that the future still produced in the grace. -/
def bounded (script : Script ε σ) : Except (ε × Option σ) σ :=
  match script.inTime, script.work.2 with
  | true, some (.ok session) => .ok session
  | true, some (.error error) => .error (error, none)
  | _, outcome => .error (script.stop, outcome.bind Except.toOption)

def runOpen (script : Script ε σ) : Leaf × Except ε σ :=
  match script.bounded with
  | .ok session => (script.work.1, .ok session)
  | .error (error, none) => (script.work.1, .error error)
  | .error (error, some _) =>
    ((finishClose script.removes script.work.1 script.close).1, .error error)

/-- The future is dropped with a leaf or fails with one, or the leaf cannot be removed. -/
def Leaks (script : Script ε σ) : Prop :=
  script.authorized matches some (.ok ()) ∧
    (script.leaf matches .unrestricted _ ∨
      script.leaf matches .made ∧
        (script.removes = false ∨ script.stoppedBeforeLaunch.isNone ∧ script.vendor.isNone))

end Script

inductive CloseFailure where
  | interrupted
  | failed (detail : String)

/-- What an open and the closes after it leave. -/
structure Held where
  leaf : Leaf
  live : Bool
  closing : Bool := false
  closed : Option (Except CloseFailure Unit) := none

/-- The task of `open`, with `register`. -/
def openSession (script : Script ε σ) : Held :=
  match script.runOpen with
  | (leaf, .error _) => { leaf, live := false }
  | (leaf, .ok _) =>
    if script.claimed then
      { leaf := (finishClose script.removes leaf script.close).1, live := false }
    else { leaf, live := true }

inductive CloseEvent where
  | call
  | finish (vendor : VendorClose)
  | drop

/-- `close_live`: the first call owns the close, which then ends or is dropped. -/
def closeLive (removes : Bool) (held : Held) (event : CloseEvent) : Held :=
  if !held.live || held.closed.isSome then held
  else match event, held.closing with
    | .call, _ => { held with closing := true }
    | .finish vendor, true => { held with
        leaf := (finishClose removes held.leaf vendor).1
        closed := some ((finishClose removes held.leaf vendor).2.mapError .failed) }
    | .drop, true => { held with
        leaf := removeScratch removes held.leaf, closed := some (.error .interrupted) }
    | _, false => held

/-- The open has settled without a live session, or the close of the session has ended. -/
def Held.Ended (held : Held) : Prop := held.live = false ∨ held.closed.isSome

/-- What holds after the open and after every close. -/
inductive Accounted (script : Script ε σ) (held : Held) : Prop
  | live (hopen : ¬ held.Ended) (hleaf : held.leaf = true)
      (hleaks : script.removes = false ↔ script.Leaks)
  | ended (hended : held.Ended) (hleaf : held.leaf = true ↔ script.Leaks)

open Script

variable {script : Script ε σ}

/-- A session that the future produced has the leaf, until it is closed. -/
theorem accounted_of_session {session : σ} (hwork : script.work = (true, some (.ok session)))
    (hleaks : script.removes = false ↔ script.Leaks) : Accounted script (openSession script) := by
  have hopen : openSession script = { leaf := removeScratch script.removes true, live := false } ∨
      openSession script = { leaf := true, live := true } := by
    cases hintime : script.inTime <;> cases hclaimed : script.claimed <;>
      simp [openSession, runOpen, bounded, hwork, hintime, hclaimed, Except.toOption, finishClose]
  rcases hopen with hopen | hopen
  · rw [hopen]
    exact .ended (.inl rfl) (by simpa [removeScratch] using hleaks)
  · rw [hopen]
    exact .live (by simp [Held.Ended]) rfl hleaks

/-- Without a session the leaf stays as the future left it. -/
theorem accounted_of_none (leaf : Leaf) (outcome : Option ε)
    (hwork : script.work = (leaf, outcome.map .error)) (hleaf : leaf = true ↔ script.Leaks) :
    Accounted script (openSession script) := by
  have hopen : openSession script = { leaf, live := false } := by
    cases hintime : script.inTime <;> cases outcome <;>
      simp [openSession, runOpen, bounded, hwork, hintime, Except.toOption]
  rw [hopen]
  exact .ended (.inl rfl) hleaf

theorem accounted_openSession (script : Script ε σ) : Accounted script (openSession script) := by
  obtain ⟨authorized, leaf, stopped, vendor, stop, inTime, close, claimed, removes⟩ := script
  rcases authorized with _ | error | _
  · exact accounted_of_none false none rfl (by simp [Leaks])
  · exact accounted_of_none false (some error) rfl (by simp [Leaks])
  cases leaf with
  | failed error => exact accounted_of_none false (some error) rfl (by simp [Leaks])
  | unrestricted error => exact accounted_of_none true (some error) rfl (by simp [Leaks])
  | made =>
    rcases stopped with _ | error
    · rcases vendor with _ | error | session
      · exact accounted_of_none true none rfl (by simp [Leaks])
      · exact accounted_of_none _ (some error) rfl (by simp [Leaks, removeScratch])
      · exact accounted_of_session rfl (by simp [Leaks])
    · exact accounted_of_none _ (some error) rfl (by simp [Leaks, removeScratch])

theorem Accounted.closeLive {held : Held} (h : Accounted script held) (event : CloseEvent) :
    Accounted script (closeLive script.removes held event) := by
  unfold Supervisor.closeLive
  split_ifs with hdone
  · exact h
  cases h with
  | ended hended hleaf =>
    rcases hended with hnone | hclosed
    · simp [hnone] at hdone
    · simp [hclosed] at hdone
  | live hopen hleaf hleaks =>
    have hremoved : removeScratch script.removes held.leaf = true ↔ script.Leaks := by
      simpa [removeScratch, hleaf] using hleaks
    split
    · exact .live hopen hleaf hleaks
    · exact .ended (.inr rfl) hremoved
    · exact .ended (.inr rfl) hremoved
    · exact .live hopen hleaf hleaks

/-- Once there is no live session, or its close has ended, the leaf of the open has been removed
exactly when the open does not leak. -/
theorem leaf_removed_iff (script : Script ε σ) (events : List CloseEvent)
    (hended : (run (closeLive script.removes) (openSession script) events).Ended) :
    (run (closeLive script.removes) (openSession script) events).leaf = false ↔
      ¬ script.Leaks := by
  have haccounted := run_invariant (fun _ event h => h.closeLive event)
    (accounted_openSession script) events
  cases haccounted with
  | live hopen _ _ => exact absurd hended hopen
  | ended _ hleaf => rw [← hleaf, Bool.not_eq_true]

/-- The vendor never answers, and the future is dropped at the end of the grace. -/
theorem silent_vendor_leaves_leaf : (@openSession String Unit
    ⟨some (.ok ()), .made, none, none, "timed out", false, .closed, false, true⟩).leaf = true := rfl

theorem leaf_removed_dropped_close : (run (closeLive true) (@openSession String Unit
    ⟨some (.ok ()), .made, none, some (.ok ()), "timed out", true, .closed, false, true⟩)
    [.call, .drop]).leaf = false :=
  (leaf_removed_iff ⟨some (.ok ()), .made, none, some (.ok ()), "timed out", true, .closed, false,
    true⟩ _ (.inr rfl)).mpr (by simp [Leaks])

end MangoStudio.ExternalAgents.Supervisor
