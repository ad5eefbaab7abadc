import Mathlib
import MangoStudio.Lib.Run

/-!
# The continuation row of one chat

`external-session-manager.ts`, for the calls of one chat.  An open reads the reap generation first
and again after its last await.  Every reap advances it, also one that keeps the continuation, and
an open that was overtaken deletes the row.

* `step_keeps` is one step, and `row_kept_iff` says for whole runs that the row is lost exactly by
  such an open.
-/

namespace MangoStudio.ExternalAgents.SessionManager

open Run

structure Continuation (β : Type) where
  binding : β
  runtimeSessionId : String

/-- Where the open in flight stands; it carries the generation that it read. -/
inductive Stage where
  | reading (generation : Nat)
  | starting (generation : Nat)
  | written (generation : Nat) (sessionId : String)
  | closing

structure Chat (β : Type) where
  row : Option (Continuation β)
  generation : Nat := 0
  session : Option (Continuation β) := none
  opening : Option Stage := none
  shuttingDown : Bool := false

inductive Event where
  | ensureSession
  /-- `readContinuation` answers. -/
  | read
  /-- The vendor has opened, and `writeContinuation` writes. -/
  | opened (sessionId : String)
  /-- The start of the vendor throws. -/
  | failed
  /-- The last await before the check answers. -/
  | check
  /-- The remote close of a reaped open ends. -/
  | closed
  | connectionLost
  | reapChat
  | reapScope (inScope held : Bool)
  | retire (sessionId : String)
  | reapAll (held : Bool)

variable {β : Type} [DecidableEq β] (binding : β)

namespace Chat

def reap (keepContinuation : Bool) (chat : Chat β) : Chat β :=
  { chat with
    generation := chat.generation + 1, session := none
    row := if keepContinuation then chat.row else none }

def openSession (chat : Chat β) : Chat β :=
  { chat with opening := some (.reading chat.generation) }

/-- A call shares the open in flight. -/
def ensureSession (chat : Chat β) : Chat β :=
  if chat.opening.isSome || chat.shuttingDown then chat
  else match chat.session with
    | none => chat.openSession
    | some live => if live.binding = binding then chat else (chat.reap false).openSession

def step (chat : Chat β) : Event → Chat β
  | .ensureSession => chat.ensureSession binding
  | .read => match chat.opening with
    | some (.reading generation) => { chat with
        row := chat.row.filter (·.binding = binding), opening := some (.starting generation) }
    | _ => chat
  | .opened sessionId => match chat.opening with
    | some (.starting generation) => { chat with
        row := some ⟨binding, sessionId⟩, opening := some (.written generation sessionId) }
    | _ => chat
  | .failed => match chat.opening with
    | some (.starting _) => { chat with opening := none }
    | _ => chat
  | .check => match chat.opening with
    | some (.written generation sessionId) =>
      if chat.generation = generation then
        { chat with session := some ⟨binding, sessionId⟩, opening := none }
      else { chat with row := none, opening := some .closing }
    | _ => chat
  | .closed => match chat.opening with
    | some .closing => { chat with opening := none }
    | _ => chat
  | .connectionLost => match chat.session, chat.opening with
    | some _, _ | none, some (.written _ _) => chat.reap true
    | _, _ => chat
  | .reapChat => chat.reap true
  | .reapScope inScope held =>
    if inScope && (chat.session.isSome || chat.opening.isSome || held) then chat.reap true else chat
  | .retire sessionId =>
    if chat.session.any (·.runtimeSessionId = sessionId) then chat.reap true else chat
  | .reapAll held =>
    let chat := { chat with shuttingDown := true }
    if chat.session.isSome || held then chat.reap true else chat

/-- The row and the session are of the one binding. -/
structure Bound (chat : Chat β) : Prop where
  row : ∀ row ∈ chat.row, row.binding = binding
  session : ∀ live ∈ chat.session, live.binding = binding

end Chat

open Chat

/-- The step is the check of an open that finds another generation than it read. -/
def Overtaken (chat : Chat β) (event : Event) : Prop :=
  event = .check ∧ ∃ generation sessionId,
    chat.opening = some (.written generation sessionId) ∧ chat.generation ≠ generation

variable {binding} {chat : Chat β}

theorem ensureSession_eq (h : Bound binding chat) :
    chat.ensureSession binding = chat ∨ chat.ensureSession binding = chat.openSession := by
  unfold ensureSession
  split_ifs
  · exact .inl rfl
  split
  · exact .inr rfl
  · next live hlive => simp [h.session live hlive]

theorem step_keeps (h : Bound binding chat) {event : Event} (hcheck : ¬ Overtaken chat event)
    (hrow : chat.row.isSome) :
    Bound binding (chat.step binding event) ∧ (chat.step binding event).row.isSome := by
  have hreap : Bound binding (chat.reap true) := ⟨h.row, by simp [Chat.reap]⟩
  cases event with
  | ensureSession =>
    rcases ensureSession_eq h with heq | heq
    · rw [step, heq]
      exact ⟨h, hrow⟩
    · rw [step, heq]
      exact ⟨⟨h.row, h.session⟩, hrow⟩
  | read =>
    have hfilter : chat.row.filter (·.binding = binding) = chat.row := by
      obtain ⟨row, hsome⟩ := Option.isSome_iff_exists.mp hrow
      simp [hsome, h.row row hsome]
    simp only [step, hfilter]
    split
    · exact ⟨⟨h.row, h.session⟩, hrow⟩
    · exact ⟨h, hrow⟩
  | opened sessionId =>
    simp only [step]
    split
    · exact ⟨⟨by simp, h.session⟩, rfl⟩
    · exact ⟨h, hrow⟩
  | check =>
    simp only [step]
    split
    · next generation sessionId hopening =>
      split_ifs with hsame
      · exact ⟨⟨h.row, by simp⟩, hrow⟩
      · exact absurd ⟨rfl, generation, sessionId, hopening, hsame⟩ hcheck
    · exact ⟨h, hrow⟩
  | failed | closed =>
    simp only [step]
    split
    · exact ⟨⟨h.row, h.session⟩, hrow⟩
    · exact ⟨h, hrow⟩
  | connectionLost =>
    simp only [step]
    split
    · exact ⟨hreap, hrow⟩
    · exact ⟨hreap, hrow⟩
    · exact ⟨h, hrow⟩
  | reapChat => exact ⟨hreap, hrow⟩
  | reapScope | retire =>
    simp only [step]
    split_ifs
    · exact ⟨hreap, hrow⟩
    · exact ⟨h, hrow⟩
  | reapAll held =>
    simp only [step]
    split_ifs
    · exact ⟨⟨hreap.row, hreap.session⟩, hrow⟩
    · exact ⟨⟨h.row, h.session⟩, hrow⟩

theorem step_row_of_overtaken {event : Event} (h : Overtaken chat event) :
    (chat.step binding event).row = none := by
  obtain ⟨rfl, generation, sessionId, hopening, hother⟩ := h
  simp [step, hopening, hother]

/-- The row is there in every state of a run exactly when no open of it is overtaken. -/
theorem row_kept_iff (binding : β) (chat : Chat β) (events : List Event)
    (hbound : Bound binding chat) (hrow : chat.row.isSome) :
    (∀ count, (run (step binding) chat (events.take count)).row.isSome) ↔
      Along (step binding) (fun chat event => ¬ Overtaken chat event) chat events := by
  induction events generalizing chat with
  | nil => simpa [Along] using hrow
  | cons event events ih =>
    by_cases hover : Overtaken chat event
    · refine iff_of_false (fun h => ?_) fun h => h.1 hover
      have hfirst := h 1
      simp [step_row_of_overtaken hover] at hfirst
    · obtain ⟨hnext, hkept⟩ := step_keeps hbound hover hrow
      rw [Along, and_iff_right hover, ← ih _ hnext hkept]
      refine ⟨fun h count => h (count + 1), fun h count => ?_⟩
      cases count with
      | zero => exact hrow
      | succ count => exact h count

/-- A reap that keeps the continuation, after the open wrote its row. -/
theorem keeping_reap_loses_row :
    (run (step 0) { row := some ⟨0, "old"⟩ }
      [.ensureSession, .read, .opened "new", .reapChat, .check]).row.isNone := by
  decide

theorem row_kept_reopened :
    (run (step 0) { row := some ⟨0, "old"⟩ }
      ([.ensureSession, .read, .opened "new", .check, .reapChat].take 5)).row.isSome :=
  (row_kept_iff 0 { row := some ⟨0, "old"⟩ } _ ⟨by simp, by simp⟩ rfl).mpr
    (by simp [Along, Overtaken, step, ensureSession, openSession]) 5

end MangoStudio.ExternalAgents.SessionManager
