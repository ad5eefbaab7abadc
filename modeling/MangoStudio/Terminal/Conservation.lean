import MangoStudio.Lib.Run
import MangoStudio.Terminal.Delivery

/-!
# Terminal output is conserved

A terminal is run by calls in any order, with any bytes, any acknowledgements
and any answers of `emit`.  Beside the flow the run keeps what an observer saw:
every byte of the shell, every frame, and for each viewer the bytes and frames
of its time.

* `Viewer.Sound` is what holds of every viewer, for good.
* `Current` is what holds of the viewer that is attached.
* `Sound` collects both with the scrollback and the frames of the whole run,
  and every call keeps it (`Sound.step`).
-/

namespace MangoStudio.Terminal

open RingBuffer

/-- A terminal and what was seen of it; the newest viewer is the first. -/
structure Observed where
  flow : TerminalFlow
  received : List UInt8
  emitted : List Answered
  viewers : List Viewer

/-- A call of the flow, with the answers its frames get. -/
inductive Event where
  | attach
  | detach
  | onData (bytes : List UInt8) (answer : Nat → Bool)
  | ack (bytes : Nat) (answer : Nat → Bool)
  | onExit (exit : ExitInfo) (consentRevoked : Bool) (answer : Nat → Bool)

namespace Observed

/-- A terminal nobody has used. -/
def start (flow : TerminalFlow) : Observed := ⟨flow, [], [], []⟩

/-- The result of a call; `update` is what the call means for an attached viewer. -/
def record (terminal : Observed) (bytes : List UInt8) (call : Call)
    (update : Viewer → Viewer) : Observed where
  flow := call.flow
  received := terminal.received ++ bytes
  emitted := terminal.emitted ++ call.sent
  viewers :=
    if terminal.flow.attached then
      terminal.viewers.modifyHead fun viewer =>
        { update viewer with frames := viewer.frames ++ call.sent }
    else terminal.viewers

/-- One call. -/
def step (terminal : Observed) : Event → Observed
  | .attach =>
    let (state, flow) := terminal.flow.attach
    { terminal with
      flow
      viewers := ⟨terminal.received, state.scrollback, [], 0, [], false⟩ :: terminal.viewers }
  | .detach => { terminal with flow := terminal.flow.detach }
  | .onData bytes answer =>
    terminal.record bytes (terminal.flow.onData bytes answer) fun viewer =>
      { viewer with received := viewer.received ++ bytes }
  | .ack bytes answer =>
    terminal.record [] (terminal.flow.ack bytes answer) fun viewer =>
      { viewer with acked := viewer.acked + bytes }
  | .onExit exit consentRevoked answer =>
    terminal.record [] (terminal.flow.onExit exit consentRevoked answer) fun viewer =>
      { viewer with sawExit := viewer.sawExit || terminal.flow.exit.isNone }

end Observed

/-! ## What holds of a terminal -/

/-- The longest suffix of the bytes that fits. -/
def LongestSuffix (capacity : Nat) (bytes tail : List UInt8) : Prop :=
  tail <:+ bytes ∧ tail.length ≤ capacity ∧
    ∀ other, other <:+ bytes → other.length ≤ capacity → other.length ≤ tail.length

theorem longestSuffix_suffix (capacity : Nat) (bytes : List UInt8) :
    LongestSuffix capacity bytes (suffix capacity bytes) := by
  refine ⟨suffix_isSuffix _ _, length_suffix_le _ _, ?_⟩
  intro other hother hfits
  rw [length_suffix]
  exact Nat.le_min.2 ⟨hfits, hother.length_le⟩

/-- What holds of every viewer, for good. -/
structure Viewer.Sound (capacity : Nat) (viewer : Viewer) : Prop where
  scrollback : LongestSuffix capacity viewer.before viewer.scrollback
  reads : ReadsPrefix viewer.received viewer.frames
  exit : viewer.sawExit = true →
    ReadsAs viewer.frames viewer.received ∨ Refused viewer.frames
  credit : viewer.scrollback.length + dataBytes viewer.frames ≤ inflightWindowBytes + viewer.acked

/-- What holds of the viewer that is attached. -/
structure Current (received : List UInt8) (flow : TerminalFlow) (viewer : Viewer) : Prop where
  history : viewer.before ++ viewer.received = received
  credit : viewer.scrollback.length + dataBytes viewer.frames ≤ flow.inflight + viewer.acked
  window : flow.inflight ≤ inflightWindowBytes
  accounts : flow.exit = none → Accounts viewer.received viewer.frames flow.pending
  unseen : viewer.sawExit = false

/-- The scrollback retains the longest suffix of what the shell wrote. -/
def Retains (capacity : Nat) (received : List UInt8) (flow : TerminalFlow) : Prop :=
  flow.scrollback.capacity = capacity ∧
    flow.scrollback.items = RingBuffer.suffix capacity received

section

variable {capacity : Nat} {received : List UInt8} {flow after : TerminalFlow}
  (hretains : Retains capacity received flow)

include hretains

theorem Retains.push (bytes : List UInt8) (hafter : after.scrollback = flow.scrollback.push bytes) :
    Retains capacity (received ++ bytes) after := by
  obtain ⟨hcapacity, hitems⟩ := hretains
  refine ⟨?_, ?_⟩
  · rw [hafter, push_capacity, hcapacity]
  · rw [hafter, push_items, hcapacity, hitems, suffix_append]

theorem Retains.same (hafter : after.scrollback = flow.scrollback) :
    Retains capacity (received ++ []) after := by
  rw [List.append_nil, Retains, hafter]
  exact hretains

end

/-- What holds of a terminal after every call. -/
structure Sound (capacity : Nat) (terminal : Observed) : Prop where
  retains : Retains capacity terminal.received terminal.flow
  viewers : ∀ viewer ∈ terminal.viewers, viewer.Sound capacity
  past : ∀ viewer ∈ terminal.viewers, viewer.before ++ viewer.received <+: terminal.received
  current : terminal.flow.attached = true → ∃ viewer rest, terminal.viewers = viewer :: rest ∧
    Current terminal.received terminal.flow viewer
  delivered : terminal.emitted = terminal.viewers.reverse.flatMap Viewer.frames
  sized : ∀ answered ∈ terminal.emitted, Sized answered.frame
  endsOnce : EndsOnce terminal.emitted
  open_ : terminal.flow.exit = none →
    ∀ answered ∈ terminal.emitted, answered.frame.ends = false

namespace Sound

variable {capacity : Nat} {terminal : Observed}

theorem start {flow : TerminalFlow} (hcapacity : flow.scrollback.capacity = capacity)
    (hitems : flow.scrollback.items = []) (hattached : flow.attached = false) :
    Sound capacity (.start flow) where
  retains := ⟨hcapacity, hitems.trans List.drop_nil.symm⟩
  viewers := fun _ hmem => absurd hmem List.not_mem_nil
  past := fun _ hmem => absurd hmem List.not_mem_nil
  current := fun h => by
    rw [Observed.start, hattached] at h
    cases h
  delivered := rfl
  sized := fun _ hmem => absurd hmem List.not_mem_nil
  endsOnce := endsOnce_of_open fun _ hmem => absurd hmem List.not_mem_nil
  open_ := fun _ _ hmem => absurd hmem List.not_mem_nil

variable {update : Viewer → Viewer} {bytes : List UInt8} {call : Call}

theorem record_absent (hsound : Sound capacity terminal)
    (hattached : terminal.flow.attached = false) (hsent : call.sent = [])
    (hafter : call.flow.attached = false)
    (hretains : Retains capacity (terminal.received ++ bytes) call.flow)
    (hexit : call.flow.exit = none → terminal.flow.exit = none) :
    Sound capacity (terminal.record bytes call update) := by
  have hviewers : (terminal.record bytes call update).viewers = terminal.viewers := by
    rw [Observed.record, hattached]
    rfl
  have hemitted : (terminal.record bytes call update).emitted = terminal.emitted := by
    rw [Observed.record, hsent, List.append_nil]
  constructor
  case retains => exact hretains
  case viewers => rw [hviewers]; exact hsound.viewers
  case past =>
    rw [hviewers]
    intro viewer hmem
    exact (hsound.past viewer hmem).trans (List.prefix_append _ _)
  case current =>
    intro hcontra
    rw [show (terminal.record bytes call update).flow = call.flow from rfl, hafter] at hcontra
    cases hcontra
  case delivered => rw [hviewers, hemitted]; exact hsound.delivered
  case sized => rw [hemitted]; exact hsound.sized
  case endsOnce => rw [hemitted]; exact hsound.endsOnce
  case open_ => rw [hemitted]; exact fun h => hsound.open_ (hexit h)

variable {rest : List Viewer} {viewer : Viewer}

section

variable (hsound : Sound capacity terminal) (hviewers : terminal.viewers = viewer :: rest)
  (hattached : terminal.flow.attached = true)
  (hretains : Retains capacity (terminal.received ++ bytes) call.flow)

include hsound hviewers hattached hretains

theorem record
    (hviewer : Viewer.Sound capacity { update viewer with frames := viewer.frames ++ call.sent })
    (hhistory : (update viewer).before ++ (update viewer).received = terminal.received ++ bytes)
    (hcurrent : call.flow.attached = true → Current (terminal.received ++ bytes) call.flow { update
      viewer with frames := viewer.frames ++ call.sent })
    (hsized : ∀ answered ∈ call.sent, Sized answered.frame)
    (hends : EndsOnce (terminal.emitted ++ call.sent))
    (hopen : call.flow.exit = none → ∀ answered ∈ terminal.emitted ++ call.sent,
      answered.frame.ends = false) : Sound capacity (terminal.record bytes call update) := by
  have hafter : (terminal.record bytes call update).viewers =
      { update viewer with frames := viewer.frames ++ call.sent } :: rest := by
    rw [Observed.record, hattached, hviewers]
    rfl
  have hrest : ∀ other ∈ rest, other ∈ terminal.viewers := fun other hmem =>
    hviewers ▸ List.mem_cons_of_mem _ hmem
  constructor
  case retains => exact hretains
  case viewers =>
    rw [hafter]
    exact List.forall_mem_cons.2 ⟨hviewer, fun other hmem => hsound.viewers other (hrest _ hmem)⟩
  case past =>
    rw [hafter]
    refine List.forall_mem_cons.2 ⟨hhistory ▸ List.prefix_rfl, fun other hmem => ?_⟩
    exact (hsound.past other (hrest _ hmem)).trans (List.prefix_append _ _)
  case current => exact fun h => ⟨_, _, hafter, hcurrent h⟩
  case delivered =>
    have hdelivered := hsound.delivered
    rw [hviewers, List.reverse_cons, List.flatMap_append, List.flatMap_singleton] at hdelivered
    rw [hafter, List.reverse_cons, List.flatMap_append, List.flatMap_singleton,
      ← List.append_assoc, ← hdelivered]
    rfl
  case sized =>
    intro answered hmem
    rcases List.mem_append.1 hmem with hold | hnew
    · exact hsound.sized answered hold
    · exact hsized answered hnew
  case endsOnce => exact hends
  case open_ => exact hopen

theorem record_serves (hrunning : terminal.flow.exit = none)
    (hframes : (update viewer).frames = viewer.frames) (hserves : Serves (update viewer) call)
    (hscrollback : LongestSuffix capacity (update viewer).before (update viewer).scrollback)
    (hunseen : (update viewer).sawExit = false)
    (hhistory : (update viewer).before ++ (update viewer).received = terminal.received ++ bytes) :
    Sound capacity (terminal.record bytes call update) := by
  have hopen : ∀ answered ∈ terminal.emitted ++ call.sent, answered.frame.ends = false :=
    List.forall_mem_append.2 ⟨hsound.open_ hrunning, hserves.open_⟩
  have hseen : (update viewer).sawExit ≠ true := by
    rw [hunseen]
    exact Bool.false_ne_true
  apply hsound.record hviewers hattached hretains
  case hviewer =>
    rw [← hframes]
    exact ⟨hscrollback, hserves.reads, fun h => absurd h hseen, hserves.outcome.credit⟩
  case hhistory => exact hhistory
  case hcurrent =>
    intro hstays
    rw [← hframes]
    exact ⟨hhistory, hserves.credit, hserves.window, fun _ => hserves.accounts hstays, hunseen⟩
  case hsized => exact hserves.sized
  case hends => exact endsOnce_of_open hopen
  case hopen => exact fun _ => hopen

theorem record_exited (hsent : call.sent = []) (hexited : call.flow.exit ≠ none)
    (hviewer : Viewer.Sound capacity { update viewer with frames := viewer.frames })
    (hcurrent : Current (terminal.received ++ bytes) call.flow { update viewer with frames :=
      viewer.frames }) : Sound capacity (terminal.record bytes call update) := by
  grind [record, cases Current, cases Sound]

end

/-! ## The calls -/

section

variable (hsound : Sound capacity terminal)

include hsound

theorem attach (hcapacity : capacity ≤ inflightWindowBytes) :
    Sound capacity (terminal.step .attach) := by
  have hscrollback : terminal.flow.scrollback.items.length ≤ inflightWindowBytes := by
    rw [hsound.retains.2]
    exact Nat.le_trans (length_suffix_le _ _) hcapacity
  constructor
  case retains => exact hsound.retains
  case viewers =>
    refine List.forall_mem_cons.2 ⟨⟨?_, ⟨[], List.prefix_rfl, readsAs_nil⟩, nofun, ?_⟩,
      hsound.viewers⟩
    · show LongestSuffix capacity terminal.received terminal.flow.scrollback.items
      rw [hsound.retains.2]
      exact longestSuffix_suffix _ _
    · show terminal.flow.scrollback.items.length + 0 ≤ inflightWindowBytes + 0
      omega
  case past =>
    refine List.forall_mem_cons.2 ⟨?_, hsound.past⟩
    show terminal.received ++ [] <+: terminal.received
    exact (List.append_nil terminal.received).symm ▸ List.prefix_rfl
  case current =>
    refine fun _ => ⟨_, _, rfl, ?_⟩
    refine ⟨List.append_nil _, Nat.le_refl _, hscrollback, fun _ => ?_, rfl⟩
    exact ⟨[], [], rfl, rfl, readsAs_nil⟩
  case delivered =>
    show terminal.emitted = (_ :: terminal.viewers).reverse.flatMap Viewer.frames
    rw [List.reverse_cons, List.flatMap_append, List.flatMap_singleton, List.append_nil]
    exact hsound.delivered
  case sized => exact hsound.sized
  case endsOnce => exact hsound.endsOnce
  case open_ => exact hsound.open_

theorem detach : Sound capacity (terminal.step .detach) :=
  { hsound with current := fun h => by cases h }

theorem onData (bytes : List UInt8) (answer : Nat → Bool) :
    Sound capacity (terminal.step (.onData bytes answer)) := by
  have hkept : ∀ after : TerminalFlow, after.scrollback = terminal.flow.scrollback.push bytes →
      Retains capacity (terminal.received ++ bytes) after :=
    fun after => hsound.retains.push bytes
  rw [Observed.step, TerminalFlow.onData]
  dsimp only
  split_ifs with hidle
  · cases hattached : terminal.flow.attached with
    | false => exact hsound.record_absent hattached rfl rfl (hkept _ rfl) id
    | true =>
      have hexited : terminal.flow.exit ≠ none := by
        grind
      obtain ⟨viewer, rest, hviewers, hcurrent⟩ := hsound.current hattached
      have hviewer := hsound.viewers viewer (hviewers ▸ List.mem_cons_self)
      apply hsound.record_exited hviewers hattached (hkept _ rfl) rfl hexited
      · obtain ⟨shown, hshown, hreads⟩ := hviewer.reads
        refine ⟨hviewer.scrollback, ⟨shown, hshown.trans (List.prefix_append _ _), hreads⟩, ?_,
          hviewer.credit⟩
        intro hseen
        exact absurd (hcurrent.unseen.symm.trans hseen) Bool.false_ne_true
      · refine ⟨?_, hcurrent.credit, hcurrent.window, fun h => absurd h hexited, hcurrent.unseen⟩
        rw [← hcurrent.history, List.append_assoc]
  · have hrunning : terminal.flow.exit = none := by
      by_contra hexited
      exact hidle (.inl (Option.isSome_iff_ne_none.2 hexited))
    have hattached : terminal.flow.attached = true := by
      by_contra habsent
      exact hidle (.inr (Bool.eq_false_iff.2 habsent))
    obtain ⟨viewer, rest, hviewers, hcurrent⟩ := hsound.current hattached
    have hviewer := hsound.viewers viewer (hviewers ▸ List.mem_cons_self)
    apply hsound.record_serves hviewers hattached ?hretains hrunning rfl
    case hserves =>
      refine Serves.drain (Serves.begin hattached ?_ hcurrent.credit hcurrent.window) hattached
      exact (hcurrent.accounts hrunning).push bytes
    case hretains => exact hkept _ (Call.drain_keeps _).scrollback
    case hscrollback => exact hviewer.scrollback
    case hunseen => exact hcurrent.unseen
    case hhistory => rw [← hcurrent.history, List.append_assoc]

theorem ack (bytes : Nat) (answer : Nat → Bool) :
    Sound capacity (terminal.step (.ack bytes answer)) := by
  rw [Observed.step, TerminalFlow.ack]
  dsimp only
  split_ifs with hdrains
  · have hrunning : terminal.flow.exit = none := Option.isNone_iff_eq_none.1 hdrains.2
    obtain ⟨viewer, rest, hviewers, hcurrent⟩ := hsound.current hdrains.1
    have hviewer := hsound.viewers viewer (hviewers ▸ List.mem_cons_self)
    have hcredit := hcurrent.credit
    have hwindow := hcurrent.window
    apply hsound.record_serves hviewers hdrains.1 ?hretains hrunning rfl
    case hserves =>
      refine Serves.drain (Serves.begin hdrains.1 (hcurrent.accounts hrunning) ?_ ?_) hdrains.1
      · show _ ≤ terminal.flow.inflight - bytes + (viewer.acked + bytes)
        dsimp only
        omega
      · show terminal.flow.inflight - bytes ≤ _
        omega
    case hretains => exact hsound.retains.same (Call.drain_keeps _).scrollback
    case hscrollback => exact hviewer.scrollback
    case hunseen => exact hcurrent.unseen
    case hhistory => rw [← hcurrent.history, List.append_nil]
  · cases hattached : terminal.flow.attached with
    | false => exact hsound.record_absent hattached rfl rfl (hsound.retains.same rfl) id
    | true =>
      have hexited : terminal.flow.exit ≠ none := by
        intro hrunning
        exact hdrains ⟨hattached, Option.isNone_iff_eq_none.2 hrunning⟩
      obtain ⟨viewer, rest, hviewers, hcurrent⟩ := hsound.current hattached
      have hviewer := hsound.viewers viewer (hviewers ▸ List.mem_cons_self)
      have hcredit := hcurrent.credit
      have hwindow := hcurrent.window
      have hsent := hviewer.credit
      apply hsound.record_exited hviewers hattached (hsound.retains.same rfl) rfl hexited
      · refine ⟨hviewer.scrollback, hviewer.reads, hviewer.exit, ?_⟩
        dsimp only
        omega
      · refine ⟨?_, ?_, ?_, fun h => absurd h hexited, hcurrent.unseen⟩
        · rw [List.append_nil]
          exact hcurrent.history
        · show _ ≤ terminal.flow.inflight - bytes + (viewer.acked + bytes)
          dsimp only
          omega
        · show terminal.flow.inflight - bytes ≤ _
          omega

theorem onExit (exit : ExitInfo) (consentRevoked : Bool) (answer : Nat → Bool) :
    Sound capacity (terminal.step (.onExit exit consentRevoked answer)) := by
  rw [Observed.step, TerminalFlow.onExit]
  dsimp only
  split_ifs with hexited hattached
  · cases hattached : terminal.flow.attached with
    | false => exact hsound.record_absent hattached rfl hattached (hsound.retains.same rfl) id
    | true =>
      obtain ⟨viewer, rest, hviewers, hcurrent⟩ := hsound.current hattached
      have hviewer := hsound.viewers viewer (hviewers ▸ List.mem_cons_self)
      have hnotNone : terminal.flow.exit ≠ none := Option.isSome_iff_ne_none.1 hexited
      have hseen : (viewer.sawExit || terminal.flow.exit.isNone) = viewer.sawExit := by
        rw [Option.isNone_eq_false_iff.2 hexited, Bool.or_false]
      apply hsound.record_exited hviewers hattached (hsound.retains.same rfl) rfl hnotNone
      · rw [hseen]
        exact hviewer
      · rw [hseen, List.append_nil]
        exact hcurrent
  · have hrunning : terminal.flow.exit = none := by
      rw [← Option.not_isSome_iff_eq_none]
      exact hexited
    obtain ⟨viewer, rest, hviewers, hcurrent⟩ := hsound.current hattached
    have hviewer := hsound.viewers viewer (hviewers ▸ List.mem_cons_self)
    have hserves : Serves viewer ({ terminal.flow with exit := some exit }.call.drain answer) :=
      Serves.drain (Serves.begin hattached (hcurrent.accounts hrunning) hcurrent.credit
        hcurrent.window) hattached
    have hclosing := @Serves.announceLost _ _ answer hserves
    obtain ⟨houtcome, hends, hsettled⟩ :=
      @Closing.announceExit _ _ answer hclosing exit consentRevoked
    have hkeeps := @Call.farewell_keeps answer exit consentRevoked
      { terminal.flow with exit := some exit }.call
    apply hsound.record hviewers hattached
    case hretains => exact hsound.retains.same hkeeps.scrollback
    case hviewer => exact ⟨hviewer.scrollback, houtcome.reads, fun _ => hsettled, houtcome.credit⟩
    case hhistory =>
      rw [List.append_nil]
      exact hcurrent.history
    case hcurrent => exact nofun
    case hsized => exact houtcome.sized
    case hends => exact EndsOnce.append (hsound.open_ hrunning) hends
    case hopen => exact fun hnone => absurd (hkeeps.exit.symm.trans hnone) nofun
  · refine hsound.record_absent (Bool.eq_false_iff.2 hattached) rfl (Bool.eq_false_iff.2 hattached)
      (hsound.retains.same rfl) nofun

end

theorem step (hcapacity : capacity ≤ inflightWindowBytes) (terminal : Observed) (event : Event)
    (hsound : Sound capacity terminal) : Sound capacity (terminal.step event) := by
  cases event <;> grind [attach, detach, onData, ack, onExit]

end Sound

/-! ## The result -/

theorem new_eq {scrollbackBytes : Nat} {flow : TerminalFlow}
    (hnew : TerminalFlow.new scrollbackBytes = .ok flow) :
    flow.scrollback.capacity = min scrollbackBytes scrollbackMaxBytes ∧
      flow.scrollback.items = [] ∧ flow.attached = false := by
  unfold TerminalFlow.new ByteRing.new at hnew
  split_ifs at hnew with hpositive hpending
  · cases hnew
    exact ⟨rfl, rfl, rfl⟩
  · cases hnew
  · cases hnew
  · cases hnew

/-- In every run of a terminal, whatever its frames are answered with: every attach returned
the longest suffix of the bytes so far that fits; every viewer's frames read as a prefix of the
bytes since its attach, and as all of them if the shell exited in its time and it did not refuse
a frame; scrollback and data stay within the window and what was acknowledged; data frames have
a chunk's size, and at most one frame ends the stream, as the last. -/
theorem output_conserved (scrollbackBytes : Nat) (flow : TerminalFlow)
    (hnew : TerminalFlow.new scrollbackBytes = .ok flow) (events : List Event) :
    let terminal := Run.run Observed.step (.start flow) events
    (∀ viewer ∈ terminal.viewers,
      LongestSuffix (min scrollbackBytes scrollbackMaxBytes) viewer.before viewer.scrollback ∧
      viewer.before ++ viewer.received <+: terminal.received ∧
      ReadsPrefix viewer.received viewer.frames ∧
      (viewer.sawExit = true → ¬ Refused viewer.frames →
        ReadsAs viewer.frames viewer.received) ∧
      viewer.scrollback.length + dataBytes viewer.frames ≤ inflightWindowBytes + viewer.acked) ∧
    (terminal.flow.attached = true → ∃ viewer, terminal.viewers.head? = some viewer ∧
      viewer.before ++ viewer.received = terminal.received) ∧
    terminal.emitted = terminal.viewers.reverse.flatMap Viewer.frames ∧
    (∀ answered ∈ terminal.emitted, Sized answered.frame) ∧ EndsOnce terminal.emitted := by
  obtain ⟨hcapacity, hitems, hattached⟩ := new_eq hnew
  have hwindow : min scrollbackBytes scrollbackMaxBytes ≤ inflightWindowBytes :=
    Nat.min_le_right _ _
  have hsound := Run.run_invariant (Sound.step hwindow) (Sound.start hcapacity hitems hattached)
    events
  refine ⟨fun viewer hmem => ?_, fun hopen => ?_, hsound.delivered, hsound.sized,
    hsound.endsOnce⟩
  · have hviewer := hsound.viewers viewer hmem
    refine ⟨hviewer.scrollback, hsound.past viewer hmem, hviewer.reads, ?_, hviewer.credit⟩
    intro hseen haccepted
    exact (hviewer.exit hseen).resolve_right haccepted
  · obtain ⟨viewer, rest, hviewers, hcurrent⟩ := hsound.current hopen
    exact ⟨viewer, by rw [hviewers]; rfl, hcurrent.history⟩

/-- A terminal with two bytes of scrollback whose viewer sees three bytes and the exit. -/
theorem output_conserved_three_bytes :
    let flow : TerminalFlow :=
      ⟨RingBuffer.empty 2 (by decide), RingBuffer.empty pendingMaxBytes (by decide), 0, false, none⟩
    let terminal := Run.run Observed.step (.start flow)
      [.onData [5, 6] (fun _ => true), .attach, .onData [7, 8, 9] (fun _ => true),
        .onExit ⟨some 0, none⟩ false (fun _ => true)]
    TerminalFlow.new 2 = .ok flow ∧
      terminal.emitted.map Answered.frame = [.data [7, 8, 9], .exit (some 0) none false] ∧
      EndsOnce terminal.emitted :=
  ⟨rfl, by decide, (output_conserved 2 _ rfl _).2.2.2.2⟩

end MangoStudio.Terminal
