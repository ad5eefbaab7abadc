import Mathlib
import MangoStudio.Lib.JsText

/-!
# Reasoning summaries of a Responses stream

`reasoning-tracker.ts`: one summary reaches the tracker as deltas, as the text of two done events
and in the completed response.

* `run_part`: a part without deltas is never noted as seen, so both of its done events show its
  text.
* `summaries_shown_once_iff` is the whole stream.
-/

namespace MangoStudio.Generation.Reasoning

open List

open JsText (Units)

/-- The item and the index of a summary part.  An index has no colon, so the text
`item_id:summary_index` names the pair. -/
abbrev PartKey := String × Nat

inductive StreamEvent where
  | summaryTextDelta (key : PartKey) (delta : Units)
  | textDelta (delta : Units)
  | summaryTextDone (key : PartKey) (text : Units)
  | summaryPartDone (key : PartKey) (text : Units)
  | textDone (text : Units)
  | other

def StreamEvent.isReasoning : StreamEvent → Bool
  | .other => false
  | _ => true

inductive OutputItem where
  | reasoning (summary : Option (List Units)) (content : Option (List (String × Option Units)))
  | other

/-- `texts.join('\n\n')`, where there are any. -/
def joinTexts (texts : List Units) : Option Units :=
  if texts = [] then none else some (List.intercalate [10, 10] texts)

def OutputItem.summaries : OutputItem → List Units
  | .reasoning summary _ => summary.getD []
  | .other => []

/-- The raw reasoning of an item. -/
def OutputItem.raw : OutputItem → Option Units
  | .reasoning _ content => joinTexts <| (content.getD []).filterMap fun part =>
      if part.1 = "reasoning_text" then part.2 else none
  | .other => none

def extractReasoningFromCompleted (output : List OutputItem) : Option Units :=
  output.findSome? fun item =>
    (joinTexts (item.summaries.filter (· ≠ []))).or item.raw

structure Tracker where
  seenSummaryDeltas : List PartKey := []
  summaryEventsWereSeen : Bool := false
  thinkingWasEmitted : Bool := false

namespace Tracker

def emit (tracker : Tracker) (text : Units) : Tracker × Option Units :=
  if text = [] then (tracker, none) else ({ tracker with thinkingWasEmitted := true }, some text)

def consumeStreamEvent (tracker : Tracker) : StreamEvent → Tracker × Option Units
  | .summaryTextDelta key delta => emit { tracker with
      seenSummaryDeltas := key :: tracker.seenSummaryDeltas, summaryEventsWereSeen := true } delta
  | .textDelta delta =>
    if tracker.summaryEventsWereSeen then (tracker, none) else tracker.emit delta
  | .summaryTextDone key text | .summaryPartDone key text =>
    if key ∈ tracker.seenSummaryDeltas then (tracker, none) else tracker.emit text
  | .textDone text =>
    if tracker.summaryEventsWereSeen || tracker.thinkingWasEmitted then (tracker, none)
    else tracker.emit text
  | .other => (tracker, none)

def consumeCompleted (tracker : Tracker) (output : List OutputItem) : Option Units :=
  if tracker.thinkingWasEmitted then none else extractReasoningFromCompleted output

/-- The texts of a stream's events, with the tracker after them. -/
def run (tracker : Tracker) : List StreamEvent → Tracker × Units
  | [] => (tracker, [])
  | event :: rest =>
    let (next, text) := tracker.consumeStreamEvent event
    ((run next rest).1, text.getD [] ++ (run next rest).2)

def shown (stream : List StreamEvent) (output : List OutputItem) : Units :=
  (run {} stream).2 ++ ((run {} stream).1.consumeCompleted output).getD []

variable (tracker : Tracker)

@[simp] theorem emit_text (text : Units) : (tracker.emit text).2.getD [] = text := by
  by_cases hempty : text = [] <;> simp [emit, hempty]

@[simp] theorem emit_seen (text : Units) :
    (tracker.emit text).1.seenSummaryDeltas = tracker.seenSummaryDeltas := by
  by_cases hempty : text = [] <;> simp [emit, hempty]

@[simp] theorem emit_thinking (text : Units) : (tracker.emit text).1.thinkingWasEmitted ↔
    tracker.thinkingWasEmitted ∨ text ≠ [] := by
  by_cases hempty : text = [] <;> simp [emit, hempty]

/-- A step: thinking was emitted with the first text, and only a delta notes its part. -/
theorem consumeStreamEvent_spec (event : StreamEvent) :
    ((tracker.consumeStreamEvent event).1.thinkingWasEmitted ↔
      tracker.thinkingWasEmitted ∨ (tracker.consumeStreamEvent event).2.getD [] ≠ []) ∧
    ∀ key, key ∈ (tracker.consumeStreamEvent event).1.seenSummaryDeltas ↔
      key ∈ tracker.seenSummaryDeltas ∨ ∃ delta, event = .summaryTextDelta key delta := by
  cases event with
  | summaryTextDelta key => simp [consumeStreamEvent, or_comm, @eq_comm _ key]
  | other => simp [consumeStreamEvent]
  | _ =>
    rw [consumeStreamEvent]
    split_ifs <;> simp

theorem run_spec (stream : List StreamEvent) :
    ((tracker.run stream).1.thinkingWasEmitted ↔
      tracker.thinkingWasEmitted ∨ (tracker.run stream).2 ≠ []) ∧
    ∀ key, key ∈ (tracker.run stream).1.seenSummaryDeltas ↔
      key ∈ tracker.seenSummaryDeltas ∨ ∃ delta, .summaryTextDelta key delta ∈ stream := by
  induction stream generalizing tracker with
  | nil => simp [run]
  | cons event rest ih =>
    obtain ⟨hflag, hseen⟩ := consumeStreamEvent_spec tracker event
    obtain ⟨hrest, hmem⟩ := ih (tracker.consumeStreamEvent event).1
    refine ⟨?_, fun key => ?_⟩
    · simp only [run, hrest, hflag, or_assoc, ne_eq, append_eq_nil_iff, not_and_or]
    · simp [run, hmem, hseen, or_assoc, exists_or, eq_comm]

theorem run_append (first second : List StreamEvent) :
    (tracker.run (first ++ second)).2 =
      (tracker.run first).2 ++ ((tracker.run first).1.run second).2 := by
  induction first generalizing tracker with
  | nil => rfl
  | cons event rest ih => simp [run, ih]

theorem run_filter (stream : List StreamEvent) :
    tracker.run (stream.filter StreamEvent.isReasoning) = tracker.run stream := by
  induction stream generalizing tracker with
  | nil => rfl
  | cons event rest ih =>
    cases event with
    | other => exact ih tracker
    | _ => simp [filter_cons, StreamEvent.isReasoning, run, ih]

theorem run_deltas (key : PartKey) (deltas : List Units) :
    (tracker.run (deltas.map (.summaryTextDelta key))).2 = deltas.flatten := by
  induction deltas generalizing tracker with
  | nil => rfl
  | cons delta deltas ih => simp [run, ih, consumeStreamEvent]

end Tracker

/-- A summary part as it is delivered; without deltas its text comes with the done events only. -/
structure Part where
  key : PartKey
  deltas : List Units
  text : Units
  whole : deltas ≠ [] → deltas.flatten = text

namespace Part

def events (part : Part) : List StreamEvent :=
  part.deltas.map (.summaryTextDelta part.key) ++
    [.summaryTextDone part.key part.text, .summaryPartDone part.key part.text]

/-- The text shown a second time. -/
def again (part : Part) : Units :=
  if part.deltas = [] then part.text else []

end Part

open Tracker

theorem run_part {tracker : Tracker} {part : Part}
    (hnew : part.key ∉ tracker.seenSummaryDeltas) :
    (tracker.run part.events).2 = part.text ++ part.again := by
  have hseen := (run_spec tracker (part.deltas.map (.summaryTextDelta part.key))).2 part.key
  rw [Part.events, run_append, run_deltas, Part.again]
  by_cases hsilent : part.deltas = []
  · simp [hsilent, run, consumeStreamEvent, hnew]
  · simp [run, consumeStreamEvent, hseen, exists_mem_of_ne_nil _ hsilent, hsilent,
      part.whole hsilent]

theorem run_parts {tracker : Tracker} {parts : List Part} (hkeys : (parts.map Part.key).Nodup)
    (hnew : ∀ part ∈ parts, part.key ∉ tracker.seenSummaryDeltas) :
    (tracker.run (parts.flatMap Part.events)).2 =
      parts.flatMap fun part => part.text ++ part.again := by
  induction parts generalizing tracker with
  | nil => rfl
  | cons part parts ih =>
    obtain ⟨hfresh, hkeys⟩ := nodup_cons.mp hkeys
    rw [flatMap_cons, run_append, run_part (hnew part mem_cons_self), flatMap_cons,
      ih hkeys]
    intro other hother hmem
    rcases ((run_spec tracker part.events).2 _).mp hmem with hold | ⟨delta, hdelta⟩
    · exact hnew other (mem_cons_of_mem _ hother) hold
    · have heq : part.key = other.key := by
        simp [Part.events] at hdelta
        exact hdelta.2
      exact hfresh (heq ▸ mem_map_of_mem hother)

theorem flatMap_append_eq_iff {α β : Type} (f g : α → List β) (items : List α) (tail : List β) :
    items.flatMap (fun a => f a ++ g a) ++ tail = items.flatMap f ↔
      (∀ a ∈ items, g a = []) ∧ tail = [] := by
  constructor
  · intro heq
    have hlength := congrArg length heq
    simp only [length_append, length_flatMap, sum_map_add] at hlength
    have hzero : (items.map fun a => (g a).length).sum = 0 := by omega
    refine ⟨fun a ha => ?_, eq_nil_of_length_eq_zero (by omega)⟩
    simpa using sum_eq_zero_iff.mp hzero _ (mem_map_of_mem ha)
  · rintro ⟨hnone, rfl⟩
    rw [append_nil]
    exact flatMap_congr fun a ha => by rw [hnone a ha, append_nil]

theorem extract_eq_raw {output : List OutputItem}
    (hempty : ∀ item ∈ output, ∀ text ∈ item.summaries, text = []) :
    extractReasoningFromCompleted output = output.findSome? OutputItem.raw := by
  induction output with
  | nil => rfl
  | cons item output ih =>
    have hnone : item.summaries.filter (· ≠ []) = [] := by
      simpa using hempty item mem_cons_self
    rw [extractReasoningFromCompleted, findSome?_cons, hnone, findSome?_cons,
      ← ih fun next hnext => hempty next (mem_cons_of_mem _ hnext)]
    rfl

/-- Every part is shown once exactly when the parts that have a text have deltas, and raw reasoning
is not recovered for parts without a text. -/
theorem summaries_shown_once_iff (parts : List Part) (stream : List StreamEvent)
    (output : List OutputItem) (hkeys : (parts.map Part.key).Nodup)
    (hstream : stream.filter StreamEvent.isReasoning = parts.flatMap Part.events)
    (houtput : output.flatMap OutputItem.summaries = parts.map Part.text) :
    shown stream output = parts.flatMap Part.text ↔
      (∀ part ∈ parts, part.deltas = [] → part.text = []) ∧
        ((∀ part ∈ parts, part.text = []) → (output.findSome? OutputItem.raw).getD [] = []) := by
  have htexts := @run_parts {} parts hkeys (by simp)
  have hagain : ∀ part : Part, part.again = [] ↔ (part.deltas = [] → part.text = []) := by
    simp [Part.again]
  rw [shown, ← run_filter, hstream, htexts, flatMap_append_eq_iff]
  simp only [hagain]
  refine and_congr_right fun hsilent => ?_
  have hflag : (run {} (parts.flatMap Part.events)).1.thinkingWasEmitted ↔
      ¬ ∀ part ∈ parts, part.text = [] := by
    rw [(run_spec {} _).1, htexts]
    simp +contextual [Part.again]
  rw [consumeCompleted]
  by_cases hall : ∀ part ∈ parts, part.text = []
  · rw [if_neg fun h => hflag.mp h hall, extract_eq_raw, imp_iff_right hall]
    intro item hitem text htext
    have hmem := List.mem_flatMap.mpr ⟨item, hitem, htext⟩
    rw [houtput] at hmem
    obtain ⟨part, hpart, rfl⟩ := List.mem_map.mp hmem
    exact hall part hpart
  · rw [if_pos (hflag.mpr hall)]
    exact iff_of_true rfl fun h => absurd h hall

theorem silent_part_shown_twice :
    shown [.summaryTextDone ("rs", 0) [97], .summaryPartDone ("rs", 0) [97]]
      [.reasoning (some [[97]]) none] = [97, 97] := by
  decide

theorem summaries_shown_once_delta :
    shown [.summaryTextDelta ("rs", 0) [97], .other, .summaryTextDone ("rs", 0) [97],
      .summaryPartDone ("rs", 0) [97]] [.reasoning (some [[97]]) none] = [97] :=
  (summaries_shown_once_iff [⟨("rs", 0), [[97]], [97], by decide⟩] _ _ (by decide) rfl rfl).mpr
    (by decide)

end MangoStudio.Generation.Reasoning
