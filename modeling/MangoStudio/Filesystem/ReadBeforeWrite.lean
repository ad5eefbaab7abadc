import MangoStudio.Filesystem.Freshness
import MangoStudio.Lib.Run

/-!
# Read before write

What the ledger of `MangoStudio.Filesystem.Freshness` lets a chat do, in terms of what
the chat was shown.  A trace has the ledger and, for each chat and path, the
records that were made for it, newest first.  A rename takes them along, a
`forget` drops them, and an eviction leaves them, so that the ledger can only
know less than the records say.

* **Overwriting.**  `Covered` is what the records have to say for the coverage
  of a snapshot: every covered line was shown for this content since it became
  the current one.
* **Line numbers.**  `Numbered` is the same for the numbering, which an edit
  carries over to a new content as far as its frontier.  The lines of a content
  are a parameter `lines`.  An edit is sound for it if both contents agree up to
  the frontier, and since the lines are of any type, they can stand for the
  text or for the places in the file only.
* `snapshot_step` says once where a snapshot comes from, and both invariants
  are shown from it.
-/

namespace MangoStudio.Filesystem

open Filesystem.Ledger

variable {π μ ℓ : Type} [DecidableEq π]

/-! ## Traces -/

inductive LedgerEvent (π μ : Type) where
  | read (chatId : String) (path : π) (digest : ContentDigest) (mtimeMs : μ)
      (observation : ReadObservation)
  | edit (chatId : String) (path : π) (digest : ContentDigest) (mtimeMs : μ) (frontier : Nat)
  | forget (chatId : String) (path : π)
  | rekey (chatId : String) (source target : π)
  | assertDigest (chatId : String) (path : π) (digest : ContentDigest)
  | matchesMetadata (chatId : String) (path : π) (size : Nat) (mtimeMs : μ)

/-- A read or an edit that was recorded. -/
inductive Record where
  | read (digest : ContentDigest) (observation : ReadObservation)
  | edit (digest : ContentDigest) (frontier : Nat)
  deriving DecidableEq

namespace Record

def digest : Record → ContentDigest
  | .read digest _ => digest
  | .edit digest _ => digest

/-- The chat has the whole content at once. -/
def isWhole : Record → Bool
  | .read _ (.window _) => false
  | .read _ .wholeFile | .read _ .byteView | .edit _ _ => true

/-- The chat has line `n` of the content. -/
def shows (n : Nat) : Record → Prop
  | .read _ (.window range) => range.startLine ≤ n ∧ n ≤ range.endLine
  | .read _ .wholeFile | .read _ .byteView | .edit _ _ => True

/-- Line `n` exists and was displayed under this number. -/
def displays (lines : String → List ℓ) (n : Nat) : Record → Prop
  | .read digest .wholeFile => n ≤ (lines digest.sha256).length
  | .read digest (.window range) =>
    range.startLine ≤ n ∧ n ≤ range.endLine ∧ n ≤ (lines digest.sha256).length
  | .read _ .byteView | .edit _ _ => False

end Record

/-- The records of each chat and path, newest first. -/
abbrev History (π : Type) := String → π → List Record

/-- The records of one chat and path replaced. -/
def History.set (history : History π) (chatId : String) (path : π) (records : List Record) :
    History π :=
  fun otherChat other =>
    if otherChat = chatId ∧ other = path then records else history otherChat other

def History.step (history : History π) : LedgerEvent π μ → History π
  | .read chatId path digest _ observation =>
    history.set chatId path (.read digest observation :: history chatId path)
  | .edit chatId path digest _ frontier =>
    history.set chatId path (.edit digest frontier :: history chatId path)
  | .forget chatId path => history.set chatId path []
  | .rekey chatId source target =>
    if source = target then history
    else (history.set chatId source []).set chatId target (history chatId source)
  | .assertDigest _ _ _ | .matchesMetadata _ _ _ _ => history

theorem History.set_self (history : History π) (chatId : String) (path : π)
    (records : List Record) : history.set chatId path records chatId path = records :=
  if_pos ⟨rfl, rfl⟩

variable {records : List Record}

theorem History.set_of_ne {history : History π} {chatId otherChat : String} {path other : π}
    (hne : ¬ (otherChat = chatId ∧ other = path)) :
    history.set chatId path records otherChat other = history otherChat other :=
  if_neg hne

variable [ToString π] [BEq μ]

def Ledger.step (ledger : Ledger π μ) : LedgerEvent π μ → Ledger π μ
  | .read chatId path digest mtimeMs observation =>
    ledger.recordReadDigest chatId path digest mtimeMs observation
  | .edit chatId path digest mtimeMs frontier =>
    ledger.recordEditDigest chatId path digest mtimeMs frontier
  | .forget chatId path => ledger.forget chatId path
  | .rekey chatId source target => ledger.rekey chatId source target
  | .assertDigest chatId path digest => (ledger.assertDigest chatId path digest).1
  | .matchesMetadata chatId path size mtimeMs =>
    (ledger.matchesMetadata chatId path size mtimeMs).1

structure Trace (π μ : Type) where
  ledger : Ledger π μ := {}
  history : History π := fun _ _ => []

namespace Trace

def step (trace : Trace π μ) (event : LedgerEvent π μ) : Trace π μ :=
  { ledger := trace.ledger.step event, history := trace.history.step event }

/-- The trace after a list of events, from an empty ledger. -/
def after (events : List (LedgerEvent π μ)) : Trace π μ :=
  Run.run step {} events

end Trace

/-! ## Where a snapshot comes from -/

/-- The origin of a snapshot after a step: it was there before, with the same
records, or the step is the read or the edit that stored it. -/
inductive Origin (trace : Trace π μ) (event : LedgerEvent π μ) (chatId : String) (path : π)
    (found : FileSnapshot μ) : Prop where
  | kept (otherChat : String) (other : π)
      (hsnapshot : trace.ledger.snapshot otherChat other = some found)
      (hrecords : (trace.step event).history chatId path = trace.history otherChat other)
  | read (digest : ContentDigest) (mtimeMs : μ) (observation : ReadObservation)
      (hevent : event = .read chatId path digest mtimeMs observation)
      (hfound : found = trace.ledger.readSnapshot chatId path digest mtimeMs observation)
      (hrecords : (trace.step event).history chatId path =
        .read digest observation :: trace.history chatId path)
  | edit (digest : ContentDigest) (mtimeMs : μ) (frontier : Nat)
      (hevent : event = .edit chatId path digest mtimeMs frontier)
      (hfound : found = trace.ledger.editSnapshot chatId path digest mtimeMs frontier)
      (hrecords : (trace.step event).history chatId path =
        .edit digest frontier :: trace.history chatId path)

variable {found : FileSnapshot μ} {chatId : String} {event : LedgerEvent π μ} {path : π}
   {trace : Trace π μ}

theorem Trace.snapshot_step (h : (trace.step event).ledger.snapshot chatId path = some found) :
    Origin trace event chatId path found := by
  cases event with
  | read storedChat stored digest mtimeMs observation =>
    have hstored := snapshot_store h
    split_ifs at hstored with hsame
    · obtain ⟨rfl, rfl⟩ := hsame
      exact .read digest mtimeMs observation rfl hstored (History.set_self _ _ _ _)
    · exact .kept chatId path hstored (History.set_of_ne hsame)
  | edit storedChat stored digest mtimeMs frontier =>
    have hstored := snapshot_store h
    split_ifs at hstored with hsame
    · obtain ⟨rfl, rfl⟩ := hsame
      exact .edit digest mtimeMs frontier rfl hstored (History.set_self _ _ _ _)
    · exact .kept chatId path hstored (History.set_of_ne hsame)
  | forget gone dropped =>
    have hforget : (trace.ledger.forget gone dropped).snapshot chatId path = some found := h
    rw [snapshot_forget] at hforget
    split_ifs at hforget with hsame
    exact .kept chatId path hforget (History.set_of_ne hsame)
  | rekey movedChat source target =>
    have hmoved := snapshot_rekey h
    by_cases hends : source = target
    · subst hends
      have hhistory : (trace.step (.rekey movedChat source source)).history = trace.history :=
        if_pos rfl
      refine .kept chatId path ?_ (by rw [hhistory])
      split_ifs at hmoved with hsame
      · rw [hsame.1, hsame.2]
        exact hmoved
      · exact hmoved.2
    · have hhistory : (trace.step (.rekey movedChat source target)).history =
          (trace.history.set movedChat source []).set movedChat target
            (trace.history movedChat source) := if_neg hends
      split_ifs at hmoved with hsame
      · refine .kept movedChat source hmoved ?_
        rw [hhistory, hsame.1, hsame.2, History.set_self]
      · refine .kept chatId path hmoved.2 ?_
        rw [hhistory, History.set_of_ne hsame,
          History.set_of_ne (hmoved.1.resolve_left hends)]
  | assertDigest asked checked digest =>
    refine .kept chatId path ?_ rfl
    rw [← h]
    exact (snapshot_assertDigest _ _ _ _ _ _).symm
  | matchesMetadata asked checked size mtimeMs =>
    refine .kept chatId path ?_ rfl
    rw [← h]
    exact (snapshot_matchesMetadata _ _ _ _ _ _ _).symm

/-- Every snapshot has a property together with its records. -/
def Trace.Tracks (property : FileSnapshot μ → List Record → Prop) (trace : Trace π μ) : Prop :=
  ∀ chatId path found, trace.ledger.snapshot chatId path = some found →
    property found (trace.history chatId path)

theorem Trace.tracks_after {property : FileSnapshot μ → List Record → Prop}
    {condition : Trace π μ → LedgerEvent π μ → Prop} {events : List (LedgerEvent π μ)}
    (hstep : ∀ trace, ∀ event ∈ events, ∀ chatId path found, trace.Tracks property →
      condition trace event → Origin trace event chatId path found →
      property found ((trace.step event).history chatId path))
    (hrun : Run.Along step condition {} events) : (Trace.after events).Tracks property := by
  have hempty : ({} : Trace π μ).Tracks property := by
    intro chatId path found hfound
    cases hfound
  refine Run.run_invariant_along ?_ hempty hrun
  intro trace event hmem htracks hcondition chatId path found hfound
  exact hstep trace event hmem chatId path found htracks hcondition (snapshot_step hfound)

/-! ## Overwriting -/

/-- Line `n` was shown by one of the latest records, which are all of one
content. -/
def Shown (sha256 : String) (n : Nat) (records : List Record) : Prop :=
  ∃ record ∈ records.takeWhile fun record => record.digest.sha256 = sha256, record.shows n

variable {n : Nat}

theorem Shown.head (record : Record) (hshows : record.shows n)
    (records : List Record) : Shown record.digest.sha256 n (record :: records) := by
  refine ⟨record, ?_, hshows⟩
  rw [List.takeWhile_cons_of_pos (by simp)]
  exact List.mem_cons_self

theorem Shown.cons (record : Record) (h : Shown record.digest.sha256 n records) :
    Shown record.digest.sha256 n (record :: records) := by
  obtain ⟨shown, hmem, hshows⟩ := h
  refine ⟨shown, ?_, hshows⟩
  rw [List.takeWhile_cons_of_pos (by simp)]
  exact List.mem_cons_of_mem _ hmem

/-- What the records say for the coverage of a snapshot. -/
structure Covered (snapshot : FileSnapshot μ) (records : List Record) : Prop where
  latest : ∃ last older, records = last :: older ∧
    last.digest = ⟨snapshot.sha256, snapshot.size⟩ ∧
    (snapshot.complete = true → last.isWhole = true ∨
      ∃ range, last = .read ⟨snapshot.sha256, snapshot.size⟩ (.window range) ∧
        range.totalLines ≤ snapshot.coveredThroughLine)
  shown : ∀ n, 1 ≤ n → n ≤ snapshot.coveredThroughLine → Shown snapshot.sha256 n records

omit [BEq μ] in
theorem Covered.whole {snapshot : FileSnapshot μ} {last : Record} (hwhole : last.isWhole = true)
    (hdigest : last.digest = ⟨snapshot.sha256, snapshot.size⟩) (older : List Record) :
    Covered snapshot (last :: older) := by
  refine ⟨⟨last, older, rfl, hdigest, fun _ => .inl hwhole⟩, fun n _ _ => ?_⟩
  have hsha : last.digest.sha256 = snapshot.sha256 := by rw [hdigest]
  rw [← hsha]
  apply Shown.head
  cases last with
  | edit digest frontier => trivial
  | read digest observation =>
    cases observation with
    | window range => cases hwhole
    | wholeFile | byteView => trivial

theorem covered_step (hinv : trace.Tracks Covered)
    (horigin : Origin trace event chatId path found) :
    Covered found ((trace.step event).history chatId path) := by
  cases horigin with
  | kept otherChat other hsnapshot hrecords =>
    rw [hrecords]
    exact hinv otherChat other found hsnapshot
  | edit digest mtimeMs frontier hevent hfound hrecords =>
    rw [hrecords, hfound]
    exact Covered.whole rfl rfl _
  | read digest mtimeMs observation hevent hfound hrecords =>
    rw [hrecords, hfound]
    cases observation with
    | wholeFile | byteView => exact Covered.whole rfl rfl _
    | window range =>
      refine ⟨⟨_, _, rfl, rfl, fun hcomplete => .inr ⟨range, rfl, ?_⟩⟩, fun n hpos hn => ?_⟩
      · exact of_decide_eq_true hcomplete
      · rcases le_extendCoverage hpos hn with ⟨previous, hprevious, hsha, hle⟩ | hin
        · have hshown := (hinv chatId path previous hprevious).shown n hpos hle
          rw [hsha] at hshown
          exact Shown.cons (.read digest (.window range)) hshown
        · exact Shown.head (.read digest (.window range)) hin _

/-! ## Line numbers -/

/-- Line `n` of a content was displayed under this number, and every edit since
then kept it. -/
def Displayed (lines : String → List ℓ) (sha256 : String) (n : Nat) (records : List Record) :
    Prop :=
  ∃ newer shown older, records = newer ++ shown :: older ∧ shown.displays lines n ∧
    (lines shown.digest.sha256)[n - 1]? = (lines sha256)[n - 1]? ∧
    ∀ digest frontier, Record.edit digest frontier ∈ newer → n ≤ frontier

/-- What the records say for the line numbers of a snapshot. -/
structure Numbered (lines : String → List ℓ) (snapshot : FileSnapshot μ)
    (records : List Record) : Prop where
  observed : snapshot.lineNumbers ≠ .unobserved
  displayed : ∀ valid n, snapshot.lineNumbers = .validThrough valid → 1 ≤ n → n ≤ valid →
    n ≤ (lines snapshot.sha256).length → Displayed lines snapshot.sha256 n records

/-- A view of text says how many lines its content has, and an edit is recorded
over a snapshot with whose content the new one agrees up to the frontier. -/
def Faithful (lines : String → List ℓ) (trace : Trace π μ) : LedgerEvent π μ → Prop
  | .read _ _ digest _ (.window range) => range.totalLines = (lines digest.sha256).length
  | .edit chatId path digest _ frontier =>
    ∃ previous, trace.ledger.snapshot chatId path = some previous ∧
      ∀ n, 1 ≤ n → n ≤ frontier →
        (lines digest.sha256)[n - 1]? = (lines previous.sha256)[n - 1]?
  | _ => True

def LedgerEvent.isByteView : LedgerEvent π μ → Bool
  | .read _ _ _ _ .byteView => true
  | _ => false

variable {lines : String → List ℓ}

theorem Displayed.head (record : Record) (hdisplays : record.displays lines n)
    (records : List Record) :
    Displayed lines record.digest.sha256 n (record :: records) :=
  ⟨[], record, records, rfl, hdisplays, rfl, by simp⟩

theorem Displayed.cons {sha256 : String} (record : Record) (h : Displayed lines sha256 n records)
    (hsame : (lines sha256)[n - 1]? = (lines record.digest.sha256)[n - 1]?)
    (hedit : ∀ digest frontier, record = .edit digest frontier → n ≤ frontier) :
    Displayed lines record.digest.sha256 n (record :: records) := by
  obtain ⟨newer, shown, older, rfl, hdisplays, htext, hkept⟩ := h
  refine ⟨record :: newer, shown, older, rfl, hdisplays, htext.trans hsame, ?_⟩
  grind

theorem numbered_step (hfaithful : Faithful lines trace event) (htext : event.isByteView = false)
    (hinv : trace.Tracks (Numbered lines)) (horigin : Origin trace event chatId path found) :
    Numbered lines found ((trace.step event).history chatId path) := by
  cases horigin with
  | kept otherChat other hsnapshot hrecords =>
    rw [hrecords]
    exact hinv otherChat other found hsnapshot
  | edit digest mtimeMs frontier hevent hfound hrecords =>
    subst hevent
    obtain ⟨previous, hprevious, hagree⟩ := hfaithful
    have hold := hinv chatId path previous hprevious
    cases hnumbers : previous.lineNumbers with
    | unobserved => exact absurd hnumbers hold.observed
    | validThrough valid =>
      have hnew : (trace.ledger.editSnapshot chatId path digest mtimeMs frontier).lineNumbers =
          .validThrough (min valid frontier) :=
        lineNumbers_editSnapshot hprevious hnumbers
      rw [hrecords, hfound]
      refine ⟨?_, ?_⟩
      · rw [hnew]
        exact LineNumbers.noConfusion
      · intro valid' n hvalid' hpos hn hlength
        rw [hnew] at hvalid'
        obtain rfl := LineNumbers.validThrough.inj hvalid'
        have hfrontier : n ≤ frontier := le_trans hn (min_le_right _ _)
        have hsame := hagree n hpos hfrontier
        -- the line exists in the old content as well
        have hexists : n ≤ (lines previous.sha256).length := by
          by_contra hbeyond
          rw [List.getElem?_eq_none (by omega : (lines previous.sha256).length ≤ n - 1),
            List.getElem?_eq_none_iff] at hsame
          have hlength' : n ≤ (lines digest.sha256).length := hlength
          omega
        have hshown := hold.displayed valid n hnumbers hpos (le_trans hn (min_le_left _ _)) hexists
        refine Displayed.cons (.edit digest frontier) hshown hsame.symm ?_
        intro other otherFrontier heq
        obtain ⟨-, rfl⟩ := Record.edit.inj heq
        exact hfrontier
  | read digest mtimeMs observation hevent hfound hrecords =>
    subst hevent
    rw [hrecords, hfound]
    cases observation with
    | byteView => cases htext
    | wholeFile =>
      refine ⟨by simp [readSnapshot, lineNumbersForObservation], ?_⟩
      intro valid n _ _ _ hn
      exact Displayed.head (.read digest .wholeFile) hn _
    | window range =>
      refine ⟨?_, ?_⟩
      · intro hunobserved
        obtain ⟨previous, hprevious, hnumbers⟩ :=
          lineNumbersForObservation_window_unobserved hunobserved
        exact (hinv chatId path previous hprevious).observed hnumbers
      · intro valid n hvalid hpos hn hlength
        have hlength' : n ≤ (lines digest.sha256).length := hlength
        have htotal : range.totalLines = (lines digest.sha256).length := hfaithful
        rcases le_lineNumbersForObservation hvalid hpos hn (by omega) with
          ⟨previous, old, hprevious, hsha, hnumbers, hle⟩ | ⟨hstart, hend⟩
        · have hshown := (hinv chatId path previous hprevious).displayed old n hnumbers hpos hle
            (by rw [hsha]; exact hlength')
          refine Displayed.cons (.read digest (.window range)) hshown (by rw [hsha]; rfl) ?_
          intro other frontier heq
          cases heq
        · exact Displayed.head (.read digest (.window range)) ⟨hstart, hend, hlength'⟩ _

/-! ## Every run -/

/-- What the assertions of the ledger say after a run. -/
structure ReadBeforeWrite (lines : String → List ℓ) (events : List (LedgerEvent π μ)) : Prop where
  /-- An accepted digest is that of the latest record, which is of a whole view
  or a window, and for a window every line was shown for this content. -/
  overwrite : ∀ chatId path digest,
    ((Trace.after events).ledger.assertDigest chatId path digest).2 = .ok () →
      ∃ last older, (Trace.after events).history chatId path = last :: older ∧
        last.digest = digest ∧
        (last.isWhole = true ∨ ∃ range, last = .read digest (.window range) ∧
          ∀ n, 1 ≤ n → n ≤ range.totalLines → Shown digest.sha256 n (last :: older))
  /-- Every existing line of an accepted range was displayed under its number,
  and no edit since then had a lower frontier. -/
  numbering : Run.Along Trace.step (Faithful lines) {} events →
    (∀ event ∈ events, event.isByteView = false) →
      ∀ chatId path snapshot endLine,
        (Trace.after events).ledger.snapshot chatId path = some snapshot →
        (Trace.after events).ledger.assertLineNumbers chatId path endLine = .ok () →
          ∀ n, 1 ≤ n → n ≤ endLine → n ≤ (lines snapshot.sha256).length →
            Displayed lines snapshot.sha256 n ((Trace.after events).history chatId path)

omit [BEq μ] in
theorem Ledger.snapshot_of_assertDigest {ledger : Ledger π μ} {digest : ContentDigest}
    (h : (ledger.assertDigest chatId path digest).2 = .ok ()) :
    ∃ found, ledger.snapshot chatId path = some found ∧ found.complete = true ∧
      (⟨found.sha256, found.size⟩ : ContentDigest) = digest := by
  unfold assertDigest completeEntry at h
  cases hentry : ledger.entry chatId path with
  | none =>
    rw [hentry] at h
    cases h
  | some entry =>
    rw [hentry] at h
    cases hcomplete : entry.complete with
    | false =>
      simp only [hcomplete] at h
      cases h
    | true =>
      simp only [hcomplete] at h
      refine ⟨entry.toFileSnapshot, by rw [snapshot, hentry, Option.map_some], hcomplete, ?_⟩
      by_cases hsame : (entry.size != digest.size || entry.sha256 != digest.sha256) = true
      · simp [hsame] at h
      · rw [Bool.or_eq_true, bne_iff_ne, bne_iff_ne] at hsame
        push Not at hsame
        rw [hsame.1, hsame.2]

omit [BEq μ] in
theorem Ledger.lineNumbers_of_assertLineNumbers {ledger : Ledger π μ} {endLine : Nat}
    (hfound : ledger.snapshot chatId path = some found)
    (h : ledger.assertLineNumbers chatId path endLine = .ok ()) :
    ∃ valid, found.lineNumbers = .validThrough valid ∧ endLine ≤ valid := by
  obtain ⟨entry, hentry, rfl⟩ := Option.map_eq_some_iff.mp hfound
  grind [assertLineNumbers]

theorem read_before_write (lines : String → List ℓ) (events : List (LedgerEvent π μ)) :
    ReadBeforeWrite lines events := by
  refine ⟨?_, ?_⟩
  · intro chatId path digest haccepted
    have hcovered : (Trace.after events).Tracks Covered :=
      Trace.tracks_after (fun _ _ _ _ _ _ htracks _ => covered_step htracks)
        (Run.along_true events)
    obtain ⟨found, hfound, hcomplete, rfl⟩ := snapshot_of_assertDigest haccepted
    have h := hcovered chatId path found hfound
    obtain ⟨last, older, hrecords, hdigest, hwhole⟩ := h.latest
    refine ⟨last, older, hrecords, hdigest, (hwhole hcomplete).imp_right ?_⟩
    rintro ⟨range, hlast, htotal⟩
    refine ⟨range, hlast, fun n hpos hn => ?_⟩
    rw [← hrecords]
    exact h.shown n hpos (le_trans hn htotal)
  · intro hrun htext chatId path found endLine hfound haccepted n hpos hn hlength
    have hnumbered : (Trace.after events).Tracks (Numbered lines) :=
      Trace.tracks_after (fun _ event hmem _ _ _ htracks hfaithful =>
        numbered_step hfaithful (htext event hmem) htracks) hrun
    obtain ⟨valid, hnumbers, hle⟩ := lineNumbers_of_assertLineNumbers hfound haccepted
    exact (hnumbered chatId path found hfound).displayed valid n hnumbers hpos (le_trans hn hle)
      hlength

/-- The lines of two contents, the second an edit of the first. -/
def sampleLines (sha256 : String) : List String :=
  if sha256 = "a1" then ["use io;", "use fs;", "mod run;"]
  else ["use io;", "use fs;", "use net;", "mod run;"]

/-- Two windows that cover a file, and an edit after its second line. -/
def sampleEvents : List (LedgerEvent String Nat) :=
  [.read "chat" "/src/main.rs" ⟨"a1", 21⟩ 1 (.window ⟨1, 2, 3⟩),
    .read "chat" "/src/main.rs" ⟨"a1", 21⟩ 1 (.window ⟨3, 3, 3⟩),
    .edit "chat" "/src/main.rs" ⟨"b2", 30⟩ 2 2]

theorem read_before_write_sample :
    (∃ last older, (Trace.after sampleEvents).history "chat" "/src/main.rs" = last :: older ∧
      last.digest = ⟨"b2", 30⟩) ∧
    Displayed sampleLines "b2" 2 ((Trace.after sampleEvents).history "chat" "/src/main.rs") := by
  have h := read_before_write sampleLines sampleEvents
  refine ⟨?_, ?_⟩
  · obtain ⟨last, older, hrecords, hdigest, -⟩ := h.overwrite "chat" "/src/main.rs" ⟨"b2", 30⟩ rfl
    exact ⟨last, older, hrecords, hdigest⟩
  · have hrun : Run.Along Trace.step (Faithful sampleLines) {} sampleEvents := by
      refine ⟨rfl, rfl, ⟨_, rfl, ?_⟩, trivial⟩
      intro n hpos hn
      have hcases : n = 1 ∨ n = 2 := by omega
      rcases hcases with rfl | rfl
      · decide
      · decide
    exact h.numbering hrun (by decide) "chat" "/src/main.rs" _ 2 rfl rfl 2 (by decide) (by decide)
      (by decide)

/-- A window after a whole read: the digest is accepted, the latest record is
the window, and no window has the first line. -/
theorem window_after_whole_read :
    let events : List (LedgerEvent String Nat) :=
      [.read "chat" "/src/main.rs" ⟨"a1", 21⟩ 1 .wholeFile,
        .read "chat" "/src/main.rs" ⟨"a1", 21⟩ 1 (.window ⟨2, 2, 3⟩)]
    ((Trace.after events).ledger.assertDigest "chat" "/src/main.rs" ⟨"a1", 21⟩).2 = .ok () ∧
      (Trace.after events).history "chat" "/src/main.rs" =
        [.read ⟨"a1", 21⟩ (.window ⟨2, 2, 3⟩), .read ⟨"a1", 21⟩ .wholeFile] ∧
      ∀ range, Record.read ⟨"a1", 21⟩ (.window range) ∈
        (Trace.after events).history "chat" "/src/main.rs" →
          ¬ (range.startLine ≤ 1 ∧ 1 ≤ range.endLine) := by
  refine ⟨rfl, rfl, ?_⟩
  intro range hmem
  have hmem : Record.read ⟨"a1", 21⟩ (.window range) ∈
      [Record.read ⟨"a1", 21⟩ (.window ⟨2, 2, 3⟩), .read ⟨"a1", 21⟩ .wholeFile] := hmem
  have hrange : range = ⟨2, 2, 3⟩ := by simpa using hmem
  rw [hrange]
  decide

end MangoStudio.Filesystem
