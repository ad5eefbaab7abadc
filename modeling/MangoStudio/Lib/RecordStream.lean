import Mathlib

/-!
# Records cut out of a stream

A stream decoder buffers what arrives, cuts it at a terminator and judges each
record: skip it, deliver an item, or refuse and end the stream.  It may also
refuse a record before its terminator arrives, when what it already holds is
over some bound.  The pieces in which a stream arrives are not part of its
meaning, and this module is the argument that they cannot be.

* `Policy` is one decoder's rules.  Its fields say what makes an early refusal
  sound: a record that overflows is refused however it goes on, and with the
  same kind.
* `feed` takes one symbol, and `feedAll` a list of them.  `feedAll_append`
  makes the state carry over a cut.
* `Settles` is what a decoder that works on whole pieces has to show, and
  `settles_open`, `settles_next` and `settles_refuse` are its loop, one round
  each.
* `decodeRecords` is the meaning of a stream: the records between terminators,
  judged in order up to the first refusal.  `outcome_feedAll` says that the
  machine computes it, before and after the end of the stream.
* `Decoder.Follows` is what one call of a real decoder has to satisfy, and
  `Decoder.Follows.run_eq` what a whole run then computes.
-/

namespace RecordStream

open List

variable {β φ κ : Type*}

/-- What becomes of one record. -/
inductive Verdict (φ κ : Type*) where
  | skip
  | item (value : φ)
  | refuse (kind : κ)
  deriving DecidableEq

/-- The item of a verdict, if it delivers one. -/
def Verdict.item? : Verdict φ κ → Option φ
  | .item value => some value
  | _ => none

/-- A decoder's rules.  `overflow` is the early refusal of a record that has
not ended. -/
structure Policy (β φ κ : Type*) where
  terminator : β
  verdict : List β → Verdict φ κ
  overflow : List β → Option κ
  overflow_nil : overflow [] = none
  overflow_append : ∀ {held more : List β} {kind : κ},
    overflow held = some kind → overflow (held ++ more) = some kind
  verdict_of_overflow : ∀ {held : List β} {kind : κ},
    overflow held = some kind → verdict held = .refuse kind

/-- A decoder holds a record that has not ended, or has refused. -/
inductive State (β κ : Type*) where
  | live (held : List β)
  | dead (kind : κ)
  deriving DecidableEq

/-- The kind of the refusal, once there is one. -/
def State.refusal : State β κ → Option κ
  | .live _ => none
  | .dead kind => some kind

variable {symbols : List β}

theorem eq_append_of_idxOf? [DecidableEq β] {symbol : β} {n : Nat}
    (h : symbols.idxOf? symbol = some n) :
    symbols = symbols.take n ++ symbol :: symbols.drop (n + 1) ∧ symbol ∉ symbols.take n := by
  grind [idxOf?_eq_some_iff, getElem_cons_drop, take_append_drop,
    mem_take_iff_getElem]

/-! ## The machine -/

/-- What a verdict does: the next state, and what is delivered. -/
def settle : Verdict φ κ → State β κ × List φ
  | .skip => (.live [], [])
  | .item value => (.live [], [value])
  | .refuse kind => (.dead kind, [])

namespace Policy

variable (policy : Policy β φ κ)

/-- Holds a record that has not ended, unless it overflows. -/
def hold (held : List β) : State β κ :=
  match policy.overflow held with
  | none => .live held
  | some kind => .dead kind

theorem hold_nil : policy.hold [] = .live [] := by
  rw [hold, policy.overflow_nil]

variable [DecidableEq β]

/-- Takes one symbol. -/
def feed (state : State β κ) (symbol : β) : State β κ × List φ :=
  match state with
  | .dead kind => (.dead kind, [])
  | .live held =>
    if symbol = policy.terminator then settle (policy.verdict held)
    else (policy.hold (held ++ [symbol]), [])

/-- Takes symbols in order, collecting what is delivered. -/
def feedAll (state : State β κ) : List β → State β κ × List φ
  | [] => (state, [])
  | symbol :: rest =>
    ((feedAll (policy.feed state symbol).1 rest).1,
      (policy.feed state symbol).2 ++ (feedAll (policy.feed state symbol).1 rest).2)

theorem feedAll_append (state : State β κ) (first second : List β) :
    policy.feedAll state (first ++ second) =
      ((policy.feedAll (policy.feedAll state first).1 second).1,
        (policy.feedAll state first).2 ++
          (policy.feedAll (policy.feedAll state first).1 second).2) := by
  induction first generalizing state with
  | nil => rfl
  | cons symbol rest ih => simp only [cons_append, feedAll, ih, append_assoc]

theorem feedAll_dead (kind : κ) (symbols : List β) :
    policy.feedAll (.dead kind) symbols = (.dead kind, []) := by
  induction symbols with
  | nil => rfl
  | cons symbol rest ih => rw [feedAll, feed, ih, nil_append]

theorem feed_hold_of_ne (held : List β) {symbol : β} (hne : symbol ≠ policy.terminator) :
    policy.feed (policy.hold held) symbol = (policy.hold (held ++ [symbol]), []) := by
  cases hover : policy.overflow held with
  | none => simp only [hold, hover, feed, if_neg hne]
  | some kind => simp [hold, hover, policy.overflow_append hover, feed]

/-- The terminator settles the record.  When the record had overflowed, its
verdict is the refusal that was already given. -/
theorem feed_hold_terminator (held : List β) :
    policy.feed (policy.hold held) policy.terminator = settle (policy.verdict held) := by
  cases hover : policy.overflow held with
  | none => simp only [hold, hover, feed, if_pos]
  | some kind => simp [hold, hover, feed, policy.verdict_of_overflow hover, settle]

theorem feedAll_open (held symbols : List β) (hfree : policy.terminator ∉ symbols) :
    policy.feedAll (policy.hold held) symbols = (policy.hold (held ++ symbols), []) := by
  induction symbols generalizing held with
  | nil => rw [feedAll, append_nil]
  | cons symbol rest ih =>
    have hne : symbol ≠ policy.terminator := fun h => hfree (by simp [h])
    have hrest : policy.terminator ∉ rest := fun h => hfree (mem_cons_of_mem _ h)
    rw [feedAll, policy.feed_hold_of_ne held hne, ih (held ++ [symbol]) hrest,
      append_assoc, singleton_append, nil_append]

theorem feedAll_record (held symbols : List β) (hfree : policy.terminator ∉ symbols) :
    policy.feedAll (policy.hold held) (symbols ++ [policy.terminator]) =
      settle (policy.verdict (held ++ symbols)) := by
  rw [feedAll_append, policy.feedAll_open held symbols hfree]
  simp [feedAll, policy.feed_hold_terminator]

/-- What a decoder on whole pieces does first: it settles the record up to the
first terminator and goes on with the rest. -/
theorem feedAll_cons_record (record rest : List β) (hfree : policy.terminator ∉ record) :
    policy.feedAll (.live []) (record ++ policy.terminator :: rest) =
      ((policy.feedAll (settle (policy.verdict record)).1 rest).1,
        (settle (policy.verdict record) : State β κ × List φ).2 ++
          (policy.feedAll (settle (policy.verdict record)).1 rest).2) := by
  have hrecord := policy.feedAll_record [] record hfree
  rw [policy.hold_nil, nil_append] at hrecord
  rw [append_cons, feedAll_append, hrecord]

theorem feedAll_live_open (record : List β) (hfree : policy.terminator ∉ record) :
    policy.feedAll (.live []) record = (policy.hold record, []) := by
  have hopen := policy.feedAll_open [] record hfree
  rwa [policy.hold_nil, nil_append] at hopen

theorem feedAll_live_append {held : List β} (symbols : List β)
    (hfree : policy.terminator ∉ held) (hwithin : policy.overflow held = none) :
    policy.feedAll (.live []) (held ++ symbols) = policy.feedAll (.live held) symbols := by
  have hhold : policy.hold held = .live held := by rw [hold, hwithin]
  rw [feedAll_append, policy.feedAll_live_open held hfree, hhold]
  rfl

/-! ## Decoders that work on whole pieces -/

/-- A decoder went through `symbols` record by record, delivered `delivered`,
and either holds `held` or has refused. -/
def Settles (symbols held : List β) (delivered : List φ) (refusal : Option κ) : Prop :=
  (policy.feedAll (.live []) symbols).2 = delivered ∧
    match refusal with
    | none => policy.terminator ∉ held ∧
        (policy.feedAll (.live []) symbols).1 = policy.hold held
    | some kind => (policy.feedAll (.live []) symbols).1 = .dead kind

theorem settles_open (hfree : policy.terminator ∉ symbols) :
    policy.Settles symbols symbols [] none := by
  rw [Settles, policy.feedAll_live_open symbols hfree]
  exact ⟨rfl, hfree, rfl⟩

theorem settles_refuse {n : Nat} {kind : κ} (held : List β)
    (hindex : symbols.idxOf? policy.terminator = some n)
    (hverdict : policy.verdict (symbols.take n) = .refuse kind) :
    policy.Settles symbols held [] (some kind) := by
  obtain ⟨hcut, hfree⟩ := eq_append_of_idxOf? hindex
  rw [hcut, Settles, policy.feedAll_cons_record _ _ hfree, hverdict]
  simp [settle, feedAll_dead]

theorem settles_next {held : List β} {n : Nat} {items delivered : List φ} {refusal : Option κ}
    (hindex : symbols.idxOf? policy.terminator = some n)
    (hverdict : settle (policy.verdict (symbols.take n)) = (.live ([] : List β), items))
    (hrest : policy.Settles (symbols.drop (n + 1)) held delivered refusal) :
    policy.Settles symbols held (items ++ delivered) refusal := by
  obtain ⟨hcut, hfree⟩ := eq_append_of_idxOf? hindex
  unfold Settles at hrest ⊢
  rw [hcut, policy.feedAll_cons_record _ _ hfree, hverdict, hrest.1]
  exact ⟨rfl, hrest.2⟩

/-- A decoder that held `held` and settled it with `symbols` is where the machine
is after `symbols`. -/
theorem Settles.feedAll {policy : Policy β φ κ} {held rest : List β} {delivered : List φ}
    {refusal : Option κ} (hsettles : policy.Settles (held ++ symbols) rest delivered refusal)
    (hfree : policy.terminator ∉ held) (hwithin : policy.overflow held = none) :
    policy.feedAll (.live held) symbols =
        (refusal.elim (policy.hold rest) State.dead, delivered) ∧
      (refusal = none → policy.terminator ∉ rest) := by
  unfold Settles at hsettles
  rw [policy.feedAll_live_append symbols hfree hwithin] at hsettles
  obtain ⟨hdelivered, hstate⟩ := hsettles
  cases refusal with
  | none => exact ⟨Prod.ext hstate.2 hdelivered, fun _ => hstate.1⟩
  | some kind =>
    refine ⟨Prod.ext hstate hdelivered, ?_⟩
    intro hnone
    cases hnone

/-! ## The meaning of a stream -/

/-- What the last record comes to: its verdict when the stream has ended, and
before that at most an early refusal. -/
def lastVerdict (ended : Bool) (held : List β) : Verdict φ κ :=
  if ended then policy.verdict held
  else
    match policy.overflow held with
    | none => .skip
    | some kind => .refuse kind

/-- The records of a stream judged in order, up to the first refusal.  The last
one has no terminator. -/
def decodeRecords (ended : Bool) : List (List β) → List φ × Option κ
  | [] => ([], none)
  | [record] =>
    match policy.lastVerdict ended record with
    | .skip => ([], none)
    | .item value => ([value], none)
    | .refuse kind => ([], some kind)
  | record :: next :: rest =>
    match policy.verdict record with
    | .skip => decodeRecords ended (next :: rest)
    | .item value =>
      (value :: (decodeRecords ended (next :: rest)).1, (decodeRecords ended (next :: rest)).2)
    | .refuse kind => ([], some kind)

/-- What a decoder adds when the stream ends: the verdict on the record it
holds. -/
def observe (ended : Bool) : State β κ → List φ × Option κ
  | .dead kind => ([], some kind)
  | .live held =>
    if ended then
      match policy.verdict held with
      | .skip => ([], none)
      | .item value => ([value], none)
      | .refuse kind => ([], some kind)
    else ([], none)

/-- Everything that is delivered, and the refusal if there is one. -/
def outcome (ended : Bool) (result : State β κ × List φ) : List φ × Option κ :=
  (result.2 ++ (policy.observe ended result.1).1, (policy.observe ended result.1).2)

omit [DecidableEq β] in
theorem observe_hold (ended : Bool) (held : List β) :
    policy.observe ended (policy.hold held) = policy.decodeRecords ended [held] := by
  rw [decodeRecords, lastVerdict]
  cases hover : policy.overflow held with
  | none => cases ended <;> simp [hold, hover, observe]
  | some kind =>
    cases ended <;> simp [hold, hover, observe, policy.verdict_of_overflow hover]

theorem outcome_feedAll_hold (ended : Bool) (held symbols : List β)
    (hfree : policy.terminator ∉ held) :
    policy.outcome ended (policy.feedAll (policy.hold held) symbols) =
      policy.decodeRecords ended ((held ++ symbols).splitOn policy.terminator) := by
  induction symbols generalizing held with
  | nil =>
    rw [append_nil, splitOn_eq_singleton hfree, feedAll, outcome, observe_hold]
    simp
  | cons symbol rest ih =>
    by_cases hterm : symbol = policy.terminator
    · -- the held record ends here, and the rest starts from nothing held
      subst hterm
      rw [splitOn_append_cons_self_of_not_mem hfree, feedAll, feed_hold_terminator]
      obtain ⟨next, more, hsplit⟩ : ∃ next more,
          rest.splitOn policy.terminator = next :: more :=
        exists_cons_of_ne_nil (splitOn_ne_nil _ _)
      have hrest := ih [] not_mem_nil
      rw [policy.hold_nil, nil_append, hsplit] at hrest
      rw [hsplit, decodeRecords]
      grind [settle, outcome, feedAll_dead, observe]
    · have hheld : policy.terminator ∉ held ++ [symbol] := by
        simp only [mem_append, mem_singleton, not_or]
        exact ⟨hfree, fun h => hterm h.symm⟩
      have hrest := ih (held ++ [symbol]) hheld
      rw [append_assoc, singleton_append] at hrest
      rw [feedAll, policy.feed_hold_of_ne held hterm, ← hrest]
      simp [outcome]

theorem outcome_feedAll (ended : Bool) (symbols : List β) :
    policy.outcome ended (policy.feedAll (.live []) symbols) =
      policy.decodeRecords ended (symbols.splitOn policy.terminator) := by
  have h := policy.outcome_feedAll_hold ended [] symbols not_mem_nil
  rwa [policy.hold_nil, nil_append] at h

omit [DecidableEq β] in
theorem decodeRecords_append (ended : Bool) (records rest : List (List β)) (hrest : rest ≠ [])
    (hrecords : ∀ record ∈ records, ∀ k, policy.verdict record ≠ .refuse k) :
    policy.decodeRecords ended (records ++ rest) =
      ((records.filterMap fun record => (policy.verdict record).item?) ++
          (policy.decodeRecords ended rest).1, (policy.decodeRecords ended rest).2) := by
  induction records with
  | nil => rfl
  | cons record records ih =>
    have htail := ih fun r hr => hrecords r (mem_cons_of_mem _ hr)
    have hrecord := hrecords record mem_cons_self
    obtain ⟨first, others, hcons⟩ : ∃ first others, records ++ rest = first :: others :=
      exists_cons_of_ne_nil (by simp [hrest])
    rw [hcons] at htail
    rw [cons_append, hcons, decodeRecords]
    cases hverdict : policy.verdict record with
    | skip => rw [filterMap_cons_none (by rw [hverdict]; rfl), ← htail]
    | item value => rw [filterMap_cons_some (by rw [hverdict]; rfl), htail, cons_append]
    | refuse k => exact absurd hverdict (hrecord k)

omit [DecidableEq β] in
theorem decodeRecords_refuse (ended : Bool) {bad : List β} {tail : List (List β)} {kind : κ}
    (htail : tail ≠ []) (hbad : policy.verdict bad = .refuse kind) :
    policy.decodeRecords ended (bad :: tail) = ([], some kind) := by
  obtain ⟨next, more, rfl⟩ := exists_cons_of_ne_nil htail
  rw [decodeRecords, hbad]

omit [DecidableEq β] in
theorem decodeRecords_refuse_last (ended : Bool) {last : List β} {kind : κ}
    (hlast : policy.lastVerdict ended last = .refuse kind) :
    policy.decodeRecords ended [last] = ([], some kind) := by
  rw [decodeRecords, hlast]

theorem splitOn_terminated (records : List (List β)) (rest : List β)
    (hfree : ∀ record ∈ records, policy.terminator ∉ record) :
    ((records.map (· ++ [policy.terminator])).flatten ++ rest).splitOn policy.terminator =
      records ++ rest.splitOn policy.terminator := by
  induction records <;> grind [splitOn_append_cons_self_of_not_mem]

end Policy

/-! ## Decoders in pieces -/

/-- A decoder that takes a stream in pieces.  Each call gives what it delivers
and the refusal it reports. -/
structure Decoder (δ β φ ε : Type*) where
  push : δ → List β → δ × List φ × Option ε
  finish : δ → δ × List φ × Option ε

/-- A whole stream: a push for each piece, then `finish` if the stream has
ended.  The result is everything delivered, and the first refusal. -/
def Decoder.run {δ ε : Type*} (decoder : Decoder δ β φ ε) (ended : Bool) (state : δ) :
    List (List β) → List φ × Option ε
  | [] => if ended then (decoder.finish state).2 else ([], none)
  | piece :: rest =>
    ((decoder.push state piece).2.1 ++ (run decoder ended (decoder.push state piece).1 rest).1,
      (decoder.push state piece).2.2.or (run decoder ended (decoder.push state piece).1 rest).2)

/-- A decoder follows a policy's machine: `state` says where the machine is,
for a decoder that keeps `inv`. -/
structure Decoder.Follows {δ ε : Type*} [DecidableEq β] (decoder : Decoder δ β φ ε)
    (policy : Policy β φ κ) (kind : ε → κ) (inv : δ → Prop) (state : δ → State β κ) :
    Prop where
  push_inv : ∀ {d piece}, inv d → inv (decoder.push d piece).1
  push_state : ∀ {d piece}, inv d →
    state (decoder.push d piece).1 = (policy.feedAll (state d) piece).1
  push_delivered : ∀ {d piece}, inv d →
    (decoder.push d piece).2.1 = (policy.feedAll (state d) piece).2
  push_refusal : ∀ {d piece}, inv d →
    (decoder.push d piece).2.2.map kind = (state (decoder.push d piece).1).refusal
  finish_outcome : ∀ {d}, inv d →
    ((decoder.finish d).2.1, (decoder.finish d).2.2.map kind) = policy.observe true (state d)

namespace Decoder.Follows

variable {δ ε : Type*} [DecidableEq β] {decoder : Decoder δ β φ ε} {policy : Policy β φ κ}
  {kind : ε → κ} {inv : δ → Prop} {state : δ → State β κ}

/-- A decoder that reports after each piece the refusal it has latched. -/
theorem of_latched (latched : δ → Option ε) (hlatched : ∀ d, (state d).refusal = (latched d).map kind)
    (hpush : ∀ {d piece}, inv d → inv (decoder.push d piece).1 ∧
      state (decoder.push d piece).1 = (policy.feedAll (state d) piece).1 ∧
      (decoder.push d piece).2.1 = (policy.feedAll (state d) piece).2 ∧
      (decoder.push d piece).2.2 = latched (decoder.push d piece).1)
    (hfinish : ∀ {d}, inv d →
      ((decoder.finish d).2.1, (decoder.finish d).2.2.map kind) = policy.observe true (state d)) :
    decoder.Follows policy kind inv state where
  push_inv hinv := (hpush hinv).1
  push_state hinv := (hpush hinv).2.1
  push_delivered hinv := (hpush hinv).2.2.1
  push_refusal hinv := by rw [(hpush hinv).2.2.2, hlatched]
  finish_outcome := hfinish

theorem run_outcome (h : decoder.Follows policy kind inv state) (ended : Bool) {d : δ}
    (hinv : inv d) (pieces : List (List β)) :
    (decoder.run ended d pieces).1 =
        (policy.outcome ended (policy.feedAll (state d) pieces.flatten)).1 ∧
      (state d).refusal.or ((decoder.run ended d pieces).2.map kind) =
        (policy.outcome ended (policy.feedAll (state d) pieces.flatten)).2 := by
  induction pieces generalizing d with
  | nil =>
    cases ended with
    | false => cases hstate : state d <;> simp [run, Policy.outcome, Policy.feedAll,
        Policy.observe, State.refusal]
    | true =>
      obtain ⟨hitems, hkind⟩ := Prod.ext_iff.mp (h.finish_outcome hinv)
      simp only at hitems hkind
      simp only [run, if_true, flatten_nil, Policy.outcome, Policy.feedAll,
        nil_append, hitems, hkind, true_and]
      cases hstate : state d <;> rfl
  | cons piece rest ih =>
    have hinv' : inv (decoder.push d piece).1 := h.push_inv hinv
    obtain ⟨hitems, hrefusal⟩ := ih hinv'
    rw [h.push_state hinv] at hitems hrefusal
    rw [flatten_cons, Policy.feedAll_append]
    simp only [run, Policy.outcome] at hitems hrefusal ⊢
    rw [hitems, h.push_delivered hinv]
    refine ⟨by rw [append_assoc], ?_⟩
    rw [← hrefusal, Option.map_or, h.push_refusal hinv, h.push_state hinv]
    cases hstate : state d with
    | live held => rfl
    | dead k =>
      rw [Policy.feedAll_dead]
      rfl

theorem run_eq (h : decoder.Follows policy kind inv state) (ended : Bool) {d : δ}
    (hinv : inv d) (hfresh : state d = .live []) (pieces : List (List β)) :
    ((decoder.run ended d pieces).1, (decoder.run ended d pieces).2.map kind) =
      policy.decodeRecords ended (pieces.flatten.splitOn policy.terminator) := by
  obtain ⟨hitems, hrefusal⟩ := h.run_outcome ended hinv pieces
  rw [hfresh] at hitems hrefusal
  rw [← policy.outcome_feedAll, Prod.ext_iff]
  exact ⟨hitems, hrefusal⟩

end Decoder.Follows

end RecordStream
