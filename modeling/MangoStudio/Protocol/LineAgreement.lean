import MangoStudio.Protocol.Ndjson

/-!
# Where the two line decoders part

The TypeScript and the Rust `LineDecoder` read one stream.  By
`Ts.run_eq` and `Rust.run_eq` each computes `decodeRecords` of its own policy,
so the comparison is one of verdicts, record by record.

With parsers that agree on UTF-8 text (`ReadersAgree`) and value checks that
agree on what is parsed, a record is in one of four classes:

* both refuse it (`Oversize`, or `Unreadable`);
* both skip it, or both deliver its frame;
* it is blank only for TypeScript, since it holds a vertical tab, and Rust
  refuses it (`VerticalTabBlank`);
* it is not UTF-8, and the text that TypeScript's decoder puts in its place is
  a frame (`ReplacedFrame`).

`Conforms` goes through the records with these classes, and
`outcomesAgree_iff_conforms` says that it is exactly agreement.
-/

namespace MangoStudio.Protocol

open RecordStream

/-! ## Classes of records -/

/-- The line is over the limit. -/
def Oversize (limit : FrameLimit) (record : List UInt8) : Prop :=
  limit.bytes < (stripCarriageReturn record).length

/-- The line is whitespace for the TypeScript decoder. -/
def BlankLine (record : List UInt8) : Prop :=
  ∀ byte ∈ stripCarriageReturn record, Char.ofNat byte.toNat ∈ Ts.blankChars

/-- The line is whitespace and holds a vertical tab. -/
def VerticalTabBlank (record : List UInt8) : Prop :=
  BlankLine record ∧ 0x0B ∈ stripCarriageReturn record

section

variable (parse : List Char → Except Ts.ParseFailure Frame)

/-- The line's text, with a replacement character for what is not UTF-8, reads
as a frame. -/
def ReadsAsFrame (record : List UInt8) : Prop :=
  ∃ frame, Ts.Reads parse (Utf8.decodeLossy (stripCarriageReturn record)) frame

/-- The line is not UTF-8 and reads as a frame all the same. -/
def ReplacedFrame (record : List UInt8) : Prop :=
  ¬ WellFormed (stripCarriageReturn record) ∧ ReadsAsFrame parse record

/-- The line is neither blank nor a frame. -/
def Unreadable (record : List UInt8) : Prop := ¬ BlankLine record ∧ ¬ ReadsAsFrame parse record

/-- The records end in a refusal, and nothing but blank lines comes before
it. -/
def RefusedNext (limit : FrameLimit) (ended : Bool) : List (List UInt8) → Prop
  | [] => False
  | [record] => Oversize limit record ∨ ended = true ∧ Unreadable parse record
  | record :: next :: rest =>
    Oversize limit record ∨ Unreadable parse record ∨
      BlankLine record ∧ RefusedNext limit ended (next :: rest)

/-- No record before the first common refusal parts the decoders.  A blank line
with a vertical tab ends the Rust stream only, which shows unless the
TypeScript decoder refuses before it delivers another frame. -/
def Conforms (limit : FrameLimit) (ended : Bool) : List (List UInt8) → Prop
  | [] => True
  | [record] =>
    Oversize limit record ∨ ended = false ∨
      ¬ VerticalTabBlank record ∧ ¬ ReplacedFrame parse record
  | record :: next :: rest =>
    Oversize limit record ∨
      VerticalTabBlank record ∧ RefusedNext parse limit ended (next :: rest) ∨
      ¬ VerticalTabBlank record ∧ ¬ ReplacedFrame parse record ∧
        (Unreadable parse record ∨ Conforms limit ended (next :: rest))

end

/-- The value checks give one verdict on every frame that the parser reads. -/
def ChecksAgree (parse : List Char → Except Ts.ParseFailure Frame) : Prop :=
  ∀ text frame, parse text = .ok frame →
    (Ts.isFrame frame = true ↔ Rust.validate frame = .ok ())

/-! ## Verdicts -/

section

variable {parse : List Char → Except Ts.ParseFailure Frame} {runtime : Rust.Runtime}
  {limit : FrameLimit} {record : List UInt8}

theorem Ts.verdict_oversize (h : Oversize limit record) :
    (Ts.policy parse limit).verdict record = .refuse .tooLarge :=
  if_pos h

theorem Ts.verdict_blank (hsize : ¬ Oversize limit record) (h : BlankLine record) :
    (Ts.policy parse limit).verdict record = .skip := by
  have hread : Ts.readRecord parse limit record = .ok none := by
    rw [Ts.readRecord, Ts.LineDecoder.consume, if_pos ((Ts.isBlankLine_decodeLossy _).mpr h)]
  exact verdict_of_read hsize hread

theorem Ts.verdict_frame (hsize : ¬ Oversize limit record) (hblank : ¬ BlankLine record)
    {frame : Frame} (h : Ts.Reads parse (Utf8.decodeLossy (stripCarriageReturn record)) frame) :
    (Ts.policy parse limit).verdict record = .item frame := by
  have hok := (Ts.decodeRecord_eq_ok parse).mpr ⟨Nat.le_of_not_lt hsize, h⟩
  have hread : Ts.readRecord parse limit record = .ok (some frame) := by
    rw [Ts.readRecord, Ts.LineDecoder.consume,
      if_neg fun hb => hblank ((Ts.isBlankLine_decodeLossy _).mp hb), hok]
  exact verdict_of_read hsize hread

theorem Ts.verdict_unreadable (hsize : ¬ Oversize limit record)
    (h : Unreadable parse record) :
    ∃ kind, (Ts.policy parse limit).verdict record = .refuse kind := by
  cases hrecord : Ts.decodeRecord parse (Utf8.decodeLossy (stripCarriageReturn record))
      (stripCarriageReturn record).length limit with
  | ok frame => exact absurd ⟨frame, ((Ts.decodeRecord_eq_ok parse).mp hrecord).2⟩ h.2
  | error refusal =>
    have hread : Ts.readRecord parse limit record = .error refusal := by
      rw [Ts.readRecord, Ts.LineDecoder.consume,
        if_neg fun hb => h.1 ((Ts.isBlankLine_decodeLossy _).mp hb), hrecord]
    exact ⟨refusal.kind, verdict_of_read hsize hread⟩

theorem Rust.verdict_oversize (h : Oversize limit record) :
    (Rust.policy runtime limit).verdict record = .refuse .tooLarge :=
  if_pos h

theorem Rust.verdict_blank (hsize : ¬ Oversize limit record)
    (h : Rust.isBlank (stripCarriageReturn record) = true) :
    (Rust.policy runtime limit).verdict record = .skip := by
  have hread : Rust.readRecord runtime limit record = .ok none := by
    rw [Rust.readRecord, if_pos h]
  exact verdict_of_read hsize hread

section

variable (hsize : ¬ Oversize limit record)
  (hblank : Rust.isBlank (stripCarriageReturn record) = false)

include hsize hblank

theorem Rust.verdict_frame {frame : Frame}
    (h : Rust.Reads runtime (stripCarriageReturn record) frame) :
    (Rust.policy runtime limit).verdict record = .item frame := by
  have hok := (Rust.decodeLine_eq_ok runtime).mpr ⟨Nat.le_of_not_lt hsize, hblank, h⟩
  have hread : Rust.readRecord runtime limit record = .ok (some frame) := by
    rw [Rust.readRecord, hblank, hok]
    rfl
  exact verdict_of_read hsize hread

theorem Rust.verdict_unreadable
    (h : ∀ frame, ¬ Rust.Reads runtime (stripCarriageReturn record) frame) :
    ∃ kind, (Rust.policy runtime limit).verdict record = .refuse kind := by
  cases hline : Rust.decodeLine runtime record limit.bytes with
  | ok frame => exact absurd ((Rust.decodeLine_eq_ok runtime).mp hline).2.2 (h frame)
  | error refusal =>
    have hread : Rust.readRecord runtime limit record = .error refusal := by
      rw [Rust.readRecord, hblank, hline]
      rfl
    exact ⟨refusal.kind, verdict_of_read hsize hread⟩

end

theorem isBlank_of_blankLine (h : BlankLine record) (htab : 0x0B ∉ stripCarriageReturn record) :
    Rust.isBlank (stripCarriageReturn record) = true := by
  have hcode : ∀ c ∈ Ts.blankChars, c.toNat ∈ [9, 10, 11, 12, 13, 32] := by
    simp [Ts.blankChars]
  rw [Rust.isBlank, List.all_eq_true]
  intro byte hbyte
  have hmem := hcode _ (h byte hbyte)
  have hlt := byte.toNat_lt
  rw [Char.toNat_ofNat, if_pos (Or.inl (by omega))] at hmem
  have htab' : byte.toNat ≠ 11 := fun heq => htab (by
    rw [show (0x0B : UInt8) = byte from UInt8.toNat.inj heq.symm]
    exact hbyte)
  have hvalue : ∀ value : UInt8, byte.toNat = value.toNat → byte = value :=
    fun value => UInt8.toNat.inj
  simp only [List.mem_cons, List.not_mem_nil, or_false] at hmem
  rw [Rust.isAsciiWhitespace, decide_eq_true_eq]
  rcases hmem with hmem | hmem | hmem | hmem | hmem | hmem
  · rw [hvalue 0x09 hmem]
    decide
  · rw [hvalue 0x0A hmem]
    decide
  · exact absurd hmem htab'
  · rw [hvalue 0x0C hmem]
    decide
  · rw [hvalue 0x0D hmem]
    decide
  · rw [hvalue 0x20 hmem]
    decide

theorem blankLine_of_isBlank (h : Rust.isBlank (stripCarriageReturn record) = true) :
    BlankLine record :=
  (Ts.isBlankLine_decodeLossy _).mp (isBlankLine_of_isBlank h)

theorem ReadsAsFrame.not_blankLine (hagree : ReadersAgree parse runtime)
    (h : ReadsAsFrame parse record) : ¬ BlankLine record := by
  obtain ⟨frame, hreads⟩ := h
  intro hblank
  have hnot := hreads.not_blank (hagree.at _)
  rw [(Ts.isBlankLine_decodeLossy _).mpr hblank] at hnot
  cases hnot

theorem record_cases (hagree : ReadersAgree parse runtime) (hchecks : ChecksAgree parse)
    (hsize : ¬ Oversize limit record) :
    (VerticalTabBlank record ∧ (Ts.policy parse limit).verdict record = .skip ∧
      ∃ kind, (Rust.policy runtime limit).verdict record = .refuse kind) ∨
    (¬ VerticalTabBlank record ∧ ReplacedFrame parse record ∧
      (∃ frame, (Ts.policy parse limit).verdict record = .item frame) ∧
      ∃ kind, (Rust.policy runtime limit).verdict record = .refuse kind) ∨
    (¬ VerticalTabBlank record ∧ ¬ ReplacedFrame parse record ∧ Unreadable parse record ∧
      (∃ kind, (Ts.policy parse limit).verdict record = .refuse kind) ∧
      ∃ kind, (Rust.policy runtime limit).verdict record = .refuse kind) ∨
    (¬ VerticalTabBlank record ∧ ¬ ReplacedFrame parse record ∧ ¬ Unreadable parse record ∧
      (Ts.policy parse limit).verdict record = .skip ∧
      (Rust.policy runtime limit).verdict record = .skip) ∨
    (¬ VerticalTabBlank record ∧ ¬ ReplacedFrame parse record ∧ ¬ Unreadable parse record ∧
      ∃ frame, (Ts.policy parse limit).verdict record = .item frame ∧
        (Rust.policy runtime limit).verdict record = .item frame) := by
  have hlossy : ∀ frame, Rust.Reads runtime (stripCarriageReturn record) frame →
      ReadsAsFrame parse record := fun frame h => ⟨frame, h.lossy (hagree.at _)⟩
  by_cases hblank : BlankLine record
  · have hnoframe : ¬ ReadsAsFrame parse record := fun h => h.not_blankLine hagree hblank
    have hskip : (Ts.policy parse limit).verdict record = .skip := Ts.verdict_blank hsize hblank
    by_cases htab : 0x0B ∈ stripCarriageReturn record
    · -- blank with a vertical tab: not ASCII whitespace, and not JSON
      have hnot : Rust.isBlank (stripCarriageReturn record) = false := by
        rw [Rust.isBlank, List.all_eq_false]
        exact ⟨0x0B, htab, by decide⟩
      exact Or.inl ⟨⟨hblank, htab⟩, hskip,
        Rust.verdict_unreadable hsize hnot fun frame h => hnoframe (hlossy frame h)⟩
    · refine Or.inr (Or.inr (Or.inr (Or.inl ⟨fun h => htab h.2, fun h => hnoframe h.2,
        fun h => h.1 hblank, hskip, ?_⟩)))
      exact Rust.verdict_blank hsize (isBlank_of_blankLine hblank htab)
  · have htab : ¬ VerticalTabBlank record := fun h => hblank h.1
    have hnot : Rust.isBlank (stripCarriageReturn record) = false := by
      rw [Bool.eq_false_iff]
      exact fun h => hblank (blankLine_of_isBlank h)
    by_cases hframe : ReadsAsFrame parse record
    · obtain ⟨frame, hreads⟩ := hframe
      have hitem := Ts.verdict_frame hsize hblank hreads
      by_cases hwell : WellFormed (stripCarriageReturn record)
      · have hdash : ¬ Rust.RoleEndsInDash frame :=
          (Rust.validate_eq_ok.mp ((hchecks _ frame hreads.1).mp hreads.2)).2
        have hrust := (Rust.reads_iff_of_lossy (hagree.at _) hreads).mpr ⟨hwell, hdash⟩
        exact Or.inr (Or.inr (Or.inr (Or.inr ⟨htab, fun h => h.1 hwell,
          fun h => h.2 ⟨frame, hreads⟩, frame, hitem, Rust.verdict_frame hsize hnot hrust⟩)))
      · have hrust : ∀ other, ¬ Rust.Reads runtime (stripCarriageReturn record) other :=
          fun other h => hwell (hagree.illFormed _ other h.1)
        exact Or.inr (Or.inl ⟨htab, ⟨hwell, frame, hreads⟩, ⟨frame, hitem⟩,
          Rust.verdict_unreadable hsize hnot hrust⟩)
    · have hun : Unreadable parse record := ⟨hblank, hframe⟩
      exact Or.inr (Or.inr (Or.inl ⟨htab, fun h => hframe h.2, hun,
        Ts.verdict_unreadable hsize hun,
        Rust.verdict_unreadable hsize hnot fun frame h => hframe (hlossy frame h)⟩))

end

/-! ## Outcomes -/

/-- The same frames, and both refused or neither. -/
def OutcomesAgree {ε ε' : Type} (ts : List Frame × Option ε) (rust : List Frame × Option ε') :
    Prop :=
  ts.1 = rust.1 ∧ ts.2.isSome = rust.2.isSome

section

variable {parse : List Char → Except Ts.ParseFailure Frame} {runtime : Rust.Runtime}
  {limit : FrameLimit}

theorem Ts.lastVerdict_open {record : List UInt8} (hsize : ¬ Oversize limit record) :
    (Ts.policy parse limit).lastVerdict false record = .skip := by
  have hover : (Ts.policy parse limit).overflow record = none := if_neg hsize
  simp [Policy.lastVerdict, hover]

theorem Rust.lastVerdict_open {record : List UInt8} (hsize : ¬ Oversize limit record) :
    (Rust.policy runtime limit).lastVerdict false record = .skip := by
  have hover : (Rust.policy runtime limit).overflow record = none := if_neg hsize
  simp [Policy.lastVerdict, hover]

theorem lastVerdict_oversize (policy : Policy UInt8 Frame CodecErrorKind) (ended : Bool)
    {record : List UInt8} {kind : CodecErrorKind} (hover : policy.overflow record = some kind) :
    policy.lastVerdict ended record = .refuse kind := by
  cases ended with
  | false => simp only [Policy.lastVerdict, hover, Bool.false_eq_true, if_false]
  | true => simp [Policy.lastVerdict, policy.verdict_of_overflow hover]

theorem refusedNext_iff (ended : Bool) (records : List (List UInt8)) :
    ((Ts.policy parse limit).decodeRecords ended records).1 = [] ∧
        ((Ts.policy parse limit).decodeRecords ended records).2.isSome = true ↔
      RefusedNext parse limit ended records := by
  -- one case for each clause of `RefusedNext`
  have hread : ∀ record, ¬ Oversize limit record →
      (BlankLine record ∧ ¬ Unreadable parse record ∧
        (Ts.policy parse limit).verdict record = .skip) ∨
      (¬ BlankLine record ∧ ¬ Unreadable parse record ∧
        ∃ frame, (Ts.policy parse limit).verdict record = .item frame) ∨
      (¬ BlankLine record ∧ Unreadable parse record ∧
        ∃ kind, (Ts.policy parse limit).verdict record = .refuse kind) := by
    intro record hsize
    by_cases hblank : BlankLine record
    · exact Or.inl ⟨hblank, fun h => h.1 hblank, Ts.verdict_blank hsize hblank⟩
    by_cases hframe : ReadsAsFrame parse record
    · obtain ⟨frame, hreads⟩ := hframe
      exact Or.inr (Or.inl ⟨hblank, fun h => h.2 ⟨frame, hreads⟩, frame,
        Ts.verdict_frame hsize hblank hreads⟩)
    · exact Or.inr (Or.inr ⟨hblank, ⟨hblank, hframe⟩,
        Ts.verdict_unreadable hsize ⟨hblank, hframe⟩⟩)
  induction records using RefusedNext.induct with
  | case1 => simp [RefusedNext, Policy.decodeRecords]
  | case2 record =>
    rw [RefusedNext, Policy.decodeRecords]
    by_cases hsize : Oversize limit record
    · have hover : (Ts.policy parse limit).overflow record = some .tooLarge := if_pos hsize
      simp [lastVerdict_oversize _ ended hover, hsize]
    · cases ended with
      | false => simp [Ts.lastVerdict_open hsize, hsize]
      | true =>
        have hlast : (Ts.policy parse limit).lastVerdict true record =
          (Ts.policy parse limit).verdict record := rfl
        grind
  | case3 record next rest ih =>
    rw [RefusedNext, Policy.decodeRecords]
    grind [Ts.verdict_oversize]

theorem outcomesAgree_iff_conforms (hagree : ReadersAgree parse runtime)
    (hchecks : ChecksAgree parse) (ended : Bool) (records : List (List UInt8)) :
    OutcomesAgree ((Ts.policy parse limit).decodeRecords ended records)
        ((Rust.policy runtime limit).decodeRecords ended records) ↔
      Conforms parse limit ended records := by
  induction records using Conforms.induct with
  | case1 => simp [Conforms, Policy.decodeRecords, OutcomesAgree]
  | case2 record =>
    rw [Conforms, Policy.decodeRecords, Policy.decodeRecords]
    by_cases hsize : Oversize limit record
    · have hts : (Ts.policy parse limit).overflow record = some .tooLarge := if_pos hsize
      have hrust : (Rust.policy runtime limit).overflow record = some .tooLarge := if_pos hsize
      simp [lastVerdict_oversize _ ended hts, lastVerdict_oversize _ ended hrust, hsize,
        OutcomesAgree]
    · cases ended with
      | false => simp [Ts.lastVerdict_open hsize, Rust.lastVerdict_open hsize, OutcomesAgree]
      | true =>
        have hts : (Ts.policy parse limit).lastVerdict true record =
          (Ts.policy parse limit).verdict record := rfl
        have hrust : (Rust.policy runtime limit).lastVerdict true record =
          (Rust.policy runtime limit).verdict record := rfl
        grind [record_cases, OutcomesAgree]
  | case3 record next rest ih =>
    rw [Conforms, Policy.decodeRecords, Policy.decodeRecords]
    grind [Ts.verdict_oversize, Rust.verdict_oversize, OutcomesAgree, record_cases, refusedNext_iff]

end

/-- One stream, cut in any two ways: the two decoders deliver the same frames,
and both or neither refuse, exactly when the stream's records conform. -/
theorem lineDecoders_agree_iff_conforms {parse : List Char → Except Ts.ParseFailure Frame}
    {runtime : Rust.Runtime} (hagree : ReadersAgree parse runtime) (hchecks : ChecksAgree parse)
    (limit : FrameLimit) (ended : Bool) {pieces pieces' : List (List UInt8)}
    (hflatten : pieces.flatten = pieces'.flatten) :
    OutcomesAgree ((Ts.lineDecoder parse).run ended (.new limit) pieces)
        ((Rust.lineDecoder runtime).run ended (.new limit) pieces') ↔
      Conforms parse limit ended (pieces.flatten.splitOn lineFeed) := by
  have hts := Ts.run_eq parse limit ended pieces
  have hrust := Rust.run_eq runtime limit ended pieces'
  rw [← hflatten] at hrust
  rw [← outcomesAgree_iff_conforms hagree hchecks, ← hts, ← hrust]
  simp only [OutcomesAgree, Option.isSome_map]

/-! ## Two streams -/

theorem checksAgree_only {frame : Frame} (hdash : ¬ Rust.RoleEndsInDash frame) :
    ChecksAgree (parseOnly frame) := by
  intro text other h
  rw [parseOnly] at h
  split_ifs at h
  cases h
  rw [Rust.validate_eq_ok]
  simp [hdash]

/-- Both decoders read a ping, whether its line comes whole or in two pieces. -/
theorem lineDecoders_agree_on_ping :
    OutcomesAgree
      ((Ts.lineDecoder (parseOnly .ping)).run true (.new .least)
        [Frame.ping.encodedBytes, [0x0A]])
      ((Rust.lineDecoder (runtimeOnly .ping)).run true (.new .least)
        [Frame.ping.encodedBytes ++ [0x0A]]) := by
  have hwhole : stripCarriageReturn Frame.ping.encodedBytes = Frame.ping.encodedBytes := by
    decide
  have hrecords : [Frame.ping.encodedBytes, [0x0A]].flatten.splitOn lineFeed =
      [Frame.ping.encodedBytes, []] := by
    decide
  refine (lineDecoders_agree_iff_conforms (readersAgree_only .ping)
    (checksAgree_only (by simp [Rust.RoleEndsInDash])) .least true
    (by simp)).mpr ?_
  rw [hrecords]
  refine Or.inr (Or.inr ⟨?_, ?_, Or.inr (Or.inr (Or.inr ⟨?_, ?_⟩))⟩)
  · rintro ⟨-, htab⟩
    rw [hwhole] at htab
    revert htab
    decide
  · rintro ⟨hwell, -⟩
    rw [hwhole] at hwell
    exact hwell ⟨Frame.ping.text, rfl⟩
  · rintro ⟨-, htab⟩
    cases htab
  · rintro ⟨hwell, -⟩
    exact hwell ⟨[], rfl⟩

/-- The line that is one vertical tab: TypeScript ignores it and goes on, Rust
ends the stream. -/
theorem lineDecoders_disagree_vertical_tab :
    ¬ OutcomesAgree
        ((Ts.lineDecoder (parseOnly .ping)).run true (.new .least)
          [[0x0B, 0x0A]])
        ((Rust.lineDecoder (runtimeOnly .ping)).run true (.new .least)
          [[0x0B, 0x0A]]) := by
  have hts := congrArg (fun outcome => outcome.2.isSome)
    (Ts.run_eq (parseOnly .ping) .least true [[0x0B, 0x0A]])
  have hrust := congrArg (fun outcome => outcome.2.isSome)
    (Rust.run_eq (runtimeOnly .ping) .least true [[0x0B, 0x0A]])
  simp only [Option.isSome_map] at hts hrust
  rintro ⟨-, hsame⟩
  rw [hts, hrust] at hsame
  revert hsame
  decide

end MangoStudio.Protocol
