import MangoStudio.Lib.Pattern
import MangoStudio.Protocol.Frame

/-!
# The TypeScript wire schema

`packages/protocol/src/schemas/common.ts` and `frames.ts`.  The SDK checks a
frame with a schema library: a string member has a length range and an anchored
pattern, an integer member a range, an optional member passes when it is
absent.  `stringSchema`, `integerSchema` and `optionalSchema` are those three
checks, and every schema of the source is one of them applied to its own
numbers.  The library counts a string's length in characters.

The patterns are regular expressions over `Pattern`'s operators, so that
`mem_methodPattern`, `mem_errorCodePattern` and `mem_rolePattern` can say what
they accept without running a matcher.  `isFrame` is the check of a whole
frame and `assertFrame` the check that an encoder makes before it writes.
-/

namespace MangoStudio.Protocol

/-! ## Reserved names -/

/-- Method names and event topics under this segment belong to the
specification. -/
def rpcReservedPrefix : String := "rpc."

/-- The reserved method that answers with the responder's catalog. -/
def rpcDiscover : String := "rpc.discover"

/-- Effective minor from which `rpc.discover` is part of the wire. -/
def rpcDiscoverMinor : Nat := 1

/-- The name sits under the reserved segment. -/
def isReservedMethodName (name : String) : Bool :=
  rpcReservedPrefix.toList.isPrefixOf name.toList

/-- The name is a reserved method that the wire defines at `effectiveMinor`. -/
def isDefinedReservedMethod (name : String) (effectiveMinor : Nat) : Bool :=
  name == rpcDiscover && decide (rpcDiscoverMinor ≤ effectiveMinor)

namespace Ts

open Pattern

/-! ## Character classes and patterns -/

/-- `[a-z]`. -/
def lowercase : List Char := charRange 'a' 'z'

/-- `[A-Z]`. -/
def uppercase : List Char := charRange 'A' 'Z'

/-- `[0-9]`. -/
def digits : List Char := charRange '0' '9'

/-- `[a-z0-9-]`. -/
def labelChars : List Char := lowercase ++ digits ++ ['-']

/-- `^[a-z](?:[a-z0-9-]*[a-z0-9])?(?:\.[a-z](?:[a-z0-9-]*[a-z0-9])?)+$`. -/
def methodPattern : RegularExpression Char :=
  separated '.' (segment lowercase labelChars (lowercase ++ digits))

/-- `^[A-Z][A-Z0-9_]*$`. -/
def errorCodePattern : RegularExpression Char :=
  word uppercase (uppercase ++ digits ++ ['_'])

/-- `^[a-z][a-z0-9-]*$`. -/
def rolePattern : RegularExpression Char := word lowercase labelChars

/-! ## Schemas -/

/-- A string member: its length range and its pattern, if it has one. -/
def stringSchema (minLength : Nat) (maxLength : Option Nat)
    (pattern : Option (RegularExpression Char)) (value : String) : Bool :=
  decide (minLength ≤ value.length) &&
    maxLength.all (fun bound => decide (value.length ≤ bound)) &&
    pattern.all (fun grammar => grammar.rmatch value.toList)

/-- An integer member: its range. -/
def integerSchema (minimum : Nat) (maximum : Option Nat) (value : Nat) : Bool :=
  decide (minimum ≤ value) && maximum.all fun bound => decide (value ≤ bound)

/-- An optional member passes when it is absent. -/
def optionalSchema {α : Type} (schema : α → Bool) (value : Option α) : Bool := value.all schema

def idSchema : String → Bool := stringSchema 1 (some idMaxLength) none

def methodSchema : String → Bool :=
  stringSchema methodMinLength (some methodMaxLength) (some methodPattern)

def topicSchema : String → Bool :=
  stringSchema methodMinLength (some methodMaxLength) (some methodPattern)

def errorCodeSchema : String → Bool :=
  stringSchema 1 (some errorCodeMaxLength) (some errorCodePattern)

def closeCodeSchema : Nat → Bool := integerSchema minCloseCode (some maxCloseCode)

def roleSchema : String → Bool := stringSchema 1 (some roleMaxLength) (some rolePattern)

def protocolVersionSchema (version : ProtocolVersion) : Bool :=
  integerSchema 1 none version.major && integerSchema 0 none version.minor

def peerInfoSchema (peer : PeerInfo) : Bool :=
  stringSchema 1 (some peerFieldMaxLength) none peer.name &&
    stringSchema 1 (some peerFieldMaxLength) none peer.version &&
    roleSchema peer.role

def limitsSchema (limits : Limits) : Bool :=
  optionalSchema (integerSchema minAnnouncedFrameBytes (some maxAnnouncedFrameBytes))
      limits.maxFrameBytes &&
    optionalSchema (integerSchema minAnnouncedInFlight (some maxAnnouncedInFlight))
      limits.maxInFlight

def errorPayloadSchema (error : ErrorPayload) : Bool :=
  errorCodeSchema error.code && stringSchema 1 none none error.message

def helloFrameSchema (greeting : Hello) : Bool :=
  protocolVersionSchema greeting.protocol && peerInfoSchema greeting.peer &&
    optionalSchema limitsSchema greeting.limits

def eventFrameSchema (event : Event) : Bool :=
  topicSchema event.topic && integerSchema 0 none event.seq &&
    optionalSchema idSchema event.streamId

def closeFrameSchema (farewell : Close) : Bool :=
  closeCodeSchema farewell.code &&
    optionalSchema (stringSchema 0 (some closeReasonMaxLength) none) farewell.reason

/-- The frame is one that this wire major defines. -/
def isFrame : Frame → Bool
  | .hello greeting => helloFrameSchema greeting
  | .req request => idSchema request.id && methodSchema request.method
  | .res response => idSchema response.id
  | .err error => idSchema error.id && errorPayloadSchema error.error
  | .evt event => eventFrameSchema event
  | .cancel target => idSchema target.id
  | .ping => true
  | .pong => true
  | .close farewell => closeFrameSchema farewell

/-- Refuses a value that is not a frame.  The member path and the detail that
the schema library appends to the message are its own text. -/
def assertFrame (frame : Frame) : Except CodecError Unit :=
  if isFrame frame then .ok ()
  else .error ⟨.schema, "frame does not match the wire schema", some frame.typeName⟩

theorem stringSchema_eq_true {minLength : Nat} {maxLength : Option Nat}
    {pattern : Option (RegularExpression Char)} {value : String} :
    stringSchema minLength maxLength pattern value = true ↔
      minLength ≤ value.length ∧ (∀ bound, maxLength = some bound → value.length ≤ bound) ∧
        ∀ grammar, pattern = some grammar → value.toList ∈ grammar.matches' := by
  simp only [stringSchema, Bool.and_eq_true, decide_eq_true_eq, Option.all_eq_true,
    RegularExpression.rmatch_iff_matches', and_assoc]

theorem integerSchema_eq_true {minimum : Nat} {maximum : Option Nat} {value : Nat} :
    integerSchema minimum maximum value = true ↔
      minimum ≤ value ∧ ∀ bound, maximum = some bound → value ≤ bound := by
  simp only [integerSchema, Bool.and_eq_true, decide_eq_true_eq, Option.all_eq_true]

/-! ## What the patterns accept -/

theorem mem_lowercase {c : Char} : c ∈ lowercase ↔ 'a' ≤ c ∧ c ≤ 'z' :=
  mem_charRange (by decide)

theorem mem_uppercase {c : Char} : c ∈ uppercase ↔ 'A' ≤ c ∧ c ≤ 'Z' :=
  mem_charRange (by decide)

theorem mem_digits {c : Char} : c ∈ digits ↔ '0' ≤ c ∧ c ≤ '9' :=
  mem_charRange (by decide)

theorem dot_notMem_labelChars : '.' ∉ labelChars := by decide

theorem dash_notMem_last : '-' ∉ lowercase ++ digits := by decide

theorem mem_rolePattern {first : Char} {rest : List Char} :
    first :: rest ∈ rolePattern.matches' ↔ first ∈ lowercase ∧ ∀ c ∈ rest, c ∈ labelChars :=
  mem_word_cons

theorem mem_errorCodePattern {first : Char} {rest : List Char} :
    first :: rest ∈ errorCodePattern.matches' ↔
      first ∈ uppercase ∧ ∀ c ∈ rest, c ∈ uppercase ++ digits ++ ['_'] :=
  mem_word_cons

theorem mem_methodSegment {w : List Char} :
    w ∈ (segment lowercase labelChars (lowercase ++ digits)).matches' ↔
      w ∈ rolePattern.matches' ∧ w.getLast? ≠ some '-' := by
  have hlast : ∀ a ∈ lowercase ++ digits, a ∈ labelChars := fun a ha =>
    List.mem_append_left _ ha
  cases w with
  | nil =>
    have hsegment : [] ∉ (segment lowercase labelChars (lowercase ++ digits)).matches' :=
      nil_notMem_segment
    have hrole : [] ∉ rolePattern.matches' := nil_notMem_word
    simp [hsegment, hrole]
  | cons first rest =>
    rw [mem_segment_cons hlast, mem_rolePattern, and_assoc]
    refine and_congr_right fun hfirst => and_congr_right fun hrest => ?_
    constructor
    · grind [dash_notMem_last]
    · intro hdash b hb
      have hmem : b ∈ labelChars := hrest b (List.mem_of_getLast? hb)
      rcases List.mem_append.mp hmem with hmem | hmem
      all_goals grind

theorem dot_notMem_segment (w : List Char)
    (hw : w ∈ (segment lowercase labelChars (lowercase ++ digits)).matches') : '.' ∉ w := by
  rw [mem_methodSegment] at hw
  cases w with
  | nil => simp
  | cons first rest =>
    obtain ⟨hfirst, hrest⟩ := mem_rolePattern.mp hw.1
    intro hdot
    rcases List.mem_cons.mp hdot with rfl | hdot
    · exact absurd hfirst (by decide)
    · exact dot_notMem_labelChars (hrest _ hdot)

theorem mem_methodPattern {w : List Char} :
    w ∈ methodPattern.matches' ↔ 2 ≤ (w.splitOn '.').length ∧
      ∀ u ∈ w.splitOn '.', u ∈ rolePattern.matches' ∧ u.getLast? ≠ some '-' := by
  rw [methodPattern, mem_separated dot_notMem_segment]
  simp only [mem_methodSegment]

theorem methodMinLength_le_of_mem {w : List Char} (hw : w ∈ methodPattern.matches') :
    methodMinLength ≤ w.length := by
  rw [methodPattern, mem_separated_iff_exists] at hw
  obtain ⟨words, hlen, hwords, rfl⟩ := hw
  have hpos : ∀ u ∈ words, 1 ≤ u.length := by
    intro u hu
    have hrole := (mem_methodSegment.mp (hwords u hu)).1
    cases u with
    | nil => exact absurd hrole nil_notMem_word
    | cons first rest => simp
  match words, hlen with
  | u :: v :: rest, _ =>
    have hu := hpos u (by simp)
    have hv := hpos v (by simp)
    rw [intercalate_cons_eq]
    simp only [methodMinLength, List.map_cons, List.flatten_cons, List.length_append,
      List.length_cons]
    omega

end Ts

end MangoStudio.Protocol
