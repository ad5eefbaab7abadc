import MangoStudio.Protocol.Schema

/-!
# The Rust frame validators

`crates/mango-protocol/src/validate.rs`.  Serde proves a frame's shape; this
module proves its values, with recognisers written by hand where the schema has
a pattern.

Each recogniser gets one lemma that says which schema check it is:

* `isValidMethodName_iff` and `isValidErrorCode_iff` are equalities of
  languages;
* `isValidRole_iff` is not.  The role recogniser borrows the method name's
  segment recogniser, which also refuses a trailing dash.

`validate_eq_ok` puts them together: a frame passes `validate` exactly when the
schema accepts it and it is not a hello whose role ends in a dash.
-/

namespace MangoStudio.Protocol.Rust

/-! ## Limits -/

def maxIdChars : Nat := 256
def maxNameChars : Nat := 128
def maxCodeChars : Nat := 64
def maxReasonChars : Nat := 1024

/-- The largest `usize`: the bound on a string that has none. -/
def usizeMax : Nat := 18446744073709551615

/-- The method grammar as an error message states it. -/
def methodNamePattern : String :=
  "^[a-z](?:[a-z0-9-]*[a-z0-9])?(?:\\.[a-z](?:[a-z0-9-]*[a-z0-9])?)+$"

/-! ## Validation errors -/

/-- The value that a validation error quotes.  The source renders it for a log
line: a string in its debug form and cut after 48 characters, an integer in
decimal. -/
inductive Received where
  | text (value : String)
  | integer (value : Nat)
  deriving DecidableEq, Repr

/-- A frame member that broke a rule: its dotted path, its value, and the shape
that the specification requires. -/
structure ValidationError where
  field : String
  received : Received
  expected : String
  deriving DecidableEq, Repr

/-! ## Recognisers -/

def isAsciiLowercase (c : Char) : Bool := decide ('a' ≤ c) && decide (c ≤ 'z')
def isAsciiUppercase (c : Char) : Bool := decide ('A' ≤ c) && decide (c ≤ 'Z')
def isAsciiDigit (c : Char) : Bool := decide ('0' ≤ c) && decide (c ≤ '9')

/-- Every character is a lowercase letter, a digit or a dash, the first is a
letter and the last is not a dash. -/
def isValidSegment (segment : List Char) : Bool :=
  match segment with
  | [] => false
  | first :: _ =>
    if !isAsciiLowercase first then false
    else if segment.getLast? == some '-' then false
    else segment.all fun c => isAsciiLowercase c || isAsciiDigit c || c == '-'

/-- The loop over the segments after the first, with the count so far. -/
def countSegments (count : Nat) : List (List Char) → Bool
  | [] => decide (2 ≤ count)
  | segment :: rest =>
    if !isValidSegment segment then false else countSegments (count + 1) rest

/-- The name matches the method and topic grammar. -/
def isValidMethodName (name : String) : Bool :=
  if maxNameChars < name.length then false
  else
    match name.toList.splitOn '.' with
    | [] => false
    | first :: segments => if !isValidSegment first then false else countSegments 1 segments

/-- The role is a segment of 1 to 64 characters. -/
def isValidRole (role : String) : Bool :=
  decide (1 ≤ role.length) && decide (role.length ≤ maxCodeChars) && isValidSegment role.toList

/-- The code matches `^[A-Z][A-Z0-9_]*$` and has 1 to 64 characters. -/
def isValidErrorCode (code : String) : Bool :=
  if !(decide (1 ≤ code.length) && decide (code.length ≤ maxCodeChars)) then false
  else
    match code.toList with
    | [] => false
    | first :: rest =>
      isAsciiUppercase first &&
        rest.all fun c => isAsciiUppercase c || isAsciiDigit c || c == '_'

/-! ## Checks -/

/-- Checks a string member's character count against an inclusive range.  No
string is longer than `usizeMax`, so a range that ends there is open. -/
def checkLength (field value : String) (min max : Nat) : Except ValidationError Unit :=
  if min ≤ value.length ∧ (value.length ≤ max ∨ max = usizeMax) then .ok ()
  else .error ⟨field, .text value, s!"a string of {min} to {max} characters"⟩

/-- Checks an `id` or a `streamId`. -/
def checkId (field value : String) : Except ValidationError Unit :=
  checkLength field value 1 maxIdChars

/-- Checks a `method` or a `topic`. -/
def checkMethodName (field value : String) : Except ValidationError Unit :=
  if isValidMethodName value then .ok ()
  else .error ⟨field, .text value,
    s!"at least two dot-separated lowercase segments matching {methodNamePattern}, at most {maxNameChars} characters"⟩

/-- An announced ceiling: absent, or inside its range. -/
def checkRange (field : String) (value : Option Nat) (minimum maximum : Nat) :
    Except ValidationError Unit :=
  match value with
  | none => .ok ()
  | some value =>
    if minimum ≤ value ∧ value ≤ maximum then .ok ()
    else .error ⟨field, .integer value, s!"an integer from {minimum} to {maximum}"⟩

def validateLimits (limits : Limits) : Except ValidationError Unit := do
  checkRange "hello.limits.maxFrameBytes" limits.maxFrameBytes minAnnouncedFrameBytes
    maxAnnouncedFrameBytes
  checkRange "hello.limits.maxInFlight" limits.maxInFlight minAnnouncedInFlight
    maxAnnouncedInFlight

def checkMajor (major : Nat) : Except ValidationError Unit :=
  if major < 1 then
    .error ⟨"hello.protocol.major", .integer major, "an integer of at least 1"⟩
  else .ok ()

def checkRole (role : String) : Except ValidationError Unit :=
  if isValidRole role then .ok ()
  else .error ⟨"hello.peer.role", .text role,
    s!"a lowercase label matching ^[a-z][a-z0-9-]*$, at most {maxCodeChars} characters"⟩

def validateHello (greeting : Hello) : Except ValidationError Unit := do
  checkMajor greeting.protocol.major
  checkLength "hello.peer.name" greeting.peer.name 1 maxNameChars
  checkLength "hello.peer.version" greeting.peer.version 1 maxNameChars
  checkRole greeting.peer.role
  match greeting.limits with
  | some limits => validateLimits limits
  | none => .ok ()

def validateErrorPayload (field : String) (payload : ErrorPayload) :
    Except ValidationError Unit :=
  if isValidErrorCode payload.code then
    checkLength (field ++ ".message") payload.message 1 usizeMax
  else .error ⟨field ++ ".code", .text payload.code,
    s!"a code matching ^[A-Z][A-Z0-9_]*$, 1 to {maxCodeChars} characters"⟩

def validateRequest (request : Request) : Except ValidationError Unit := do
  checkId "req.id" request.id
  checkMethodName "req.method" request.method

def validateResponse (response : Response) : Except ValidationError Unit :=
  checkId "res.id" response.id

def validateEvent (event : Event) : Except ValidationError Unit := do
  checkMethodName "evt.topic" event.topic
  match event.streamId with
  | some streamId => checkId "evt.streamId" streamId
  | none => .ok ()

def validateClose (farewell : Close) : Except ValidationError Unit :=
  if minCloseCode ≤ farewell.code ∧ farewell.code ≤ maxCloseCode then
    match farewell.reason with
    | some reason => checkLength "close.reason" reason 0 maxReasonChars
    | none => .ok ()
  else .error ⟨"close.code", .integer farewell.code,
    s!"an integer from {minCloseCode} to {maxCloseCode}"⟩

/-- Applies every length, grammar and range rule to a frame. -/
def validate : Frame → Except ValidationError Unit
  | .hello greeting => validateHello greeting
  | .req request => validateRequest request
  | .res response => validateResponse response
  | .err error => do
    checkId "err.id" error.id
    validateErrorPayload "err.error" error.error
  | .evt event => validateEvent event
  | .cancel target => checkId "cancel.id" target.id
  | .ping => .ok ()
  | .pong => .ok ()
  | .close farewell => validateClose farewell

/-! ## The recognisers and the patterns -/

open Ts

theorem isAsciiLowercase_iff {c : Char} : isAsciiLowercase c = true ↔ c ∈ lowercase := by
  rw [mem_lowercase]
  simp [isAsciiLowercase]

theorem isAsciiUppercase_iff {c : Char} : isAsciiUppercase c = true ↔ c ∈ uppercase := by
  rw [mem_uppercase]
  simp [isAsciiUppercase]

theorem isAsciiDigit_iff {c : Char} : isAsciiDigit c = true ↔ c ∈ digits := by
  rw [mem_digits]
  simp [isAsciiDigit]

theorem isValidSegment_iff {w : List Char} :
    isValidSegment w = true ↔ w ∈ rolePattern.matches' ∧ w.getLast? ≠ some '-' := by
  cases w with
  | nil =>
    have hrole : [] ∉ rolePattern.matches' := Pattern.nil_notMem_word
    simp [isValidSegment, hrole]
  | cons first rest =>
    grind [labelChars, isAsciiLowercase_iff, isAsciiDigit_iff, mem_rolePattern, isValidSegment]

theorem countSegments_iff {count : Nat} {segments : List (List Char)} :
    countSegments count segments = true ↔
      2 ≤ count + segments.length ∧ ∀ u ∈ segments, isValidSegment u = true := by
  induction segments generalizing count <;> grind [countSegments]

theorem isValidMethodName_iff {name : String} :
    isValidMethodName name = true ↔ methodSchema name = true := by
  have hpattern : name.toList ∈ methodPattern.matches' ↔
      2 ≤ (name.toList.splitOn '.').length ∧
        ∀ u ∈ name.toList.splitOn '.', isValidSegment u = true := by
    rw [mem_methodPattern]
    simp [isValidSegment_iff]
  have hschema : methodSchema name = true ↔
      name.length ≤ methodMaxLength ∧ name.toList ∈ methodPattern.matches' := by
    rw [methodSchema, stringSchema_eq_true]
    grind [String.length_toList, methodMinLength_le_of_mem]
  rw [hschema, hpattern, isValidMethodName]
  cases hsplit : name.toList.splitOn '.' with
  | nil => exact absurd hsplit (List.splitOn_ne_nil _ _)
  | cons first segments =>
    by_cases hlong : maxNameChars < name.length
    · rw [if_pos hlong]
      have : ¬ name.length ≤ methodMaxLength := by
        rw [methodMaxLength]
        rw [maxNameChars] at hlong
        omega
      simp [this]
    · have hshort : name.length ≤ methodMaxLength := by
        rw [methodMaxLength]
        rw [maxNameChars] at hlong
        omega
      grind [countSegments_iff]

theorem isValidErrorCode_iff {code : String} :
    isValidErrorCode code = true ↔ errorCodeSchema code = true := by
  rw [errorCodeSchema, stringSchema_eq_true, isValidErrorCode]
  have hmax : errorCodeMaxLength = maxCodeChars := rfl
  simp only [Option.some.injEq, forall_eq', hmax]
  cases hchars : code.toList with
  | nil =>
    have hpattern : [] ∉ errorCodePattern.matches' := Pattern.nil_notMem_word
    simp [hpattern]
  | cons first rest =>
    rw [mem_errorCodePattern, ← isAsciiUppercase_iff]
    by_cases hlength : 1 ≤ code.length ∧ code.length ≤ maxCodeChars
    · simp [hlength.1, hlength.2, isAsciiUppercase_iff, isAsciiDigit_iff, or_assoc]
    · grind

variable {role : String}

theorem isValidRole_iff :
    isValidRole role = true ↔
      roleSchema role = true ∧ role.toList.getLast? ≠ some '-' := by
  rw [roleSchema, stringSchema_eq_true, isValidRole]
  have hmax : roleMaxLength = maxCodeChars := rfl
  grind [isValidSegment_iff]

/-! ## Acceptance -/

theorem bind_eq_ok {first second : Except ValidationError Unit} :
    (first >>= fun _ => second) = .ok () ↔ first = .ok () ∧ second = .ok () := by
  cases first with
  | error | ok => simp [bind, Except.bind]

variable {field value : String}

theorem checkLength_eq_ok {min max : Nat} (hmax : max ≠ usizeMax) :
    checkLength field value min max = .ok () ↔
      stringSchema min (some max) none value = true := by
  rw [stringSchema_eq_true, checkLength]
  split_ifs with h <;> simp_all

theorem checkLength_usizeMax_eq_ok {min : Nat} :
    checkLength field value min usizeMax = .ok () ↔
      stringSchema min none none value = true := by
  rw [stringSchema_eq_true, checkLength]
  split_ifs with h <;> simp_all

theorem checkId_eq_ok :
    checkId field value = .ok () ↔ idSchema value = true :=
  checkLength_eq_ok (by decide)

theorem checkMethodName_eq_ok :
    checkMethodName field value = .ok () ↔ methodSchema value = true := by
  rw [checkMethodName, ← isValidMethodName_iff]
  split_ifs with h <;> simp [h]

theorem checkRange_eq_ok {field : String} {value : Option Nat} {minimum maximum : Nat} :
    checkRange field value minimum maximum = .ok () ↔
      optionalSchema (integerSchema minimum (some maximum)) value = true := by
  cases value <;> grind [checkRange, optionalSchema, integerSchema_eq_true]

theorem checkMajor_eq_ok {major : Nat} :
    checkMajor major = .ok () ↔ integerSchema 1 none major = true := by
  rw [checkMajor, integerSchema_eq_true]
  split_ifs with h
  · simp
    omega
  · simp
    omega

theorem checkRole_eq_ok :
    checkRole role = .ok () ↔ roleSchema role = true ∧ role.toList.getLast? ≠ some '-' := by
  rw [checkRole, ← isValidRole_iff]
  split_ifs with h <;> simp [h]

theorem validateLimits_eq_ok {limits : Limits} :
    validateLimits limits = .ok () ↔ limitsSchema limits = true := by
  simp [validateLimits, bind_eq_ok, checkRange_eq_ok, limitsSchema]

variable {greeting : Hello}

theorem validateHello_eq_ok :
    validateHello greeting = .ok () ↔
      helloFrameSchema greeting = true ∧ greeting.peer.role.toList.getLast? ≠ some '-' := by
  have hlimits : (match greeting.limits with
      | some limits => validateLimits limits
      | none => .ok ()) = .ok () ↔ optionalSchema limitsSchema greeting.limits = true := by
    grind [optionalSchema, validateLimits_eq_ok]
  have hname := @checkLength_eq_ok "hello.peer.name" greeting.peer.name 1 maxNameChars
    (by decide)
  have hversion := @checkLength_eq_ok "hello.peer.version" greeting.peer.version 1 maxNameChars
    (by decide)
  have hbound : peerFieldMaxLength = maxNameChars := rfl
  have hminor : integerSchema 0 none greeting.protocol.minor = true :=
    integerSchema_eq_true.mpr ⟨Nat.zero_le _, by simp⟩
  simp only [validateHello, bind_eq_ok, checkMajor_eq_ok, hname, hversion, checkRole_eq_ok,
    hlimits, helloFrameSchema, protocolVersionSchema, peerInfoSchema, hbound, hminor,
    Bool.and_eq_true, Bool.and_true]
  grind

theorem validateErrorPayload_eq_ok {field : String} {payload : ErrorPayload} :
    validateErrorPayload field payload = .ok () ↔ errorPayloadSchema payload = true := by
  grind [isValidErrorCode_iff, checkLength_usizeMax_eq_ok, validateErrorPayload, errorPayloadSchema]

theorem validateEvent_eq_ok {event : Event} :
    validateEvent event = .ok () ↔ eventFrameSchema event = true := by
  have hseq : integerSchema 0 none event.seq = true :=
    integerSchema_eq_true.mpr ⟨Nat.zero_le _, by simp⟩
  have htopic : topicSchema event.topic = methodSchema event.topic := rfl
  rw [validateEvent, bind_eq_ok, checkMethodName_eq_ok, eventFrameSchema, hseq, htopic,
    Bool.and_true, Bool.and_eq_true]
  grind [optionalSchema, checkId_eq_ok]

theorem validateClose_eq_ok {farewell : Close} :
    validateClose farewell = .ok () ↔ closeFrameSchema farewell = true := by
  have hcode : closeCodeSchema farewell.code = true ↔
      minCloseCode ≤ farewell.code ∧ farewell.code ≤ maxCloseCode := by
    rw [closeCodeSchema, integerSchema_eq_true]
    simp
  rw [validateClose, closeFrameSchema, Bool.and_eq_true, hcode]
  split_ifs with h
  · cases farewell.reason with
    | none => simp [h, optionalSchema]
    | some reason =>
      simp only [h, true_and, optionalSchema, Option.all_some]
      exact checkLength_eq_ok (by decide)
  · simp [h]

/-- A hello whose role ends in a dash: the one place where the recogniser is
stricter than the pattern it stands for. -/
def RoleEndsInDash : Frame → Prop
  | .hello greeting => greeting.peer.role.toList.getLast? = some '-'
  | _ => False

instance (frame : Frame) : Decidable (RoleEndsInDash frame) :=
  match frame with
  | .hello greeting =>
    inferInstanceAs (Decidable (greeting.peer.role.toList.getLast? = some '-'))
  | .req _ | .res _ | .err _ | .evt _ | .cancel _ | .ping | .pong | .close _ => .isFalse id

theorem validate_eq_ok {frame : Frame} :
    validate frame = .ok () ↔ isFrame frame = true ∧ ¬ RoleEndsInDash frame := by
  cases frame with
  | hello greeting => exact validateHello_eq_ok
  | req request =>
    simp only [validate, validateRequest, bind_eq_ok, checkId_eq_ok, checkMethodName_eq_ok,
      isFrame, Bool.and_eq_true, RoleEndsInDash, not_false_eq_true, and_true]
  | res response =>
    simp [validate, validateResponse, checkId_eq_ok, isFrame, RoleEndsInDash]
  | err error =>
    simp [validate, bind_eq_ok, checkId_eq_ok, validateErrorPayload_eq_ok, isFrame, RoleEndsInDash]
  | evt event =>
    simp [validate, validateEvent_eq_ok, isFrame, RoleEndsInDash]
  | cancel target =>
    simp [validate, checkId_eq_ok, isFrame, RoleEndsInDash]
  | ping | pong => simp [validate, isFrame, RoleEndsInDash]
  | close farewell =>
    simp [validate, validateClose_eq_ok, isFrame, RoleEndsInDash]

/-- A hello with every member inside its bounds and a role that is a label
(`^[a-z][a-z0-9-]*$`, at most 64 characters) ending in a dash. -/
structure DashRoleHello (greeting : Hello) : Prop where
  major : 1 ≤ greeting.protocol.major
  name : 1 ≤ greeting.peer.name.length ∧ greeting.peer.name.length ≤ 128
  version : 1 ≤ greeting.peer.version.length ∧ greeting.peer.version.length ≤ 128
  roleLength : greeting.peer.role.length ≤ 64
  roleLabel : greeting.peer.role.toList ∈ rolePattern.matches'
  roleDash : greeting.peer.role.toList.getLast? = some '-'
  frameBytes : ∀ limits, greeting.limits = some limits → ∀ bytes,
    limits.maxFrameBytes = some bytes → 4096 ≤ bytes ∧ bytes ≤ 2147483647
  inFlight : ∀ limits, greeting.limits = some limits → ∀ count,
    limits.maxInFlight = some count → 1 ≤ count ∧ count ≤ 2147483647

theorem limitsSchema_eq_true {limits : Limits} :
    limitsSchema limits = true ↔
      (∀ bytes, limits.maxFrameBytes = some bytes → 4096 ≤ bytes ∧ bytes ≤ 2147483647) ∧
        ∀ count, limits.maxInFlight = some count → 1 ≤ count ∧ count ≤ 2147483647 := by
  simp only [limitsSchema, optionalSchema, Bool.and_eq_true, Option.all_eq_true,
    integerSchema_eq_true, Option.some.injEq, forall_eq']
  exact Iff.rfl

theorem dashRoleHello_iff :
    DashRoleHello greeting ↔
      helloFrameSchema greeting = true ∧ greeting.peer.role.toList.getLast? = some '-' := by
  simp only [helloFrameSchema, protocolVersionSchema, peerInfoSchema, roleSchema,
    optionalSchema, Bool.and_eq_true, Option.all_eq_true, limitsSchema_eq_true,
    stringSchema_eq_true, integerSchema_eq_true, Option.some.injEq, forall_eq', reduceCtorEq,
    false_implies, implies_true, and_true, Nat.zero_le]
  constructor
  · intro h
    have hpos : 1 ≤ greeting.peer.role.length := by
      rw [← String.length_toList]
      exact List.length_pos_of_mem (List.mem_of_getLast? h.roleDash)
    exact ⟨⟨⟨h.major, ⟨h.name, h.version⟩, hpos, h.roleLength, h.roleLabel⟩,
      fun limits hlimits => ⟨h.frameBytes limits hlimits, h.inFlight limits hlimits⟩⟩, h.roleDash⟩
  · rintro ⟨⟨⟨hmajor, ⟨hname, hversion⟩, -, hlength, hlabel⟩, hlimits⟩, hdash⟩
    exact ⟨hmajor, hname, hversion, hlength, hlabel, hdash,
      fun limits h => (hlimits limits h).1, fun limits h => (hlimits limits h).2⟩

/-- `validate` and the schema give one verdict on a frame exactly when it is
not an otherwise valid hello whose role ends in a dash. -/
theorem validate_agrees_schema_iff (frame : Frame) :
    (validate frame = .ok () ↔ isFrame frame = true) ↔
      ¬ ∃ greeting, frame = .hello greeting ∧ DashRoleHello greeting := by
  have hdash : (∃ greeting, frame = .hello greeting ∧ DashRoleHello greeting) ↔
      isFrame frame = true ∧ RoleEndsInDash frame := by
    simp only [dashRoleHello_iff]
    cases frame <;> simp [RoleEndsInDash, isFrame]
  rw [hdash, validate_eq_ok, and_iff_left_iff_imp, not_and]

/-- A hello with role `hub-` matches the schema's pattern and is refused by
`validate`. -/
theorem validate_disagrees_schema_dash_role :
    ¬ (validate (.hello ⟨⟨1, 0⟩, ⟨"hub", "1.0.0", "hub-"⟩, [], none⟩) = .ok () ↔
      isFrame (.hello ⟨⟨1, 0⟩, ⟨"hub", "1.0.0", "hub-"⟩, [], none⟩) = true) := by
  have haccepts : isFrame (.hello ⟨⟨1, 0⟩, ⟨"hub", "1.0.0", "hub-"⟩, [], none⟩) = true := by
    decide
  have hrefuses : validate (.hello ⟨⟨1, 0⟩, ⟨"hub", "1.0.0", "hub-"⟩, [], none⟩) =
      .error ⟨"hello.peer.role", .text "hub-",
        "a lowercase label matching ^[a-z][a-z0-9-]*$, at most 64 characters"⟩ := by
    decide
  intro h
  have hok := h.mpr haccepts
  rw [hrefuses] at hok
  cases hok

end MangoStudio.Protocol.Rust
