import Mathlib

/-!
# A numbered run of pieces, put together again

A message is sent as a run of pieces.  Each piece carries its index, the number
of pieces in its run, and a payload.  A receiver takes the pieces of one run in
order, and bounds what a sender can make it hold: a whole is at most `limit`
long, a run has at most `maxCount` pieces, and every piece but the last carries
at least `floor` symbols.

* `OpenRun` is a run that has begun and not ended.  Its fields are the bounds,
  so a receiver that holds one is within them by construction.
* `step` takes a piece.  It refuses (`none`), holds on, or gives the whole.
* `steps_pieces` is the round trip: the pieces of a whole, fed to an idle
  receiver, give that whole at the last one and nothing before.
* `slices` cuts a whole into pieces of one capacity.  `flatten_slices` and the
  lemmas after it say that they are the pieces a receiver wants.
-/

namespace Assembly

open List

variable {β : Type*}

/-- What a receiver lets a sender do. -/
structure Bounds where
  limit : Nat
  floor : Nat
  maxCount : Nat

/-- One piece of a run. -/
structure Piece (β : Type*) where
  index : Nat
  count : Nat
  payload : List β

/-- A run that has begun and not ended: `next` pieces have come. -/
structure OpenRun (bounds : Bounds) (β : Type*) where
  count : Nat
  next : Nat
  payload : List β
  next_pos : 0 < next
  next_lt : next < count
  count_le : count ≤ bounds.maxCount
  floor_le : bounds.floor * next ≤ payload.length
  length_le : payload.length ≤ bounds.limit

variable {bounds : Bounds}

/-- The index a receiver expects: the first when it is idle. -/
def expected : Option (OpenRun bounds β) → Nat
  | none => 0
  | some run => run.next

/-- What has come of the run so far. -/
def held : Option (OpenRun bounds β) → List β
  | none => []
  | some run => run.payload

/-- The piece may come next. -/
structure Fits (state : Option (OpenRun bounds β)) (piece : Piece β) : Prop where
  count_pos : 1 ≤ piece.count
  count_le : piece.count ≤ bounds.maxCount
  index_eq : piece.index = expected state
  count_eq : ∀ run, state = some run → piece.count = run.count
  payload_ne : piece.payload ≠ []
  floor_le : piece.index + 1 = piece.count ∨ bounds.floor ≤ piece.payload.length
  length_le : (held state).length + piece.payload.length ≤ bounds.limit

instance (state : Option (OpenRun bounds β)) (piece : Piece β) : Decidable (Fits state piece) :=
  decidable_of_iff
    (1 ≤ piece.count ∧ piece.count ≤ bounds.maxCount ∧ piece.index = expected state ∧
      (state.all fun run => decide (piece.count = run.count)) = true ∧
      piece.payload.isEmpty = false ∧
      (piece.index + 1 = piece.count ∨ bounds.floor ≤ piece.payload.length) ∧
      (held state).length + piece.payload.length ≤ bounds.limit)
    ⟨fun ⟨h₁, h₂, h₃, h₄, h₅, h₆, h₇⟩ =>
      ⟨h₁, h₂, h₃, fun run hrun => by simpa [hrun] using h₄, by simpa using h₅, h₆, h₇⟩,
    fun h => ⟨h.count_pos, h.count_le, h.index_eq,
      (Option.all_eq_true _ _).mpr fun run hrun => decide_eq_true (h.count_eq run hrun),
      by simpa using h.payload_ne, h.floor_le, h.length_le⟩⟩

variable {state : Option (OpenRun bounds β)} {piece : Piece β}

theorem Fits.index_lt (h : Fits state piece) : piece.index < piece.count := by
  cases state with
  | none =>
    rw [h.index_eq]
    exact h.count_pos
  | some run =>
    rw [h.index_eq, h.count_eq run rfl]
    exact run.next_lt

theorem floor_mul_expected_le (state : Option (OpenRun bounds β)) :
    bounds.floor * expected state ≤ (held state).length := by
  cases state with
  | none => simp [expected, held]
  | some run => exact run.floor_le

/-- The run after a piece that fits and is not its last. -/
def extend (state : Option (OpenRun bounds β)) (piece : Piece β) (h : Fits state piece)
    (hmore : piece.index + 1 ≠ piece.count) : OpenRun bounds β where
  count := piece.count
  next := piece.index + 1
  payload := held state ++ piece.payload
  next_pos := Nat.succ_pos _
  next_lt := Nat.lt_of_le_of_ne h.index_lt hmore
  count_le := h.count_le
  floor_le := by
    have hfloor := h.floor_le.resolve_left hmore
    have hheld := floor_mul_expected_le state
    rw [h.index_eq, Nat.mul_add, Nat.mul_one, List.length_append]
    omega
  length_le := by
    rw [List.length_append]
    exact h.length_le

theorem held_extend (h : Fits state piece) (hmore : piece.index + 1 ≠ piece.count) :
    held (some (extend state piece h hmore)) = held state ++ piece.payload := rfl

theorem expected_extend (h : Fits state piece) (hmore : piece.index + 1 ≠ piece.count) :
    expected (some (extend state piece h hmore)) = piece.index + 1 := rfl

/-- Takes a piece: `none` is a refusal, and the second part is the whole once
it is there. -/
def step (state : Option (OpenRun bounds β)) (piece : Piece β) :
    Option (Option (OpenRun bounds β) × Option (List β)) :=
  if h : Fits state piece then
    if hmore : piece.index + 1 = piece.count then
      some (none, some (held state ++ piece.payload))
    else some (some (extend state piece h hmore), none)
  else none

theorem step_of_not_fits (h : ¬ Fits state piece) : step state piece = none :=
  dif_neg h

theorem step_last (h : Fits state piece) (hlast : piece.index + 1 = piece.count) :
    step state piece = some (none, some (held state ++ piece.payload)) := by
  rw [step, dif_pos h, dif_pos hlast]

theorem step_more (h : Fits state piece) (hmore : piece.index + 1 ≠ piece.count) :
    step state piece = some (some (extend state piece h hmore), none) := by
  rw [step, dif_pos h, dif_neg hmore]

/-! ## A whole run -/

/-- The pieces of a run from `start` on. -/
def piecesFrom (count : Nat) : Nat → List (List β) → List (Piece β)
  | _, [] => []
  | start, payload :: rest => ⟨start, count, payload⟩ :: piecesFrom count (start + 1) rest

/-- Takes pieces in order and collects what comes of each. -/
def steps (state : Option (OpenRun bounds β)) :
    List (Piece β) → Option (Option (OpenRun bounds β) × List (Option (List β)))
  | [] => some (state, [])
  | piece :: rest =>
    match step state piece with
    | none => none
    | some (next, whole) => (steps next rest).map fun result => (result.1, whole :: result.2)

theorem steps_piecesFrom (state : Option (OpenRun bounds β)) (payloads : List (List β))
    (hpayloads : payloads ≠ []) {count : Nat}
    (hcount : expected state + payloads.length = count) (hmax : count ≤ bounds.maxCount)
    (hsame : ∀ run, state = some run → count = run.count)
    (hne : ∀ payload ∈ payloads, payload ≠ [])
    (hfloor : ∀ payload ∈ payloads.dropLast, bounds.floor ≤ payload.length)
    (hlimit : (held state).length + payloads.flatten.length ≤ bounds.limit) :
    steps state (piecesFrom count (expected state) payloads) =
      some (none, replicate (payloads.length - 1) none ++
        [some (held state ++ payloads.flatten)]) := by
  induction payloads generalizing state with
  | nil => exact absurd rfl hpayloads
  | cons payload rest ih =>
    rw [flatten_cons, length_append] at hlimit
    rw [length_cons] at hcount
    have hpos : 1 ≤ count := by omega
    have hlen : (held state).length + payload.length ≤ bounds.limit := by omega
    have hfits (hlast : expected state + 1 = count ∨ bounds.floor ≤ payload.length) :
        Fits state ⟨expected state, count, payload⟩ :=
      ⟨hpos, hmax, rfl, hsame, hne payload mem_cons_self, hlast, hlen⟩
    cases rest with
    | nil =>
      grind [piecesFrom, steps, step_last]
    | cons second more =>
      have hmore : expected state + 1 ≠ count := by
        rw [length_cons] at hcount
        omega
      have hfit := hfits (Or.inr (hfloor payload (by simp)))
      have hheld : held (some (extend state ⟨expected state, count, payload⟩ hfit hmore)) =
          held state ++ payload := held_extend hfit hmore
      have hnext : expected (some (extend state ⟨expected state, count, payload⟩ hfit hmore)) =
          expected state + 1 := expected_extend hfit hmore
      have hrest := ih (some (extend state ⟨expected state, count, payload⟩ hfit hmore))
        (by simp)
        (by
          rw [hnext]
          omega)
        (by
          intro run hrun
          cases hrun
          rfl)
        (fun p hp => hne p (mem_cons_of_mem _ hp))
        (fun p hp => hfloor p (by
          rw [dropLast_cons_of_ne_nil (by simp)]
          exact mem_cons_of_mem _ hp))
        (by
          rw [hheld, length_append]
          omega)
      rw [hnext, hheld] at hrest
      rw [piecesFrom, steps, step_more hfit hmore]
      simp only [hrest, Option.map_some, append_assoc, flatten_cons]
      rfl

theorem steps_pieces (payloads : List (List β)) (hpayloads : payloads ≠ [])
    (hmax : payloads.length ≤ bounds.maxCount) (hne : ∀ payload ∈ payloads, payload ≠ [])
    (hfloor : ∀ payload ∈ payloads.dropLast, bounds.floor ≤ payload.length)
    (hlimit : payloads.flatten.length ≤ bounds.limit) :
    steps (none : Option (OpenRun bounds β)) (piecesFrom payloads.length 0 payloads) =
      some (none, replicate (payloads.length - 1) none ++ [some payloads.flatten]) := by
  have h := steps_piecesFrom (none : Option (OpenRun bounds β)) payloads hpayloads
    (Nat.zero_add _) hmax (by simp) hne hfloor (by simpa [held] using hlimit)
  simpa only [expected, held, nil_append] using h

/-! ## Cutting a whole into pieces -/

/-- The least number of pieces of one capacity, rounded up. -/
def ceilDiv (length capacity : Nat) : Nat := (length + capacity - 1) / capacity

theorem le_ceilDiv_mul {capacity : Nat} (length : Nat) (hcapacity : 0 < capacity) :
    length ≤ ceilDiv length capacity * capacity := by
  have hdiv := Nat.div_add_mod (length + capacity - 1) capacity
  have hmod := Nat.mod_lt (length + capacity - 1) hcapacity
  rw [Nat.mul_comm] at hdiv
  rw [ceilDiv]
  omega

theorem mul_lt_of_lt_ceilDiv {capacity length index : Nat} (hcapacity : 0 < capacity)
    (hlength : 0 < length) (hindex : index < ceilDiv length capacity) :
    index * capacity < length := by
  have hdiv := Nat.div_add_mod (length + capacity - 1) capacity
  rw [Nat.mul_comm] at hdiv
  have hle : (index + 1) * capacity ≤ ceilDiv length capacity * capacity :=
    Nat.mul_le_mul_right _ hindex
  rw [Nat.add_mul, Nat.one_mul, ceilDiv] at hle
  omega

theorem ceilDiv_pos {length capacity : Nat} (hcapacity : 0 < capacity) (hlength : 0 < length) :
    0 < ceilDiv length capacity := by
  rw [ceilDiv]
  exact Nat.div_pos (by omega) hcapacity

theorem ceilDiv_le_ceilDiv {length length' capacity capacity' : Nat} (hcapacity : 0 < capacity)
    (hlength : length ≤ length') (hle : capacity ≤ capacity') :
    ceilDiv length capacity' ≤ ceilDiv length' capacity := by
  have hbound : length ≤ ceilDiv length' capacity * capacity' :=
    le_trans hlength (le_trans (le_ceilDiv_mul length' hcapacity)
      (Nat.mul_le_mul_left _ hle))
  rw [ceilDiv, Nat.div_le_iff_le_mul_add_pred (by omega)]
  rw [Nat.mul_comm] at hbound
  omega

/-- The slices of a whole, each but the last filled to capacity. -/
def slices (capacity count : Nat) (whole : List β) : List (List β) :=
  (List.range count).map fun index =>
    (whole.take (min (index * capacity + capacity) whole.length)).drop (index * capacity)

@[simp] theorem length_slices (capacity count : Nat) (whole : List β) :
    (slices capacity count whole).length = count := by
  rw [slices, length_map, length_range]

theorem flatten_slices_eq_take (capacity count : Nat) (whole : List β) :
    (slices capacity count whole).flatten = whole.take (count * capacity) := by
  induction count with
  | zero => simp [slices]
  | succ count ih =>
    rw [slices] at ih
    have hprefix : whole.take (count * capacity) =
        (whole.take (count * capacity + capacity)).take (count * capacity) := by
      rw [take_take, Nat.min_eq_left (Nat.le_add_right _ _)]
    have hend : whole.take (min (count * capacity + capacity) whole.length) =
        whole.take (count * capacity + capacity) := by
      rw [← take_take, take_length]
    rw [slices, range_succ, map_append, flatten_append, ih, map_singleton,
      flatten_singleton, hend, hprefix, take_append_drop, Nat.succ_mul]

variable {capacity count : Nat} {whole : List β}

theorem flatten_slices (hcount : whole.length ≤ count * capacity) :
    (slices capacity count whole).flatten = whole := by
  rw [flatten_slices_eq_take, take_of_length_le hcount]

theorem length_slice (capacity index : Nat) (whole : List β) :
    ((whole.take (min (index * capacity + capacity) whole.length)).drop
      (index * capacity)).length =
      min (index * capacity + capacity) whole.length - index * capacity := by
  rw [length_drop, length_take]
  omega

theorem slices_ne_nil (hcapacity : 0 < capacity)
    (hinside : ∀ index < count, index * capacity < whole.length) :
    ∀ payload ∈ slices capacity count whole, payload ≠ [] := by
  intro payload hpayload
  obtain ⟨index, hindex, rfl⟩ := mem_map.mp hpayload
  have hlt := hinside index (mem_range.mp hindex)
  rw [← length_pos_iff, length_slice]
  omega

theorem capacity_le_of_mem_dropLast_slices
    (hinside : ∀ index < count, index * capacity < whole.length) :
    ∀ payload ∈ (slices capacity count whole).dropLast, capacity ≤ payload.length := by
  intro payload hpayload
  cases count <;> grind [slices, range_succ]

end Assembly
