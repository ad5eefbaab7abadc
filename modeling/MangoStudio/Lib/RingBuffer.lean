import Mathlib.Data.List.Basic

/-!
# A bounded queue that discards its oldest items

A queue of fixed capacity.  What does not fit pushes out the items at the front,
and the queue counts what it has lost since it was asked last.

A push loses a prefix of what was there and what came, and counts it
(`push_spec`); what is kept is the longest suffix that fits (`push_items`).
-/

/-- A bounded queue, with the count of lost items. -/
structure RingBuffer (α : Type) where
  items : List α
  capacity : Nat
  dropped : Nat
  positive : 0 < capacity
  fits : items.length ≤ capacity

namespace RingBuffer

open List

variable {α : Type}

def empty (capacity : Nat) (positive : 0 < capacity) : RingBuffer α :=
  ⟨[], capacity, 0, positive, Nat.zero_le _⟩

/-- The longest suffix of at most `capacity` items. -/
def suffix (capacity : Nat) (items : List α) : List α :=
  items.drop (items.length - capacity)

section

variable (capacity : Nat) (items : List α)

theorem length_suffix_le : (suffix capacity items).length ≤ capacity := by
  rw [suffix, length_drop]
  omega

theorem suffix_isSuffix : suffix capacity items <:+ items :=
  drop_suffix _ _

theorem length_suffix : (suffix capacity items).length = min capacity items.length := by
  rw [suffix, length_drop]
  omega

end

theorem suffix_append (capacity : Nat) (first second : List α) :
    suffix capacity (suffix capacity first ++ second) = suffix capacity (first ++ second) := by
  simp only [suffix, length_append, length_drop]
  rcases Nat.le_total first.length capacity with hle | hge
  · rw [Nat.sub_eq_zero_of_le hle, drop_zero, Nat.sub_zero]
  · rw [← drop_append_of_le_length (by omega), drop_drop]
    congr 1
    omega

/-- Appends items and counts those that are pushed out at the front. -/
def push (ring : RingBuffer α) (new : List α) : RingBuffer α :=
  if new = [] then ring
  else if hlarge : ring.capacity ≤ new.length then
    { ring with
      items := suffix ring.capacity new
      dropped := ring.dropped + (ring.items.length + new.length - ring.capacity)
      fits := length_suffix_le ring.capacity new }
  else
    { ring with
      items := ring.items.drop (ring.items.length + new.length - ring.capacity) ++ new
      dropped := ring.dropped + (ring.items.length + new.length - ring.capacity)
      fits := by
        have := ring.fits
        rw [List.length_append, List.length_drop]
        omega }

/-- Removes up to `count` items from the front. -/
def take (ring : RingBuffer α) (count : Nat) : List α × RingBuffer α :=
  (ring.items.take count,
    { ring with
      items := ring.items.drop count
      fits := by
        have := ring.fits
        rw [List.length_drop]
        omega })

/-- Takes the count of lost items. -/
def takeDropped (ring : RingBuffer α) : Nat × RingBuffer α :=
  (ring.dropped, { ring with dropped := 0 })

def clear (ring : RingBuffer α) : RingBuffer α :=
  { ring with items := [], dropped := 0, fits := Nat.zero_le _ }

@[simp] theorem push_capacity (ring : RingBuffer α) (new : List α) :
    (ring.push new).capacity = ring.capacity := by
  unfold push
  split_ifs <;> rfl

theorem push_items (ring : RingBuffer α) (new : List α) :
    (ring.push new).items = suffix ring.capacity (ring.items ++ new) := by
  have hfits := ring.fits
  unfold push
  split_ifs with hempty hlarge
  · subst hempty
    rw [append_nil, suffix, Nat.sub_eq_zero_of_le hfits, drop_zero]
  · show suffix ring.capacity new = suffix ring.capacity (ring.items ++ new)
    have hfront : ring.items.drop (ring.items.length + new.length - ring.capacity) = [] :=
      drop_eq_nil_of_le (by omega)
    rw [suffix, suffix, length_append, drop_append, hfront, nil_append]
    congr 1
    omega
  · rw [suffix, length_append, drop_append_of_le_length (by omega)]

theorem push_dropped (ring : RingBuffer α) (new : List α) :
    (ring.push new).dropped =
      ring.dropped + (ring.items.length + new.length - ring.capacity) := by
  have hfits := ring.fits
  unfold push
  split_ifs with hempty hlarge
  · subst hempty
    rw [length_nil]
    omega
  · rfl
  · rfl

theorem push_spec (ring : RingBuffer α) (new : List α) :
    ∃ lost, ring.items ++ new = lost ++ (ring.push new).items ∧
      (ring.push new).dropped = ring.dropped + lost.length := by
  refine ⟨(ring.items ++ new).take ((ring.items ++ new).length - ring.capacity), ?_, ?_⟩
  · rw [push_items, suffix, take_append_drop]
  · rw [push_dropped, length_take, length_append]
    omega

end RingBuffer
