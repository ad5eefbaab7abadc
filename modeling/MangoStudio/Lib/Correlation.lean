import MangoStudio.Lib.Table

/-!
# Correlation tables

A table of open conversations: a key points, through its entry, to a slot of a
list, and the slot knows under which key it is held.  Pending requests by
request id and running handlers by request id are two such tables.

`Correlates` says that the two directions agree, which is all the invariant
there is.  Which slots count as held is a parameter that sees the slot's
number, so that a step that has taken a slot out of the table and not settled
it yet can leave that one slot out.

The lemmas are one for each operation of such a table: `modify`, `append`,
`insert`, `erase`, and `sweep`, the loop that goes over all entries and changes
the slot of each.  `sweep_cases` says what the loop leaves in a slot.
-/

theorem List.filter_eq_singleton {α : Type*} {list : List α} {x : α} {keep : α → Bool}
    (hnodup : list.Nodup) (hx : x ∈ list) (hkeep : ∀ y ∈ list, keep y = true ↔ y = x) :
    list.filter keep = [x] := by
  induction list <;> grind [filter_eq_nil_iff]

namespace Correlation

open List

variable {κ ι α : Type*} [DecidableEq κ]

/-- The table points to a slot under a key exactly when the slot is held under
that key. -/
def Correlates (place : ι → Nat) (held : Nat → α → Option κ) (table : Table κ ι)
    (slots : List α) : Prop :=
  ∀ key n, (table.lookup key).map place = some n ↔ slots[n]?.bind (held n) = some key

/-- The loop over all entries that changes the slot of each. -/
def sweep (place : ι → Nat) (change : κ → ι → α → α) (table : Table κ ι) (slots : List α) :
    List α :=
  table.entries.reverse.foldl
    (fun slots entry => slots.modify (place entry.2) (change entry.1 entry.2)) slots

variable {place : ι → Nat} {held : Nat → α → Option κ} {table : Table κ ι} {slots : List α}

theorem correlates_empty : Correlates place held (∅ : Table κ ι) ([] : List α) := by
  intro key n
  simp

variable {slot : α}

namespace Correlates

theorem lookup_eq_none (h : Correlates place held table slots) {key : κ}
    (hheld : ∀ n, slots[n]?.bind (held n) ≠ some key) : table.lookup key = none := by
  cases hlookup : table.lookup key with
  | none => rfl
  | some entry =>
    have hplace : (table.lookup key).map place = some (place entry) := by rw [hlookup]; rfl
    exact absurd ((h key _).mp hplace) (hheld _)

variable {change : α → α}

section

variable (h : Correlates place held table slots)

include h

theorem modify {n : Nat}
    (hchange : ∀ slot, slots[n]? = some slot → held n (change slot) = held n slot) :
    Correlates place held table (slots.modify n change) := by
  intro key m
  rw [h key m, getElem?_modify]
  grind

theorem append (hslot : held slots.length slot = none) :
    Correlates place held table (slots ++ [slot]) := by
  intro key n
  rw [h key n]
  grind

theorem insert {key : κ} {entry : ι} (hkey : key ∉ table) (hslot : slots[place entry]? = some slot)
    (hfree : held (place entry) slot = none) (hheld : held (place entry) (change slot) = some key) :
    Correlates place held (table.insert key entry) (slots.modify (place entry) change) := by
  intro other n
  rw [getElem?_modify]
  by_cases hother : other = key
  · subst hother
    rw [AList.lookup_insert]
    by_cases hn : place entry = n
    · subst hn
      simp [hslot, hheld]
    · have hnone := AList.lookup_eq_none.mpr hkey
      have hold := h other n
      rw [hnone] at hold
      simpa [hn] using hold
  · rw [AList.lookup_insert_ne hother, h other n]
    by_cases hn : place entry = n
    · subst hn
      simp [hslot, hfree, hheld, Ne.symm hother]
    · simp [hn]

end

theorem congr {held' : Nat → α → Option κ} (h : Correlates place held table slots)
    (hheld : ∀ n slot, slots[n]? = some slot → held' n slot = held n slot) :
    Correlates place held' table slots := by
  intro key n
  rw [h key n]
  cases hslot : slots[n]? with
  | none => simp
  | some slot => simp [hheld n slot hslot]

theorem erase {held' : Nat → α → Option κ} (h : Correlates place held table slots) {key : κ}
    {entry : ι} (hlookup : table.lookup key = some entry)
    (hfree : ∀ slot, held' (place entry) (change slot) = none)
    (hothers : ∀ n, n ≠ place entry → held' n = held n) :
    Correlates place held' (table.erase key) (slots.modify (place entry) change) := by
  have hown : slots[place entry]?.bind (held (place entry)) = some key :=
    (h key (place entry)).mp (by rw [hlookup]; rfl)
  intro other n
  rw [getElem?_modify]
  by_cases hother : other = key
  · subst hother
    rw [AList.lookup_erase]
    by_cases hn : place entry = n
    · subst hn
      cases hslot : slots[place entry]? with
      | none => simp
      | some slot => simp [hfree]
    · have hold := h other n
      grind
  · rw [AList.lookup_erase_ne hother, h other n]
    grind

end Correlates

theorem mem_reverse_entries {entry : Sigma fun _ : κ => ι} :
    entry ∈ table.entries.reverse ↔ table.lookup entry.1 = some entry.2 := by
  rw [mem_reverse]
  exact Table.mem_entries_iff

section

variable (h : Correlates place held table slots)

include h

theorem place_eq_iff {n : Nat} (hslot : slots[n]? = some slot) {entry : Sigma fun _ : κ => ι}
    (hentry : entry ∈ table.entries.reverse) : place entry.2 = n ↔ held n slot = some entry.1 := by
  have hcorr := h entry.1 n
  rw [mem_reverse_entries.mp hentry, hslot] at hcorr
  simpa using hcorr

theorem getElem?_sweep_of_free (change : κ → ι → α → α) {n : Nat} (hslot : slots[n]? = some slot)
    (hfree : held n slot = none) : (sweep place change table slots)[n]? = some slot := by
  have hnone : (table.entries.reverse.filter fun entry => place entry.2 = n) = [] := by
    grind [filter_eq_nil_iff, place_eq_iff]
  rw [sweep, getElem?_foldl_modify, hnone, hslot]
  rfl

theorem getElem?_sweep_of_held (change : κ → ι → α → α) {key : κ} {entry : ι}
    (hlookup : table.lookup key = some entry) (hslot : slots[place entry]? = some slot) :
    (sweep place change table slots)[place entry]? = some (change key entry slot) := by
  have hheld : held (place entry) slot = some key := by
    have hcorr := (h key (place entry)).mp (by rw [hlookup]; rfl)
    rw [hslot] at hcorr
    exact hcorr
  have hone : (table.entries.reverse.filter fun other => place other.2 = place entry) =
      [⟨key, entry⟩] := by
    apply filter_eq_singleton
    · exact nodup_reverse.mpr (List.NodupKeys.nodup table.nodupKeys)
    · exact mem_reverse_entries.mpr hlookup
    · grind [place_eq_iff, mem_reverse_entries]
  rw [sweep, getElem?_foldl_modify, hone, hslot]
  rfl

end

omit [DecidableEq κ] in
theorem length_sweep (change : κ → ι → α → α) (table : Table κ ι) (slots : List α) :
    (sweep place change table slots).length = slots.length := by
  unfold sweep
  induction table.entries.reverse generalizing slots with
  | nil => rfl
  | cons entry rest ih => rw [foldl_cons, ih, length_modify]

theorem sweep_cases (h : Correlates place held table slots) (change : κ → ι → α → α) {n : Nat}
    (hslot : slots[n]? = some slot) :
    (held n slot = none ∧ (sweep place change table slots)[n]? = some slot) ∨
      ∃ key entry, held n slot = some key ∧ table.lookup key = some entry ∧ place entry = n ∧
        (sweep place change table slots)[n]? = some (change key entry slot) := by
  cases hheld : held n slot with
  | none => exact .inl ⟨rfl, getElem?_sweep_of_free h change hslot hheld⟩
  | some key =>
    obtain ⟨entry, hlookup, hplace⟩ : ∃ entry, table.lookup key = some entry ∧
        place entry = n := by
      have hcorr := (h key n).mpr (by rw [hslot]; exact hheld)
      simpa using hcorr
    subst hplace
    exact .inr ⟨key, entry, rfl, hlookup, rfl, getElem?_sweep_of_held h change hlookup hslot⟩

theorem Correlates.clear (h : Correlates place held table slots) {change : κ → ι → α → α}
    (hfree : ∀ n key entry slot, held n (change key entry slot) = none) :
    Correlates place held (∅ : Table κ ι) (sweep place change table slots) := by
  intro key n
  simp only [AList.lookup_empty, Option.map_none, reduceCtorEq, false_iff]
  cases hslot : slots[n]? with
  | none =>
    have hlength : slots.length ≤ n := getElem?_eq_none_iff.mp hslot
    rw [getElem?_eq_none (by rw [length_sweep]; exact hlength)]
    simp
  | some slot =>
    rcases sweep_cases h change hslot with ⟨hheld, hsweep⟩ | ⟨own, entry, -, -, -, hsweep⟩
    · rw [hsweep]
      simp [hheld]
    · rw [hsweep]
      simp [hfree]

end Correlation
