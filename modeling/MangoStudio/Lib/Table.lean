import Mathlib.Data.List.AList

/-!
# Tables

A finite table is Mathlib's `AList`, an entry list in which no key occurs
twice.  What is added here is its size, and what a loop over the entries does
to a second list that the entries point into.

A loop `for (key, entry) of table: list[place entry] := change entry` is a
left fold of `List.modify`.  `getElem?_foldl_modify` reads one place of its
result: the changes of the entries that point there, in order, and no others.
-/

/-- A finite table with values of one type. -/
abbrev Table (κ β : Type*) := AList fun _ : κ => β

namespace Table

open AList

variable {κ β : Type*} [DecidableEq κ]

/-- How many keys the table holds. -/
def size (table : Table κ β) : Nat := table.keys.length

variable {table : Table κ β}

theorem erase_of_notMem {key : κ} (hmem : key ∉ table) :
    table.erase key = table := by
  apply ext
  exact List.kerase_of_notMem_keys hmem

theorem eq_empty_of_lookup (h : ∀ key, table.lookup key = none) :
    table = ∅ := by
  apply ext
  cases hentries : table.entries with
  | nil => rfl
  | cons entry rest =>
    have hmem : entry.1 ∈ table := by
      rw [mem_keys, keys, hentries]
      exact List.mem_cons_self
    exact absurd (h entry.1) (lookup_isSome.mpr hmem |> Option.isSome_iff_ne_none.mp)

theorem mem_entries_iff {key : κ} {value : β} :
    ⟨key, value⟩ ∈ table.entries ↔ table.lookup key = some value :=
  mem_lookup_iff.symm

theorem lookup_insert_cases {key other : κ} {value found : β}
    (h : (table.insert key value).lookup other = some found) :
    (other = key ∧ found = value) ∨ (other ≠ key ∧ table.lookup other = some found) := by
  grind [lookup_insert, lookup_insert_ne]

/-- The entries that meet a test. -/
def filter (table : Table κ β) (keep : κ → β → Bool) : Table κ β :=
  ⟨table.entries.filter fun entry => keep entry.1 entry.2,
    table.nodupKeys.sublist List.filter_sublist⟩

theorem lookup_filter_eq_some {keep : κ → β → Bool} {key : κ} {value : β} :
    (table.filter keep).lookup key = some value ↔
      table.lookup key = some value ∧ keep key value = true := by
  rw [← mem_entries_iff, ← mem_entries_iff]
  exact List.mem_filter

end Table

/-! ## Maps in order of insertion -/

/-- A map whose entries stand in the order in which their keys were first set. -/
abbrev OrderedMap (κ β : Type*) := List (κ × β)

namespace OrderedMap

variable {κ β : Type*} [DecidableEq κ]

/-- Sets a key, which keeps its place if it was there. -/
def set : OrderedMap κ β → κ → β → OrderedMap κ β
  | [], key, value => [(key, value)]
  | entry :: rest, key, value =>
    if entry.1 = key then (key, value) :: rest else entry :: set rest key value

def get : OrderedMap κ β → κ → Option β
  | [], _ => none
  | entry :: rest, key => if entry.1 = key then some entry.2 else get rest key

theorem get_set (map : OrderedMap κ β) (key : κ) (value : β) (other : κ) :
    get (set map key value) other = if other = key then some value else get map other := by
  induction map <;> grind [set, get]

theorem keys_set (map : OrderedMap κ β) (key : κ) (value : β) :
    (set map key value).map Prod.fst =
      if key ∈ map.map Prod.fst then map.map Prod.fst else map.map Prod.fst ++ [key] := by
  induction map with
  | nil => rfl
  | cons entry rest ih =>
    rw [set]
    grind

variable {map : OrderedMap κ β}

theorem nodup_keys_set (h : (map.map Prod.fst).Nodup) (key : κ)
    (value : β) : ((set map key value).map Prod.fst).Nodup := by
  rw [keys_set]
  split_ifs with hmem
  · exact h
  · rw [← List.concat_eq_append]
    exact h.concat hmem

theorem mem_iff_get (h : (map.map Prod.fst).Nodup) {key : κ} {value : β} :
    (key, value) ∈ map ↔ get map key = some value := by
  induction map <;> grind [get]

theorem get_append (map more : OrderedMap κ β) (key : κ) :
    get (map ++ more) key = (get map key).or (get more key) := by
  induction map with
  | nil => rfl
  | cons entry rest ih =>
    rw [List.cons_append, get, get, ih]
    split_ifs
    · rfl
    · rfl

theorem get_eq_none_iff {key : κ} :
    get map key = none ↔ key ∉ map.map Prod.fst := by
  induction map <;> grind [get]

end OrderedMap

/-! ## Lists that the entries of a table point into -/

theorem List.getElem?_concat_eq_some {α : Type*} {list : List α} {last value : α} {n : Nat} :
    (list ++ [last])[n]? = some value ↔
      list[n]? = some value ∨ n = list.length ∧ value = last := by
  grind

theorem List.getElem?_foldl_modify {α ι : Type*} (place : ι → Nat) (change : ι → α → α)
    (entries : List ι) (list : List α) (n : Nat) :
    (entries.foldl (fun list entry => list.modify (place entry) (change entry)) list)[n]? =
      list[n]?.map fun value =>
        (entries.filter fun entry => place entry = n).foldl (fun value entry => change entry value)
          value := by
  induction entries generalizing list <;> grind
