import Mathlib.Data.List.Nodup
import Mathlib.Data.List.Indexes

/-!
# Arrays of mutable objects

An array of objects that are changed by reference, next to the array of their
values.  Each object has an identity, and a program that holds a reference
holds the identity.

* `mutate` changes the object with an identity.  Where the identities are
  distinct, it is the update of the value at the place of the object
  (`values_mutate_at`), and the update of the values that a predicate picks, if
  the predicate picks the object (`values_mutate_of`).
* `remove` takes the object out, and is the removal at its place
  (`values_remove_at`).
* `mutateAll` is a loop over references (`values_mutateAll_of`).
-/

/-- Objects with their identities, in the order of the array. -/
abbrev Objects (β : Type*) := List (Nat × β)

namespace Objects

open List

variable {β : Type*}

def values (objects : Objects β) : List β := objects.map Prod.snd

def refs (objects : Objects β) : List Nat := objects.map Prod.fst

def find (objects : Objects β) (ref : Nat) : Option β :=
  (objects.find? fun object => object.1 == ref).map Prod.snd

/-- Changes the object with an identity. -/
def mutate (objects : Objects β) (ref : Nat) (change : β → β) : Objects β :=
  objects.map fun object => if object.1 = ref then (object.1, change object.2) else object

/-- Takes the object with an identity out. -/
def remove (objects : Objects β) (ref : Nat) : Objects β :=
  objects.eraseP fun object => object.1 == ref

/-- Changes the objects of a list of references, one after the other. -/
def mutateAll (objects : Objects β) (targets : List Nat) (change : β → β) : Objects β :=
  targets.foldl (fun objects ref => objects.mutate ref change) objects

variable {objects : Objects β} {ref : Nat} {change : β → β}

section

variable (objects : Objects β) (ref : Nat)

@[simp] theorem refs_mutate (change : β → β) : (objects.mutate ref change).refs = objects.refs := by
  grind [refs, mutate, map_congr_left]

theorem refs_append (value : β) :
    refs (objects ++ [(ref, value)]) = objects.refs ++ [ref] := map_append

theorem values_append (value : β) :
    values (objects ++ [(ref, value)]) = objects.values ++ [value] := map_append

theorem refs_remove_sublist : (objects.remove ref).refs.Sublist objects.refs :=
  eraseP_sublist.map _

end

/-! ## Values -/

theorem values_mutate_of {picks : β → Prop} [DecidablePred picks]
    (h : ∀ object ∈ objects, object.1 = ref ↔ picks object.2) (change : β → β) :
    (objects.mutate ref change).values =
      objects.values.map fun value => if picks value then change value else value := by
  grind [values, mutate, map_congr_left]

theorem mutateAll_eq_map (hchange : ∀ value, change (change value) = change value)
    (objects : Objects β) (targets : List Nat) :
    objects.mutateAll targets change = objects.map fun object =>
      if object.1 ∈ targets then (object.1, change object.2) else object := by
  induction targets generalizing objects with
  | nil =>
    show objects = objects.map _
    conv_lhs => rw [← map_id objects]
    exact map_congr_left fun object _ => (if_neg not_mem_nil).symm
  | cons target targets ih =>
    show (objects.mutate target change).mutateAll targets change = _
    rw [ih, mutate, map_map]
    grind [map_congr_left]

theorem values_mutateAll_of {picks : β → Prop} [DecidablePred picks] {targets : List Nat}
    (h : ∀ object ∈ objects, object.1 ∈ targets ↔ picks object.2)
    (hchange : ∀ value, change (change value) = change value) :
    (objects.mutateAll targets change).values =
      objects.values.map fun value => if picks value then change value else value := by
  grind [mutateAll_eq_map, values, map_congr_left]

/-! ## Places -/

variable {object : Nat × β}

theorem mutate_cons_self (h : object.1 = ref) (objects : Objects β) (change : β → β) :
    mutate (object :: objects) ref change = (object.1, change object.2) :: mutate objects ref change := by
  unfold mutate
  rw [map_cons, if_pos h]

theorem mutate_cons_of_ne (h : object.1 ≠ ref) (objects : Objects β) (change : β → β) :
    mutate (object :: objects) ref change = object :: mutate objects ref change := by
  unfold mutate
  rw [map_cons, if_neg h]

theorem mutate_of_notMem (h : ref ∉ objects.refs) (change : β → β) :
    objects.mutate ref change = objects := by
  unfold mutate
  conv_rhs => rw [← map_id objects]
  refine map_congr_left fun object hobject => if_neg fun heq => h ?_
  rw [← heq]
  exact mem_map_of_mem hobject

theorem mutate_concat (h : ref ∉ objects.refs) (value : β) (change : β → β) :
    mutate (objects ++ [(ref, value)]) ref change = objects ++ [(ref, change value)] := by
  have hlast : mutate [(ref, value)] ref change = [(ref, change value)] :=
    mutate_cons_self rfl [] change
  unfold mutate at hlast ⊢
  rw [map_append, hlast]
  exact congrArg (· ++ [(ref, change value)]) (mutate_of_notMem h change)

theorem place_cases {objects : Objects β} {place : Nat}
    (hplace : (refs (object :: objects))[place]? = some ref)
    (hnodup : (refs (object :: objects)).Nodup) :
    (place = 0 ∧ object.1 = ref ∧ ref ∉ refs objects) ∨
      ∃ rest, place = rest + 1 ∧ object.1 ≠ ref ∧ (refs objects)[rest]? = some ref := by
  have hfresh : object.1 ∉ refs objects := (nodup_cons.mp hnodup).1
  cases place with
  | zero =>
    have hobject : object.1 = ref := Option.some.inj hplace
    exact .inl ⟨rfl, hobject, hobject ▸ hfresh⟩
  | succ rest =>
    have hrest : (refs objects)[rest]? = some ref := hplace
    exact .inr ⟨rest, rfl, fun heq => hfresh (heq ▸ mem_of_getElem? hrest), hrest⟩

section Places

variable {place : Nat} (hplace : objects.refs[place]? = some ref) (hnodup : objects.refs.Nodup)

include hplace hnodup

theorem values_mutate_at (change : β → β) :
    (objects.mutate ref change).values = objects.values.modify place change := by
  induction objects generalizing place with
  | nil => cases hplace
  | cons object objects ih =>
    rcases place_cases hplace hnodup with ⟨rfl, hobject, hfresh⟩ | ⟨rest, rfl, hobject, hrest⟩
    · rw [mutate_cons_self hobject, mutate_of_notMem hfresh]
      rfl
    · rw [mutate_cons_of_ne hobject]
      exact congrArg (object.2 :: ·) (ih hrest (nodup_cons.mp hnodup).2)

theorem values_remove_at : (objects.remove ref).values = objects.values.eraseIdx place := by
  induction objects generalizing place with
  | nil => cases hplace
  | cons object objects ih =>
    rcases place_cases hplace hnodup with ⟨rfl, hobject, _⟩ | ⟨rest, rfl, hobject, hrest⟩
    · have hhead : (object.1 == ref) = true := beq_iff_eq.mpr hobject
      show values (eraseP _ (object :: objects)) = _
      rw [eraseP_cons, hhead]
      rfl
    · have hhead : (object.1 == ref) = false := beq_eq_false_iff_ne.mpr hobject
      show values (eraseP _ (object :: objects)) = _
      rw [eraseP_cons, hhead]
      exact congrArg (object.2 :: ·) (ih hrest (nodup_cons.mp hnodup).2)

theorem find_at : objects.find ref = objects.values[place]? := by
  induction objects generalizing place with
  | nil => cases hplace
  | cons object objects ih =>
    rcases place_cases hplace hnodup with ⟨rfl, hobject, _⟩ | ⟨rest, rfl, hobject, hrest⟩
    · have hhead : (object.1 == ref) = true := beq_iff_eq.mpr hobject
      show (find? _ (object :: objects)).map Prod.snd = _
      rw [find?_cons, hhead]
      rfl
    · have hhead : (object.1 == ref) = false := beq_eq_false_iff_ne.mpr hobject
      show (find? _ (object :: objects)).map Prod.snd = _
      rw [find?_cons, hhead]
      exact ih hrest (nodup_cons.mp hnodup).2

end Places

theorem find_of_mem (hnodup : objects.refs.Nodup) {value : β} (hmem : (ref, value) ∈ objects) :
    objects.find ref = some value := by
  obtain ⟨place, hplace⟩ := mem_iff_getElem?.mp hmem
  have href : objects.refs[place]? = some ref := by
    unfold refs
    rw [getElem?_map, hplace]
    rfl
  rw [find_at href hnodup]
  unfold values
  rw [getElem?_map, hplace]
  rfl

end Objects
