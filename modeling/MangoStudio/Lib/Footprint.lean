import Mathlib

/-!
# Local changes of a map

A change of a map is local on a set of keys if it changes nothing else and what
it makes of these keys depends on nothing else.  Changes that are local on
disjoint sets do not notice each other: after a list of them, every key is as
the one change that owns it left it (`foldl_at`).

So a list of changes that each have two phases can be made phase by phase
(`foldl_phases`).
-/

namespace Footprint

open List

variable {π β ι : Type*}

/-- Reads and changes the keys of `s` only. -/
structure LocalOn (change : (π → β) → π → β) (s : Set π) : Prop where
  frame : ∀ map key, key ∉ s → change map key = map key
  reads : ∀ map other, (∀ key ∈ s, map key = other key) →
    ∀ key ∈ s, change map key = change other key

theorem localOn_id (s : Set π) : LocalOn (fun map : π → β => map) s :=
  ⟨fun _ _ _ => rfl, fun _ _ hsame => hsame⟩

theorem LocalOn.comp {first second : (π → β) → π → β} {s : Set π} (hsecond : LocalOn second s)
    (hfirst : LocalOn first s) : LocalOn (fun map => second (first map)) s := by
  constructor
  · intro map key hkey
    rw [hsecond.frame _ _ hkey, hfirst.frame _ _ hkey]
  · intro map other hsame key hkey
    exact hsecond.reads _ _ (hfirst.reads map other hsame) key hkey

section Fold

variable {change : ι → (π → β) → π → β} {owns : ι → Set π} {items : List ι}

theorem foldl_frame (hlocal : ∀ item ∈ items, LocalOn (change item) (owns item)) {key : π}
    (hkey : ∀ item ∈ items, key ∉ owns item) (map : π → β) :
    items.foldl (fun map item => change item map) map key = map key := by
  induction items generalizing map with
  | nil => rfl
  | cons item items ih =>
    rw [foldl_cons, ih (fun other hother => hlocal other (mem_cons_of_mem _ hother))
      (fun other hother => hkey other (mem_cons_of_mem _ hother))]
    exact (hlocal item mem_cons_self).frame map key (hkey item mem_cons_self)

theorem foldl_at (hlocal : ∀ item ∈ items, LocalOn (change item) (owns item))
    (hdisjoint : items.Pairwise fun item other => Disjoint (owns item) (owns other)) {item : ι}
    (hitem : item ∈ items) {key : π} (hkey : key ∈ owns item) (map : π → β) :
    items.foldl (fun map item => change item map) map key = change item map key := by
  induction items generalizing map with
  | nil => cases hitem
  | cons head items ih =>
    obtain ⟨hhead, hrest⟩ := pairwise_cons.mp hdisjoint
    have hlocals : ∀ other ∈ items, LocalOn (change other) (owns other) :=
      fun other hother => hlocal other (mem_cons_of_mem _ hother)
    rw [foldl_cons]
    rcases mem_cons.mp hitem with rfl | htail
    · exact foldl_frame hlocals
        (fun other hother => (hhead other hother).notMem_of_mem_left hkey) (change item map)
    · rw [ih hlocals hrest htail]
      apply (hlocals item htail).reads _ _ _ key hkey
      intro other hother
      exact (hlocal head mem_cons_self).frame map other
        ((hhead item htail).notMem_of_mem_right hother)

theorem foldl_phases {first second : ι → (π → β) → π → β}
    (hfirst : ∀ item ∈ items, LocalOn (first item) (owns item))
    (hsecond : ∀ item ∈ items, LocalOn (second item) (owns item))
    (hdisjoint : items.Pairwise fun item other => Disjoint (owns item) (owns other))
    (map : π → β) :
    items.foldl (fun map item => second item map)
        (items.foldl (fun map item => first item map) map) =
      items.foldl (fun map item => second item (first item map)) map := by
  have hboth : ∀ item ∈ items, LocalOn (fun map => second item (first item map)) (owns item) :=
    fun item hitem => (hsecond item hitem).comp (hfirst item hitem)
  funext key
  by_cases howned : ∃ item ∈ items, key ∈ owns item
  · obtain ⟨item, hitem, hkey⟩ := howned
    rw [foldl_at hsecond hdisjoint hitem hkey, foldl_at hboth hdisjoint hitem hkey]
    apply (hsecond item hitem).reads _ _ _ key hkey
    intro other hother
    exact foldl_at hfirst hdisjoint hitem hother map
  · have hfree : ∀ item ∈ items, key ∉ owns item :=
      fun item hitem hkey => howned ⟨item, hitem, hkey⟩
    rw [foldl_frame hsecond hfree, foldl_frame hfirst hfree, foldl_frame hboth hfree]

end Fold

end Footprint
