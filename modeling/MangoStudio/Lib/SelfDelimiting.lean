import Mathlib

/-!
# Self-delimiting codes

A code is self-delimiting when a text that begins with a code word determines
the word and what follows it.  Words written one after the other without a
separator can then be told apart (`flatMap_injective`).

* A code of fixed length is self-delimiting (`fixed`), and so is one that ends
  in a symbol it does not use otherwise (`terminated`).
* Two codes in a row are self-delimiting (`append`).
* A word is self-delimiting behind its own size, when the size is a sum of
  positive weights of its symbols (`sized`).
-/

/-- A code word and what follows it can be told apart. -/
def SelfDelimiting {α β : Type*} (code : α → List β) : Prop :=
  ∀ ⦃first second : α⦄ ⦃rest other : List β⦄, code first ++ rest = code second ++ other →
    first = second ∧ rest = other

namespace SelfDelimiting

open List

variable {α β γ : Type*} {code : α → List β}

theorem fixed {length : Nat} (hlength : ∀ a, (code a).length = length)
    (hinj : Function.Injective code) : SelfDelimiting code := by
  intro first second rest other htext
  obtain ⟨hcode, hrest⟩ := append_inj htext ((hlength first).trans (hlength second).symm)
  exact ⟨hinj hcode, hrest⟩

theorem append_stop_inj {stop : β} {left right rest other : List β} (hleft : stop ∉ left)
    (hright : stop ∉ right) (htext : left ++ stop :: rest = right ++ stop :: other) :
    left = right ∧ rest = other := by
  rcases append_eq_append_iff.1 htext with ⟨mid, hmid, hstop⟩ | ⟨mid, hmid, hstop⟩
  · cases mid with
    | nil => exact ⟨by rw [hmid, append_nil], (cons.inj hstop).2⟩
    | cons head mid =>
      refine absurd ?_ hright
      rw [hmid, (cons.inj hstop).1]
      exact mem_append_right _ mem_cons_self
  · cases mid with
    | nil => exact ⟨by rw [hmid, append_nil], (cons.inj hstop).2.symm⟩
    | cons head mid =>
      refine absurd ?_ hleft
      rw [hmid, (cons.inj hstop).1]
      exact mem_append_right _ mem_cons_self

theorem terminated {stop : β} (hstop : ∀ a, stop ∉ code a) (hinj : Function.Injective code) :
    SelfDelimiting fun a => code a ++ [stop] := by
  intro first second rest other htext
  rw [append_assoc, append_assoc] at htext
  obtain ⟨hcode, hrest⟩ := append_stop_inj (hstop first) (hstop second) htext
  exact ⟨hinj hcode, hrest⟩

theorem append {next : γ → List β} (hcode : SelfDelimiting code) (hnext : SelfDelimiting next) :
    SelfDelimiting fun pair : α × γ => code pair.1 ++ next pair.2 := by
  intro first second rest other htext
  rw [append_assoc, append_assoc] at htext
  obtain ⟨hfirst, htail⟩ := hcode htext
  obtain ⟨hsecond, hrest⟩ := hnext htail
  exact ⟨Prod.ext hfirst hsecond, hrest⟩

theorem eq_of_weight_eq {weight : β → Nat} (hpositive : ∀ b, 0 < weight b)
    {left right rest other : List β} (htext : left ++ rest = right ++ other)
    (hweight : (left.map weight).sum = (right.map weight).sum) : left = right ∧ rest = other := by
  induction left generalizing right with
  | nil =>
    cases right with
    | nil => exact ⟨rfl, htext⟩
    | cons b right =>
      have := hpositive b
      rw [map_nil, sum_nil, map_cons, sum_cons] at hweight
      omega
  | cons a left ih =>
    cases right with
    | nil =>
      have := hpositive a
      rw [map_nil, sum_nil, map_cons, sum_cons] at hweight
      omega
    | cons b right =>
      obtain ⟨rfl, htail⟩ := cons.inj htext
      rw [map_cons, sum_cons, map_cons, sum_cons] at hweight
      obtain ⟨rfl, hrest⟩ := ih htail (Nat.add_left_cancel hweight)
      exact ⟨rfl, hrest⟩

theorem sized {header : Nat → List β} (hheader : SelfDelimiting header) {weight : β → Nat}
    (hpositive : ∀ b, 0 < weight b) :
    SelfDelimiting fun word : List β => header (word.map weight).sum ++ word := by
  intro first second rest other htext
  rw [append_assoc, append_assoc] at htext
  obtain ⟨hweight, htail⟩ := hheader htext
  exact eq_of_weight_eq hpositive htail hweight

theorem flatMap_injective (hcode : SelfDelimiting code) (hnonempty : ∀ a, code a ≠ []) :
    Function.Injective fun words : List α => words.flatMap code := by
  intro left right htext
  dsimp only at htext
  induction left generalizing right with
  | nil =>
    cases right with
    | nil => rfl
    | cons b right =>
      rw [flatMap_nil, flatMap_cons] at htext
      exact absurd (append_eq_nil_iff.1 htext.symm).1 (hnonempty b)
  | cons a left ih =>
    cases right with
    | nil =>
      rw [flatMap_nil, flatMap_cons] at htext
      exact absurd (append_eq_nil_iff.1 htext).1 (hnonempty a)
    | cons b right =>
      rw [flatMap_cons, flatMap_cons] at htext
      obtain ⟨rfl, htail⟩ := hcode htext
      rw [ih htail]

end SelfDelimiting
