import Mathlib.Data.List.Sort

/-!
A comparator need only be total and transitive on the elements at hand for the sort to put them in order, and
what it cannot tell apart keeps its place.
-/

namespace Collections
variable {α : Type*} {r : α → α → Prop} [DecidableRel r] {l : List α}

theorem insertionSort_attach (l : List α) :
    (l.attach.insertionSort fun a b => r a.1 b.1).map Subtype.val = l.insertionSort r := by
  rw [List.map_insertionSort (fun a b : { x // x ∈ l } => r a.1 b.1) r Subtype.val l.attach
    (fun a _ b _ => Iff.rfl), List.attach_map_subtype_val]

theorem insertionSort_sorted (total : ∀ a ∈ l, ∀ b ∈ l, r a b ∨ r b a)
    (trans : ∀ a ∈ l, ∀ b ∈ l, ∀ c ∈ l, r a b → r b c → r a c) : (l.insertionSort r).Pairwise r := by
  have totally : Std.Total fun a b : { x // x ∈ l } => r a.1 b.1 := ⟨fun a b => total a.1 a.2 b.1 b.2⟩
  have transitively : IsTrans { x // x ∈ l } fun a b => r a.1 b.1 :=
    ⟨fun a b c => trans a.1 a.2 b.1 b.2 c.1 c.2⟩
  rw [← insertionSort_attach]
  exact List.pairwise_map.mpr (List.pairwise_insertionSort (fun a b : { x // x ∈ l } => r a.1 b.1) l.attach)

theorem filter_insertionSort {p : α → Bool} (tied : ∀ a ∈ l, ∀ b ∈ l, p a = true → p b = true → r a b) :
    (l.insertionSort r).filter p = l.filter p := by
  have pairwise : (l.filter p).Pairwise r := by
    refine List.pairwise_of_forall_mem_list fun a here b there => ?_
    obtain ⟨here, pa⟩ := List.mem_filter.mp here
    obtain ⟨there, pb⟩ := List.mem_filter.mp there
    exact tied a here b there pa pb
  have within := (List.sublist_insertionSort pairwise List.filter_sublist).filter p
  rw [List.filter_filter] at within
  simp only [Bool.and_self] at within
  exact (within.eq_of_length ((List.perm_insertionSort r l).filter p).length_eq.symm).symm

end Collections
