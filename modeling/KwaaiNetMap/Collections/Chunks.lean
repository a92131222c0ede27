import Mathlib.Algebra.Order.Group.Nat
import Mathlib.Data.List.Basic

/-!
`toChunks n` cuts a list into non-empty chunks of at most `n`, as few as that takes.
-/

namespace Collections
variable {α : Type*} {n : Nat}

theorem length_of_mem_chunks_go {xs : List α} {chunk : Array α} {done : Array (List α)} (some_size : 0 < n)
    (begun : 0 < chunk.size) (fits : chunk.size ≤ n) {c : List α} (member : c ∈ List.toChunks.go n xs chunk done) :
    c ∈ done.toList ∨ 0 < c.length ∧ c.length ≤ n := by
  induction xs generalizing chunk done with
  | nil =>
    rw [List.toChunks.go, Array.toList_push] at member
    rcases List.mem_append.mp member with before | last
    · exact Or.inl before
    · rw [List.mem_singleton.mp last, Array.length_toList]
      exact Or.inr ⟨begun, fits⟩
  | cons x xs ih =>
    rw [List.toChunks.go] at member
    split at member
    · have next := ih (by simp) (by simpa [Nat.succ_le_iff] using some_size) member
      rw [Array.toList_push] at next
      rcases next with before | cut
      · rcases List.mem_append.mp before with earlier | last
        · exact Or.inl earlier
        · rw [List.mem_singleton.mp last, Array.length_toList]
          exact Or.inr ⟨begun, fits⟩
      · exact Or.inr cut
    · rename_i room
      have other : chunk.size ≠ n := by simpa using room
      exact ih (by simp) (by rw [Array.size_push]; omega) member

theorem length_of_mem_toChunks {xs c : List α} (some_size : 0 < n) (member : c ∈ xs.toChunks n) :
    0 < c.length ∧ c.length ≤ n := by
  cases xs with
  | nil => rw [List.toChunks] at member; cases member
  | cons x xs =>
    obtain ⟨m, rfl⟩ := Nat.exists_eq_add_of_lt some_size
    rw [List.toChunks] at member
    · rcases length_of_mem_chunks_go some_size (by simp) (by simp) member with before | cut
      · cases before
      · exact cut
    · omega

theorem length_chunks_go {xs : List α} {chunk : Array α} {done : Array (List α)} (some_size : 0 < n)
    (begun : 0 < chunk.size) (fits : chunk.size ≤ n) :
    (List.toChunks.go n xs chunk done).length = done.size + (chunk.size + xs.length + n - 1) / n := by
  induction xs generalizing chunk done with
  | nil =>
    have whole : chunk.size + 0 + n - 1 = chunk.size - 1 + n := by omega
    rw [List.toChunks.go, Array.length_toList, Array.size_push, List.length_nil, whole,
      Nat.add_div_right _ some_size, Nat.div_eq_of_lt (by omega)]
  | cons x xs ih =>
    rw [List.toChunks.go]
    split
    · rename_i full
      have size : chunk.size = n := by simpa using full
      have whole : chunk.size + (xs.length + 1) + n - 1 = 1 + xs.length + n - 1 + n := by omega
      have first : ((Array.mkEmpty n).push x).size = 1 := rfl
      rw [ih (by simp) (by simpa [Nat.succ_le_iff] using some_size), List.length_cons, whole,
        Nat.add_div_right _ some_size, first, Array.size_push]
      omega
    · rename_i room
      have other : chunk.size ≠ n := by simpa using room
      rw [ih (by simp) (by rw [Array.size_push]; omega), Array.size_push, List.length_cons]
      congr 3
      omega

theorem length_toChunks (some_size : 0 < n) (xs : List α) : (xs.toChunks n).length = (xs.length + n - 1) / n := by
  cases xs with
  | nil =>
    rw [List.toChunks]
    change 0 = (0 + n - 1) / n
    rw [Nat.div_eq_of_lt (by omega)]
  | cons x xs =>
    obtain ⟨m, rfl⟩ := Nat.exists_eq_add_of_lt some_size
    rw [List.toChunks]
    · rw [length_chunks_go some_size (by simp) (by simp), List.length_cons]
      simp [Nat.add_comm]
    · omega

end Collections
