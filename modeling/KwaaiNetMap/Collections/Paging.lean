import Mathlib.Data.List.Basic

/-!
Pages of `n` entries, the last one shorter, counted from zero. A page has an entry exactly when it is one of
`pageCount` (`page_ne_nil_iff`), and the pages one after another are the list (`pages_all`).
-/

namespace Collections
variable {α : Type*} {n : Nat}

def page (n : Nat) (xs : List α) (k : Nat) : List α := (xs.drop (k * n)).take n

def pages (n : Nat) (xs : List α) (k m : Nat) : List α := (xs.drop (k * n)).take (m * n)

def pageCount (n entries : Nat) : Nat := (entries + n - 1) / n

theorem lt_pageCount_iff (wide : 0 < n) {k entries : Nat} : k < pageCount n entries ↔ k * n < entries := by
  unfold pageCount
  rw [Nat.lt_iff_add_one_le, Nat.le_div_iff_mul_le wide, Nat.add_mul]
  omega

theorem pageCount_mul_ge (wide : 0 < n) (entries : Nat) : entries ≤ pageCount n entries * n := by
  by_contra short
  have more := (lt_pageCount_iff wide).mpr (Nat.lt_of_not_le short)
  omega

theorem page_ne_nil_iff (wide : 0 < n) {xs : List α} {k : Nat} : page n xs k ≠ [] ↔ k < pageCount n xs.length := by
  rw [lt_pageCount_iff wide, page, ← List.length_pos_iff, List.length_take, List.length_drop]
  omega

theorem pages_one (xs : List α) (k : Nat) : pages n xs k 1 = page n xs k := by
  rw [pages, Nat.one_mul, page]

theorem pages_succ (xs : List α) (k m : Nat) : pages n xs k (m + 1) = page n xs k ++ pages n xs (k + 1) m := by
  have later : (k + 1) * n = k * n + n := Nat.succ_mul k n
  have total : (m + 1) * n = n + m * n := by rw [Nat.succ_mul, Nat.add_comm]
  rw [pages, total, List.take_add, List.drop_drop, ← later, page, pages]

theorem pages_all (wide : 0 < n) {xs : List α} {m : Nat} (enough : pageCount n xs.length ≤ m) :
    pages n xs 0 m = xs := by
  have all : xs.length ≤ m * n := Nat.le_trans (pageCount_mul_ge wide xs.length) (Nat.mul_le_mul_right n enough)
  rw [pages, Nat.zero_mul, List.drop_zero]
  exact List.take_of_length_le all

theorem extract_page (xs : List α) (k : Nat) :
    xs.extract (k * n) (min (k * n + n) xs.length) = page n xs k := by
  rw [List.extract_eq_take_drop, page, List.take_eq_take_iff, List.length_drop]
  omega

end Collections
