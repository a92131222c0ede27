import Mathlib.Data.List.Rotate
import Mathlib.Data.List.Sort

/-!
A list sorted by a total preorder and cut to its first `n` elements depends on how the list was arranged
only through ties at the cut. `Decided r n l` says that there is none: whatever is tied with another
element has `n` elements strictly above it. Then every arrangement of `l` has the same head
(`Decided.head_eq`), and if even the rotations of `l` have the same head then `l` is decided
(`decided_of_rotate`).
-/

namespace Collections

section Ranking
variable {α : Type*} (r : α → α → Prop) [DecidableRel r]

def above (l : List α) (a : α) : Nat := l.countP fun x => decide (r x a ∧ ¬ r a x)

def Decided (n : Nat) (l : List α) : Prop :=
  ∀ a ∈ l, ∀ b ∈ l, r a b → r b a → a ≠ b → n ≤ above r l a

variable {r}

theorem above_perm {l l' : List α} (perm : l'.Perm l) (a : α) : above r l' a = above r l a :=
  perm.countP_eq _

theorem above_le_of_split (before : List α) {after : List α} {a : α} (below : ∀ x ∈ after, r a x) :
    above r (before ++ after) a ≤ before.length := by
  have none : after.countP (fun x => decide (r x a ∧ ¬ r a x)) = 0 := by
    rw [List.countP_eq_zero]
    intro x member
    simp [below x member]
  rw [above, List.countP_append, none, Nat.add_zero]
  exact List.countP_le_length

theorem above_lt_of_mem_take [Std.Refl r] {s : List α} (sorted : s.Pairwise r) {n : Nat} {a : α}
    (member : a ∈ s.take n) : above r s a < n := by
  obtain ⟨i, bound, here⟩ := List.mem_take_iff_getElem.mp member
  have inside : i < s.length := by omega
  have split : s.take i ++ s.drop i = s := List.take_append_drop i s
  have below : ∀ x ∈ s.drop i, r a x := by
    have tail : s.drop i = a :: s.drop (i + 1) := by
      rw [← here]
      exact List.drop_eq_getElem_cons inside
    have drop : (a :: s.drop (i + 1)).Pairwise r := tail ▸ sorted.drop
    intro x later
    rw [tail] at later
    rcases List.mem_cons.mp later with rfl | later
    · exact Std.Refl.refl x
    · exact (List.pairwise_cons.mp drop).1 x later
  have few := above_le_of_split (s.take i) below
  rw [split, List.length_take] at few
  omega

theorem take_eq_take_filter [Std.Refl r] {s : List α} (sorted : s.Pairwise r) (n : Nat) :
    s.take n = (s.filter fun a => decide (above r s a < n)).take n := by
  have kept : (s.take n).filter (fun a => decide (above r s a < n)) = s.take n := by
    apply List.filter_eq_self.mpr
    intro a member
    exact decide_eq_true (above_lt_of_mem_take sorted member)
  have split : s.filter (fun a => decide (above r s a < n)) =
      s.take n ++ (s.drop n).filter fun a => decide (above r s a < n) := by
    conv_lhs => rw [← List.take_append_drop n s]
    rw [List.filter_append, List.take_append_drop, kept]
  rw [split]
  rcases Nat.le_total n s.length with long | short
  · rw [List.take_left' (by rw [List.length_take]; omega)]
  · rw [List.drop_eq_nil_of_le short, List.filter_nil, List.append_nil, List.take_take, Nat.min_self]

variable [Std.Total r] [IsTrans α r]

theorem Decided.head_eq {n : Nat} {l l' : List α} (decided : Decided r n l) (perm : l'.Perm l) :
    (l'.insertionSort r).take n = (l.insertionSort r).take n := by
  have sorted (l : List α) : (l.insertionSort r).Pairwise r := List.pairwise_insertionSort r l
  have arranged : (l'.insertionSort r).Perm (l.insertionSort r) :=
    (List.perm_insertionSort r l').trans (perm.trans (List.perm_insertionSort r l).symm)
  have refl : Std.Refl r := ⟨fun a => (Std.Total.total (r := r) a a).elim id id⟩
  rw [take_eq_take_filter (sorted l'), take_eq_take_filter (sorted l)]
  have same : (fun a => decide (above r (l'.insertionSort r) a < n)) =
      fun a => decide (above r (l.insertionSort r) a < n) := by
    funext a
    rw [above_perm arranged]
  rw [same]
  congr 1
  refine List.Perm.eq_of_pairwise ?_ ((sorted l').filter _) ((sorted l).filter _) (arranged.filter _)
  intro a b first second ab ba
  obtain ⟨member, few⟩ := List.mem_filter.mp (((arranged.filter _).mem_iff).mp first)
  have ina := (List.mem_insertionSort r).mp member
  have inb := (List.mem_insertionSort r).mp (List.mem_filter.mp second).1
  by_contra different
  have many := decided a ina b inb ab ba different
  rw [← above_perm (List.perm_insertionSort r l)] at many
  exact absurd (of_decide_eq_true few) (Nat.not_lt.mpr many)

/-! ### Arrangements that move a tie -/

omit [Std.Total r] in
theorem length_takeWhile_not {s : List α} (sorted : s.Pairwise r) (a : α) :
    (s.takeWhile fun x => decide (¬ r a x)).length = s.countP fun x => decide (¬ r a x) := by
  induction s with
  | nil => rfl
  | cons x s ih =>
    obtain ⟨below, rest⟩ := List.pairwise_cons.mp sorted
    by_cases reached : r a x
    · have none : s.countP (fun x => decide (¬ r a x)) = 0 := by
        rw [List.countP_eq_zero]
        intro y member
        simp [IsTrans.trans a x y reached (below y member)]
      rw [List.takeWhile_cons_of_neg (by simpa using reached),
        List.countP_cons_of_neg (by simpa using reached), none]
      rfl
    · rw [List.takeWhile_cons_of_pos (by simpa using reached), List.length_cons, ih rest,
        List.countP_cons_of_pos (by simpa using reached)]

/-- What comes first in a list keeps its place among its ties: only those strictly above precede it. -/
theorem insertionSort_cons_getElem? (a : α) (l : List α) :
    ((a :: l).insertionSort r)[above r (a :: l) a]? = some a := by
  have strict : ∀ x, decide (r x a ∧ ¬ r a x) = decide (¬ r a x) := by
    intro x
    rcases Std.Total.total (r := r) x a with below | below <;> simp [below]
  have place : above r (a :: l) a = ((l.insertionSort r).takeWhile fun x => decide (¬ r a x)).length := by
    rw [length_takeWhile_not (List.pairwise_insertionSort r l), (List.perm_insertionSort r l).countP_eq,
      above, List.countP_cons_of_neg (by simp)]
    exact List.countP_congr fun x _ => by rw [strict]
  rw [List.insertionSort_cons, List.orderedInsert_eq_take_drop, place, List.getElem?_append_right le_rfl,
    Nat.sub_self]
  rfl

theorem exists_rotate_cons {l : List α} {a : α} (member : a ∈ l) : ∃ k rest, l.rotate k = a :: rest := by
  obtain ⟨before, after, rfl⟩ := List.append_of_mem member
  exact ⟨before.length, after ++ before, List.rotate_append_length_eq before (a :: after)⟩

theorem rotate_getElem?_above {l : List α} {a : α} (member : a ∈ l) :
    ∃ k, ((l.rotate k).insertionSort r)[above r l a]? = some a := by
  obtain ⟨k, rest, turned⟩ := exists_rotate_cons member
  refine ⟨k, ?_⟩
  rw [← above_perm (List.rotate_perm l k), turned]
  exact insertionSort_cons_getElem? a rest

omit [Std.Total r] in
theorem above_tied {l : List α} {a b : α} (ab : r a b) (ba : r b a) : above r l a = above r l b := by
  refine List.countP_congr fun x _ => ?_
  simp only [decide_eq_true_eq]
  constructor
  · rintro ⟨xa, ax⟩
    exact ⟨IsTrans.trans x a b xa ab, fun bx => ax (IsTrans.trans a b x ab bx)⟩
  · rintro ⟨xb, bx⟩
    exact ⟨IsTrans.trans x b a xb ba, fun ax => bx (IsTrans.trans b a x ba ax)⟩

theorem decided_of_rotate {n : Nat} {l : List α}
    (same : ∀ k, ((l.rotate k).insertionSort r).take n = (l.insertionSort r).take n) : Decided r n l := by
  intro a ina b inb ab ba different
  by_contra few
  obtain ⟨i, first⟩ := rotate_getElem?_above (r := r) ina
  obtain ⟨j, second⟩ := rotate_getElem?_above (r := r) inb
  have below : above r l a < n := Nat.not_le.mp few
  rw [← List.getElem?_take_of_lt below, same i] at first
  rw [← above_tied ab ba, ← List.getElem?_take_of_lt below, same j] at second
  exact different (Option.some.inj (first.symm.trans second))

end Ranking

end Collections
