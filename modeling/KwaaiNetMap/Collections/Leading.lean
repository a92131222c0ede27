import Mathlib.Data.List.Basic
import Mathlib.Data.List.Induction
import Mathlib.Order.BoundedOrder.Basic
import Mathlib.Order.Lattice

/-!
`top rank xs` is the highest rank in a list, `leading rank xs` its elements of that rank, in order. Both are
joins over concatenation (`top_append`, `leading_append`), so no rearrangement moves the top or loses a
leading element (`top_perm`, `leading_perm`). `lastMarked p xs` is the last marked element, else the first:
which one stands against those around it is `lastMarked_of_marked` and `lastMarked_of_unmarked`.
-/

namespace Collections
variable {α β : Type*} [LinearOrder β] [OrderBot β] (rank : α → β)

def top (xs : List α) : β := xs.foldr (fun x held => max (rank x) held) ⊥

def leading (xs : List α) : List α := xs.filter fun x => decide (rank x = top rank xs)

@[simp] theorem top_nil : top rank [] = ⊥ := rfl

@[simp] theorem top_cons (x : α) (xs : List α) : top rank (x :: xs) = max (rank x) (top rank xs) := rfl

variable {rank}

theorem le_top {x : α} {xs : List α} (member : x ∈ xs) : rank x ≤ top rank xs := by
  induction xs with
  | nil => cases member
  | cons y xs ih =>
    rcases List.mem_cons.mp member with rfl | later
    · exact le_max_left _ _
    · exact (ih later).trans (le_max_right _ _)

theorem top_le {xs : List α} {bound : β} (below : ∀ x ∈ xs, rank x ≤ bound) : top rank xs ≤ bound := by
  induction xs with
  | nil => exact bot_le
  | cons y xs ih => exact max_le (below y List.mem_cons_self) (ih fun x later => below x (List.mem_cons_of_mem _ later))

theorem top_eq_of_mem {x : α} {xs : List α} (member : x ∈ xs) (above : ∀ y ∈ xs, rank y ≤ rank x) :
    top rank xs = rank x :=
  le_antisymm (top_le above) (le_top member)

theorem top_append (xs ys : List α) : top rank (xs ++ ys) = max (top rank xs) (top rank ys) := by
  induction xs with
  | nil => rw [List.nil_append, top_nil, max_eq_right bot_le]
  | cons x xs ih => rw [List.cons_append, top_cons, top_cons, ih, max_assoc]

theorem top_perm {xs ys : List α} (perm : ys.Perm xs) : top rank ys = top rank xs :=
  le_antisymm (top_le fun _ member => le_top (perm.mem_iff.mp member))
    (top_le fun _ member => le_top (perm.mem_iff.mpr member))

theorem mem_leading {x : α} {xs : List α} : x ∈ leading rank xs ↔ x ∈ xs ∧ rank x = top rank xs := by
  simp [leading]

theorem leading_eq_filter {xs : List α} {p : α → Bool} (same : ∀ x ∈ xs, p x = true ↔ rank x = top rank xs) :
    leading rank xs = xs.filter p := by
  refine List.filter_congr fun x member => ?_
  rw [Bool.eq_iff_iff, decide_eq_true_eq, same x member]

theorem filter_rank (xs : List α) {bound : β} (above : top rank xs ≤ bound) :
    xs.filter (fun x => decide (rank x = bound)) = if top rank xs = bound then leading rank xs else [] := by
  split
  · rename_i attained
    rw [leading, attained]
  · rename_i missed
    rw [List.filter_eq_nil_iff]
    intro x member
    have below : rank x < bound := lt_of_le_of_lt (le_top member) (lt_of_le_of_ne above missed)
    simpa using ne_of_lt below

theorem leading_append (xs ys : List α) :
    leading rank (xs ++ ys) =
      (if top rank xs = top rank (xs ++ ys) then leading rank xs else []) ++
        if top rank ys = top rank (xs ++ ys) then leading rank ys else [] := by
  have first : top rank xs ≤ top rank (xs ++ ys) := by
    rw [top_append]
    exact le_max_left _ _
  have second : top rank ys ≤ top rank (xs ++ ys) := by
    rw [top_append]
    exact le_max_right _ _
  rw [← filter_rank xs first, ← filter_rank ys second, leading, List.filter_append]

theorem leading_perm {xs ys : List α} (perm : ys.Perm xs) : (leading rank ys).Perm (leading rank xs) := by
  unfold leading
  rw [top_perm perm]
  exact perm.filter _

theorem leading_filter {xs : List α} (p : α → Bool) (kept : ∀ x ∈ xs, rank x = top rank xs → p x = true)
    (same : top rank (xs.filter p) = top rank xs) : leading rank (xs.filter p) = leading rank xs := by
  rw [leading, same, leading, List.filter_filter]
  refine List.filter_congr fun x member => ?_
  by_cases leads : rank x = top rank xs
  · simp [leads, kept x member leads]
  · simp [leads]

theorem exists_leading {xs : List α} (filled : xs ≠ []) :
    ∃ x, (leading rank xs).head? = some x ∧ rank x = top rank xs := by
  have attained : ∃ x ∈ xs, rank x = top rank xs := by
    induction xs with
    | nil => exact absurd rfl filled
    | cons y xs ih =>
      rcases xs.eq_nil_or_concat with rfl | ⟨front, last, same⟩
      · exact ⟨y, List.mem_cons_self, (max_eq_left bot_le).symm⟩
      · obtain ⟨x, member, same⟩ := ih (by simp [same])
        rw [top_cons]
        rcases le_total (rank y) (top rank xs) with below | above
        · exact ⟨x, List.mem_cons_of_mem _ member, by rw [max_eq_right below, same]⟩
        · exact ⟨y, List.mem_cons_self, (max_eq_left above).symm⟩
  obtain ⟨x, member, same⟩ := attained
  cases first : leading rank xs with
  | nil => exact absurd (first ▸ mem_leading.mpr ⟨member, same⟩) List.not_mem_nil
  | cons y rest =>
    have leads : y ∈ leading rank xs := first ▸ List.mem_cons_self
    exact ⟨y, rfl, (mem_leading.mp leads).2⟩

/-- One more element beside the one held: only a higher rank replaces it. -/
def keepFirst (rank : α → β) (x : α) (held : Option α) : α :=
  match held with
  | none => x
  | some h => if rank h < rank x then x else h

theorem foldl_keepFirst (xs : List α) :
    xs.foldl (fun held x => some (keepFirst rank x held)) none = (leading rank xs).head? := by
  induction xs using List.reverseRecOn with
  | nil => rfl
  | append_singleton xs x ih =>
    have single : leading rank [x] = [x] :=
      List.filter_cons_of_pos (decide_eq_true (max_eq_left bot_le).symm)
    have joined : top rank (xs ++ [x]) = max (top rank xs) (rank x) := by
      rw [top_append, top_cons, top_nil, max_eq_left bot_le]
    rw [List.foldl_append, ih, leading_append, joined, single]
    change some (keepFirst rank x (leading rank xs).head?) = _
    rcases xs.eq_nil_or_concat with rfl | ⟨front, last, same⟩
    · rw [top_nil, top_cons, top_nil, max_eq_right bot_le, max_eq_left bot_le, if_pos rfl]
      change _ = ((if _ then [] else []) ++ [x]).head?
      rw [ite_self]
      rfl
    · have filled : xs ≠ [] := by simp [same]
      obtain ⟨h, first, held⟩ : ∃ h, (leading rank xs).head? = some h ∧ rank h = top rank xs := exists_leading filled
      rw [first, keepFirst, held]
      split
      · rename_i below
        rw [max_eq_right below.le, if_neg below.ne, top_cons, top_nil, max_eq_left bot_le, if_pos rfl]
        rfl
      · rename_i above
        rw [max_eq_left (not_lt.mp above), if_pos rfl, List.head?_append, first]
        rfl

/-! ### The last marked element, else the first -/

section
variable {γ δ : Type*} (marked : γ → Prop) [DecidablePred marked]

def lastMarked (xs : List γ) : Option γ := (xs.filter fun x => decide (marked x)).getLast?.or xs.head?

theorem lastMarked_map (f : δ → γ) (xs : List δ) :
    lastMarked marked (xs.map f) = (lastMarked (fun x => marked (f x)) xs).map f := by
  rw [lastMarked, lastMarked, List.filter_map, List.getLast?_map, List.head?_map, Option.map_or]
  rfl

variable {marked}

theorem lastMarked_of_marked {x : γ} (mark : marked x) (before after : List γ) :
    lastMarked marked (before ++ x :: after) = some x ↔
      ∀ y, (after.filter fun y => decide (marked y)).getLast? = some y → y = x := by
  have kept : (before ++ x :: after).filter (fun y => decide (marked y)) =
      before.filter (fun y => decide (marked y)) ++ x :: after.filter fun y => decide (marked y) := by
    rw [List.filter_append, List.filter_cons, if_pos (decide_eq_true mark)]
  rw [lastMarked, kept, List.getLast?_append_cons, List.getLast?_cons, Option.some_or]
  cases after.filter (fun y => decide (marked y)) |>.getLast? with
  | none => simp
  | some y => simp

theorem lastMarked_of_unmarked {x : γ} (unmarked : ¬ marked x) (before after : List γ) :
    lastMarked marked (before ++ x :: after) = some x ↔
      (∀ y ∈ before ++ after, ¬ marked y) ∧ ∀ y, before.head? = some y → y = x := by
  have around : (∀ y ∈ before ++ x :: after, ¬ marked y) ↔ ∀ y ∈ before ++ after, ¬ marked y := by
    simp only [List.mem_append, List.mem_cons]
    constructor
    · intro none y member
      exact none y (member.imp_right Or.inr)
    · intro none y member
      rcases member with early | rfl | late
      · exact none y (Or.inl early)
      · exact unmarked
      · exact none y (Or.inr late)
  have head : (before ++ x :: after).head? = some (before.head?.getD x) := by cases before <;> rfl
  rw [lastMarked, head, ← around]
  constructor
  · intro found
    rcases Option.or_eq_some_iff.mp found with last | ⟨none, first⟩
    · have mark := of_decide_eq_true (List.mem_filter.mp (List.mem_of_getLast? last)).2
      exact absurd mark unmarked
    · rw [List.getLast?_eq_none_iff, List.filter_eq_nil_iff] at none
      refine ⟨fun y member mark => none y member (decide_eq_true mark), fun y front => ?_⟩
      rw [front] at first
      exact Option.some.inj first
  · rintro ⟨none, front⟩
    have nothing : (before ++ x :: after).filter (fun y => decide (marked y)) = [] :=
      List.filter_eq_nil_iff.mpr fun y member mark => none y member (of_decide_eq_true mark)
    rw [nothing]
    cases first : before.head? with
    | none => rfl
    | some y => rw [front y first]; rfl

end

end Collections
