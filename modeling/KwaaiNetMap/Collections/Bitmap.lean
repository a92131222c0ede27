import Mathlib.Data.Finset.Card
import Mathlib.Data.Finset.Range

/-!
A bitmap filled over several ranges has as many bits set as there are slots in some range.
-/

namespace Collections

def fillRange (bits : List Bool) (start stop : Nat) : List Bool :=
  bits.mapIdx fun i bit => bit || decide (start ≤ i ∧ i < stop)

def fillRanges (bits : List Bool) (ranges : List (Nat × Nat)) : List Bool :=
  ranges.foldl (fun bits range => fillRange bits range.1 range.2) bits

theorem fillRanges_eq (bits : List Bool) (ranges : List (Nat × Nat)) :
    fillRanges bits ranges =
      bits.mapIdx fun i bit => bit || ranges.any fun range => decide (range.1 ≤ i ∧ i < range.2) := by
  induction ranges generalizing bits with
  | nil =>
    apply List.ext_getElem
    · simp [fillRanges]
    · intro i _ _
      simp [fillRanges]
  | cons range ranges ih =>
    have step : fillRanges bits (range :: ranges) = fillRanges (fillRange bits range.1 range.2) ranges := rfl
    rw [step, ih, fillRange, List.mapIdx_mapIdx]
    congr 1
    funext i bit
    simp [Bool.or_assoc]

theorem count_fillRanges (n : Nat) (ranges : List (Nat × Nat)) :
    (fillRanges (List.replicate n false) ranges).count true =
      ((Finset.range n).filter fun i => ∃ range ∈ ranges, range.1 ≤ i ∧ i < range.2).card := by
  have slots : fillRanges (List.replicate n false) ranges =
      (List.range n).map fun i => ranges.any fun range => decide (range.1 ≤ i ∧ i < range.2) := by
    rw [fillRanges_eq]
    apply List.ext_getElem
    · simp
    · intro i _ _
      simp
  rw [slots, List.count_eq_countP, List.countP_map, List.countP_eq_length_filter, Finset.card]
  change _ = (((Multiset.range n).filter fun i => ∃ range ∈ ranges, range.1 ≤ i ∧ i < range.2)).card
  rw [Multiset.range, Multiset.filter_coe, Multiset.coe_card]
  congr 2
  funext i
  rw [Bool.eq_iff_iff]
  simp

end Collections
