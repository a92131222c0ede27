import Mathlib.Data.List.Induction
import Mathlib.Data.List.Nodup
import Mathlib.Data.List.Perm.Basic

/-!
`groups key l` puts the elements of a list under their keys, the keys as they were first seen and each group in
the order of the list: what stands under a key is a filter (`groups_eq`), and nothing is lost (`groups_perm`).
-/

namespace Collections
variable {α κ : Type*} [DecidableEq κ]

/-- One more element under its key, which is new or keeps its place. -/
def groupUnder (k : κ) (a : α) : List (κ × List α) → List (κ × List α)
  | [] => [(k, [a])]
  | (k', group) :: rest => if k' = k then (k', group ++ [a]) :: rest else (k', group) :: groupUnder k a rest

def groups (key : α → κ) (l : List α) : List (κ × List α) := l.foldl (fun all a => groupUnder (key a) a all) []

def seeKey (seen : List κ) (k : κ) : List κ := if k ∈ seen then seen else seen ++ [k]

def firstSeen (keys : List κ) : List κ := keys.foldl seeKey []

theorem seeKey_nodup {seen : List κ} (nodup : seen.Nodup) (k : κ) : (seeKey seen k).Nodup := by
  unfold seeKey
  split
  · exact nodup
  · rename_i fresh
    exact List.nodup_append.mpr ⟨nodup, List.nodup_singleton k, fun a member b last same =>
      fresh (List.mem_singleton.mp last ▸ same ▸ member)⟩

theorem mem_seeKey {seen : List κ} {k k' : κ} : k' ∈ seeKey seen k ↔ k' ∈ seen ∨ k' = k := by
  unfold seeKey
  split
  · rename_i known
    exact ⟨Or.inl, fun either => either.elim id fun same => same ▸ known⟩
  · rw [List.mem_append, List.mem_singleton]

theorem firstSeen_append (keys : List κ) (k : κ) : firstSeen (keys ++ [k]) = seeKey (firstSeen keys) k := by
  rw [firstSeen, List.foldl_append]
  rfl

theorem firstSeen_nodup (keys : List κ) : (firstSeen keys).Nodup := by
  induction keys using List.reverseRecOn with
  | nil => exact List.nodup_nil
  | append_singleton keys k ih => exact firstSeen_append keys k ▸ seeKey_nodup ih k

theorem mem_firstSeen {keys : List κ} {k : κ} : k ∈ firstSeen keys ↔ k ∈ keys := by
  induction keys using List.reverseRecOn with
  | nil => exact Iff.rfl
  | append_singleton keys last ih => rw [firstSeen_append, mem_seeKey, ih, List.mem_append, List.mem_singleton]

theorem groupUnder_map {seen : List κ} (nodup : seen.Nodup) {under : κ → List α} {k : κ}
    (fresh : k ∉ seen → under k = []) (a : α) :
    groupUnder k a (seen.map fun k' => (k', under k')) =
      (seeKey seen k).map fun k' => (k', if k' = k then under k' ++ [a] else under k') := by
  induction seen with
  | nil => simp [groupUnder, seeKey, fresh]
  | cons first rest ih =>
    obtain ⟨apart, nodup⟩ := List.nodup_cons.mp nodup
    rw [List.map_cons, groupUnder]
    by_cases same : first = k
    · subst same
      rw [if_pos rfl, seeKey, if_pos List.mem_cons_self, List.map_cons, if_pos rfl]
      congr 1
      refine List.map_congr_left fun k' later => ?_
      rw [if_neg fun same : k' = first => apart (same ▸ later)]
    · have apart' : k ∉ rest → k ∉ first :: rest := fun absent member =>
        (List.mem_cons.mp member).elim (Ne.symm same) absent
      rw [if_neg same, ih nodup fun absent => fresh (apart' absent)]
      unfold seeKey
      by_cases later : k ∈ rest
      · rw [if_pos later, if_pos (List.mem_cons_of_mem _ later), List.map_cons, if_neg same]
      · rw [if_neg later, if_neg (apart' later), List.cons_append, List.map_cons, if_neg same]

theorem groups_eq (key : α → κ) (l : List α) :
    groups key l = (firstSeen (l.map key)).map fun k => (k, l.filter fun a => key a = k) := by
  induction l using List.reverseRecOn with
  | nil => rfl
  | append_singleton l a ih =>
    have step : groups key (l ++ [a]) = groupUnder (key a) a (groups key l) := by
      rw [groups, List.foldl_append]
      rfl
    have fresh : key a ∉ firstSeen (l.map key) → l.filter (fun x => key x = key a) = [] := by
      intro unseen
      refine List.filter_eq_nil_iff.mpr fun x member carries => unseen ?_
      rw [mem_firstSeen, ← of_decide_eq_true carries]
      exact List.mem_map_of_mem member
    rw [step, ih, groupUnder_map (firstSeen_nodup _) fresh, List.map_append, List.map_singleton, firstSeen_append]
    refine List.map_congr_left fun k _ => ?_
    rw [List.filter_append]
    by_cases same : k = key a
    · simp [same]
    · simp [same, Ne.symm same]

theorem groups_keys (key : α → κ) (l : List α) : (groups key l).map Prod.fst = firstSeen (l.map key) := by
  rw [groups_eq, List.map_map]
  exact List.map_id _

theorem groups_nodup (key : α → κ) (l : List α) : ((groups key l).map Prod.fst).Nodup :=
  groups_keys key l ▸ firstSeen_nodup _

theorem mem_groups {key : α → κ} {l : List α} {k : κ} {group : List α} (member : (k, group) ∈ groups key l) :
    group = l.filter (fun a => key a = k) ∧ ∃ a ∈ l, key a = k := by
  rw [groups_eq] at member
  obtain ⟨k', seen, same⟩ := List.mem_map.mp member
  obtain ⟨rfl, rfl⟩ := Prod.mk.inj same
  exact ⟨rfl, List.mem_map.mp (mem_firstSeen.mp seen)⟩

theorem groups_filled {key : α → κ} {l : List α} {entry : κ × List α} (member : entry ∈ groups key l) :
    entry.2 ≠ [] := by
  obtain ⟨group, first, listed, carries⟩ := mem_groups member
  rw [group]
  exact List.ne_nil_of_mem (List.mem_filter.mpr ⟨listed, decide_eq_true carries⟩)

theorem groupUnder_perm (k : κ) (a : α) (all : List (κ × List α)) :
    ((groupUnder k a all).flatMap Prod.snd).Perm (all.flatMap Prod.snd ++ [a]) := by
  induction all with
  | nil => exact List.Perm.refl _
  | cons entry rest ih =>
    obtain ⟨k', group⟩ := entry
    by_cases same : k' = k
    · rw [groupUnder, if_pos same, List.flatMap_cons, List.flatMap_cons]
      dsimp only
      rw [List.append_assoc, List.append_assoc]
      exact List.perm_append_comm.append_left group
    · rw [groupUnder, if_neg same, List.flatMap_cons, List.flatMap_cons, List.append_assoc]
      exact ih.append_left group

theorem groups_perm (key : α → κ) (l : List α) : ((groups key l).flatMap Prod.snd).Perm l := by
  induction l using List.reverseRecOn with
  | nil => exact List.Perm.refl _
  | append_singleton l a ih =>
    have step : groups key (l ++ [a]) = groupUnder (key a) a (groups key l) := by
      rw [groups, List.foldl_append]
      rfl
    rw [step]
    exact (groupUnder_perm (key a) a _).trans (ih.append_right [a])

end Collections
