import Mathlib.Data.List.Sort
import Mathlib.Data.List.Nodup
import Mathlib.Data.List.Rotate
import Mathlib.Order.Basic

/-!
`KeyedMap` is the interface the folds need: reading a key, and replacing the value at a key by a
function of what was there. `get?_foldl_upsert` says that a fold of such updates acts on every key by
itself. `HashMap` keeps its entries in iteration order, `BTreeMap` in key order.
-/

namespace Collections

/-- A finite map read and updated through the entry of one key. -/
class KeyedMap (μ : Type*) (κ ν : outParam Type*) [DecidableEq κ] where
  get? : μ → κ → Option ν
  upsert : μ → κ → (Option ν → ν) → μ
  get?_upsert : ∀ (m : μ) (k : κ) (f : Option ν → ν) (j : κ),
    get? (upsert m k f) j = if j = k then some (f (get? m k)) else get? m j

section Fold
variable {μ κ ν α : Type*} [DecidableEq κ] [KeyedMap μ κ ν]

theorem get?_upsert_self (m : μ) (k : κ) (f : Option ν → ν) :
    KeyedMap.get? (KeyedMap.upsert m k f) k = some (f (KeyedMap.get? m k)) := by
  rw [KeyedMap.get?_upsert, if_pos rfl]

theorem get?_upsert_other (m : μ) (f : Option ν → ν) {j k : κ} (different : j ≠ k) :
    KeyedMap.get? (KeyedMap.upsert m k f) j = KeyedMap.get? m j := by
  rw [KeyedMap.get?_upsert, if_neg different]

/-- A fold of keyed updates acts on each key by itself, through the elements that carry that key. -/
theorem get?_foldl_upsert (key : α → κ) (f : α → Option ν → ν) (xs : List α) (m : μ) (k : κ) :
    KeyedMap.get? (xs.foldl (fun m x => KeyedMap.upsert m (key x) (f x)) m) k =
      (xs.filter (fun x => decide (key x = k))).foldl (fun o x => some (f x o)) (KeyedMap.get? m k) := by
  induction xs generalizing m with
  | nil => rfl
  | cons x xs ih =>
    rw [List.foldl_cons, ih]
    by_cases same : key x = k
    · subst same
      rw [get?_upsert_self, List.filter_cons_of_pos (by simp), List.foldl_cons]
    · rw [get?_upsert_other _ _ (Ne.symm same), List.filter_cons_of_neg (by simpa using same)]

theorem foldl_some_isSome (g : α → Option ν → ν) (xs : List α) (o : Option ν) :
    (xs.foldl (fun o x => some (g x o)) o).isSome = true ↔ o.isSome = true ∨ xs ≠ [] := by
  induction xs generalizing o with
  | nil => simp
  | cons x xs ih => rw [List.foldl_cons, ih]; simp

theorem isSome_get?_foldl_upsert (key : α → κ) (f : α → Option ν → ν) (xs : List α) (m : μ) (k : κ) :
    (KeyedMap.get? (xs.foldl (fun m x => KeyedMap.upsert m (key x) (f x)) m) k).isSome = true ↔
      (KeyedMap.get? m k).isSome = true ∨ ∃ x ∈ xs, key x = k := by
  rw [get?_foldl_upsert, foldl_some_isSome]
  simp [List.filter_eq_nil_iff]

end Fold

section FirstFound
variable {α β : Type*}

/-- A search that stops at its first find gets as far as a marked element. -/
def reaches (marked : α → Bool) (find : α → Option β) : List α → Bool
  | [] => false
  | a :: rest => marked a || ((find a).isNone && reaches marked find rest)

/-- Where every marked element yields `lent`, a search that reaches one of them finds `lent` first, and
what it would find without them after that. -/
theorem findSome?_lent (marked : α → Bool) (find : α → Option β) (lent : Option β) (xs : List α) :
    (xs.findSome? fun a => if marked a then lent else find a) =
      if reaches marked find xs then lent.or (xs.findSome? fun a => if marked a then none else find a)
      else xs.findSome? fun a => if marked a then none else find a := by
  induction xs with
  | nil => rfl
  | cons a rest ih =>
    cases here : marked a with
    | true => cases lent <;> simp [reaches, here]
    | false =>
      cases found : find a with
      | none => simpa [reaches, here, found] using ih
      | some b => simp [reaches, here, found]

end FirstFound

/-! ### Association lists -/

section Assoc
variable {κ ν : Type*} [DecidableEq κ]

def upsertEntry (k : κ) (f : Option ν → ν) : List (κ × ν) → List (κ × ν)
  | [] => [(k, f none)]
  | (j, v) :: rest => if j = k then (j, f (some v)) :: rest else (j, v) :: upsertEntry k f rest

theorem lookup_cons_if (k j : κ) (v : ν) (l : List (κ × ν)) :
    ((j, v) :: l).lookup k = if k = j then some v else l.lookup k := by
  rw [List.lookup_cons]
  by_cases same : k = j
  · simp [same]
  · have other : (k == j) = false := by simpa using same
    rw [other, if_neg same]

theorem mem_iff_lookup {l : List (κ × ν)} (nodup : (l.map Prod.fst).Nodup) (k : κ) (v : ν) :
    (k, v) ∈ l ↔ l.lookup k = some v := by
  induction l with
  | nil => simp
  | cons e l ih =>
    obtain ⟨j, w⟩ := e
    simp only [List.map_cons, List.nodup_cons] at nodup
    rw [lookup_cons_if, List.mem_cons, ih nodup.2]
    by_cases same : k = j
    · subst same
      have absent : l.lookup k ≠ some v := fun found =>
        nodup.1 (List.mem_map.mpr ⟨_, (ih nodup.2).mpr found, rfl⟩)
      simp [absent, eq_comm]
    · simp [same]

theorem lookup_upsertEntry (k : κ) (f : Option ν → ν) (l : List (κ × ν)) (j : κ) :
    (upsertEntry k f l).lookup j = if j = k then some (f (l.lookup k)) else l.lookup j := by
  induction l with
  | nil => rw [upsertEntry, lookup_cons_if]; rfl
  | cons e l ih =>
    obtain ⟨i, v⟩ := e
    unfold upsertEntry
    by_cases head : i = k
    · subst head
      by_cases same : j = i <;> simp [same, lookup_cons_if]
    · rw [if_neg head, lookup_cons_if, lookup_cons_if, lookup_cons_if, ih, if_neg (Ne.symm head)]
      by_cases same : j = i
      · subst same
        rw [if_pos rfl, if_neg head, if_pos rfl]
      · rw [if_neg same, if_neg same]

theorem keys_upsertEntry (k : κ) (f : Option ν → ν) (l : List (κ × ν)) :
    (upsertEntry k f l).map Prod.fst =
      if k ∈ l.map Prod.fst then l.map Prod.fst else l.map Prod.fst ++ [k] := by
  induction l with
  | nil => simp [upsertEntry]
  | cons e l ih =>
    obtain ⟨i, v⟩ := e
    unfold upsertEntry
    by_cases head : i = k
    · subst head; simp
    · rw [if_neg head, List.map_cons, ih]
      by_cases present : k ∈ l.map Prod.fst <;> simp [present, Ne.symm head]

theorem nodup_upsertEntry {l : List (κ × ν)} (nodup : (l.map Prod.fst).Nodup) (k : κ)
    (f : Option ν → ν) : ((upsertEntry k f l).map Prod.fst).Nodup := by
  rw [keys_upsertEntry]
  split
  · exact nodup
  · rename_i absent
    exact List.nodup_append.mpr ⟨nodup, List.nodup_singleton k, by
      intro i member j single
      obtain rfl := List.mem_singleton.mp single
      exact fun same => absent (same ▸ member)⟩

theorem filter_key_eq {l : List (κ × ν)} (nodup : (l.map Prod.fst).Nodup) (k : κ) :
    l.filter (fun e => decide (e.1 = k)) = ((l.lookup k).map fun v => (k, v)).toList := by
  induction l with
  | nil => rfl
  | cons e l ih =>
    obtain ⟨j, v⟩ := e
    obtain ⟨fresh, rest⟩ := List.nodup_cons.mp nodup
    rw [lookup_cons_if]
    by_cases same : j = k
    · subst same
      have absent : l.lookup j = none := by
        rw [List.lookup_eq_none_iff]
        intro e member
        simpa using fun same : j = e.1 => fresh (List.mem_map.mpr ⟨e, member, same.symm⟩)
      rw [List.filter_cons_of_pos (by simp), ih rest, absent, if_pos rfl]
      rfl
    · rw [List.filter_cons_of_neg (by simpa using same), ih rest, if_neg (Ne.symm same)]

theorem lookup_map_values {ξ : Type*} (f : κ → ν → ξ) (l : List (κ × ν)) (k : κ) :
    (l.map (fun e => (e.1, f e.1 e.2))).lookup k = (l.lookup k).map (f k) := by
  induction l with
  | nil => rfl
  | cons e l ih =>
    obtain ⟨j, v⟩ := e
    rw [List.map_cons, lookup_cons_if, lookup_cons_if, ih]
    by_cases same : k = j <;> simp [same]

theorem lookup_perm {l l' : List (κ × ν)} (nodup : (l.map Prod.fst).Nodup) (perm : l'.Perm l) (k : κ) :
    l'.lookup k = l.lookup k := by
  have nodup' : (l'.map Prod.fst).Nodup := (perm.map Prod.fst).nodup_iff.mpr nodup
  apply Option.ext
  intro v
  rw [← mem_iff_lookup nodup', ← mem_iff_lookup nodup, perm.mem_iff]

end Assoc

/-! ### Hash maps -/

/-- A finite map, its entries listed in the order in which they are iterated. -/
@[ext]
structure HashMap (κ ν : Type*) where
  entries : List (κ × ν)
  nodup : (entries.map Prod.fst).Nodup

/-- An iteration order the language leaves open: some rearrangement of the entries. -/
structure IterOrder where
  iter : {κ ν : Type} → List (κ × ν) → List (κ × ν)
  perm : ∀ {κ ν : Type} (l : List (κ × ν)), (iter l).Perm l

def IterOrder.insertion : IterOrder := ⟨fun l => l, fun l => List.Perm.refl l⟩

def IterOrder.turned (k : Nat) : IterOrder := ⟨fun l => l.rotate k, fun l => l.rotate_perm k⟩

namespace HashMap
variable {κ ν : Type*}

def empty : HashMap κ ν := ⟨[], by simp⟩

instance : EmptyCollection (HashMap κ ν) := ⟨empty⟩

def keys (m : HashMap κ ν) : List κ := m.entries.map Prod.fst

def isEmpty (m : HashMap κ ν) : Bool := m.entries.isEmpty

def mapValues {ξ : Type*} (m : HashMap κ ν) (f : κ → ν → ξ) : HashMap κ ξ :=
  ⟨m.entries.map (fun e => (e.1, f e.1 e.2)), by
    have keys : (m.entries.map (fun e => (e.1, f e.1 e.2))).map Prod.fst = m.entries.map Prod.fst := by
      rw [List.map_map]; rfl
    rw [keys]
    exact m.nodup⟩

def Rearranged (m m' : HashMap κ ν) : Prop := m'.entries.Perm m.entries

theorem Rearranged.refl (m : HashMap κ ν) : Rearranged m m := List.Perm.refl _

variable [DecidableEq κ]

def get? (m : HashMap κ ν) (k : κ) : Option ν := m.entries.lookup k

def upsert (m : HashMap κ ν) (k : κ) (f : Option ν → ν) : HashMap κ ν :=
  ⟨upsertEntry k f m.entries, nodup_upsertEntry m.nodup k f⟩

def insert (m : HashMap κ ν) (k : κ) (v : ν) : HashMap κ ν := m.upsert k (fun _ => v)

def orInsert (m : HashMap κ ν) (k : κ) (v : ν) : HashMap κ ν := m.upsert k (fun o => o.getD v)

def reorder {κ ν : Type} (o : IterOrder) (m : HashMap κ ν) : HashMap κ ν :=
  ⟨o.iter m.entries, ((o.perm m.entries).map Prod.fst).nodup_iff.mpr m.nodup⟩

instance : KeyedMap (HashMap κ ν) κ ν where
  get? := get?
  upsert := upsert
  get?_upsert m k f j := lookup_upsertEntry k f m.entries j

theorem get?_eq (m : HashMap κ ν) (k : κ) : KeyedMap.get? m k = m.get? k := rfl

@[simp] theorem get?_empty (k : κ) : (∅ : HashMap κ ν).get? k = none := rfl

theorem get?_insert (m : HashMap κ ν) (k : κ) (v : ν) (j : κ) :
    (m.insert k v).get? j = if j = k then some v else m.get? j :=
  lookup_upsertEntry k (fun _ => v) m.entries j

theorem mem_entries (m : HashMap κ ν) (k : κ) (v : ν) : (k, v) ∈ m.entries ↔ m.get? k = some v :=
  mem_iff_lookup m.nodup k v

theorem mem_keys (m : HashMap κ ν) (k : κ) : k ∈ m.keys ↔ (m.get? k).isSome = true := by
  rw [Option.isSome_iff_exists]
  simp only [keys, List.mem_map, Prod.exists, ← mem_entries]
  exact ⟨fun ⟨_, v, member, same⟩ => ⟨v, same ▸ member⟩, fun ⟨v, member⟩ => ⟨k, v, member, rfl⟩⟩

theorem get?_foldl_orInsert {α : Type*} (key : α → κ) (value : α → ν) (xs : List α) (m : HashMap κ ν) (k : κ) :
    (xs.foldl (fun m x => m.orInsert (key x) (value x)) m).get? k =
      (m.get? k).or ((xs.find? fun x => decide (key x = k)).map value) := by
  induction xs generalizing m with
  | nil => simp
  | cons x xs ih =>
    have here : (m.orInsert (key x) (value x)).get? k =
        if k = key x then some ((m.get? (key x)).getD (value x)) else m.get? k :=
      lookup_upsertEntry (key x) _ m.entries k
    rw [List.foldl_cons, ih, here]
    by_cases same : key x = k
    · subst same
      cases m.get? (key x) <;> simp
    · rw [if_neg (Ne.symm same), List.find?_cons_of_neg (by simpa using same)]

theorem Rearranged.get?_eq {m m' : HashMap κ ν} (same : Rearranged m m') (k : κ) : m'.get? k = m.get? k :=
  lookup_perm m.nodup same k

theorem isEmpty_iff (m : HashMap κ ν) : m.isEmpty = true ↔ ∀ k, m.get? k = none := by
  rw [isEmpty, List.isEmpty_iff]
  constructor
  · intro none k
    simp [get?, none]
  · intro absent
    apply List.eq_nil_iff_forall_not_mem.mpr
    rintro ⟨k, v⟩ member
    rw [mem_entries, absent k] at member
    cases member

theorem get?_mapValues {ξ : Type*} (m : HashMap κ ν) (f : κ → ν → ξ) (k : κ) :
    (m.mapValues f).get? k = (m.get? k).map (f k) :=
  lookup_map_values f m.entries k

theorem get?_reorder {κ ν : Type} [DecidableEq κ] (o : IterOrder) (m : HashMap κ ν) (k : κ) :
    (m.reorder o).get? k = m.get? k :=
  lookup_perm m.nodup (o.perm m.entries) k

end HashMap

end Collections
