import KwaaiNetMap.Collections.KeyedMap
import Mathlib.Data.Finset.Sort
import Mathlib.Data.Int.Interval

/-!
`BTreeMap` keeps its entries strictly ascending by key; a `BTreeSet` is a `BTreeMap` to `Unit`. The
order is a field, so that whatever iterates one sees its keys in order and once.
-/

namespace Collections
variable {κ ν : Type*} [LinearOrder κ]

def upsertSorted (k : κ) (f : Option ν → ν) : List (κ × ν) → List (κ × ν)
  | [] => [(k, f none)]
  | (j, v) :: rest =>
    if k < j then (k, f none) :: (j, v) :: rest
    else if j = k then (j, f (some v)) :: rest
    else (j, v) :: upsertSorted k f rest

def Ascending (l : List (κ × ν)) : Prop := l.Pairwise (fun a b => a.1 < b.1)

theorem ascending_nodup {l : List (κ × ν)} (sorted : Ascending l) : (l.map Prod.fst).Nodup :=
  List.pairwise_map.mpr (sorted.imp fun lt => ne_of_lt lt)

theorem mem_keys_upsertSorted {k i : κ} {f : Option ν → ν} {l : List (κ × ν)}
    (member : i ∈ (upsertSorted k f l).map Prod.fst) : i = k ∨ i ∈ l.map Prod.fst := by
  induction l with
  | nil => exact Or.inl (by simpa [upsertSorted] using member)
  | cons e l ih =>
    obtain ⟨j, v⟩ := e
    unfold upsertSorted at member
    split at member
    · simpa using member
    · split at member
      · exact Or.inr (by simpa using member)
      · rcases List.mem_cons.mp member with head | tail
        · exact Or.inr (List.mem_cons.mpr (Or.inl head))
        · exact (ih tail).imp_right (List.mem_cons_of_mem _)

theorem ascending_upsertSorted {l : List (κ × ν)} (sorted : Ascending l) (k : κ) (f : Option ν → ν) :
    Ascending (upsertSorted k f l) := by
  induction l with
  | nil => exact List.pairwise_singleton _ _
  | cons e l ih =>
    obtain ⟨j, v⟩ := e
    obtain ⟨above, rest⟩ := List.pairwise_cons.mp sorted
    unfold upsertSorted
    split
    · rename_i before
      refine List.pairwise_cons.mpr ⟨?_, sorted⟩
      intro b member
      rcases List.mem_cons.mp member with rfl | member
      · exact before
      · exact lt_trans before (above b member)
    · split
      · exact List.pairwise_cons.mpr ⟨above, rest⟩
      · rename_i notBefore other
        refine List.pairwise_cons.mpr ⟨?_, ih rest⟩
        intro b member
        have key : b.1 ∈ (upsertSorted k f l).map Prod.fst := List.mem_map_of_mem member
        rcases mem_keys_upsertSorted key with fresh | old
        · exact fresh ▸ lt_of_le_of_ne (not_lt.mp notBefore) other
        · obtain ⟨c, present, same⟩ := List.mem_map.mp old
          exact same ▸ above c present

theorem lookup_eq_none_of_lt {l : List (κ × ν)} {k : κ} (below : ∀ b ∈ l, k < b.1) :
    l.lookup k = none := by
  rw [List.lookup_eq_none_iff]
  intro b member
  simpa using ne_of_lt (below b member)

theorem lookup_upsertSorted {l : List (κ × ν)} (sorted : Ascending l) (k : κ) (f : Option ν → ν)
    (i : κ) : (upsertSorted k f l).lookup i = if i = k then some (f (l.lookup k)) else l.lookup i := by
  induction l with
  | nil => rw [upsertSorted, lookup_cons_if]; rfl
  | cons e l ih =>
    obtain ⟨j, v⟩ := e
    obtain ⟨above, rest⟩ := List.pairwise_cons.mp sorted
    unfold upsertSorted
    split
    · rename_i before
      have absent : ((j, v) :: l).lookup k = none := by
        apply lookup_eq_none_of_lt
        intro b member
        rcases List.mem_cons.mp member with rfl | member
        · exact before
        · exact lt_trans before (above b member)
      rw [lookup_cons_if, absent]
    · split
      · rename_i same
        subst same
        by_cases at_key : i = j <;> simp [at_key, lookup_cons_if]
      · rename_i other
        rw [lookup_cons_if, lookup_cons_if, lookup_cons_if, ih rest, if_neg (Ne.symm other)]
        by_cases head : i = j
        · subst head
          rw [if_pos rfl, if_neg other, if_pos rfl]
        · rw [if_neg head, if_neg head]

theorem upsertSorted_lookup {l : List (κ × ν)} (sorted : Ascending l) (k : κ) (f : Option ν → ν) :
    upsertSorted k (fun _ => f (l.lookup k)) l = upsertSorted k f l := by
  induction l with
  | nil => rfl
  | cons e l ih =>
    obtain ⟨j, v⟩ := e
    obtain ⟨above, rest⟩ := List.pairwise_cons.mp sorted
    unfold upsertSorted
    rw [lookup_cons_if]
    by_cases before : k < j
    · have absent : l.lookup k = none :=
        lookup_eq_none_of_lt fun b member => lt_trans before (above b member)
      rw [if_pos before, if_pos before, if_neg (ne_of_lt before), absent]
    · rw [if_neg before, if_neg before]
      by_cases same : j = k
      · rw [if_pos same, if_pos same, if_pos same.symm]
      · rw [if_neg same, if_neg same, if_neg (Ne.symm same), ih rest]

/-- A finite map, its entries strictly ascending by key. -/
@[ext]
structure BTreeMap (κ ν : Type*) [LinearOrder κ] where
  entries : List (κ × ν)
  sorted : Ascending entries

namespace BTreeMap

def empty : BTreeMap κ ν := ⟨[], List.Pairwise.nil⟩

instance : EmptyCollection (BTreeMap κ ν) := ⟨empty⟩

def get? (m : BTreeMap κ ν) (k : κ) : Option ν := m.entries.lookup k

def upsert (m : BTreeMap κ ν) (k : κ) (f : Option ν → ν) : BTreeMap κ ν :=
  ⟨upsertSorted k f m.entries, ascending_upsertSorted m.sorted k f⟩

def insert (m : BTreeMap κ ν) (k : κ) (v : ν) : BTreeMap κ ν := m.upsert k (fun _ => v)

def orInsert (m : BTreeMap κ ν) (k : κ) (v : ν) : BTreeMap κ ν := m.upsert k (fun o => o.getD v)

def keys (m : BTreeMap κ ν) : List κ := m.entries.map Prod.fst

def values (m : BTreeMap κ ν) : List ν := m.entries.map Prod.snd

def isEmpty (m : BTreeMap κ ν) : Bool := m.entries.isEmpty

def mapValues {ξ : Type*} (m : BTreeMap κ ν) (f : κ → ν → ξ) : BTreeMap κ ξ :=
  ⟨m.entries.map (fun e => (e.1, f e.1 e.2)), by
    rw [Ascending, List.pairwise_map]
    exact m.sorted⟩

instance : KeyedMap (BTreeMap κ ν) κ ν where
  get? := get?
  upsert := upsert
  get?_upsert m k f j := lookup_upsertSorted m.sorted k f j

@[simp] theorem get?_empty (k : κ) : (∅ : BTreeMap κ ν).get? k = none := rfl

theorem get?_upsert (m : BTreeMap κ ν) (k : κ) (f : Option ν → ν) (j : κ) :
    (m.upsert k f).get? j = if j = k then some (f (m.get? k)) else m.get? j :=
  lookup_upsertSorted m.sorted k f j

theorem get?_foldl_orInsert {α : Type*} (key : α → κ) (value : α → ν) (xs : List α) (m : BTreeMap κ ν) (k : κ) :
    (xs.foldl (fun m x => m.orInsert (key x) (value x)) m).get? k =
      (m.get? k).or ((xs.find? fun x => decide (key x = k)).map value) := by
  induction xs generalizing m with
  | nil => simp
  | cons x xs ih =>
    rw [List.foldl_cons, ih, orInsert, get?_upsert]
    by_cases same : key x = k
    · subst same
      cases m.get? (key x) <;> simp
    · rw [if_neg (Ne.symm same), List.find?_cons_of_neg (by simpa using same)]

theorem insert_eq_upsert (m : BTreeMap κ ν) (k : κ) (f : Option ν → ν) :
    m.insert k (f (m.get? k)) = m.upsert k f :=
  BTreeMap.ext (upsertSorted_lookup m.sorted k f)

theorem get?_mapValues {ξ : Type*} (m : BTreeMap κ ν) (f : κ → ν → ξ) (k : κ) :
    (m.mapValues f).get? k = (m.get? k).map (f k) :=
  lookup_map_values f m.entries k

theorem mem_entries (m : BTreeMap κ ν) (k : κ) (v : ν) : (k, v) ∈ m.entries ↔ m.get? k = some v :=
  mem_iff_lookup (ascending_nodup m.sorted) k v

theorem ext_get? {m m' : BTreeMap κ ν} (same : ∀ k, m.get? k = m'.get? k) : m = m' := by
  have distinct (m : BTreeMap κ ν) : m.entries.Nodup := (ascending_nodup m.sorted).of_map _
  have listed : m.entries.Perm m'.entries := by
    refine (List.perm_ext_iff_of_nodup (distinct m) (distinct m')).mpr fun e => ?_
    rw [show e = (e.1, e.2) from rfl, mem_entries, mem_entries, same]
  apply BTreeMap.ext
  refine List.Perm.eq_of_pairwise ?_ m.sorted m'.sorted listed
  intro a b _ _ before after
  exact absurd (lt_trans before after) (lt_irrefl a.1)

theorem keys_sorted (m : BTreeMap κ ν) : m.keys.Pairwise (· < ·) :=
  List.pairwise_map.mpr m.sorted

theorem mem_keys (m : BTreeMap κ ν) (k : κ) : k ∈ m.keys ↔ (m.get? k).isSome = true := by
  rw [Option.isSome_iff_exists]
  simp only [keys, List.mem_map, Prod.exists, ← mem_entries]
  exact ⟨fun ⟨_, v, member, same⟩ => ⟨v, same ▸ member⟩, fun ⟨v, member⟩ => ⟨k, v, member, rfl⟩⟩

end BTreeMap

abbrev BTreeSet (κ : Type*) [LinearOrder κ] := BTreeMap κ Unit

namespace BTreeSet

def insert (s : BTreeSet κ) (a : κ) : BTreeSet κ := s.upsert a (fun _ => ())

def extend (s : BTreeSet κ) (items : List κ) : BTreeSet κ := items.foldl insert s

def ofList (items : List κ) : BTreeSet κ := extend ∅ items

def contains (s : BTreeSet κ) (a : κ) : Bool := (s.get? a).isSome

def items (s : BTreeSet κ) : List κ := BTreeMap.keys s

def len (s : BTreeSet κ) : Nat := s.entries.length

theorem contains_iff_mem_items (s : BTreeSet κ) (a : κ) : s.contains a = true ↔ a ∈ s.items :=
  (BTreeMap.mem_keys s a).symm

@[simp] theorem mem_items_empty (a : κ) : ¬ a ∈ items (∅ : BTreeSet κ) := List.not_mem_nil

theorem mem_items_insert (s : BTreeSet κ) (a b : κ) : b ∈ (insert s a).items ↔ b = a ∨ b ∈ s.items := by
  rw [← contains_iff_mem_items, ← contains_iff_mem_items, contains, contains, insert, BTreeMap.get?_upsert]
  by_cases same : b = a <;> simp [same]

theorem mem_items_extend (s : BTreeSet κ) (xs : List κ) (b : κ) :
    b ∈ (extend s xs).items ↔ b ∈ s.items ∨ b ∈ xs := by
  induction xs generalizing s with
  | nil => simp [extend]
  | cons x xs ih =>
    have step : extend s (x :: xs) = extend (insert s x) xs := rfl
    rw [step, ih, mem_items_insert, List.mem_cons]
    tauto

theorem mem_items_ofList (xs : List κ) (b : κ) : b ∈ (ofList xs).items ↔ b ∈ xs := by
  rw [ofList, mem_items_extend]
  simp

theorem ext_items {s t : BTreeSet κ} (same : ∀ a, a ∈ s.items ↔ a ∈ t.items) : s = t := by
  apply BTreeMap.ext_get?
  intro a
  have member := same a
  rw [← contains_iff_mem_items, ← contains_iff_mem_items, contains, contains] at member
  rcases here : s.get? a with _ | ⟨⟩ <;> rcases there : t.get? a with _ | ⟨⟩ <;> simp [here, there] at member ⊢

theorem items_sorted (s : BTreeSet κ) : s.items.Pairwise (· < ·) := BTreeMap.keys_sorted s

theorem items_nodup (s : BTreeSet κ) : s.items.Nodup := ascending_nodup s.sorted

theorem len_eq_card (s : BTreeSet κ) : len s = s.items.toFinset.card := by
  rw [List.toFinset_card_of_nodup s.items_nodup, len, items, BTreeMap.keys, List.length_map]

theorem len_eq_card_range {s : BTreeSet Int} {n : Nat} (within : ∀ b ∈ s.items, 0 ≤ b ∧ b < (n : Int)) :
    len s = ((Finset.range n).filter fun b : Nat => (b : Int) ∈ s.items).card := by
  have image : s.items.toFinset =
      ((Finset.range n).filter fun b : Nat => (b : Int) ∈ s.items).image fun b : Nat => (b : Int) := by
    ext b
    simp only [List.mem_toFinset, Finset.mem_image, Finset.mem_filter, Finset.mem_range]
    constructor
    · intro member
      obtain ⟨low, high⟩ := within b member
      obtain ⟨k, rfl⟩ := Int.eq_ofNat_of_zero_le low
      exact ⟨k, ⟨Int.ofNat_lt.mp high, member⟩, rfl⟩
    · rintro ⟨k, ⟨-, member⟩, rfl⟩
      exact member
  rw [len_eq_card, image, Finset.card_image_of_injective _ Nat.cast_injective]

theorem len_eq_iff_full {s : BTreeSet Int} {n : Nat} (within : ∀ b ∈ s.items, 0 ≤ b ∧ b < (n : Int)) :
    len s = n ↔ ∀ b : Int, 0 ≤ b → b < (n : Int) → b ∈ s.items := by
  have full := Finset.card_filter_eq_iff (s := Finset.range n) (p := fun b : Nat => (b : Int) ∈ s.items)
  rw [Finset.card_range, ← len_eq_card_range within] at full
  rw [full]
  constructor
  · intro all b low high
    obtain ⟨k, rfl⟩ := Int.eq_ofNat_of_zero_le low
    exact all k (Finset.mem_range.mpr (Int.ofNat_lt.mp high))
  · intro all b below
    exact all b (Int.natCast_nonneg b) (Int.ofNat_lt.mpr (Finset.mem_range.mp below))

theorem len_le_of_within {s : BTreeSet Int} {n : Nat} (within : ∀ b ∈ s.items, 0 ≤ b ∧ b < (n : Int)) :
    len s ≤ n := by
  rw [len_eq_card_range within]
  exact (Finset.card_filter_le _ _).trans (Finset.card_range n).le

end BTreeSet

end Collections
