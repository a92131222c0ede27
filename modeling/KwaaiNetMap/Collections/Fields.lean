import KwaaiNetMap.Collections.KeyedMap

/-!
An object is written from a list of named fields, each with a value or left out (`present`), and read one
name at a time (`member`). With distinct names, what is read under a name is what was written
(`member_present`).
-/

namespace Collections
variable {κ ν α β : Type*} [DecidableEq κ]

def present (fields : List (κ × Option ν)) : List (κ × ν) :=
  fields.filterMap fun f => f.2.map fun v => (f.1, v)

/-- The value of the one field of a name, if there is one; two fields of one name are refused. -/
def member (fields : List (κ × ν)) (name : κ) : Option (Option ν) :=
  match fields.filter fun f => decide (f.1 = name) with
  | [] => some none
  | [f] => some (some f.2)
  | _ => none

omit [DecidableEq κ] in
theorem present_cons (name : κ) (o : Option ν) (rest : List (κ × Option ν)) :
    present ((name, o) :: rest) = (o.map fun v => (name, v)).toList ++ present rest := by
  cases o <;> rfl

omit [DecidableEq κ] in
theorem map_present (f : ν → α) (fields : List (κ × Option ν)) :
    (present fields).map (fun e => (e.1, f e.2)) = present (fields.map fun e => (e.1, e.2.map f)) := by
  induction fields with
  | nil => rfl
  | cons e rest ih =>
    obtain ⟨name, o⟩ := e
    rw [present_cons, List.map_append, ih, List.map_cons, present_cons]
    cases o <;> rfl

theorem filter_present {fields : List (κ × Option ν)} (nodup : (fields.map Prod.fst).Nodup) (name : κ) :
    (present fields).filter (fun f => decide (f.1 = name)) =
      ((fields.lookup name).join.map fun v => (name, v)).toList := by
  have kept : (present fields).filter (fun f => decide (f.1 = name)) =
      present (fields.filter fun f => decide (f.1 = name)) := by
    unfold present
    rw [List.filter_filterMap, List.filterMap_filter]
    refine List.filterMap_congr fun e _ => ?_
    by_cases here : e.1 = name <;> cases e.2 <;> simp [here]
  rw [kept, filter_key_eq nodup]
  rcases fields.lookup name with _ | _ | v <;> rfl

theorem member_present {fields : List (κ × Option ν)} (nodup : (fields.map Prod.fst).Nodup) (name : κ) :
    member (present fields) name = some (fields.lookup name).join := by
  unfold member
  rw [filter_present nodup]
  cases (fields.lookup name).join <;> rfl

theorem mapM_map_eq_some_iff (write : α → ν) (read : ν → Option β) (back : α → β) (l : List α) :
    (l.map write).mapM read = some (l.map back) ↔ ∀ a ∈ l, read (write a) = some (back a) := by
  induction l with
  | nil => simp
  | cons a l ih =>
    simp only [List.map_cons, List.mapM_cons, Option.bind_eq_bind, Option.bind_eq_some_iff, Option.pure_def,
      Option.some.injEq, List.cons.injEq, List.forall_mem_cons, ← ih]
    constructor
    · rintro ⟨b, first, bs, rest, rfl, rfl⟩
      exact ⟨first, rest⟩
    · rintro ⟨first, rest⟩
      exact ⟨_, first, _, rest, rfl, rfl⟩

end Collections
