import Mathlib.Data.List.Basic

/-!
A loop body that traps on some elements and computes on the others runs to the end exactly when no
element traps, and then does what the total body does.
-/

namespace Collections
variable {α β : Type*}

theorem foldlM_guarded {f : β → α → Option β} {g : β → α → β} {P : α → Prop}
    (pass : ∀ b a, P a → f b a = some (g b a)) (trap : ∀ b a, ¬ P a → f b a = none)
    (xs : List α) (init : β) (r : β) :
    xs.foldlM f init = some r ↔ (∀ x ∈ xs, P x) ∧ r = xs.foldl g init := by
  induction xs generalizing init with
  | nil => simp [eq_comm]
  | cons x xs ih =>
    rw [List.foldlM_cons, List.foldl_cons]
    by_cases ok : P x
    · rw [pass init x ok]
      simp [ih, ok]
    · rw [trap init x ok]
      simp [ok]

theorem mapM_guarded {f : α → Option β} {g : α → β} {P : α → Prop}
    (pass : ∀ a, P a → f a = some (g a)) (trap : ∀ a, ¬ P a → f a = none)
    (xs : List α) (r : List β) :
    xs.mapM f = some r ↔ (∀ x ∈ xs, P x) ∧ r = xs.map g := by
  induction xs generalizing r with
  | nil => simp [eq_comm]
  | cons x xs ih =>
    rw [List.mapM_cons, List.map_cons]
    by_cases ok : P x
    · rw [pass x ok]
      cases rest : xs.mapM f with
      | none =>
        have stuck : ¬ ∀ y ∈ xs, P y := fun all => by
          have := (ih (xs.map g)).mpr ⟨all, rfl⟩
          rw [rest] at this
          cases this
        simp [stuck]
      | some ys =>
        obtain ⟨all, rfl⟩ := (ih ys).mp rest
        have every : ∀ y ∈ x :: xs, P y := by
          intro y member
          rcases List.mem_cons.mp member with rfl | member
          · exact ok
          · exact all y member
        simp only [Option.bind_eq_bind, Option.bind_some, Option.pure_def, Option.some.injEq]
        exact ⟨fun same => ⟨every, same.symm⟩, fun both => both.2.symm⟩
    · rw [trap x ok]
      simp [ok]

end Collections
