import KwaaiNetMap.Systems.Runs
import Mathlib.Logic.Function.Basic

/-!
A client asks about several keys at once and remembers what it is answered. If it asks only about keys it
knows nothing of, and is answered only about keys it asked for, then no key is asked about again once it was
answered (`asked_once`), and what it knows never changes (`foldl_learn_keeps`).
-/

namespace Systems
variable {κ ν : Type*} [DecidableEq κ]

structure Ask (κ ν : Type*) where
  keys : List κ
  answers : List (κ × ν)

def remember (known : κ → Option ν) (answer : κ × ν) : κ → Option ν :=
  Function.update known answer.1 (some answer.2)

def learn (known : κ → Option ν) (ask : Ask κ ν) : κ → Option ν :=
  ask.answers.foldl remember known

def Prudent (known : κ → Option ν) (ask : Ask κ ν) : Prop :=
  (∀ k ∈ ask.keys, known k = none) ∧ ∀ answer ∈ ask.answers, answer.1 ∈ ask.keys

theorem foldl_remember_isSome (answers : List (κ × ν)) (known : κ → Option ν) (k : κ) :
    (answers.foldl remember known k).isSome = true ↔
      (known k).isSome = true ∨ k ∈ answers.map Prod.fst := by
  induction answers generalizing known with
  | nil => simp
  | cons answer answers ih =>
    rw [List.foldl_cons, ih, List.map_cons, List.mem_cons]
    by_cases here : k = answer.1
    · subst here
      simp [remember]
    · rw [remember, Function.update_of_ne here]
      simp [here]

theorem foldl_remember_other {answers : List (κ × ν)} {k : κ} (other : k ∉ answers.map Prod.fst)
    (known : κ → Option ν) :
    answers.foldl remember known k = known k := by
  induction answers generalizing known with
  | nil => rfl
  | cons answer answers ih =>
    rw [List.map_cons, List.mem_cons, not_or] at other
    rw [List.foldl_cons, ih other.2, remember, Function.update_of_ne other.1]

theorem foldl_remember_cases {answers : List (κ × ν)} {known : κ → Option ν} {k : κ} {v : ν}
    (held : answers.foldl remember known k = some v) : known k = some v ∨ (k, v) ∈ answers := by
  induction answers generalizing known with
  | nil => exact Or.inl held
  | cons answer answers ih =>
    rcases ih held with before | later
    · by_cases here : k = answer.1
      · subst here
        rw [remember, Function.update_self] at before
        obtain rfl := Option.some.inj before
        exact Or.inr List.mem_cons_self
      · rw [remember, Function.update_of_ne here] at before
        exact Or.inl before
    · exact Or.inr (List.mem_cons_of_mem _ later)

section
variable {known : κ → Option ν} {ask : Ask κ ν} {asks : List (Ask κ ν)} {k : κ} {v : ν}

theorem learn_answered {answer : κ × ν} (answered : answer ∈ ask.answers) :
    (learn known ask answer.1).isSome = true :=
  (foldl_remember_isSome ask.answers known answer.1).mpr (Or.inr (List.mem_map_of_mem answered))

theorem learn_keeps (prudent : Prudent known ask) (before : known k = some v) : learn known ask k = some v := by
  have other : k ∉ ask.answers.map Prod.fst := by
    intro answered
    obtain ⟨answer, member, same⟩ := List.mem_map.mp answered
    have unknown := prudent.1 answer.1 (prudent.2 answer member)
    rw [same, before] at unknown
    cases unknown
  rw [learn, foldl_remember_other other, before]

theorem foldl_learn_keeps (prudent : Along learn Prudent known asks) (before : known k = some v) :
    asks.foldl learn known k = some v := by
  induction asks generalizing known with
  | nil => exact before
  | cons ask asks ih => exact ih prudent.2 (learn_keeps prudent.1 before)

theorem foldl_learn_other (silent : ∀ ask ∈ asks, k ∉ ask.answers.map Prod.fst) :
    asks.foldl learn known k = known k := by
  induction asks generalizing known with
  | nil => rfl
  | cons ask asks ih =>
    rw [List.foldl_cons, ih fun later member => silent later (List.mem_cons_of_mem _ member), learn,
      foldl_remember_other (silent ask List.mem_cons_self)]

theorem foldl_learn_cases (held : asks.foldl learn known k = some v) :
    known k = some v ∨ ∃ ask ∈ asks, (k, v) ∈ ask.answers := by
  induction asks generalizing known with
  | nil => exact Or.inl held
  | cons ask asks ih =>
    rcases ih held with before | ⟨later, member, answered⟩
    · rcases foldl_remember_cases before with earlier | now
      · exact Or.inl earlier
      · exact Or.inr ⟨ask, List.mem_cons_self, now⟩
    · exact Or.inr ⟨later, List.mem_cons_of_mem _ member, answered⟩

theorem unknown_of_asked (prudent : Along learn Prudent known asks) {later : Ask κ ν} (member : later ∈ asks)
    (asked : k ∈ later.keys) : known k = none := by
  induction asks generalizing known with
  | nil => cases member
  | cons ask asks ih =>
    rcases List.mem_cons.mp member with rfl | member
    · exact prudent.1.1 k asked
    · cases before : known k with
      | none => rfl
      | some v =>
        have still := learn_keeps prudent.1 before
        rw [ih prudent.2 member] at still
        cases still

/-- Nothing is asked about after it was answered. -/
theorem asked_once (prudent : Along learn Prudent known asks) :
    asks.Pairwise fun earlier later => ∀ answer ∈ earlier.answers, answer.1 ∉ later.keys := by
  induction asks generalizing known with
  | nil => exact List.Pairwise.nil
  | cons ask asks ih =>
    refine List.pairwise_cons.mpr ⟨?_, ih prudent.2⟩
    intro later member answer answered asked
    have learned := @learn_answered _ _ _ known _ _ answered
    rw [unknown_of_asked prudent.2 member asked] at learned
    cases learned

end

end Systems
