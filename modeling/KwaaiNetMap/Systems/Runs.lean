import Mathlib.Data.List.Basic

/-!
A system takes a step on an event or refuses it. A run is a list of events none of which is refused.
What every step keeps, a run keeps (`run_invariant`); what a run loses, one of its steps took
(`run_kept_or_taken`), and what a step makes of a part of the state, a run folds (`run_foldl`).
`Meets` says what each step of a run meets, and `Along` the same where no event is refused; `runFar` goes as far
as the system does.
-/

namespace Systems
variable {σ ε : Type*} (step : σ → ε → Option σ)

def run (s : σ) (events : List ε) : Option σ := events.foldlM step s

theorem run_cons {s t : σ} {e : ε} {events : List ε} :
    run step s (e :: events) = some t ↔ ∃ m, step s e = some m ∧ run step m events = some t := by
  rw [run, List.foldlM_cons]
  exact Option.bind_eq_some_iff

theorem run_append {s t : σ} {before after : List ε} :
    run step s (before ++ after) = some t ↔
      ∃ m, run step s before = some m ∧ run step m after = some t := by
  rw [run, List.foldlM_append]
  exact Option.bind_eq_some_iff

variable {step}

theorem run_invariant {I : σ → Prop} (kept : ∀ s e t, I s → step s e = some t → I t)
    {s t : σ} {events : List ε} (ran : run step s events = some t) (holds : I s) : I t := by
  induction events generalizing s with
  | nil => exact Option.some.inj ran ▸ holds
  | cons e events ih =>
    obtain ⟨m, stepped, rest⟩ := (run_cons step).mp ran
    exact ih rest (kept s e m holds stepped)

theorem run_foldl {α : Type*} (part : σ → α) (next : α → ε → α)
    (stepped : ∀ s e t, step s e = some t → part t = next (part s) e) {s t : σ} {events : List ε}
    (ran : run step s events = some t) : part t = events.foldl next (part s) := by
  induction events generalizing s with
  | nil => rw [List.foldl_nil, Option.some.inj ran]
  | cons e events ih =>
    obtain ⟨m, first, rest⟩ := (run_cons step).mp ran
    rw [List.foldl_cons, ih rest, stepped s e m first]

theorem run_excludes {I : σ → Prop} {e : ε} (kept : ∀ s e t, I s → step s e = some t → I t)
    (refused : ∀ s, I s → step s e = none) {s t : σ} {events : List ε}
    (ran : run step s events = some t) (holds : I s) : e ∉ events := by
  intro member
  obtain ⟨before, after, rfl⟩ := List.append_of_mem member
  obtain ⟨m, first, rest⟩ := (run_append step).mp ran
  obtain ⟨n, stepped, -⟩ := (run_cons step).mp rest
  rw [refused m (run_invariant kept first holds)] at stepped
  cases stepped

/-- Whatever every step keeps or is blamed for, a run keeps, or one of its steps is blamed. -/
theorem run_kept_or_taken {P : σ → Prop} {Taken : σ → ε → Prop}
    (kept : ∀ s e t, P s → step s e = some t → P t ∨ Taken s e) {s t : σ} {events : List ε}
    (ran : run step s events = some t) (holds : P s) :
    P t ∨ ∃ before e after m, events = before ++ e :: after ∧ run step s before = some m ∧ P m ∧
      Taken m e := by
  induction events generalizing s with
  | nil => exact Or.inl (Option.some.inj ran ▸ holds)
  | cons e events ih =>
    obtain ⟨m, stepped, rest⟩ := (run_cons step).mp ran
    rcases kept s e m holds stepped with still | taken
    · rcases ih rest still with final | ⟨before, e', after, n, split, first, at_n, taken⟩
      · exact Or.inl final
      · exact Or.inr ⟨e :: before, e', after, n, by rw [split]; rfl,
          (run_cons step).mpr ⟨m, stepped, first⟩, at_n, taken⟩
    · exact Or.inr ⟨[], e, events, s, rfl, rfl, holds, taken⟩

/-! ### What every step of a run meets -/

/-- Every step meets `P` in the state it finds, as far as the run goes. -/
def Meets (step : σ → ε → Option σ) (P : σ → ε → Prop) : σ → List ε → Prop
  | _, [] => True
  | s, e :: events => P s e ∧ ∀ t, step s e = some t → Meets step P t events

theorem meets_of_all {P : σ → ε → Prop} {events : List ε} (all : ∀ e ∈ events, ∀ s, P s e) (s : σ) :
    Meets step P s events := by
  induction events generalizing s with
  | nil => trivial
  | cons e events ih =>
    exact ⟨all e List.mem_cons_self s, fun t _ => ih (fun e member => all e (List.mem_cons_of_mem _ member)) t⟩

theorem meets_append {P : σ → ε → Prop} {before after : List ε} {s : σ} :
    Meets step P s (before ++ after) ↔
      Meets step P s before ∧ ∀ m, run step s before = some m → Meets step P m after := by
  induction before generalizing s with
  | nil => exact ⟨fun meets => ⟨trivial, fun m same => Option.some.inj same ▸ meets⟩, fun meets => meets.2 s rfl⟩
  | cons e before ih =>
    constructor
    · rintro ⟨here, later⟩
      refine ⟨⟨here, fun t stepped => (ih.mp (later t stepped)).1⟩, fun m ran => ?_⟩
      obtain ⟨t, stepped, rest⟩ := (run_cons step).mp ran
      exact (ih.mp (later t stepped)).2 m rest
    · rintro ⟨⟨here, first⟩, later⟩
      refine ⟨here, fun t stepped => ih.mpr ⟨first t stepped, fun m rest => ?_⟩⟩
      exact later m ((run_cons step).mpr ⟨t, stepped, rest⟩)

theorem run_invariant_meeting {I : σ → Prop} {P : σ → ε → Prop}
    (kept : ∀ s e t, I s → P s e → step s e = some t → I t) {s t : σ} {events : List ε}
    (ran : run step s events = some t) (meets : Meets step P s events) (holds : I s) : I t := by
  induction events generalizing s with
  | nil => exact Option.some.inj ran ▸ holds
  | cons e events ih =>
    obtain ⟨m, stepped, rest⟩ := (run_cons step).mp ran
    exact ih rest (meets.2 m stepped) (kept s e m holds meets.1 stepped)

def Along (next : σ → ε → σ) (P : σ → ε → Prop) : σ → List ε → Prop
  | _, [] => True
  | s, e :: events => P s e ∧ Along next P (next s e) events

theorem along_append {next : σ → ε → σ} {P : σ → ε → Prop} {s : σ} {before after : List ε} :
    Along next P s (before ++ after) ↔ Along next P s before ∧ Along next P (before.foldl next s) after := by
  induction before generalizing s with
  | nil => exact ⟨fun all => ⟨trivial, all⟩, And.right⟩
  | cons e before ih =>
    rw [List.cons_append, List.foldl_cons]
    constructor
    · intro all
      obtain ⟨first, rest⟩ := ih.mp all.2
      exact ⟨⟨all.1, first⟩, rest⟩
    · intro both
      exact ⟨both.1.1, ih.mpr ⟨both.1.2, both.2⟩⟩

/-- Two conditions on steps that agree wherever an invariant holds agree on whole runs, when steps that
meet the first keep the invariant. -/
theorem along_iff {next : σ → ε → σ} {I : σ → Prop} {P Q : σ → ε → Prop}
    (kept : ∀ s e, I s → P s e → I (next s e)) (same : ∀ s e, I s → (P s e ↔ Q s e)) {s : σ}
    (holds : I s) (events : List ε) : Along next P s events ↔ Along next Q s events := by
  induction events generalizing s with
  | nil => exact Iff.rfl
  | cons e events ih =>
    constructor
    · rintro ⟨here, later⟩
      exact ⟨(same s e holds).mp here, (ih (kept s e holds here)).mp later⟩
    · rintro ⟨here, later⟩
      have first := (same s e holds).mpr here
      exact ⟨first, (ih (kept s e holds first)).mpr later⟩

/-- The state a system is in when it refuses an event, or has taken them all. -/
def runFar (step : σ → ε → Option σ) : σ → List ε → σ × Bool
  | s, [] => (s, true)
  | s, e :: events =>
    match step s e with
    | some t => runFar step t events
    | none => (s, false)

theorem runFar_append {s m : σ} {before after : List ε} (ran : run step s before = some m) :
    runFar step s (before ++ after) = runFar step m after := by
  induction before generalizing s with
  | nil => rw [List.nil_append, Option.some.inj ran]
  | cons e before ih =>
    obtain ⟨t, stepped, rest⟩ := (run_cons step).mp ran
    rw [List.cons_append, runFar, stepped]
    exact ih rest

theorem runFar_refused {s : σ} {e : ε} {events : List ε} (refused : step s e = none) :
    runFar step s (e :: events) = (s, false) := by
  rw [runFar, refused]

end Systems
