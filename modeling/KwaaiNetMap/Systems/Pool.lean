import KwaaiNetMap.Systems.Runs
import Mathlib.Data.List.Perm.Basic
import Mathlib.Order.Nat

/-!
Tasks wait in a queue, at most `limit` of them are in flight together, and they land in any order.
Time passes only while every flight is short of its deadline and no task can be launched, as when one
thread polls the pool until nothing is ready. A pool of `n` tasks is then done within
`rounds n limit` deadlines (`run_timely`), and takes all of them when no flight lands early (`run_lockstep`).
-/

namespace Systems
variable {τ ρ : Type*}

structure Flight (τ : Type*) where
  task : τ
  since : Nat

structure Pool (τ ρ : Type*) where
  now : Nat
  waiting : List τ
  flying : List (Flight τ)
  done : List (τ × ρ)

namespace Pool

def start (now : Nat) (tasks : List τ) : Pool τ ρ := ⟨now, tasks, [], []⟩

def Finished (s : Pool τ ρ) : Prop := s.waiting = [] ∧ s.flying = []

end Pool

inductive PoolEvent (ρ : Type*)
  | launch
  | land (k : Nat) (result : ρ)
  | tick

/-- One move of the pool; `lands` says which results a flight may land with after so long in the air. -/
def poolStep (limit deadline : Nat) (lands : Nat → ρ → Bool) (s : Pool τ ρ) : PoolEvent ρ → Option (Pool τ ρ)
  | .launch =>
    match s.waiting with
    | [] => none
    | task :: rest =>
      if s.flying.length < limit then
        some { s with waiting := rest, flying := s.flying ++ [⟨task, s.now⟩] }
      else none
  | .land k result =>
    match s.flying[k]? with
    | none => none
    | some flight =>
      if lands (s.now - flight.since) result then
        some { s with flying := s.flying.eraseIdx k, done := s.done ++ [(flight.task, result)] }
      else none
  | .tick =>
    if s.flying ≠ [] ∧ (s.waiting = [] ∨ limit ≤ s.flying.length) ∧
        ∀ f ∈ s.flying, s.now < f.since + deadline then
      some { s with now := s.now + 1 }
    else none

def rounds (n limit : Nat) : Nat := (n + limit - 1) / limit

theorem rounds_of_pos {n limit : Nat} (some_task : 0 < n) (some_worker : 0 < limit) :
    rounds n limit = (n - 1) / limit + 1 := by
  have shifted : n + limit - 1 = n - 1 + limit := by omega
  rw [rounds, shifted, Nat.add_div_right _ some_worker]

variable {limit deadline : Nat} {lands : Nat → ρ → Bool} {s t : Pool τ ρ} {tasks : List τ}

theorem poolStep_cases {e : PoolEvent ρ} (stepped : poolStep limit deadline lands s e = some t) :
    (∃ task rest, e = .launch ∧ s.waiting = task :: rest ∧ s.flying.length < limit ∧
      t = { s with waiting := rest, flying := s.flying ++ [⟨task, s.now⟩] }) ∨
    (∃ k result flight, e = .land k result ∧ s.flying[k]? = some flight ∧
      lands (s.now - flight.since) result = true ∧
      t = { s with flying := s.flying.eraseIdx k, done := s.done ++ [(flight.task, result)] }) ∨
    (e = .tick ∧ s.flying ≠ [] ∧ (s.waiting = [] ∨ limit ≤ s.flying.length) ∧
      (∀ f ∈ s.flying, s.now < f.since + deadline) ∧ t = { s with now := s.now + 1 }) := by
  cases e with
  | launch =>
    left
    rw [poolStep.eq_def] at stepped
    dsimp only at stepped
    split at stepped
    · cases stepped
    · rename_i task rest queue
      split at stepped
      · rename_i room
        exact ⟨task, rest, rfl, queue, room, (Option.some.inj stepped).symm⟩
      · cases stepped
  | land k result =>
    right
    left
    rw [poolStep.eq_def] at stepped
    dsimp only at stepped
    split at stepped
    · cases stepped
    · rename_i flight found
      split at stepped
      · rename_i allowed
        exact ⟨k, result, flight, rfl, found, allowed, (Option.some.inj stepped).symm⟩
      · cases stepped
  | tick =>
    right
    right
    rw [poolStep.eq_def] at stepped
    dsimp only at stepped
    split at stepped
    · rename_i idle
      obtain ⟨flying, held, early⟩ := idle
      exact ⟨rfl, flying, held, early, (Option.some.inj stepped).symm⟩
    · cases stepped

/-! ### Every task once -/

structure Pool.Accounts (limit : Nat) (tasks : List τ) (s : Pool τ ρ) : Prop where
  split : (s.done.map Prod.fst ++ (s.flying.map Flight.task ++ s.waiting)).Perm tasks
  bounded : s.flying.length ≤ limit

theorem start_accounts (now : Nat) : (Pool.start now tasks : Pool τ ρ).Accounts limit tasks :=
  ⟨List.Perm.refl _, Nat.zero_le _⟩

theorem poolStep_accounts {e : PoolEvent ρ} (accounts : s.Accounts limit tasks)
    (stepped : poolStep limit deadline lands s e = some t) : t.Accounts limit tasks := by
  obtain ⟨split, bounded⟩ := accounts
  rcases poolStep_cases stepped with ⟨task, rest, -, queue, room, rfl⟩ |
    ⟨k, result, flight, -, found, -, rfl⟩ | ⟨-, -, -, -, rfl⟩
  · refine ⟨?_, ?_⟩
    · rw [queue] at split
      simpa using split
    · rw [List.length_append, List.length_singleton]
      exact room
  · refine ⟨?_, (List.length_eraseIdx_le _ _).trans bounded⟩
    obtain ⟨inside, same⟩ := List.getElem?_eq_some_iff.mp found
    have landed : (flight.task :: (s.flying.eraseIdx k).map Flight.task).Perm (s.flying.map Flight.task) := by
      rw [← same, ← List.map_cons]
      exact (List.getElem_cons_eraseIdx_perm inside).map _
    simp only [List.map_append, List.map_cons, List.map_nil, List.append_assoc, List.singleton_append]
    rw [← List.cons_append]
    exact ((landed.append_right _).append_left _).trans split
  · exact ⟨split, bounded⟩

theorem run_accounts {begun : Nat} {events : List (PoolEvent ρ)}
    (ran : run (poolStep limit deadline lands) (Pool.start begun tasks) events = some s) :
    s.Accounts limit tasks :=
  run_invariant (fun _ _ _ accounts stepped => poolStep_accounts accounts stepped) ran (start_accounts begun)

theorem Pool.Finished.landed (finished : s.Finished) (accounts : s.Accounts limit tasks) :
    (s.done.map Prod.fst).Perm tasks := by
  have split := accounts.split
  rw [finished.1, finished.2] at split
  simpa using split

theorem Pool.Finished.length (finished : s.Finished) (accounts : s.Accounts limit tasks) :
    s.done.length = tasks.length := by
  simpa using (finished.landed accounts).length_eq

/-! ### It always finishes -/

def Pool.spent (s : Pool τ ρ) : Nat := 2 * s.done.length + s.flying.length + s.now

theorem poolStep_spent {e : PoolEvent ρ} (stepped : poolStep limit deadline lands s e = some t) :
    t.spent = s.spent + 1 := by
  rcases poolStep_cases stepped with ⟨task, rest, -, -, -, rfl⟩ |
    ⟨k, result, flight, -, found, -, rfl⟩ | ⟨-, -, -, -, rfl⟩
  · simp only [Pool.spent, List.length_append, List.length_singleton]
    omega
  · obtain ⟨inside, -⟩ := List.getElem?_eq_some_iff.mp found
    simp only [Pool.spent, List.length_append, List.length_singleton, List.length_eraseIdx_of_lt inside]
    omega
  · rfl

theorem run_spent {events : List (PoolEvent ρ)} (ran : run (poolStep limit deadline lands) s events = some t) :
    t.spent = s.spent + events.length := by
  induction events generalizing s with
  | nil => exact congrArg Pool.spent (Option.some.inj ran).symm
  | cons e events ih =>
    obtain ⟨m, stepped, rest⟩ := (run_cons _).mp ran
    rw [ih rest, poolStep_spent stepped, List.length_cons]
    omega

/-- A pool that is not finished can move, when a flight at its deadline has a result to land with. -/
theorem pool_progress (some_worker : 0 < limit) (expires : ∃ result, ∀ elapsed, deadline ≤ elapsed →
      lands elapsed result = true) (unfinished : ¬ s.Finished) :
    ∃ e t, poolStep limit deadline lands s e = some t := by
  obtain ⟨expired, lands_late⟩ := expires
  by_cases room : s.waiting ≠ [] ∧ s.flying.length < limit
  · obtain ⟨task, rest, queue⟩ := List.exists_cons_of_ne_nil room.1
    exact ⟨.launch, _, by simp only [poolStep, queue, if_pos room.2]; rfl⟩
  · have held : s.waiting = [] ∨ limit ≤ s.flying.length := by
      by_cases queue : s.waiting = []
      · exact Or.inl queue
      · exact Or.inr (Nat.not_lt.mp fun free => room ⟨queue, free⟩)
    have flying : s.flying ≠ [] := by
      intro none_flying
      rcases held with queue | full
      · exact unfinished ⟨queue, none_flying⟩
      · rw [none_flying] at full
        exact absurd some_worker (Nat.not_lt.mpr full)
    by_cases early : ∀ f ∈ s.flying, s.now < f.since + deadline
    · exact ⟨.tick, _, by simp only [poolStep]; exact if_pos ⟨flying, held, early⟩⟩
    · simp only [not_forall, Nat.not_lt] at early
      obtain ⟨f, member, late⟩ := early
      obtain ⟨k, inside, same⟩ := List.getElem_of_mem member
      have found : s.flying[k]? = some f := List.getElem?_eq_some_iff.mpr ⟨inside, same⟩
      have allowed := lands_late (s.now - f.since) (by omega)
      exact ⟨.land k expired, _, by simp only [poolStep, found, allowed]; rfl⟩

/-! ### In time -/

/-- The `i`-th flight took off before the rounds ahead of it could have run out, and so would the next. -/
structure Pool.Timely (limit deadline begun total : Nat) (s : Pool τ ρ) : Prop where
  soon : ∀ i f, s.flying[i]? = some f → f.since ≤ begun + (s.done.length + i) / limit * deadline
  next : s.waiting ≠ [] → s.now ≤ begun + (s.done.length + s.flying.length) / limit * deadline
  within : s.now ≤ begun + rounds total limit * deadline

theorem start_timely (begun : Nat) :
    (Pool.start begun tasks : Pool τ ρ).Timely limit deadline begun tasks.length :=
  ⟨fun _ _ found => by simp [Pool.start] at found, fun _ => Nat.le_add_right _ _, Nat.le_add_right _ _⟩

theorem rounds_mono {a b : Nat} (less : a ≤ b) : a / limit * deadline ≤ b / limit * deadline :=
  Nat.mul_le_mul_right _ (Nat.div_le_div_right less)

theorem round_after {a b : Nat} (some_worker : 0 < limit) (less : a + limit ≤ b) :
    a / limit * deadline + deadline ≤ b / limit * deadline := by
  rw [← Nat.succ_mul, Nat.succ_eq_add_one, ← Nat.add_div_right _ some_worker]
  exact rounds_mono less

theorem flying_launched {flying : List (Flight τ)} {last f : Flight τ} {i : Nat}
    (here : (flying ++ [last])[i]? = some f) : flying[i]? = some f ∨ i = flying.length ∧ f = last := by
  rcases Nat.lt_or_ge i flying.length with before | at_end
  · rw [List.getElem?_append_left before] at here
    exact Or.inl here
  · rw [List.getElem?_append_right at_end] at here
    obtain ⟨inside, same⟩ := List.getElem?_eq_some_iff.mp here
    rw [List.length_singleton] at inside
    exact Or.inr ⟨by omega, (same.symm.trans (List.getElem_singleton _))⟩

theorem flying_landed {flying : List (Flight τ)} {f : Flight τ} {i k : Nat}
    (here : (flying.eraseIdx k)[i]? = some f) : i < k ∧ flying[i]? = some f ∨ flying[i + 1]? = some f := by
  rw [List.getElem?_eraseIdx] at here
  split at here
  · rename_i ahead
    exact Or.inl ⟨ahead, here⟩
  · exact Or.inr here

theorem poolStep_timely {begun : Nat} {e : PoolEvent ρ} (some_worker : 0 < limit)
    (accounts : s.Accounts limit tasks) (timely : s.Timely limit deadline begun tasks.length)
    (stepped : poolStep limit deadline lands s e = some t) : t.Timely limit deadline begun tasks.length := by
  obtain ⟨soon, next, within⟩ := timely
  have count : s.done.length + (s.flying.length + s.waiting.length) = tasks.length := by
    simpa using accounts.split.length_eq
  rcases poolStep_cases stepped with ⟨task, rest, -, queue, room, rfl⟩ |
    ⟨k, result, flight, -, found, -, rfl⟩ | ⟨-, flying, held, early, rfl⟩
  · have due := next (by rw [queue]; exact List.cons_ne_nil _ _)
    refine ⟨?_, ?_, within⟩
    · intro i f here
      rcases flying_launched here with before | ⟨rfl, rfl⟩
      · exact soon i f before
      · exact due
    · intro _
      simp only [List.length_append, List.length_singleton]
      exact due.trans (Nat.add_le_add_left (rounds_mono (by omega)) _)
  · obtain ⟨inside, -⟩ := List.getElem?_eq_some_iff.mp found
    refine ⟨?_, ?_, within⟩
    · intro i f here
      simp only [List.length_append, List.length_singleton]
      rcases flying_landed here with ⟨-, ahead⟩ | behind
      · exact (soon i f ahead).trans (Nat.add_le_add_left (rounds_mono (by omega)) _)
      · exact (soon (i + 1) f behind).trans (Nat.add_le_add_left (rounds_mono (by omega)) _)
    · intro queue
      simp only [List.length_append, List.length_singleton, List.length_eraseIdx_of_lt inside]
      exact (next queue).trans (Nat.add_le_add_left (rounds_mono (by omega)) _)
  · -- The flight that took off first is still short of its deadline.
    obtain ⟨f, others, first⟩ := List.exists_cons_of_ne_nil flying
    have took_off := soon 0 f (by rw [first]; rfl)
    have short := early f (by rw [first]; exact List.mem_cons_self)
    have some_task : s.done.length + 1 ≤ tasks.length := by
      have present : s.flying.length = others.length + 1 := by rw [first]; rfl
      omega
    have last_round : s.done.length / limit * deadline + deadline ≤ rounds tasks.length limit * deadline := by
      rw [rounds_of_pos (by omega) some_worker, Nat.succ_mul]
      exact Nat.add_le_add_right (rounds_mono (by omega)) _
    refine ⟨soon, ?_, ?_⟩
    · intro queue
      rcases held with drained | full
      · exact absurd drained queue
      · have round : s.done.length / limit * deadline + deadline ≤
            (s.done.length + s.flying.length) / limit * deadline :=
          round_after some_worker (Nat.add_le_add_left full s.done.length)
        change s.now + 1 ≤ begun + (s.done.length + s.flying.length) / limit * deadline
        rw [Nat.add_zero] at took_off
        omega
    · change s.now + 1 ≤ _
      rw [Nat.add_zero] at took_off
      omega

theorem run_timely {begun : Nat} {events : List (PoolEvent ρ)} (some_worker : 0 < limit)
    (ran : run (poolStep limit deadline lands) (Pool.start begun tasks) events = some s) :
    s.Timely limit deadline begun tasks.length := by
  have both : s.Accounts limit tasks ∧ s.Timely limit deadline begun tasks.length :=
    run_invariant (I := fun s => s.Accounts limit tasks ∧ s.Timely limit deadline begun tasks.length)
      (fun _ _ _ holds stepped => ⟨poolStep_accounts holds.1 stepped,
        poolStep_timely some_worker holds.1 holds.2 stepped⟩) ran ⟨start_accounts begun, start_timely begun⟩
  exact both.2

/-- No run is longer than two moves a task and one for each tick of the rounds it takes. -/
theorem run_bounded {begun : Nat} {events : List (PoolEvent ρ)} (some_worker : 0 < limit)
    (ran : run (poolStep limit deadline lands) (Pool.start begun tasks) events = some s) :
    events.length ≤ 2 * tasks.length + rounds tasks.length limit * deadline := by
  have spent := run_spent ran
  have within := (run_timely some_worker ran).within
  have count : s.done.length + (s.flying.length + s.waiting.length) = tasks.length := by
    simpa using (run_accounts ran).split.length_eq
  simp only [Pool.spent, Pool.start, List.length_nil] at spent
  omega

/-- From wherever a run has got to, the pool can still be run to its end. -/
theorem run_completes {begun : Nat} (some_worker : 0 < limit) (expires : ∃ result, ∀ elapsed,
      deadline ≤ elapsed → lands elapsed result = true) {events : List (PoolEvent ρ)}
    (ran : run (poolStep limit deadline lands) (Pool.start begun tasks) events = some s) :
    ∃ later t, run (poolStep limit deadline lands) s later = some t ∧ t.Finished := by
  -- on the moves the run has left
  induction left : 2 * tasks.length + rounds tasks.length limit * deadline - events.length
    generalizing events s with
  | zero =>
    by_contra stuck
    have unfinished : ¬ s.Finished := fun finished => stuck ⟨[], s, rfl, finished⟩
    obtain ⟨e, t, stepped⟩ := pool_progress some_worker expires unfinished
    have longer := run_bounded some_worker
      ((run_append _).mpr ⟨s, ran, (run_cons _).mpr ⟨t, stepped, rfl⟩⟩ : run _ _ (events ++ [e]) = some t)
    rw [List.length_append, List.length_singleton] at longer
    omega
  | succ left ih =>
    by_cases finished : s.Finished
    · exact ⟨[], s, rfl, finished⟩
    · obtain ⟨e, t, stepped⟩ := pool_progress some_worker expires finished
      have longer : run (poolStep limit deadline lands) (Pool.start begun tasks) (events ++ [e]) = some t :=
        (run_append _).mpr ⟨s, ran, (run_cons _).mpr ⟨t, stepped, rfl⟩⟩
      obtain ⟨later, final, rest, finished⟩ := ih longer (by rw [List.length_append, List.length_singleton]; omega)
      exact ⟨e :: later, final, (run_cons _).mpr ⟨t, stepped, rest⟩, finished⟩

/-! ### In lockstep -/

/-- With no early landing, flights take off and land a whole round at a time. -/
structure Pool.Lockstep (limit deadline begun : Nat) (s : Pool τ ρ) : Prop where
  late : ∀ i f, s.flying[i]? = some f → begun + (s.done.length + i) / limit * deadline ≤ f.since
  ordered : s.flying.Pairwise fun f g => f.since ≤ g.since
  airborne : ∀ f ∈ s.flying, f.since ≤ s.now ∧ s.now ≤ f.since + deadline
  last : 0 < s.done.length → begun + (s.done.length - 1) / limit * deadline + deadline ≤ s.now
  later : begun ≤ s.now

theorem start_lockstep (begun : Nat) : (Pool.start begun tasks : Pool τ ρ).Lockstep limit deadline begun :=
  ⟨fun _ _ found => by simp [Pool.start] at found, List.Pairwise.nil, fun _ member => (nomatch member),
    fun landed => (nomatch landed), Nat.le_refl _⟩

theorem poolStep_lockstep {begun : Nat} {e : PoolEvent ρ} (some_worker : 0 < limit)
    (slow : ∀ d ∈ t.done, ∀ elapsed, lands elapsed d.2 = true → deadline ≤ elapsed)
    (lockstep : s.Lockstep limit deadline begun) (stepped : poolStep limit deadline lands s e = some t) :
    t.Lockstep limit deadline begun := by
  obtain ⟨late, ordered, airborne, last, later⟩ := lockstep
  rcases poolStep_cases stepped with ⟨task, rest, -, queue, room, rfl⟩ |
    ⟨k, result, flight, -, found, allowed, rfl⟩ | ⟨-, -, -, early, rfl⟩
  · -- The slot was freed by a landing that ended a round, or no flight has landed yet.
    have due : begun + (s.done.length + s.flying.length) / limit * deadline ≤ s.now := by
      rcases Nat.eq_zero_or_pos s.done.length with none_landed | landed
      · rw [none_landed, Nat.zero_add, Nat.div_eq_of_lt room, Nat.zero_mul]
        exact later
      · refine le_trans ?_ (last landed)
        rw [Nat.add_assoc, ← Nat.succ_mul, Nat.succ_eq_add_one, ← Nat.add_div_right _ some_worker]
        exact Nat.add_le_add_left (rounds_mono (by omega)) _
    refine ⟨?_, ?_, ?_, last, later⟩
    · intro i f here
      rcases flying_launched here with before | ⟨rfl, rfl⟩
      · exact late i f before
      · exact due
    · refine List.pairwise_append.mpr ⟨ordered, List.pairwise_singleton _ _, ?_⟩
      intro f member g last
      rw [List.mem_singleton.mp last]
      exact (airborne f member).1
    · intro f member
      rcases List.mem_append.mp member with before | last
      · exact airborne f before
      · rw [List.mem_singleton.mp last]
        exact ⟨Nat.le_refl _, Nat.le_add_right _ _⟩
  · obtain ⟨inside, same⟩ := List.getElem?_eq_some_iff.mp found
    have member : flight ∈ s.flying := List.mem_of_getElem? found
    have whole : deadline ≤ s.now - flight.since :=
      slow (flight.task, result) (by simp) _ allowed
    have round := late k flight found
    have aloft := airborne flight member
    refine ⟨?_, ordered.sublist (List.eraseIdx_sublist _ _), ?_, ?_, later⟩
    · intro i f here
      simp only [List.length_append, List.length_singleton]
      rcases flying_landed here with ⟨ahead, still_there⟩ | moved_up
      · -- A flight ahead of the landing one took off at the same time.
        obtain ⟨there, is_f⟩ := List.getElem?_eq_some_iff.mp still_there
        have before := List.pairwise_iff_getElem.mp ordered i k there inside ahead
        rw [same, is_f] at before
        have still := airborne f (List.mem_of_getElem? still_there)
        have step : (s.done.length + 1 + i) / limit * deadline ≤ (s.done.length + k) / limit * deadline :=
          rounds_mono (by omega)
        omega
      · have behind := late (i + 1) f moved_up
        have step : (s.done.length + 1 + i) / limit * deadline ≤ (s.done.length + (i + 1)) / limit * deadline :=
          rounds_mono (by omega)
        omega
    · exact fun f still => airborne f (List.mem_of_mem_eraseIdx still)
    · intro _
      simp only [List.length_append, List.length_singleton, Nat.add_sub_cancel]
      have step : s.done.length / limit * deadline ≤ (s.done.length + k) / limit * deadline :=
        rounds_mono (by omega)
      omega
  · refine ⟨late, ordered, ?_, fun landed => (last landed).trans (Nat.le_succ _), later.trans (Nat.le_succ _)⟩
    intro f member
    exact ⟨(airborne f member).1.trans (Nat.le_succ _), early f member⟩

theorem poolStep_done {e : PoolEvent ρ} (stepped : poolStep limit deadline lands s e = some t) :
    s.done <+: t.done := by
  rcases poolStep_cases stepped with ⟨_, _, -, -, -, rfl⟩ | ⟨_, _, _, -, -, -, rfl⟩ | ⟨-, -, -, -, rfl⟩
  · exact List.prefix_refl _
  · exact List.prefix_append _ _
  · exact List.prefix_refl _

theorem run_lockstep {begun : Nat} {events : List (PoolEvent ρ)} (some_worker : 0 < limit)
    (ran : run (poolStep limit deadline lands) (Pool.start begun tasks) events = some s)
    (slow : ∀ d ∈ s.done, ∀ elapsed, lands elapsed d.2 = true → deadline ≤ elapsed) :
    s.Lockstep limit deadline begun := by
  refine run_invariant (I := fun s : Pool τ ρ =>
    (∀ d ∈ s.done, ∀ elapsed, lands elapsed d.2 = true → deadline ≤ elapsed) →
      s.Lockstep limit deadline begun) ?_ ran (fun _ => start_lockstep begun) slow
  intro s e t holds stepped slow
  exact poolStep_lockstep some_worker slow
    (holds fun d member => slow d ((poolStep_done stepped).subset member)) stepped

theorem finished_lockstep {begun : Nat} {events : List (PoolEvent ρ)} (some_worker : 0 < limit)
    (ran : run (poolStep limit deadline lands) (Pool.start begun tasks) events = some s)
    (slow : ∀ d ∈ s.done, ∀ elapsed, lands elapsed d.2 = true → deadline ≤ elapsed) (finished : s.Finished) :
    s.now = begun + rounds tasks.length limit * deadline := by
  have lockstep := run_lockstep some_worker ran slow
  have landed := finished.length (run_accounts ran)
  apply Nat.le_antisymm (run_timely some_worker ran).within
  rcases Nat.eq_zero_or_pos tasks.length with empty | some_task
  · rw [empty, rounds, Nat.zero_add, Nat.div_eq_of_lt (by omega), Nat.zero_mul]
    exact lockstep.later
  · have last := lockstep.last (by omega)
    rw [landed] at last
    rw [rounds_of_pos some_task some_worker, Nat.succ_mul]
    omega

end Systems
