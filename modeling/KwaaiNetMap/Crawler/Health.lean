import KwaaiNetMap.Crawler.Document
import KwaaiNetMap.Crawler.Silence
import KwaaiNetMap.Crawler.Scripted

/-!
The turns of a pass are its queries, with a mark where each loop over the live bootstraps begins. A query
is recorded with the first bootstrap configured under its address (`getElem?_after`), so what a pass says
of a bootstrap is right exactly when no address is configured again (`health_iff`), short of one that was
of no use anyway.
-/

namespace KwaaiNetMap
open Collections

inductive Turn where
  | begins
  | asked (addr : String) (answered : Bool)
  deriving DecidableEq

namespace BootstrapSet

def addrs (set : BootstrapSet) : List String := set.entries.map (·.addr)

def turn (set : BootstrapSet) : Turn → BootstrapSet
  | .begins => set
  | .asked addr answered => set.record addr answered

def after (set : BootstrapSet) (turns : List Turn) : BootstrapSet := turns.foldl turn set

theorem after_append (set : BootstrapSet) (before later : List Turn) :
    set.after (before ++ later) = (set.after before).after later := List.foldl_append

end BootstrapSet

/-! ### The turns of a pass -/

section
variable (net : Network) (ourDhtid : Bytes)

def askTurns (keys : List Bytes) : List String → Pass → List Turn
  | [], _ => []
  | addr :: rest, pass =>
    let (response, pass) := rpcFind net ourDhtid pass addr keys
    .asked addr response.isSome :: askTurns keys rest pass

def registryTurns (rmpv : Rmpv) : List String → BTreeMap String Model → Pass → List Turn
  | [], _, _ => []
  | addr :: rest, found, pass =>
    match rpcFind net ourDhtid pass addr [dhtKey net "_petals.models"] with
    | (none, pass) => .asked addr false :: registryTurns rmpv rest found pass
    | (some resp, pass) =>
      let found := registerResponse rmpv found resp
      .asked addr true :: if found.isEmpty then registryTurns rmpv rest found pass else []

def loopTurns : List (List Bytes) → Pass → List Turn
  | [], _ => []
  | keys :: rest, pass =>
    .begins :: askTurns net ourDhtid keys pass.set.live pass ++
      loopTurns rest (askEach net ourDhtid keys pass.set.live pass).2

end

def dhtTurns (rmpv : Rmpv) (world : World) (pass : Pass) : List Turn :=
  let (models, read) := discoverModels rmpv world.net world.ourDhtid pass
  .begins :: registryTurns world.net world.ourDhtid rmpv pass.set.live ∅ pass ++
    loopTurns world.net world.ourDhtid
      (models.map (blockKeys world.net) ++ capabilityKeys.map fun key => [dhtKey world.net key]) read

/-- The turns of a pass, and the bootstraps at its end; a pass that could dial none of them asks nobody. -/
def passTurns (rmpv : Rmpv) (world : World) (pass : Pass) : List Turn :=
  if !pass.set.hasDialable then [] else dhtTurns rmpv world pass

def finalSet (rmpv : Rmpv) (world : World) (pass : Pass) : BootstrapSet :=
  if !pass.set.hasDialable then pass.set else (readDht rmpv world pass).pass.set

section
variable (net : Network) (ourDhtid : Bytes)

theorem rpcFind_set (pass : Pass) (addr : String) (keys : List Bytes) :
    (rpcFind net ourDhtid pass addr keys).2.set =
      pass.set.record addr (rpcFind net ourDhtid pass addr keys).1.isSome := rfl

theorem after_askTurns (keys : List Bytes) (addrs : List String) (pass : Pass) :
    pass.set.after (askTurns net ourDhtid keys addrs pass) = (askEach net ourDhtid keys addrs pass).2.set := by
  induction addrs generalizing pass with
  | nil => rfl
  | cons addr rest ih =>
    have recorded := rpcFind_set net ourDhtid pass addr keys
    unfold askTurns askEach
    generalize rpcFind net ourDhtid pass addr keys = reply at recorded ⊢
    obtain ⟨_ | resp, next⟩ := reply
    · refine Eq.trans ?_ (ih next)
      rw [recorded]
      rfl
    · refine Eq.trans ?_ (ih next)
      rw [recorded]
      rfl

theorem after_registryTurns (rmpv : Rmpv) (addrs : List String) (found : BTreeMap String Model) (pass : Pass) :
    pass.set.after (registryTurns net ourDhtid rmpv addrs found pass) =
      (readRegistry rmpv net ourDhtid addrs found pass).2.set := by
  induction addrs generalizing found pass with
  | nil => rfl
  | cons addr rest ih =>
    have recorded := rpcFind_set net ourDhtid pass addr [dhtKey net "_petals.models"]
    unfold registryTurns readRegistry
    generalize rpcFind net ourDhtid pass addr [dhtKey net "_petals.models"] = reply at recorded ⊢
    obtain ⟨_ | resp, next⟩ := reply
    · refine Eq.trans ?_ (ih found next)
      rw [recorded]
      rfl
    · dsimp only
      split
      · refine Eq.trans ?_ (ih _ next)
        rw [recorded]
        rfl
      · exact recorded.symm

def askLive (net : Network) (ourDhtid : Bytes) (pass : Pass) (keys : List Bytes) : Pass :=
  (askEach net ourDhtid keys pass.set.live pass).2

theorem after_loopTurns (loops : List (List Bytes)) (pass : Pass) :
    pass.set.after (loopTurns net ourDhtid loops pass) = (loops.foldl (askLive net ourDhtid) pass).set := by
  induction loops generalizing pass with
  | nil => rfl
  | cons keys rest ih =>
    have loop := after_askTurns net ourDhtid keys pass.set.live pass
    unfold loopTurns
    rw [List.cons_append, List.foldl_cons]
    refine Eq.trans (BootstrapSet.after_append pass.set (askTurns net ourDhtid keys pass.set.live pass) _) ?_
    rw [loop]
    exact ih (askLive net ourDhtid pass keys)

theorem blockAnswers_pass (models : List Model) (pass : Pass) :
    (blockAnswers net ourDhtid models pass).2 = (models.map (blockKeys net)).foldl (askLive net ourDhtid) pass := by
  induction models generalizing pass with
  | nil => rfl
  | cons model rest ih => exact ih _

theorem capabilityAnswers_pass (keys : List String) (pass : Pass) :
    (capabilityAnswers net ourDhtid keys pass).2 =
      (keys.map fun key => [dhtKey net key]).foldl (askLive net ourDhtid) pass := by
  induction keys generalizing pass with
  | nil => rfl
  | cons key rest ih => exact ih _

end

theorem after_dhtTurns (rmpv : Rmpv) (world : World) (pass : Pass) :
    pass.set.after (dhtTurns rmpv world pass) = (readDht rmpv world pass).pass.set := by
  have registry := after_registryTurns world.net world.ourDhtid rmpv pass.set.live ∅ pass
  unfold dhtTurns readDht
  simp only [collectModels_eq, collectCapabilities_eq]
  refine Eq.trans (BootstrapSet.after_append pass.set
    (registryTurns world.net world.ourDhtid rmpv pass.set.live ∅ pass) _) ?_
  rw [registry, capabilityAnswers_pass, blockAnswers_pass, ← List.foldl_append]
  exact after_loopTurns world.net world.ourDhtid _ (discoverModels rmpv world.net world.ourDhtid pass).2

theorem finalSet_eq (rmpv : Rmpv) (world : World) (pass : Pass) :
    finalSet rmpv world pass = pass.set.after (passTurns rmpv world pass) := by
  unfold finalSet passTurns
  split
  · rfl
  · exact (after_dhtTurns rmpv world pass).symm

theorem crawlOnce_states {overflowChecks : Bool} {order : IterOrder} {rmpv : Rmpv} {bootstrapPeers : List String}
    {world : World} {geo : GeoIp} {s : Snapshot}
    (ran : crawlOnce overflowChecks order rmpv bootstrapPeers world geo = some s) :
    s.bootstrapStates = (finalSet rmpv world (dialBootstraps world.net bootstrapPeers)).states := by
  unfold finalSet
  split
  · rename_i none
    unfold crawlOnce at ran
    simp only [none, if_true] at ran
    rw [← Option.some.inj ran]
  · rename_i dialable
    obtain ⟨built, done, same⟩ := crawlOnce_dialable (by simpa using dialable) ran
    rw [buildSnapshot_eq_some] at done
    obtain ⟨-, contributors, -, rfl⟩ := done
    rw [same]
    simp only [CrawlInput.document, crawlInput]

/-! ### Which bootstrap a query is recorded with -/

def FirstAt (addrs : List String) (i : Nat) : Prop := ∀ j < i, addrs[j]? ≠ addrs[i]?

instance (addrs : List String) (i : Nat) : Decidable (FirstAt addrs i) :=
  inferInstanceAs (Decidable (∀ j < i, _))

theorem firstAt_zero (addrs : List String) : FirstAt addrs 0 := by
  intro j early
  cases early

theorem firstAt_succ (addr : String) (addrs : List String) (i : Nat) :
    FirstAt (addr :: addrs) (i + 1) ↔ addrs[i]? ≠ some addr ∧ FirstAt addrs i := by
  constructor
  · intro first
    refine ⟨fun same => first 0 (Nat.succ_pos i) ?_, fun j early => first (j + 1) (by omega)⟩
    simpa using same.symm
  · rintro ⟨other, first⟩ j early
    cases j with
    | zero => simpa using Ne.symm other
    | succ j => simpa using first j (by omega)

namespace BootstrapSet

def noted (answered : Bool) (e : BootstrapEntry) : BootstrapEntry :=
  if answered then { e with answered := true } else { e with dialed := false }

theorem getElem?_updateFirst (addr : String) (f : BootstrapEntry → BootstrapEntry) (entries : List BootstrapEntry)
    (i : Nat) :
    (updateFirst addr f entries)[i]? = entries[i]?.map fun e =>
      if e.addr = addr ∧ FirstAt (entries.map (·.addr)) i then f e else e := by
  induction entries generalizing i with
  | nil => simp [updateFirst]
  | cons e rest ih =>
    unfold updateFirst
    by_cases here : e.addr = addr
    · rw [if_pos here]
      cases i with
      | zero => simp [here, firstAt_zero]
      | succ i =>
        rw [List.getElem?_cons_succ, List.getElem?_cons_succ, List.map_cons]
        cases found : rest[i]? with
        | none => rfl
        | some d =>
          have again : ¬ (d.addr = addr ∧ FirstAt (e.addr :: rest.map (·.addr)) (i + 1)) := by
            rintro ⟨same, first⟩
            apply ((firstAt_succ _ _ _).mp first).1
            rw [List.getElem?_map, found, here, ← same]
            rfl
          rw [Option.map_some, if_neg again]
    · rw [if_neg here]
      cases i with
      | zero => simp [here]
      | succ i =>
        rw [List.getElem?_cons_succ, List.getElem?_cons_succ, List.map_cons, ih]
        cases found : rest[i]? with
        | none => rfl
        | some d =>
          have apart : d.addr = addr → (rest.map (·.addr))[i]? ≠ some e.addr := by
            intro same clash
            rw [List.getElem?_map, found] at clash
            exact here ((Option.some.inj clash).symm.trans same)
          refine congrArg some (if_congr ?_ rfl rfl)
          rw [firstAt_succ]
          exact ⟨fun ⟨same, first⟩ => ⟨same, apart same, first⟩, fun ⟨same, _, first⟩ => ⟨same, first⟩⟩

theorem addrs_record (set : BootstrapSet) (addr : String) (answered : Bool) :
    (set.record addr answered).addrs = set.addrs :=
  updateFirst_addrs (by intro e; cases answered <;> rfl) set.entries

theorem getElem?_after (set : BootstrapSet) (turns : List Turn) (i : Nat) :
    (set.after turns).entries[i]? = set.entries[i]?.map fun e =>
      if FirstAt set.addrs i then
        { e with
          dialed := e.dialed && !decide (.asked e.addr false ∈ turns)
          answered := e.answered || decide (.asked e.addr true ∈ turns) }
      else e := by
  induction turns generalizing set with
  | nil => simp [after]
  | cons t turns ih =>
    cases t with
    | begins =>
      refine (ih set).trans ?_
      simp
    | asked addr answered =>
      refine (ih (set.record addr answered)).trans ?_
      rw [addrs_record]
      have entry : (set.record addr answered).entries[i]? = set.entries[i]?.map fun e =>
          if e.addr = addr ∧ FirstAt set.addrs i then noted answered e else e :=
        getElem?_updateFirst addr (noted answered) set.entries i
      rw [entry]
      cases set.entries[i]? with
      | none => rfl
      | some e =>
        simp only [Option.map_some, Option.some.injEq]
        by_cases first : FirstAt set.addrs i
        · by_cases same : e.addr = addr
          · subst same
            cases answered <;> simp [first, noted, Bool.and_comm]
          · simp [first, same]
        · simp [first]

theorem mem_live (set : BootstrapSet) (addr : String) :
    addr ∈ set.live ↔ ∃ (i : Nat) (e : BootstrapEntry), set.entries[i]? = some e ∧ e.dialed = true ∧ e.addr = addr := by
  rw [live, List.mem_map]
  constructor
  · rintro ⟨e, kept, same⟩
    obtain ⟨listed, dialed⟩ := List.mem_filter.mp kept
    obtain ⟨i, found⟩ := List.mem_iff_getElem?.mp listed
    exact ⟨i, e, found, dialed, same⟩
  · rintro ⟨i, e, found, dialed, same⟩
    exact ⟨e, List.mem_filter.mpr ⟨List.mem_of_getElem? found, dialed⟩, same⟩

theorem addr_of_getElem? {set : BootstrapSet} {i : Nat} {e : BootstrapEntry} (found : set.entries[i]? = some e) :
    set.addrs[i]? = some e.addr := by
  rw [addrs, List.getElem?_map, found]
  rfl

theorem getElem?_of_addr {set : BootstrapSet} {i : Nat} {addr : String} (configured : set.addrs[i]? = some addr) :
    ∃ e, set.entries[i]? = some e ∧ e.addr = addr := by
  rw [addrs, List.getElem?_map, Option.map_eq_some_iff] at configured
  exact configured

theorem getElem?_after_again {set : BootstrapSet} {i : Nat} {e : BootstrapEntry}
    (found : set.entries[i]? = some e) (again : ¬ FirstAt set.addrs i) (turns : List Turn) :
    (set.after turns).entries[i]? = some e := by
  rw [getElem?_after, found, Option.map_some, if_neg again]

theorem not_live_of_failed {set : BootstrapSet}
    (undialed : ∀ i e, set.entries[i]? = some e → ¬ FirstAt set.addrs i → e.dialed = false)
    {turns : List Turn} {addr : String} (asked : .asked addr false ∈ turns) : addr ∉ (set.after turns).live := by
  intro live
  obtain ⟨i, d, here, dialed, rfl⟩ := (mem_live _ _).mp live
  rw [getElem?_after] at here
  obtain ⟨e, found, same⟩ := Option.map_eq_some_iff.mp here
  by_cases first : FirstAt set.addrs i
  · rw [if_pos first] at same
    subst same
    simp [asked] at dialed
  · rw [if_neg first] at same
    subst same
    rw [undialed i e found first] at dialed
    cases dialed

end BootstrapSet

/-! ### Whom a loop asks -/

def Offered : BootstrapSet → List String → List Turn → Prop
  | _, _, [] => True
  | set, _, .begins :: rest => Offered set set.live rest
  | set, offered, .asked addr answered :: rest => addr ∈ offered ∧ Offered (set.record addr answered) offered rest

theorem Offered.rest {set : BootstrapSet} {offered : List String} {before later : List Turn}
    (all : Offered set offered (before ++ later)) : ∃ offered', Offered (set.after before) offered' later := by
  induction before generalizing set offered with
  | nil => exact ⟨offered, all⟩
  | cons t before ih =>
    cases t with
    | begins =>
      have all : Offered set set.live (before ++ later) := all
      exact ih all
    | asked addr answered => exact ih all.2

theorem Offered.live {set : BootstrapSet} {offered : List String} {turns : List Turn}
    (all : Offered set offered turns) {addr : String} {answered : Bool} (asked : .asked addr answered ∈ turns) :
    addr ∈ offered ∨ ∃ before later, turns = before ++ later ∧ addr ∈ (set.after before).live := by
  induction turns generalizing set offered with
  | nil => cases asked
  | cons t turns ih =>
    cases t with
    | begins =>
      have all : Offered set set.live turns := all
      rcases List.mem_cons.mp asked with impossible | inside
      · cases impossible
      · rcases ih all inside with here | ⟨before, later, rfl, live⟩
        · exact Or.inr ⟨[], _, rfl, here⟩
        · exact Or.inr ⟨.begins :: before, later, rfl, live⟩
    | asked other heard =>
      rcases List.mem_cons.mp asked with same | inside
      · obtain ⟨rfl, rfl⟩ := Turn.asked.inj same
        exact Or.inl all.1
      · rcases ih all.2 inside with here | ⟨before, later, rfl, live⟩
        · exact Or.inl here
        · exact Or.inr ⟨.asked other heard :: before, later, rfl, live⟩

section
variable (net : Network) (ourDhtid : Bytes)

theorem offered_askTurns (keys : List Bytes) {addrs offered : List String} (within : addrs ⊆ offered) (pass : Pass)
    {later : List Turn} (next : ∀ off, Offered (askEach net ourDhtid keys addrs pass).2.set off later) :
    Offered pass.set offered (askTurns net ourDhtid keys addrs pass ++ later) := by
  induction addrs generalizing pass with
  | nil => exact next offered
  | cons addr rest ih =>
    have recorded := rpcFind_set net ourDhtid pass addr keys
    have tail : rest ⊆ offered := fun a member => within (List.mem_cons_of_mem _ member)
    unfold askTurns
    unfold askEach at next
    generalize rpcFind net ourDhtid pass addr keys = reply at recorded next ⊢
    obtain ⟨_ | resp, after⟩ := reply
    · refine ⟨within List.mem_cons_self, ?_⟩
      have step := ih tail after next
      rw [recorded] at step
      exact step
    · refine ⟨within List.mem_cons_self, ?_⟩
      have step := ih tail after next
      rw [recorded] at step
      exact step

theorem offered_registryTurns (rmpv : Rmpv) {addrs offered : List String} (within : addrs ⊆ offered)
    (found : BTreeMap String Model) (pass : Pass) {later : List Turn}
    (next : ∀ off, Offered (readRegistry rmpv net ourDhtid addrs found pass).2.set off later) :
    Offered pass.set offered (registryTurns net ourDhtid rmpv addrs found pass ++ later) := by
  induction addrs generalizing found pass with
  | nil => exact next offered
  | cons addr rest ih =>
    have recorded := rpcFind_set net ourDhtid pass addr [dhtKey net "_petals.models"]
    have tail : rest ⊆ offered := fun a member => within (List.mem_cons_of_mem _ member)
    unfold registryTurns
    unfold readRegistry at next
    generalize rpcFind net ourDhtid pass addr [dhtKey net "_petals.models"] = reply at recorded next ⊢
    obtain ⟨_ | resp, after⟩ := reply
    · refine ⟨within List.mem_cons_self, ?_⟩
      have step := ih tail found after next
      rw [recorded] at step
      exact step
    · dsimp only at next ⊢
      refine ⟨within List.mem_cons_self, ?_⟩
      split at next
      · rename_i none
        rw [if_pos none]
        have step := ih tail _ after next
        rw [recorded] at step
        exact step
      · rename_i read
        rw [if_neg read]
        have step := next offered
        rw [recorded] at step
        exact step

theorem offered_loopTurns (loops : List (List Bytes)) (pass : Pass) (offered : List String) :
    Offered pass.set offered (loopTurns net ourDhtid loops pass) := by
  induction loops generalizing pass offered with
  | nil => trivial
  | cons keys rest ih =>
    exact offered_askTurns net ourDhtid keys (List.Subset.refl pass.set.live) pass (fun off => ih _ off)

theorem asked_of_mem (keys : List Bytes) {addrs : List String} {addr : String} (member : addr ∈ addrs) (pass : Pass) :
    ∃ answered, .asked addr answered ∈ askTurns net ourDhtid keys addrs pass := by
  induction addrs generalizing pass with
  | nil => cases member
  | cons head rest ih =>
    unfold askTurns
    rcases List.mem_cons.mp member with rfl | later
    · exact ⟨_, List.mem_cons_self⟩
    · obtain ⟨answered, asked⟩ := ih later (rpcFind net ourDhtid pass head keys).2
      exact ⟨answered, List.mem_cons_of_mem _ asked⟩

theorem asked_of_live {loops : List (List Bytes)} (some_ : loops ≠ []) {pass : Pass} {addr : String}
    (live : addr ∈ pass.set.live) : ∃ answered, .asked addr answered ∈ loopTurns net ourDhtid loops pass := by
  cases loops with
  | nil => exact absurd rfl some_
  | cons keys rest =>
    obtain ⟨answered, asked⟩ := asked_of_mem net ourDhtid keys live pass
    unfold loopTurns
    exact ⟨answered, List.mem_append_left _ (List.mem_cons_of_mem _ asked)⟩

end

theorem offered_passTurns (rmpv : Rmpv) (world : World) (pass : Pass) (offered : List String) :
    Offered pass.set offered (passTurns rmpv world pass) := by
  unfold passTurns
  split
  · trivial
  · exact offered_registryTurns world.net world.ourDhtid rmpv (List.Subset.refl pass.set.live) ∅ pass
      (fun off => offered_loopTurns _ _ _ _ off)

/-! ### What a pass says of its bootstraps -/

def Pass.DialedAt (pass : Pass) (i : Nat) : Prop := ∃ e, pass.set.entries[i]? = some e ∧ e.dialed = true

/-- A failed query drops its address: it is not live again, and no later loop asks it. -/
def Drops (set : BootstrapSet) (turns : List Turn) : Prop :=
  ∀ before addr later, turns = before ++ .asked addr false :: later →
    (∀ now rest, later = now ++ rest → addr ∉ (set.after (before ++ .asked addr false :: now)).live) ∧
      ∀ now rest answered, later = now ++ .begins :: rest → .asked addr answered ∉ rest

/-- A bootstrap is online exactly when a query to its address was answered. -/
def Tells (bootstrapPeers : List String) (final : BootstrapSet) (turns : List Turn) : Prop :=
  ∀ (i : Nat) (addr : String), bootstrapPeers[i]? = some addr →
    (final.states[i]? = some "online" ↔ .asked addr true ∈ turns)

theorem dialEntries_entries (net : Network) (entries : List BootstrapEntry) (commands : Nat) :
    (dialEntries net entries commands).1.map (fun e => (e.addr, e.answered)) =
      entries.map fun e => (e.addr, e.answered) := by
  induction entries generalizing commands with
  | nil => rfl
  | cons e rest ih =>
    unfold dialEntries
    split
    · exact congrArg ((e.addr, e.answered) :: ·) (ih _)
    · exact congrArg ((e.addr, e.answered) :: ·) (ih _)

theorem dialBootstraps_entries (net : Network) (bootstrapPeers : List String) :
    (dialBootstraps net bootstrapPeers).set.entries.map (fun e => (e.addr, e.answered)) =
      bootstrapPeers.map fun addr => (addr, false) := by
  have dialed := dialEntries_entries net (BootstrapSet.new bootstrapPeers).entries 0
  refine dialed.trans ?_
  simp [BootstrapSet.new]

section
variable (net : Network) {bootstrapPeers : List String}

theorem dialBootstraps_addrs : (dialBootstraps net bootstrapPeers).set.addrs = bootstrapPeers := by
  have pairs := congrArg (List.map Prod.fst) (dialBootstraps_entries net bootstrapPeers)
  rw [List.map_map, List.map_map] at pairs
  refine pairs.trans ?_
  exact List.map_id _

theorem dialBootstraps_offline : ∀ e ∈ (dialBootstraps net bootstrapPeers).set.entries, e.answered = false := by
  intro e member
  have pair := List.mem_map_of_mem (f := fun e : BootstrapEntry => (e.addr, e.answered)) member
  rw [dialBootstraps_entries] at pair
  obtain ⟨addr, -, same⟩ := List.mem_map.mp pair
  exact (congrArg Prod.snd same).symm

end

theorem states_online_iff (set : BootstrapSet) (i : Nat) :
    set.states[i]? = some "online" ↔ ∃ e, set.entries[i]? = some e ∧ e.answered = true := by
  rw [BootstrapSet.states, List.getElem?_map, Option.map_eq_some_iff]
  refine exists_congr fun e => and_congr_right fun _ => ?_
  cases e.answered <;> simp

section
variable (rmpv : Rmpv) (world : World) (bootstrapPeers : List String)

theorem asked_of_repeat (pass : Pass) {i : Nat} {e : BootstrapEntry}
    (found : pass.set.entries[i]? = some e) (again : ¬ FirstAt pass.set.addrs i) (dialed : e.dialed = true) :
    ∃ answered, .asked e.addr answered ∈ passTurns rmpv world pass := by
  have dialable : pass.set.hasDialable = true := by
    rw [BootstrapSet.hasDialable, List.any_eq_true]
    exact ⟨e, List.mem_of_getElem? found, dialed⟩
  have read : (discoverModels rmpv world.net world.ourDhtid pass).2.set =
      pass.set.after (registryTurns world.net world.ourDhtid rmpv pass.set.live ∅ pass) :=
    (after_registryTurns world.net world.ourDhtid rmpv pass.set.live ∅ pass).symm
  have live : e.addr ∈ (discoverModels rmpv world.net world.ourDhtid pass).2.set.live := by
    rw [read, BootstrapSet.mem_live]
    refine ⟨i, e, ?_, dialed, rfl⟩
    rw [BootstrapSet.getElem?_after, found, Option.map_some, if_neg again]
  have loops : (discoverModels rmpv world.net world.ourDhtid pass).1.map (blockKeys world.net) ++
      capabilityKeys.map (fun key => [dhtKey world.net key]) ≠ [] := by simp [capabilityKeys]
  obtain ⟨answered, asked⟩ := asked_of_live world.net world.ourDhtid loops live
  refine ⟨answered, ?_⟩
  unfold passTurns dhtTurns
  rw [dialable]
  exact List.mem_append_right _ asked

section
variable {rmpv world} {pass : Pass}

theorem undialed_of_drops {i : Nat} {e : BootstrapEntry} (found : pass.set.entries[i]? = some e)
    (again : ¬ FirstAt pass.set.addrs i) (drops : Drops pass.set (passTurns rmpv world pass))
    (unanswered : .asked e.addr true ∉ passTurns rmpv world pass) : e.dialed = false := by
  by_contra dialed
  have dialed : e.dialed = true := by simpa using dialed
  obtain ⟨answered, asked⟩ := asked_of_repeat rmpv world pass found again dialed
  cases answered with
  | true => exact unanswered asked
  | false =>
    obtain ⟨before, later, split⟩ := List.append_of_mem asked
    apply (drops before e.addr later split).1 later [] (by simp)
    rw [← split]
    exact (BootstrapSet.mem_live _ _).mpr ⟨i, e, BootstrapSet.getElem?_after_again found again _, dialed, rfl⟩

theorem drops_of_undialed
    (undialed : ∀ i e, pass.set.entries[i]? = some e → ¬ FirstAt pass.set.addrs i → e.dialed = false) :
    Drops pass.set (passTurns rmpv world pass) := by
  have dropped (turns : List Turn) (addr : String) (asked : .asked addr false ∈ turns) :
      addr ∉ (pass.set.after turns).live := BootstrapSet.not_live_of_failed undialed asked
  intro before addr later split
  constructor
  · intro now rest _
    exact dropped _ addr (List.mem_append_right _ List.mem_cons_self)
  · intro now rest answered same again
    subst same
    have offered := offered_passTurns rmpv world pass []
    have regroup : before ++ .asked addr false :: (now ++ .begins :: rest) =
        (before ++ .asked addr false :: now) ++ .begins :: rest := by simp
    rw [split, regroup] at offered
    obtain ⟨off, loop⟩ := offered.rest
    have failed : ∀ more, .asked addr false ∈ before ++ .asked addr false :: now ++ more := by simp
    have loop : Offered (pass.set.after (before ++ .asked addr false :: now))
        (pass.set.after (before ++ .asked addr false :: now)).live rest := loop
    obtain live | ⟨more, -, -, live⟩ := loop.live again
    · exact dropped _ addr (by simp) live
    · rw [← BootstrapSet.after_append] at live
      exact dropped _ addr (failed more) live

theorem tells_iff (offline : ∀ e ∈ pass.set.entries, e.answered = false) :
    Tells pass.set.addrs (finalSet rmpv world pass) (passTurns rmpv world pass) ↔
      ∀ i e, pass.set.entries[i]? = some e → ¬ FirstAt pass.set.addrs i →
        .asked e.addr true ∉ passTurns rmpv world pass := by
  have told (i : Nat) (e : BootstrapEntry) (found : pass.set.entries[i]? = some e) :
      (finalSet rmpv world pass).states[i]? = some "online" ↔
        FirstAt pass.set.addrs i ∧ .asked e.addr true ∈ passTurns rmpv world pass := by
    have off := offline e (List.mem_of_getElem? found)
    rw [states_online_iff, finalSet_eq, BootstrapSet.getElem?_after, found]
    by_cases first : FirstAt pass.set.addrs i
    · simp [first, off]
    · simp [first, off]
  constructor
  · intro tells i e found again asked
    have online := (tells i e.addr (BootstrapSet.addr_of_getElem? found)).mpr asked
    exact again ((told i e found).mp online).1
  · intro unanswered i addr configured
    obtain ⟨e, found, rfl⟩ := BootstrapSet.getElem?_of_addr configured
    rw [told i e found]
    by_cases first : FirstAt pass.set.addrs i
    · simp [first]
    · simp [first, unanswered i e found first]

end

/-- Exactly when a pass drops every bootstrap that fails a query and tells rightly who answered: whatever
was configured under an address already in the list could not be dialed, and nobody answered there. -/
theorem health_iff :
    Drops (dialBootstraps world.net bootstrapPeers).set
          (passTurns rmpv world (dialBootstraps world.net bootstrapPeers)) ∧
        Tells bootstrapPeers (finalSet rmpv world (dialBootstraps world.net bootstrapPeers))
          (passTurns rmpv world (dialBootstraps world.net bootstrapPeers)) ↔
      ∀ (i : Nat) (addr : String), bootstrapPeers[i]? = some addr → ¬ FirstAt bootstrapPeers i →
        ¬ (dialBootstraps world.net bootstrapPeers).DialedAt i ∧
          .asked addr true ∉ passTurns rmpv world (dialBootstraps world.net bootstrapPeers) := by
  generalize start : dialBootstraps world.net bootstrapPeers = pass
  have addrs : pass.set.addrs = bootstrapPeers := start ▸ dialBootstraps_addrs world.net
  have offline : ∀ e ∈ pass.set.entries, e.answered = false := start ▸ dialBootstraps_offline world.net
  clear start
  subst addrs
  rw [tells_iff offline]
  constructor
  · intro both i addr configured again
    obtain ⟨drops, unanswered⟩ := both
    obtain ⟨e, found, rfl⟩ := BootstrapSet.getElem?_of_addr configured
    have quiet := unanswered i e found again
    refine ⟨fun dialedAt => ?_, quiet⟩
    obtain ⟨d, same, dialed⟩ := dialedAt
    obtain rfl := Option.some.inj (found.symm.trans same)
    rw [undialed_of_drops found again drops quiet] at dialed
    cases dialed
  · intro repeats
    have of_entry (i : Nat) (e : BootstrapEntry) (found : pass.set.entries[i]? = some e) :=
      repeats i e.addr (BootstrapSet.addr_of_getElem? found)
    refine ⟨drops_of_undialed fun i e found again => ?_, fun i e found again => (of_entry i e found again).2⟩
    exact Bool.eq_false_iff.mpr fun dialed => (of_entry i e found again).1 ⟨e, found, dialed⟩

end

def twice : List String := List.replicate 2 "/ip4/1.2.3.4/tcp/8000/p2p/QmA"

def twicePass (script : List (Option FindResponse)) : Pass := dialBootstraps (Network.scripted script) twice

def twiceTurns (script : List (Option FindResponse)) : List Turn :=
  passTurns (Wire.reader []) (World.scripted script) (twicePass script)

def twiceFinal (script : List (Option FindResponse)) : BootstrapSet :=
  finalSet (Wire.reader []) (World.scripted script) (twicePass script)

/-- Configured twice, a bootstrap that fails every query stays live, and one that answers is also told
offline. -/
theorem repeated_bootstrap_misjudged :
    ¬ Drops (twicePass []).set (twiceTurns []) ∧
      (twiceFinal (List.replicate 3 (some ⟨[]⟩))).states = ["online", "offline"] ∧
      ¬ Tells twice (twiceFinal (List.replicate 3 (some ⟨[]⟩))) (twiceTurns (List.replicate 3 (some ⟨[]⟩))) := by
  refine ⟨?_, by decide +kernel, ?_⟩
  · intro drops
    have turns : twiceTurns [] =
        [.begins] ++ .asked "/ip4/1.2.3.4/tcp/8000/p2p/QmA" false :: (twiceTurns []).drop 2 := by
      decide +kernel
    exact (drops _ _ _ turns).1 [] _ rfl (by decide +kernel)
  · intro tells
    exact absurd ((tells 1 "/ip4/1.2.3.4/tcp/8000/p2p/QmA" rfl).mpr (by decide +kernel)) (by decide +kernel)

end KwaaiNetMap
