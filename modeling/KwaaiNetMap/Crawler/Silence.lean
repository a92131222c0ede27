import KwaaiNetMap.Crawler.Gather

/-!
A bootstrap that answers a query is marked for the rest of the pass, so a pass whose bootstraps all end
offline got no answer to any query (`silent_pass`): it has no record of any peer, and its document lists
the connected peers that speak kad and nobody else.
-/

namespace KwaaiNetMap
open Collections

/-! ### Marks -/

def Pass.Answered (pass : Pass) : Prop := ∃ e ∈ pass.set.entries, e.answered = true

def Pass.addrs (pass : Pass) : List String := pass.set.entries.map fun e => e.addr

structure Follows (before after : Pass) : Prop where
  addrs : after.addrs = before.addrs
  answered : before.Answered → after.Answered

theorem Follows.refl (pass : Pass) : Follows pass pass := ⟨rfl, id⟩

theorem Follows.trans {first second third : Pass} (h : Follows first second) (h' : Follows second third) :
    Follows first third := ⟨h'.addrs.trans h.addrs, fun answered => h'.answered (h.answered answered)⟩

theorem updateFirst_addrs {addr : String} {f : BootstrapEntry → BootstrapEntry}
    (same : ∀ e, (f e).addr = e.addr) (entries : List BootstrapEntry) :
    (BootstrapSet.updateFirst addr f entries).map (fun e => e.addr) = entries.map fun e => e.addr := by
  induction entries with
  | nil => rfl
  | cons e rest ih =>
    unfold BootstrapSet.updateFirst
    split
    · rw [List.map_cons, List.map_cons, same]
    · rw [List.map_cons, List.map_cons, ih]

theorem updateFirst_answered {addr : String} {f : BootstrapEntry → BootstrapEntry}
    (keeps : ∀ e, e.answered = true → (f e).answered = true) {entries : List BootstrapEntry}
    (marked : ∃ e ∈ entries, e.answered = true) :
    ∃ e ∈ BootstrapSet.updateFirst addr f entries, e.answered = true := by
  induction entries with
  | nil => simp at marked
  | cons e rest ih =>
    unfold BootstrapSet.updateFirst
    obtain ⟨x, member, answered⟩ := marked
    split
    · rcases List.mem_cons.mp member with rfl | later
      · exact ⟨f x, List.mem_cons_self, keeps x answered⟩
      · exact ⟨x, List.mem_cons_of_mem _ later, answered⟩
    · rcases List.mem_cons.mp member with rfl | later
      · exact ⟨x, List.mem_cons_self, answered⟩
      · obtain ⟨y, found, answered⟩ := ih ⟨x, later, answered⟩
        exact ⟨y, List.mem_cons_of_mem _ found, answered⟩

theorem updateFirst_marks {addr : String} {entries : List BootstrapEntry}
    (listed : addr ∈ entries.map fun e => e.addr) :
    ∃ e ∈ BootstrapSet.updateFirst addr (fun e => { e with answered := true }) entries, e.answered = true := by
  induction entries with
  | nil => cases listed
  | cons e rest ih =>
    unfold BootstrapSet.updateFirst
    split
    · exact ⟨_, List.mem_cons_self, rfl⟩
    · rename_i other
      rw [List.map_cons] at listed
      obtain ⟨x, found, answered⟩ := ih ((List.mem_cons.mp listed).resolve_left (Ne.symm other))
      exact ⟨x, List.mem_cons_of_mem _ found, answered⟩

theorem live_subset_addrs (pass : Pass) : pass.set.live ⊆ pass.addrs := by
  intro addr live
  obtain ⟨e, kept, rfl⟩ := List.mem_map.mp live
  exact List.mem_map_of_mem (List.mem_filter.mp kept).1

/-! ### Queries -/

section
variable (net : Network) (ourDhtid : Bytes)

theorem rpcFind_follows (pass : Pass) (addr : String) (keys : List Bytes) :
    Follows pass (rpcFind net ourDhtid pass addr keys).2 := by
  unfold rpcFind BootstrapSet.record
  dsimp only
  generalize (rpcFindInner net ourDhtid addr keys pass.commands).1.isSome = answered
  cases answered with
  | false =>
    constructor
    · exact updateFirst_addrs (by intro e; rfl) pass.set.entries
    · exact updateFirst_answered (by intro e marked; exact marked)
  | true =>
    constructor
    · exact updateFirst_addrs (by intro e; rfl) pass.set.entries
    · exact updateFirst_answered (by intro e marked; rfl)

theorem rpcFind_marks (pass : Pass) {addr : String} (keys : List Bytes) (listed : addr ∈ pass.addrs)
    (answered : (rpcFind net ourDhtid pass addr keys).1.isSome = true) :
    (rpcFind net ourDhtid pass addr keys).2.Answered := by
  have isSome : (rpcFindInner net ourDhtid addr keys pass.commands).1.isSome = true := answered
  unfold Pass.Answered rpcFind BootstrapSet.record
  simp only [isSome, if_true]
  exact updateFirst_marks listed

theorem askEach_follows (keys : List Bytes) (addrs : List String) (pass : Pass) :
    Follows pass (askEach net ourDhtid keys addrs pass).2 := by
  induction addrs generalizing pass with
  | nil => exact .refl pass
  | cons addr rest ih =>
    have first := rpcFind_follows net ourDhtid pass addr keys
    unfold askEach
    generalize rpcFind net ourDhtid pass addr keys = reply at first ⊢
    obtain ⟨_ | resp, next⟩ := reply
    · exact first.trans (ih next)
    · exact first.trans (ih next)

theorem askEach_silent_or_marked (keys : List Bytes) (addrs : List String) (pass : Pass)
    (listed : addrs ⊆ pass.addrs) :
    (askEach net ourDhtid keys addrs pass).1 = [] ∨ (askEach net ourDhtid keys addrs pass).2.Answered := by
  induction addrs generalizing pass with
  | nil => exact Or.inl rfl
  | cons addr rest ih =>
    have first := rpcFind_follows net ourDhtid pass addr keys
    have marks := rpcFind_marks net ourDhtid pass keys (listed List.mem_cons_self)
    unfold askEach
    generalize rpcFind net ourDhtid pass addr keys = reply at first marks ⊢
    obtain ⟨_ | resp, next⟩ := reply
    · exact ih next (first.addrs ▸ fun a member => listed (List.mem_cons_of_mem _ member))
    · exact Or.inr ((askEach_follows net ourDhtid keys rest next).answered (marks rfl))

theorem blockAnswers_follows (models : List Model) (pass : Pass) :
    Follows pass (blockAnswers net ourDhtid models pass).2 := by
  induction models generalizing pass with
  | nil => exact .refl pass
  | cons model rest ih => exact (askEach_follows net ourDhtid _ _ pass).trans (ih _)

theorem blockAnswers_silent_or_marked (models : List Model) (pass : Pass) :
    (∀ answer ∈ (blockAnswers net ourDhtid models pass).1, answer.2 = []) ∨
      (blockAnswers net ourDhtid models pass).2.Answered := by
  induction models generalizing pass with
  | nil => exact Or.inl fun answer member => by cases member
  | cons model rest ih =>
    have asked := askEach_silent_or_marked net ourDhtid (blockKeys net model) pass.set.live pass
      (live_subset_addrs pass)
    rcases ih (askEach net ourDhtid (blockKeys net model) pass.set.live pass).2 with silent | marked
    · rcases asked with none | marked
      · left
        intro answer member
        rcases List.mem_cons.mp member with rfl | later
        · exact none
        · exact silent answer later
      · exact Or.inr ((blockAnswers_follows net ourDhtid rest _).answered marked)
    · exact Or.inr marked

theorem capabilityAnswers_follows (keys : List String) (pass : Pass) :
    Follows pass (capabilityAnswers net ourDhtid keys pass).2 := by
  induction keys generalizing pass with
  | nil => exact .refl pass
  | cons key rest ih => exact (askEach_follows net ourDhtid _ _ pass).trans (ih _)

theorem capabilityAnswers_silent_or_marked (keys : List String) (pass : Pass) :
    (capabilityAnswers net ourDhtid keys pass).1 = [] ∨ (capabilityAnswers net ourDhtid keys pass).2.Answered := by
  induction keys generalizing pass with
  | nil => exact Or.inl rfl
  | cons key rest ih =>
    have asked := askEach_silent_or_marked net ourDhtid [dhtKey net key] pass.set.live pass
      (live_subset_addrs pass)
    rcases ih (askEach net ourDhtid [dhtKey net key] pass.set.live pass).2 with silent | marked
    · rcases asked with none | marked
      · left
        unfold capabilityAnswers
        dsimp only
        rw [none, silent]
        rfl
      · exact Or.inr ((capabilityAnswers_follows net ourDhtid rest _).answered marked)
    · exact Or.inr marked

end

theorem silent_pass {rmpv : Rmpv} {world : World} {pass : Pass}
    (offline : ∀ state ∈ (readDht rmpv world pass).pass.set.states, state = "offline") :
    let registry := discoverModels rmpv world.net world.ourDhtid pass
    let blocks := blockAnswers world.net world.ourDhtid registry.1 registry.2
    let capability := capabilityAnswers world.net world.ourDhtid capabilityKeys blocks.2
    (∀ answer ∈ blocks.1, answer.2 = []) ∧ capability.1 = [] := by
  intro registry blocks capability
  have reading : (readDht rmpv world pass).pass = capability.2 := by
    unfold readDht
    simp only [collectModels_eq, collectCapabilities_eq]
    rfl
  have unmarked : ¬ capability.2.Answered := by
    rintro ⟨e, member, answered⟩
    rw [reading] at offline
    have online : "online" ∈ capability.2.set.states :=
      List.mem_map.mpr ⟨e, member, if_pos answered⟩
    exact absurd (offline _ online) (by decide)
  constructor
  · refine (blockAnswers_silent_or_marked world.net world.ourDhtid registry.1 registry.2).resolve_right ?_
    exact fun marked => unmarked ((capabilityAnswers_follows _ _ _ _).answered marked)
  · exact (capabilityAnswers_silent_or_marked _ _ _ _).resolve_right unmarked

end KwaaiNetMap
