import KwaaiNetMap.Crawler.Registry
import KwaaiNetMap.Crawler.Health
import KwaaiNetMap.Text.Search

/-!
A pass is a list of batches: the registry key, the block keys of each model, a key for each capability
registry. `passBatches` is what it sends for each of them. `pass_traffic`: no key is in two places of a pass,
whatever the registry holds, and no bootstrap is sent a batch more than twice.
-/

namespace KwaaiNetMap
open Collections

inductive Command where
  | dial (addr : String)
  | call (peer : PeerId) (keys : List Bytes)
  deriving DecidableEq

def Command.callsTo (peer : PeerId) : Command → Bool
  | .dial _ => false
  | .call called _ => called = peer

structure Batch where
  names : List String
  commands : List Command

def blockName (model : Model) (block : Nat) : String := s!"{model.dhtPrefix}.{block}"

def blockNames (model : Model) : List String := (List.range model.numBlocks.toNat).map (blockName model)

section
variable (net : Network) (ourDhtid : Bytes)

def rpcCommands (bootstrap : String) (keys : List Bytes) (commands : Nat) : List Command :=
  match queriedPeer net bootstrap with
  | none => []
  | some bp =>
    match net.callUnaryHandler commands bp { keys, nodeId := ourDhtid } with
    | some _ => [.call bp keys]
    | none => [.call bp keys, .dial bootstrap, .call bp keys]

def askCommands (keys : List Bytes) : List String → Pass → List Command
  | [], _ => []
  | addr :: rest, pass =>
    rpcCommands net ourDhtid addr keys pass.commands ++
      askCommands keys rest (rpcFind net ourDhtid pass addr keys).2

def registryCommands (rmpv : Rmpv) : List String → BTreeMap String Model → Pass → List Command
  | [], _, _ => []
  | addr :: rest, found, pass =>
    rpcCommands net ourDhtid addr [dhtKey net "_petals.models"] pass.commands ++
      match rpcFind net ourDhtid pass addr [dhtKey net "_petals.models"] with
      | (none, pass) => registryCommands rmpv rest found pass
      | (some resp, pass) =>
        let found := registerResponse rmpv found resp
        if found.isEmpty then registryCommands rmpv rest found pass else []

def loopBatches : List (List String) → Pass → List Batch
  | [], _ => []
  | names :: rest, pass =>
    let keys := names.map (dhtKey net)
    { names, commands := askCommands net ourDhtid keys pass.set.live pass } ::
      loopBatches rest (askEach net ourDhtid keys pass.set.live pass).2

end

def dhtBatches (rmpv : Rmpv) (world : World) (pass : Pass) : List Batch :=
  let (models, read) := discoverModels rmpv world.net world.ourDhtid pass
  { names := ["_petals.models"],
    commands := registryCommands world.net world.ourDhtid rmpv pass.set.live ∅ pass } ::
    loopBatches world.net world.ourDhtid (models.map blockNames ++ capabilityKeys.map fun key => [key]) read

def passBatches (rmpv : Rmpv) (world : World) (pass : Pass) : List Batch :=
  if !pass.set.hasDialable then [] else dhtBatches rmpv world pass

/-! ### The names of a pass -/

theorem blockKeys_eq (net : Network) (model : Model) : blockKeys net model = (blockNames model).map (dhtKey net) := by
  rw [blockNames, List.map_map]
  rfl

theorem toList_blockName (model : Model) (block : Nat) :
    (blockName model block).toList = model.dhtPrefix.toList ++ '.' :: (Nat.repr block).toList := by
  have spelled : blockName model block = model.dhtPrefix ++ "." ++ Nat.repr block := rfl
  rw [spelled, String.toList_append, String.toList_append, List.append_assoc]
  rfl

theorem blockName_inj {model model' : Model} {block block' : Nat}
    (same : blockName model block = blockName model' block') :
    model.dhtPrefix = model'.dhtPrefix ∧ block = block' := by
  have spelled := congrArg String.toList same
  rw [toList_blockName, toList_blockName] at spelled
  obtain ⟨front, number⟩ := Text.numbered_inj (by decide) spelled
  exact ⟨String.toList_injective front, number⟩

theorem blockName_ne {model : Model} {block : Nat} {name : String} {before after : List Char}
    (split : name.toList = before ++ '.' :: after) (fresh : '.' ∉ after) {c : Char} (other : c.isDigit = false)
    (member : c ∈ after) : blockName model block ≠ name := by
  intro same
  have spelled := congrArg String.toList same
  rw [toList_blockName, split] at spelled
  obtain ⟨-, number⟩ := Text.last_cut_unique (Text.not_digit_not_mem_repr (by decide) block) fresh spelled
  exact Text.not_digit_not_mem_repr other block (number ▸ member)

def fixedNames : List String := "_petals.models" :: capabilityKeys

theorem blockName_not_fixed (model : Model) (block : Nat) : blockName model block ∉ fixedNames := by
  intro fixed
  have split : ∀ name ∈ fixedNames,
      ∃ before after, name.toList = before ++ '.' :: after ∧ '.' ∉ after ∧ 's' ∈ after := by
    intro name member
    rcases List.mem_cons.mp member with rfl | member
    · exact ⟨"_petals".toList, "models".toList, by decide, by decide, by decide⟩
    rcases List.mem_cons.mp member with rfl | member
    · exact ⟨"_kwaai.vpk".toList, "nodes".toList, by decide, by decide, by decide⟩
    · obtain rfl := List.mem_singleton.mp member
      exact ⟨"_kwaai.inference".toList, "nodes".toList, by decide, by decide, by decide⟩
  obtain ⟨before, after, written, fresh, letter⟩ := split _ fixed
  exact blockName_ne written fresh (by decide) letter rfl

theorem blockNames_nodup (model : Model) : (blockNames model).Nodup :=
  List.nodup_range.map_on fun _ _ _ _ same => (blockName_inj same).2

theorem mem_blockNames {model : Model} {name : String} (member : name ∈ blockNames model) :
    ∃ block, blockName model block = name := by
  obtain ⟨block, -, same⟩ := List.mem_map.mp member
  exact ⟨block, same⟩

theorem flatMap_blockNames_nodup {models : List Model} (prefixes : (models.map fun m => m.dhtPrefix).Nodup) :
    (models.flatMap blockNames).Nodup := by
  induction models with
  | nil => exact List.nodup_nil
  | cons model models ih =>
    obtain ⟨fresh, rest⟩ := List.nodup_cons.mp prefixes
    rw [List.flatMap_cons]
    refine List.nodup_append.mpr ⟨blockNames_nodup model, ih rest, ?_⟩
    intro name here other there same
    subst same
    obtain ⟨block, rfl⟩ := mem_blockNames here
    obtain ⟨model', listed, there⟩ := List.mem_flatMap.mp there
    obtain ⟨block', same⟩ := mem_blockNames there
    exact fresh (List.mem_map.mpr ⟨model', listed, (blockName_inj same).1⟩)

theorem passNames_nodup {models : List Model} (prefixes : (models.map fun m => m.dhtPrefix).Nodup) :
    ("_petals.models" :: (models.flatMap blockNames ++ capabilityKeys)).Nodup := by
  have apart : ∀ name ∈ models.flatMap blockNames, name ∉ fixedNames := by
    intro name member
    obtain ⟨model, -, member⟩ := List.mem_flatMap.mp member
    obtain ⟨block, rfl⟩ := mem_blockNames member
    exact blockName_not_fixed model block
  refine List.nodup_cons.mpr ⟨?_, List.nodup_append.mpr ⟨flatMap_blockNames_nodup prefixes, by decide, ?_⟩⟩
  · intro member
    rcases List.mem_append.mp member with block | capability
    · exact apart _ block List.mem_cons_self
    · exact absurd capability (by decide)
  · intro name block other capability same
    exact apart name block (List.mem_cons_of_mem _ (same ▸ capability))

/-! ### What is sent for a batch -/

/-- `commands` take the pass from `before` to `after`, asking each of `addrs` for `keys` at most twice. -/
structure Sent (net : Network) (keys : List Bytes) (addrs : List String) (before after : Pass)
    (commands : List Command) : Prop where
  counted : after.commands = before.commands + commands.length
  kept : after.addrs = before.addrs
  keys : ∀ peer keys', .call peer keys' ∈ commands → keys' = keys
  calls : ∀ peer, commands.countP (Command.callsTo peer) ≤
    2 * addrs.countP fun addr => queriedPeer net addr = some peer

section
variable {net : Network} {keys : List Bytes}

theorem Sent.nothing (addrs : List String) (pass : Pass) : Sent net keys addrs pass pass [] :=
  ⟨rfl, rfl, fun _ _ sent => (nomatch sent), fun _ => Nat.zero_le _⟩

theorem Sent.append {addrs addrs' : List String} {first second third : Pass} {commands commands' : List Command}
    (sent : Sent net keys addrs first second commands) (sent' : Sent net keys addrs' second third commands') :
    Sent net keys (addrs ++ addrs') first third (commands ++ commands') where
  counted := by rw [sent'.counted, sent.counted, List.length_append, Nat.add_assoc]
  kept := sent'.kept.trans sent.kept
  keys := by
    intro peer keys' member
    rcases List.mem_append.mp member with early | late
    · exact sent.keys peer keys' early
    · exact sent'.keys peer keys' late
  calls := by
    intro peer
    have early := sent.calls peer
    have late := sent'.calls peer
    rw [List.countP_append, List.countP_append]
    omega

theorem Sent.sublist {addrs addrs' : List String} {before after : Pass} {commands : List Command}
    (sent : Sent net keys addrs before after commands) (sub : addrs.Sublist addrs') :
    Sent net keys addrs' before after commands where
  counted := sent.counted
  kept := sent.kept
  keys := sent.keys
  calls := fun peer => (sent.calls peer).trans (Nat.mul_le_mul_left 2 sub.countP_le)

end

section
variable (net : Network) (ourDhtid : Bytes) (keys : List Bytes)

theorem sent_rpcFind (addr : String) (pass : Pass) :
    Sent net keys [addr] pass (rpcFind net ourDhtid pass addr keys).2
      (rpcCommands net ourDhtid addr keys pass.commands) := by
  have follows := (rpcFind_follows net ourDhtid pass addr keys).addrs
  unfold rpcFind rpcFindInner at follows ⊢
  unfold rpcCommands
  cases queried : queriedPeer net addr with
  | none =>
    rw [queried] at follows
    exact ⟨rfl, follows, fun _ _ sent => (nomatch sent), fun _ => Nat.zero_le _⟩
  | some bp =>
    rw [queried] at follows
    dsimp only at follows ⊢
    have calls (peer : PeerId) (n : Nat) (few : n ≤ 2) : (if bp = peer then n else 0) ≤
        2 * [addr].countP fun addr => queriedPeer net addr = some peer := by
      rw [List.countP_singleton, queried]
      split
      · rename_i same
        rw [same]
        simpa using few
      · exact Nat.zero_le _
    cases answer : net.callUnaryHandler pass.commands bp { keys, nodeId := ourDhtid } with
    | some resp =>
      rw [answer] at follows
      refine ⟨rfl, follows, ?_, ?_⟩
      · intro peer keys' sent
        obtain ⟨-, rfl⟩ := Command.call.inj (List.mem_singleton.mp sent)
        rfl
      · intro peer
        refine le_trans (Nat.le_of_eq ?_) (calls peer 1 (by decide))
        by_cases same : bp = peer <;> simp [Command.callsTo, same]
    | none =>
      -- the redial and the second call
      rw [answer] at follows
      refine ⟨rfl, follows, ?_, ?_⟩
      · intro peer keys' sent
        have called : Command.call peer keys' = .call bp keys := by simpa using sent
        exact (Command.call.inj called).2
      · intro peer
        refine le_trans (Nat.le_of_eq ?_) (calls peer 2 (Nat.le_refl 2))
        by_cases same : bp = peer <;> simp [Command.callsTo, same]

theorem sent_askEach (addrs : List String) (pass : Pass) :
    Sent net keys addrs pass (askEach net ourDhtid keys addrs pass).2 (askCommands net ourDhtid keys addrs pass) := by
  induction addrs generalizing pass with
  | nil => exact .nothing [] pass
  | cons addr rest ih =>
    have first := sent_rpcFind net ourDhtid keys addr pass
    unfold askEach askCommands
    generalize rpcFind net ourDhtid pass addr keys = reply at first ⊢
    obtain ⟨_ | resp, next⟩ := reply
    · exact first.append (ih next)
    · exact first.append (ih next)

theorem sent_readRegistry (rmpv : Rmpv) (addrs : List String) (found : BTreeMap String Model) (pass : Pass) :
    Sent net [dhtKey net "_petals.models"] addrs pass (readRegistry rmpv net ourDhtid addrs found pass).2
      (registryCommands net ourDhtid rmpv addrs found pass) := by
  induction addrs generalizing found pass with
  | nil => exact .nothing [] pass
  | cons addr rest ih =>
    have first := sent_rpcFind net ourDhtid [dhtKey net "_petals.models"] addr pass
    unfold readRegistry registryCommands
    generalize rpcFind net ourDhtid pass addr [dhtKey net "_petals.models"] = reply at first ⊢
    obtain ⟨_ | resp, next⟩ := reply
    · exact first.append (ih found next)
    · dsimp only
      split
      · exact first.append (ih _ next)
      · exact first.append (.nothing rest next)

end

/-! ### A whole pass -/

section
variable (net : Network) (configured : List String)

structure Batch.Modest (b : Batch) : Prop where
  keys : ∀ peer keys, .call peer keys ∈ b.commands → keys = b.names.map (dhtKey net)
  calls : ∀ peer, b.commands.countP (Command.callsTo peer) ≤
    2 * configured.countP fun addr => queriedPeer net addr = some peer

end

section
variable {net : Network} {ourDhtid : Bytes}

theorem live_sublist_addrs (pass : Pass) : pass.set.live.Sublist pass.addrs := List.filter_sublist.map _

theorem Sent.modest {names : List String} {pass after : Pass} {commands : List Command}
    (sent : Sent net (names.map (dhtKey net)) pass.set.live pass after commands) :
    Batch.Modest net pass.addrs { names, commands } :=
  let all := sent.sublist (live_sublist_addrs pass)
  ⟨all.keys, all.calls⟩

theorem loopBatches_names (loops : List (List String)) (pass : Pass) :
    (loopBatches net ourDhtid loops pass).map Batch.names = loops := by
  induction loops generalizing pass with
  | nil => rfl
  | cons names rest ih => exact congrArg (names :: ·) (ih _)

theorem loopBatches_modest (loops : List (List String)) (pass : Pass) :
    ∀ b ∈ loopBatches net ourDhtid loops pass, b.Modest net pass.addrs := by
  induction loops generalizing pass with
  | nil =>
    intro b member
    cases member
  | cons names rest ih =>
    intro b member
    have sent := sent_askEach net ourDhtid (names.map (dhtKey net)) pass.set.live pass
    rcases List.mem_cons.mp member with rfl | later
    · exact sent.modest
    · exact sent.kept ▸ ih _ b later

theorem loopBatches_counted (loops : List (List String)) (pass : Pass) :
    ((loops.map (List.map (dhtKey net))).foldl (askLive net ourDhtid) pass).commands =
      pass.commands + ((loopBatches net ourDhtid loops pass).flatMap Batch.commands).length := by
  induction loops generalizing pass with
  | nil => rfl
  | cons names rest ih =>
    have sent := sent_askEach net ourDhtid (names.map (dhtKey net)) pass.set.live pass
    rw [List.map_cons, List.foldl_cons, ih, loopBatches, List.flatMap_cons, List.length_append, ← Nat.add_assoc]
    congr 1
    exact sent.counted

end

theorem dhtBatches_counted (rmpv : Rmpv) (world : World) (pass : Pass) :
    (readDht rmpv world pass).pass.commands =
      pass.commands + ((dhtBatches rmpv world pass).flatMap Batch.commands).length := by
  have registry := (sent_readRegistry world.net world.ourDhtid rmpv pass.set.live ∅ pass).counted
  have models : ∀ models : List Model, models.map (blockKeys world.net) =
      (models.map blockNames).map (List.map (dhtKey world.net)) := by
    intro models
    rw [List.map_map]
    exact List.map_congr_left fun model _ => blockKeys_eq world.net model
  have capabilities : capabilityKeys.map (fun key => [dhtKey world.net key]) =
      (capabilityKeys.map fun key => [key]).map (List.map (dhtKey world.net)) := by
    rw [List.map_map]
    rfl
  unfold readDht dhtBatches
  simp only [collectModels_eq, collectCapabilities_eq]
  rw [capabilityAnswers_pass, blockAnswers_pass, ← List.foldl_append, models, capabilities, ← List.map_append,
    loopBatches_counted, List.flatMap_cons, List.length_append, ← Nat.add_assoc]
  congr 1

theorem dhtBatches_names (rmpv : Rmpv) (world : World) (pass : Pass) :
    (dhtBatches rmpv world pass).map Batch.names =
      ["_petals.models"] :: ((discoverModels rmpv world.net world.ourDhtid pass).1.map blockNames ++
        capabilityKeys.map fun key => [key]) := by
  unfold dhtBatches
  exact congrArg (_ :: ·) (loopBatches_names _ _)

theorem dhtBatches_modest (rmpv : Rmpv) (world : World) (pass : Pass) :
    ∀ b ∈ dhtBatches rmpv world pass, b.Modest world.net pass.addrs := by
  have sent := sent_readRegistry world.net world.ourDhtid rmpv pass.set.live ∅ pass
  intro b member
  unfold dhtBatches at member
  rcases List.mem_cons.mp member with rfl | later
  · have asked : Sent world.net (["_petals.models"].map (dhtKey world.net)) _ _ _ _ := sent
    exact asked.modest
  · exact sent.kept ▸ loopBatches_modest _ _ b later

theorem dhtBatches_nodup (rmpv : Rmpv) (world : World) (pass : Pass) :
    ((dhtBatches rmpv world pass).flatMap Batch.names).Nodup := by
  have apart := passNames_nodup (discoverModels_wellFormed rmpv world.net world.ourDhtid pass).1
  have singles : (capabilityKeys.map fun key => [key]).flatten = capabilityKeys := rfl
  rw [List.flatMap_def, dhtBatches_names, List.flatten_cons, List.flatten_append, singles, ← List.flatMap_def]
  exact apart

theorem dhtBatches_sizes (rmpv : Rmpv) (world : World) (pass : Pass) :
    ∀ b ∈ dhtBatches rmpv world pass, 0 < b.names.length ∧ b.names.length ≤ 512 := by
  intro b member
  have listed : b.names ∈ (dhtBatches rmpv world pass).map Batch.names := List.mem_map_of_mem member
  rw [dhtBatches_names] at listed
  rcases List.mem_cons.mp listed with registry | listed
  · rw [registry]
    decide
  rcases List.mem_append.mp listed with blocks | capability
  · obtain ⟨model, found, same⟩ := List.mem_map.mp blocks
    obtain ⟨least, most⟩ := (discoverModels_wellFormed rmpv world.net world.ourDhtid pass).2 model found
    have few : model.numBlocks ≤ 512 := most
    rw [← same, blockNames, List.length_map, List.length_range]
    omega
  · obtain ⟨key, -, same⟩ := List.mem_map.mp capability
    rw [← same, List.length_singleton]
    decide

/-- What a pass asks: no raw key in two places of its batches (and no DHT key, where the hash keeps the keys of the
pass apart), at most 512 of them at a time, and no bootstrap more than twice for each time it is configured; its
commands are those counted by the swarm. -/
theorem pass_traffic (rmpv : Rmpv) (world : World) (bootstrapPeers : List String) :
    let pass := dialBootstraps world.net bootstrapPeers
    let batches := passBatches rmpv world pass
    (batches.flatMap Batch.names).Nodup ∧
      (Set.InjOn (dhtKey world.net) {name | name ∈ batches.flatMap Batch.names} →
        ((batches.flatMap Batch.names).map (dhtKey world.net)).Nodup) ∧
      (∀ b ∈ batches, 0 < b.names.length ∧ b.names.length ≤ 512) ∧
      (∀ b ∈ batches, ∀ peer keys, .call peer keys ∈ b.commands → keys = b.names.map (dhtKey world.net)) ∧
      (∀ b ∈ batches, ∀ peer, b.commands.countP (Command.callsTo peer) ≤
        2 * bootstrapPeers.countP fun addr => queriedPeer world.net addr = some peer) ∧
      (pass.set.hasDialable = true → (readDht rmpv world pass).pass.commands =
        pass.commands + (batches.flatMap Batch.commands).length) := by
  intro pass batches
  have configured : pass.addrs = bootstrapPeers := dialBootstraps_addrs world.net
  cases dialable : pass.set.hasDialable with
  | false =>
    have silent : batches = [] := by simp [batches, passBatches, dialable]
    rw [silent]
    exact ⟨List.nodup_nil, fun _ => List.nodup_nil, fun b none => (nomatch none), fun b none => (nomatch none),
      fun b none => (nomatch none), fun asked => (nomatch asked)⟩
  | true =>
    have asking : batches = dhtBatches rmpv world pass := by simp [batches, passBatches, dialable]
    have modest := dhtBatches_modest rmpv world pass
    rw [configured] at modest
    have apart := dhtBatches_nodup rmpv world pass
    rw [asking]
    exact ⟨apart, fun hashed => apart.map_on hashed, dhtBatches_sizes rmpv world pass,
      fun b member => (modest b member).keys, fun b member => (modest b member).calls,
      fun _ => dhtBatches_counted rmpv world pass⟩

end KwaaiNetMap
