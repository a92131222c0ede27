import KwaaiNetMap.Crawler.Pass

/-!
The models of a pass stand under distinct prefixes and have between 1 and 512 blocks, whether they were
registered or assumed.
-/

namespace KwaaiNetMap
open Collections

def WellKeyed (found : BTreeMap String Model) : Prop :=
  ∀ k m, found.get? k = some m → m.dhtPrefix = k ∧ 1 ≤ m.numBlocks ∧ m.numBlocks ≤ maxBlocks

theorem wellKeyed_empty : WellKeyed ∅ := by
  intro k m found
  rw [BTreeMap.get?_empty] at found
  cases found

theorem wellKeyed_orInsert {found : BTreeMap String Model} (keyed : WellKeyed found) (reg : ModelRegistration) :
    WellKeyed (found.orInsert reg.dhtPrefix (modelOf reg)) := by
  intro k m stored
  rw [BTreeMap.orInsert, BTreeMap.get?_upsert] at stored
  split at stored
  · rename_i same
    obtain rfl := Option.some.inj stored
    cases held : found.get? reg.dhtPrefix with
    | some m => exact same ▸ keyed reg.dhtPrefix m held
    | none =>
      refine ⟨same.symm, ?_, ?_⟩
      · exact Int.le_max_left 1 _
      · exact Int.max_le.mpr ⟨by decide, Int.min_le_right _ _⟩
  · exact keyed k m stored

section
variable (rmpv : Rmpv)

theorem wellKeyed_registerResult {found : BTreeMap String Model} (keyed : WellKeyed found) (result : FindResult) :
    WellKeyed (registerResult rmpv found result) := by
  unfold registerResult
  split
  · exact keyed
  · generalize decodeModelRegistry rmpv result.value = regs
    induction regs generalizing found with
    | nil => exact keyed
    | cons reg regs ih => exact ih (wellKeyed_orInsert keyed reg)

theorem wellKeyed_registerResponse {found : BTreeMap String Model} (keyed : WellKeyed found)
    (resp : FindResponse) : WellKeyed (registerResponse rmpv found resp) := by
  unfold registerResponse
  generalize resp.results = results
  induction results generalizing found with
  | nil => exact keyed
  | cons result results ih => exact ih (wellKeyed_registerResult rmpv keyed result)

variable (net : Network) (ourDhtid : Bytes)

theorem wellKeyed_readRegistry (addrs : List String) {found : BTreeMap String Model} (keyed : WellKeyed found)
    (pass : Pass) : WellKeyed (readRegistry rmpv net ourDhtid addrs found pass).1 := by
  induction addrs generalizing found pass with
  | nil => exact keyed
  | cons addr rest ih =>
    unfold readRegistry
    rcases rpcFind net ourDhtid pass addr [dhtKey net "_petals.models"] with ⟨_ | resp, pass⟩
    · exact ih keyed pass
    · have next := wellKeyed_registerResponse rmpv keyed resp
      dsimp only
      split
      · exact ih next pass
      · exact next

theorem discoverModels_wellFormed (pass : Pass) :
    ((discoverModels rmpv net ourDhtid pass).1.map fun m => m.dhtPrefix).Nodup ∧
      ∀ m ∈ (discoverModels rmpv net ourDhtid pass).1, 1 ≤ m.numBlocks ∧ m.numBlocks ≤ maxBlocks := by
  have keyed := wellKeyed_readRegistry rmpv net ourDhtid pass.set.live wellKeyed_empty pass
  unfold discoverModels
  dsimp only
  generalize (readRegistry rmpv net ourDhtid pass.set.live ∅ pass).1 = found at keyed
  split
  · decide
  · have entry : ∀ e ∈ found.entries, e.2.dhtPrefix = e.1 ∧ 1 ≤ e.2.numBlocks ∧ e.2.numBlocks ≤ maxBlocks :=
      fun e member => keyed e.1 e.2 ((found.mem_entries e.1 e.2).mp member)
    constructor
    · have keys : found.values.map (fun m => m.dhtPrefix) = found.keys := by
        rw [BTreeMap.values, List.map_map]
        exact List.map_congr_left fun e member => (entry e member).1
      rw [keys]
      exact ascending_nodup found.sorted
    · intro m member
      obtain ⟨e, stored, rfl⟩ := List.mem_map.mp member
      exact (entry e stored).2

end

end KwaaiNetMap
