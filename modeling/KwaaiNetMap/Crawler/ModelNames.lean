import KwaaiNetMap.Crawler.ModelView
import KwaaiNetMap.Crawler.Roster
import KwaaiNetMap.Text.Search

/-!
A model is named by the path of its repository, or by its DHT prefix where there is none, and shown by the last
segment of that name. The path is tested for being empty before its trailing slashes are trimmed, and neither
its leading slashes nor those of a prefix are: `model_names_iff` says for which repositories and prefixes the
names are well formed.
-/

namespace KwaaiNetMap
open Collections

def afterScheme (repository : String) : List Char :=
  ((Text.splitOnce "://".toList repository.toList).map Prod.snd).getD repository.toList

theorem modelName_eq (repository dhtPrefix : String) :
    modelName repository dhtPrefix =
      match Text.splitOnce ['/'] (afterScheme repository) with
      | some (_, rest) => if rest ≠ [] then String.ofList (Text.trimEnd '/' rest) else dhtPrefix
      | none => dhtPrefix := rfl

theorem modelName_cases (repository dhtPrefix : String) :
    (∃ host c rest, afterScheme repository = host ++ '/' :: c :: rest ∧ '/' ∉ host ∧
        modelName repository dhtPrefix = String.ofList (Text.trimEnd '/' (c :: rest))) ∨
      ('/' ∉ (afterScheme repository).dropLast ∧ modelName repository dhtPrefix = dhtPrefix) := by
  rw [modelName_eq]
  cases cut : Text.splitOnce ['/'] (afterScheme repository) with
  | none =>
    have absent := (Text.splitOnce_eq_none ['/'] (afterScheme repository)).mp cut
    rw [List.singleton_infix_iff] at absent
    exact Or.inr ⟨fun member => absent (List.mem_of_mem_dropLast member), rfl⟩
  | some parts =>
    obtain ⟨host, path⟩ := parts
    have whole := (Text.splitOnce_eq_some.mp cut).1
    rw [whole] at cut
    have first := (Text.splitOnce_append (List.cons_ne_nil '/' []) host path).mp cut
    have fresh : '/' ∉ host := by simpa [List.singleton_infix_iff] using first
    rw [List.append_assoc, List.singleton_append] at whole
    cases path with
    | nil =>
      refine Or.inr ⟨?_, rfl⟩
      rw [whole, List.dropLast_concat]
      exact fresh
    | cons c rest => exact Or.inl ⟨host, c, rest, whole, fresh, rfl⟩

theorem shortName_toList (name : String) : (shortName name).toList = Text.lastSegment '/' name.toList := by
  unfold shortName Text.lastSegment
  cases Text.rsplitOnce ['/'] name.toList with
  | none => rfl
  | some parts => simp

/-! ### What is published -/

/-- Every document names the models of this repository and prefix so, in their reports and in the rows of the
peers whose block record is one of theirs. -/
def Published (repository dhtPrefix name short : String) : Prop :=
  ∀ (overflowChecks : Bool) (order : IterOrder) (now : DateTime) (input : CrawlInput) (s : Snapshot),
    buildSnapshot overflowChecks order now input = some s →
      (∀ report ∈ s.modelReports, report.repository = repository → report.dhtPrefix = dhtPrefix →
        report.name = name ∧ report.shortName = short) ∧
      ∀ row ∈ s.peers, ∀ model info, input.source row.peerId = .block model info →
        model.repository = repository → model.dhtPrefix = dhtPrefix → row.model = some short

theorem published_names (repository dhtPrefix : String) :
    Published repository dhtPrefix (modelName repository dhtPrefix) (shortName (modelName repository dhtPrefix)) := by
  intro overflowChecks order now input s built
  constructor
  · intro report shown sameRepository samePrefix
    rw [built_modelReports built] at shown
    obtain ⟨model, -, rfl⟩ := mem_reports.mp shown
    obtain rfl : model.repository = repository := sameRepository
    obtain rfl : model.dhtPrefix = dhtPrefix := samePrefix
    exact ⟨rfl, rfl⟩
  · intro row shown model info source sameRepository samePrefix
    have record := (roster built).2.2.2.1 row shown
    rw [(record.block model info source).1, sameRepository, samePrefix]

/-- The name is not empty and no slash bounds it, and its last segment, not empty either, is the short name
every document publishes. -/
structure WellNamed (repository dhtPrefix : String) : Prop where
  name : Text.Trimmed '/' (modelName repository dhtPrefix).toList
  short : ∃ short, short ≠ "" ∧ Text.LastSegment '/' (modelName repository dhtPrefix).toList short.toList ∧
    Published repository dhtPrefix (modelName repository dhtPrefix) short

theorem wellNamed_iff_trimmed {repository dhtPrefix : String} :
    WellNamed repository dhtPrefix ↔ Text.Trimmed '/' (modelName repository dhtPrefix).toList := by
  constructor
  · exact WellNamed.name
  · intro trimmed
    refine ⟨trimmed, shortName (modelName repository dhtPrefix), ?_, ?_, published_names repository dhtPrefix⟩
    · intro empty
      apply Text.lastSegment_filled trimmed
      rw [← shortName_toList, empty]
      rfl
    · rw [shortName_toList]
      exact Text.lastSegment_spec '/' _

theorem slash_inside {path host rest : List Char} {c : Char} (whole : path = host ++ '/' :: c :: rest) :
    '/' ∈ path.dropLast := by
  rw [whole]
  simp

/-- A path follows the host and does not begin with a slash, or none does and no slash bounds the prefix. -/
def NamesPath (repository dhtPrefix : String) : Prop :=
  (∃ host c rest, afterScheme repository = host ++ '/' :: c :: rest ∧ '/' ∉ host ∧ c ≠ '/') ∨
    ('/' ∉ (afterScheme repository).dropLast ∧ ¬ ['/'] <+: dhtPrefix.toList ∧ ¬ ['/'] <:+ dhtPrefix.toList)

/-- Whatever the repository and the prefix, the names are well formed exactly when a path or a prefix gives one. -/
theorem model_names_iff {repository dhtPrefix : String} (named : dhtPrefix ≠ "") :
    WellNamed repository dhtPrefix ↔ NamesPath repository dhtPrefix := by
  rw [wellNamed_iff_trimmed]
  rcases modelName_cases repository dhtPrefix with ⟨host, c, rest, path, fresh, name⟩ | ⟨bare, name⟩
  · rw [name, String.toList_ofList, Text.trimmed_trimEnd_iff]
    constructor
    · intro filled
      exact Or.inl ⟨host, c, rest, path, fresh, filled⟩
    · intro condition
      rcases condition with ⟨host', c', rest', path', fresh', filled⟩ | ⟨bare, -⟩
      · obtain ⟨-, tail⟩ := Text.first_cut_unique fresh fresh' (path.symm.trans path')
        rw [(List.cons.inj tail).1]
        exact filled
      · exact absurd (slash_inside path) bare
  · rw [name]
    constructor
    · intro trimmed
      exact Or.inr ⟨bare, trimmed.front, trimmed.back⟩
    · intro condition
      rcases condition with ⟨host, c, rest, path, -, -⟩ | ⟨-, front, back⟩
      · exact absurd (slash_inside path) bare
      · exact ⟨mt String.toList_eq_nil_iff.mp named, front, back⟩

theorem hosted_model_well_named : WellNamed "https://huggingface.co/unsloth/Llama-3.1-8B-Instruct" "x" := by
  apply (model_names_iff (by decide)).mpr
  exact Or.inl ⟨"huggingface.co".toList, 'u', "nsloth/Llama-3.1-8B-Instruct".toList, by decide +kernel,
    by decide +kernel, by decide⟩

/-- A path of slashes alone is not empty until it is trimmed: the model, its report and its server go nameless. -/
theorem slashes_name_nothing :
    let model : Model :=
      { dhtPrefix := "Llama-3-1-8B-Instruct", repository := "https://huggingface.co//", numBlocks := 1 }
    let entry : PeerModelEntry := { blocks := BTreeSet.ofList [0], info := { state := "online", endBlock := 1 } }
    let input : CrawlInput :=
      { models := [model]
        perModel := (∅ : BTreeMap String (HashMap String PeerModelEntry)).insert "Llama-3-1-8B-Instruct"
          (HashMap.insert ∅ "QmA" entry)
        geo := .disabled }
    (buildSnapshot true .insertion 0 input).map (fun s =>
        (s.modelReports.map fun report => (report.name, report.shortName), s.peers.map (·.model))) =
        some ([("", "")], [some ""]) ∧
      model.dhtPrefix ≠ "" ∧ ¬ WellNamed model.repository model.dhtPrefix := by
  intro model entry input
  refine ⟨by decide +kernel, by decide, ?_⟩
  intro well
  apply well.name.filled
  decide +kernel

end KwaaiNetMap
