import KwaaiNetMap.Page.Rewording
import KwaaiNetMap.Text.Html

/-!
What nodes say about themselves reaches the popup as it is. Texts without `<` leave its tags alone
(`tags_plain`), but no site with a node is safe from every text (`inert_iff`).
-/

namespace KwaaiNetMap.Page
open Html

/-! ### The pieces of a popup -/

def opening : String := "<div class=\"site-node\">\n                <b>Model:</b> "

def range (browser : Browser) (server : Server) : String :=
  match server.span.bind Span.start with
  | none => ""
  | some start =>
    if serverStatus browser server = "Serving" ∨ serverStatus browser server = "Loading" then
      " [" ++ browser.number start ++ ":" ++
        ((server.span.bind Span.stop).map browser.number).getD "null" ++ "]"
    else ""

def sharding (browser : Browser) (server : Server) : String :=
  "<br>\n                <b>Sharding:</b> <span class=\"" ++ statusClass browser server.state ++ "\">" ++
    serverStatus browser server ++ "</span><br>\n                <b>Public Name:</b> "

def versionMark : String := "<br>\n                <b>Version:</b> "

def footer (browser : Browser) (server : Server) : String :=
  "<br>\n                <b>Connection:</b> <span style=\"color:" ++
    connectionTypeColor (getConnectionType browser server) ++ "; font-weight:bold;\">" ++
    getConnectionType browser server ++ "</span><br>\n                <b>Tok/sec:</b> <span style=\"color:" ++
    throughputColor server.throughput ++ "\">" ++ throughputText browser server.throughput ++
    "</span>\n            </div>"

section
variable (browser : Browser)

theorem modelLabel_eq (server : Server) (model : String) :
    modelLabel browser server model = orElse (some model) noModel ++ range browser server := by
  unfold modelLabel range
  cases server.span.bind Span.start with
  | none => simp
  | some start =>
    dsimp only
    split
    · simp only [String.append_assoc]
    · simp

theorem sharding_withTexts (server : Server) (t : Texts) :
    sharding browser (server.withTexts t) = sharding browser server := by
  unfold sharding
  rw [serverStatus_withTexts]
  rfl

theorem footer_withTexts (server : Server) (t : Texts) :
    footer browser (server.withTexts t) = footer browser server := by
  unfold footer
  rw [getConnectionType_withTexts, throughput_withTexts]

def following (server : Server) : String :=
  sharding browser server ++ (nameAndVersion server).name ++ versionMark ++ (nameAndVersion server).version ++
    footer browser server

theorem nodePopupHtml_eq (node : Node) :
    nodePopupHtml browser node =
      opening ++ modelLabel browser node.server node.report.name ++ following browser node.server := by
  unfold nodePopupHtml opening following sharding versionMark footer
  simp only [String.append_assoc]

def lead (site : Site) : String :=
  "<span class=\"close\" title=\"Close\">&times;</span><h5>" ++ heading browser site ++ "</h5>" ++ opening

theorem openPopup_eq {site : Site} {node : Node} {nodes : List Node} (listed : site.nodes = node :: nodes) :
    openPopup browser site =
      lead browser site ++ (modelLabel browser node.server node.report.name ++
        (following browser node.server ++ String.join (nodes.map (nodePopupHtml browser)))) := by
  unfold openPopup lead
  rw [listed, List.map_cons, String.join_cons, nodePopupHtml_eq]
  simp only [String.append_assoc]

end

/-! ### No site is safe -/

/-- No texts change the tags of the popup. -/
def Site.Inert (browser : Browser) (site : Site) : Prop :=
  ∀ other, site.Reworded other → tags (openPopup browser other) = tags (openPopup browser site)

section
variable {browser : Browser} {site other : Site}

theorem Site.Reworded.lead_eq (reworded : site.Reworded other) : lead browser other = lead browser site := by
  obtain ⟨label, nodes⟩ := reworded
  unfold lead heading
  rw [label, nodes.length_eq]

def Site.remodelled (site : Site) (model : String) : Site :=
  match site.nodes with
  | [] => site
  | node :: nodes => { site with nodes := { node with report := { name := model } } :: nodes }

theorem reworded_remodelled (site : Site) (model : String) : site.Reworded (site.remodelled model) := by
  have rest (nodes : List Node) : List.Forall₂ Node.Reworded nodes nodes :=
    List.forall₂_same.mpr fun node _ => node.reworded_refl
  unfold Site.remodelled
  split
  · exact ⟨rfl, rest _⟩
  · rename_i node nodes listed
    refine ⟨rfl, ?_⟩
    rw [listed]
    exact .cons ⟨{ node.texts with model }, (withTexts_model node model).symm⟩ (rest nodes)

theorem tags_openPopup {node : Node} {nodes : List Node} (listed : site.nodes = node :: nodes) :
    tags (openPopup browser site) =
      tagsFrom .data (lead browser site).toList ++ tagsFrom (after .data (lead browser site).toList)
        (modelLabel browser node.server node.report.name ++ (following browser node.server ++
          String.join (nodes.map (nodePopupHtml browser)))).toList := by
  rw [tags, openPopup_eq browser listed, String.toList_append, tagsFrom_append]

theorem tags_remodelled {node : Node} {nodes : List Node} (listed : site.nodes = node :: nodes) {a : List Char}
    (filled : a ≠ []) :
    tags (openPopup browser (site.remodelled (String.ofList a))) =
      tagsFrom .data (lead browser site).toList ++ tagsFrom (after .data (lead browser site).toList)
        (a ++ (range browser node.server ++ (following browser node.server ++
          String.join (nodes.map (nodePopupHtml browser)))).toList) := by
  have first : (site.remodelled (String.ofList a)).nodes =
      { node with report := { name := String.ofList a } } :: nodes := by
    rw [Site.remodelled, listed]
  have named : orElse (some (String.ofList a)) noModel = String.ofList a :=
    if_neg fun empty => filled (String.ofList_eq_empty_iff.mp empty)
  rw [tags_openPopup first, (reworded_remodelled site _).lead_eq, modelLabel_eq, named, String.append_assoc,
    String.toList_append, String.toList_ofList]

/-- A site is safe from every text only where nothing is shown of its nodes as markup. -/
theorem inert_iff (browser : Browser) (site : Site) :
    site.Inert browser ↔ site.nodes = [] ∨ after .data (lead browser site).toList = .plaintext := by
  constructor
  · intro inert
    by_contra exposed
    obtain ⟨occupied, live⟩ := not_or.mp exposed
    obtain ⟨node, nodes, listed⟩ := List.exists_cons_of_ne_nil occupied
    obtain ⟨a, b, filledA, filledB, differ⟩ := tags_differ live
    have one := inert _ (reworded_remodelled site (String.ofList a))
    have other := inert _ (reworded_remodelled site (String.ofList b))
    have same := one.trans other.symm
    rw [tags_remodelled listed filledA, tags_remodelled listed filledB] at same
    exact differ _ (List.append_cancel_left same)
  · intro covered other reworded
    have length := reworded.2.length_eq
    cases listed : site.nodes with
    | nil =>
      rw [listed] at length
      have bare : other.nodes = [] := List.eq_nil_of_length_eq_zero length.symm
      have same : other = site := by
        cases site
        cases other
        simp_all [Site.Reworded]
      rw [same]
    | cons node nodes =>
      have covered := covered.resolve_left (by simp [listed])
      rw [listed] at length
      obtain ⟨node', nodes', listed'⟩ := List.exists_cons_of_length_eq_add_one length.symm
      rw [tags_openPopup listed, tags_openPopup listed', reworded.lead_eq, covered, tagsFrom_plaintext,
        tagsFrom_plaintext]

end

/-! ### Texts without markup -/

def PlainText (s : String) : Prop := '<' ∉ s.toList

instance (s : String) : Decidable (PlainText s) := inferInstanceAs (Decidable ('<' ∉ s.toList))

structure Browser.Plain (browser : Browser) : Prop where
  number : ∀ n, PlainText (browser.number n)
  toFixed : ∀ x digits, PlainText (browser.toFixed x digits)
  inherited : ∀ key text, browser.inherited key = some text → '\"' ∉ key.toList ∧ PlainText text

structure Node.Plain (node : Node) : Prop where
  publicName : ∀ s, node.texts.publicName = some s → PlainText s
  version : ∀ s, node.texts.version = some s → PlainText s
  model : PlainText node.report.name

structure Site.Plain (site : Site) : Prop where
  label : PlainText site.label
  nodes : ∀ node ∈ site.nodes, node.Plain

/-- Markup that leaves what follows it between tags. -/
def Balanced (s : String) : Prop := after .data s.toList = .data

instance (s : String) : Decidable (Balanced s) := inferInstanceAs (Decidable (after .data s.toList = .data))

theorem Balanced.append {a b : String} (first : Balanced a) (second : Balanced b) : Balanced (a ++ b) := by
  rw [Balanced, String.toList_append, after_append, first]
  exact second

theorem tags_append {a : String} (first : Balanced a) (b : String) : tags (a ++ b) = tags a ++ tags b := by
  rw [tags, String.toList_append, tagsFrom_append, first]
  rfl

theorem PlainText.balanced {s : String} (plain : PlainText s) : Balanced s := (text plain).1

theorem PlainText.tags_eq {s : String} (plain : PlainText s) : tags s = [] := (text plain).2

theorem PlainText.append {a b : String} (first : PlainText a) (second : PlainText b) : PlainText (a ++ b) := by
  rw [PlainText, String.toList_append, List.mem_append, not_or]
  exact ⟨first, second⟩

theorem PlainText.orElse {s : Option String} {fallback : String} (plain : ∀ t, s = some t → PlainText t)
    (last : PlainText fallback) : PlainText (Page.orElse s fallback) := by
  unfold Page.orElse
  split
  · exact last
  · split
    · exact last
    · exact plain _ rfl

theorem mem_dropVersionSuffix {c : Char} {cs : List Char} (kept : c ∈ dropVersionSuffix cs) : c ∈ cs := by
  induction cs with
  | nil => exact kept
  | cons d cs ih =>
    rw [dropVersionSuffix] at kept
    split at kept
    · cases kept
    · exact (List.mem_cons.mp kept).elim (fun first => first ▸ List.mem_cons_self)
        fun rest => List.mem_cons_of_mem _ (ih rest)

theorem mem_dropAgentPrefix {c : Char} {cs : List Char} (kept : c ∈ dropAgentPrefix cs) : c ∈ cs := by
  unfold dropAgentPrefix at kept
  split at kept
  · exact kept
  · rename_i found
    have within : c ∈ cs.dropWhile isAgentChar := found ▸ List.mem_cons_of_mem _ kept
    exact (List.dropWhile_suffix _).subset within

theorem PlainText.kept {s : String} (plain : PlainText s) {cs : List Char} (within : ∀ c ∈ cs, c ∈ s.toList)
    {fallback : String} (last : PlainText fallback) :
    PlainText (Page.orElse (some (String.ofList cs)) fallback) := by
  refine PlainText.orElse (fun t kept => ?_) last
  obtain rfl := Option.some.inj kept
  rw [PlainText, String.toList_ofList]
  exact fun member => plain (within _ member)

theorem Node.Plain.nameAndVersion {node : Node} (plain : node.Plain) :
    PlainText (nameAndVersion node.server).name ∧ PlainText (nameAndVersion node.server).version := by
  have empty : PlainText "" := by decide
  have missing : PlainText "N/A" := by decide
  have name := PlainText.orElse plain.publicName empty
  have version := PlainText.orElse plain.version empty
  unfold Page.nameAndVersion
  dsimp only
  exact ⟨name.kept (fun _ => mem_dropVersionSuffix) missing, version.kept (fun _ => mem_dropAgentPrefix) missing⟩

theorem next_extendValue (cs : List Char) (tag : Tag) : (cs.foldl Tag.extendValue tag).next = tag.next := by
  induction cs generalizing tag with
  | nil => rfl
  | cons c cs ih => exact ih (tag.extendValue c)

theorem balanced_attribute {a value : String} {tag : Tag}
    (inside : after .data a.toList = .attributeValueQuoted '\"' tag) (quotable : '\"' ∉ value.toList)
    (next : tag.next = .data) : Balanced (a ++ value ++ "\">") := by
  rw [Balanced, String.toList_append, String.toList_append, after_append, after_append, inside,
    (quoted quotable tag).1]
  exact (next_extendValue value.toList tag).trans next

theorem opening_balanced : Balanced opening := by decide +kernel

theorem versionMark_balanced : Balanced versionMark := by decide +kernel

theorem connectionTypeColor_quotable (type : String) : '\"' ∉ (connectionTypeColor type).toList := by
  have colors : ∀ entry ∈ [("Direct", "blue"), ("NAT", "teal"), ("Relay", "purple")],
      '\"' ∉ entry.2.toList := by decide
  unfold connectionTypeColor
  generalize own : List.lookup type _ = color
  cases color with
  | none => exact (by decide : '\"' ∉ "black".toList)
  | some color =>
    obtain ⟨before, after, split, -⟩ := List.lookup_eq_some_iff.mp own
    exact colors (type, color) (split ▸ List.mem_append_right _ List.mem_cons_self)

theorem throughputColor_quotable (throughput : Option Float) : '\"' ∉ (throughputColor throughput).toList := by
  unfold throughputColor
  repeat' split
  all_goals decide

section
variable {browser : Browser} (plain : browser.Plain)
include plain

theorem property_cases {table : List (String × String)} {key value : String}
    (found : property browser table key = some value) :
    (key, value) ∈ table ∨ '\"' ∉ key.toList ∧ PlainText value := by
  unfold property at found
  cases own : table.lookup key with
  | none =>
    rw [own, Option.none_or] at found
    exact Or.inr (plain.inherited key value found)
  | some v =>
    rw [own, Option.some_or] at found
    obtain ⟨before, after, split, -⟩ := List.lookup_eq_some_iff.mp own
    rw [← Option.some.inj found, split]
    exact Or.inl (List.mem_append_right _ List.mem_cons_self)

theorem statusLabel_plain (state : String) : PlainText (statusLabel browser state) := by
  unfold statusLabel
  cases found : property browser statusLabels state with
  | none => exact (by decide : PlainText "Unknown")
  | some value =>
    have labels : ∀ entry ∈ statusLabels, PlainText entry.2 := by decide
    exact (property_cases plain found).elim (labels _) And.right

theorem statusClass_quotable (state : String) : '\"' ∉ (statusClass browser state).toList := by
  have labels : ∀ entry ∈ statusLabels, '\"' ∉ entry.1.toList := by decide
  have unknown : '\"' ∉ "unknown".toList := by decide
  have mark : '\"' ∉ "status-".toList := by decide
  rw [statusClass, String.toList_append, List.mem_append, not_or]
  refine ⟨mark, ?_⟩
  split
  · rename_i present
    obtain ⟨value, found⟩ := Option.isSome_iff_exists.mp present
    exact (property_cases plain found).elim (labels _) And.left
  · exact unknown

theorem serverStatus_plain (server : Server) : PlainText (serverStatus browser server) := by
  unfold serverStatus
  split
  · decide
  · split
    · decide
    · exact statusLabel_plain plain _

theorem getConnectionType_plain (server : Server) : PlainText (getConnectionType browser server) := by
  unfold getConnectionType
  dsimp only
  split
  · generalize held : property browser _ _ = found
    cases found with
    | none => exact (by decide : PlainText "Unknown")
    | some value =>
      have labels (relay : Bool) : ∀ entry ∈ [("direct", "Direct"), ("punched", "NAT"), ("relayed", "Relay"),
          ("inbound", if relay then "Relay" else "Direct")], PlainText entry.2 := by
        cases relay <;> decide
      exact (property_cases plain held).elim (labels _ _) And.right
  · repeat' split
    all_goals decide

theorem throughputText_plain (throughput : Option Float) : PlainText (throughputText browser throughput) := by
  unfold throughputText
  split
  · decide
  · split
    · decide
    · exact plain.toFixed _ _

theorem modelLabel_plain (server : Server) {model : String} (named : PlainText model) :
    PlainText (modelLabel browser server model) := by
  have name : PlainText (orElse (some model) noModel) :=
    PlainText.orElse (fun t same => Option.some.inj same ▸ named) (by decide)
  unfold modelLabel
  dsimp only
  split
  · exact name
  · split
    · have stop : PlainText (((server.span.bind Span.stop).map browser.number).getD "null") := by
        cases server.span.bind Span.stop with
        | none => exact (by decide : PlainText "null")
        | some n => exact plain.number n
      exact (((((name.append (by decide)).append (plain.number _)).append (by decide)).append stop).append
        (by decide))
    · exact name

/-! ### The tags of plain popups -/

theorem sharding_balanced (server : Server) : Balanced (sharding browser server) := by
  have status := (serverStatus_plain plain server).balanced
  have inside : after .data "<br>\n                <b>Sharding:</b> <span class=\"".toList =
      .attributeValueQuoted '\"' { closing := false, name := "span".toList, attributes := [("class".toList, [])] } := by
    decide +kernel
  have span := balanced_attribute inside (statusClass_quotable plain server.state) rfl
  have rest : Balanced "</span><br>\n                <b>Public Name:</b> " := by decide +kernel
  exact (span.append status).append rest

theorem footer_balanced (server : Server) : Balanced (footer browser server) := by
  have connection := (getConnectionType_plain plain server).balanced
  have tokens := (throughputText_plain plain server.throughput).balanced
  have styled : after .data "<br>\n                <b>Connection:</b> <span style=\"color:".toList =
      .attributeValueQuoted '\"'
        { closing := false, name := "span".toList, attributes := [("style".toList, "color:".toList)] } := by
    decide +kernel
  have bold : '\"' ∉ (connectionTypeColor (getConnectionType browser server) ++ "; font-weight:bold;").toList := by
    rw [String.toList_append, List.mem_append, not_or]
    exact ⟨connectionTypeColor_quotable _, by decide⟩
  have colored : after .data "</span><br>\n                <b>Tok/sec:</b> <span style=\"color:".toList =
      .attributeValueQuoted '\"'
        { closing := false, name := "span".toList, attributes := [("style".toList, "color:".toList)] } := by
    decide +kernel
  have first := balanced_attribute styled bold rfl
  have second := balanced_attribute colored (throughputColor_quotable server.throughput) rfl
  have last : Balanced "</span>\n            </div>" := by decide +kernel
  have whole := (((first.append connection).append second).append tokens).append last
  unfold footer
  simp only [String.append_assoc] at whole ⊢
  exact whole

def bones (browser : Browser) (server : Server) : List Tag :=
  tags opening ++ (tags (sharding browser server) ++ (tags versionMark ++ tags (footer browser server)))

omit plain in
theorem bones_withTexts (server : Server) (t : Texts) : bones browser (server.withTexts t) = bones browser server := by
  unfold bones
  rw [sharding_withTexts, footer_withTexts]

omit plain in
theorem bones_reworded {nodes others : List Node} (pairs : List.Forall₂ Node.Reworded nodes others) :
    (others.flatMap fun node => bones browser node.server) =
      nodes.flatMap fun node => bones browser node.server := by
  induction pairs with
  | nil => rfl
  | cons first _ ih =>
    obtain ⟨t, rfl⟩ := first
    rw [List.flatMap_cons, List.flatMap_cons, ih]
    exact congrArg (· ++ _) (bones_withTexts _ t)

theorem nodePopupHtml_balanced {node : Node} (label : Balanced (modelLabel browser node.server node.report.name))
    (name : Balanced (nameAndVersion node.server).name) (version : Balanced (nameAndVersion node.server).version) :
    Balanced (nodePopupHtml browser node) ∧
      tags (nodePopupHtml browser node) =
        tags opening ++ (tags (modelLabel browser node.server node.report.name) ++
          (tags (sharding browser node.server) ++ (tags (nameAndVersion node.server).name ++
            (tags versionMark ++ (tags (nameAndVersion node.server).version ++
              tags (footer browser node.server)))))) := by
  have sharding := sharding_balanced plain node.server
  have upToName := sharding.append name
  have upToMark := upToName.append versionMark_balanced
  have upToVersion := upToMark.append version
  rw [nodePopupHtml_eq, following]
  constructor
  · exact (opening_balanced.append label).append (upToVersion.append (footer_balanced plain node.server))
  · rw [tags_append (opening_balanced.append label), tags_append opening_balanced, tags_append upToVersion,
      tags_append upToMark, tags_append upToName, tags_append sharding]
    simp only [List.append_assoc]

theorem nodePopupHtml_plain {node : Node} (calm : node.Plain) :
    Balanced (nodePopupHtml browser node) ∧ tags (nodePopupHtml browser node) = bones browser node.server := by
  obtain ⟨name, version⟩ := calm.nameAndVersion
  have label := modelLabel_plain plain node.server calm.model
  obtain ⟨balanced, whole⟩ := nodePopupHtml_balanced plain label.balanced name.balanced version.balanced
  simp only [label.tags_eq, name.tags_eq, version.tags_eq, List.nil_append] at whole
  unfold bones
  exact ⟨balanced, whole⟩

omit plain in
theorem tags_nodes {nodes : List Node} (balanced : ∀ node ∈ nodes, Balanced (nodePopupHtml browser node)) :
    tags (String.join (nodes.map (nodePopupHtml browser))) =
      nodes.flatMap fun node => tags (nodePopupHtml browser node) := by
  induction nodes with
  | nil => rfl
  | cons node nodes ih =>
    have rest := ih fun other member => balanced other (List.mem_cons_of_mem _ member)
    rw [List.map_cons, String.join_cons, tags_append (balanced node List.mem_cons_self), rest, List.flatMap_cons]

theorem heading_plain {site : Site} (label : PlainText site.label) : PlainText (heading browser site) := by
  unfold heading
  split
  · exact label
  · exact ((plain.number _).append (by decide)).append label

theorem openPopup_balanced {site : Site} (label : PlainText site.label)
    (balanced : ∀ node ∈ site.nodes, Balanced (nodePopupHtml browser node)) :
    tags (openPopup browser site) =
      tags "<span class=\"close\" title=\"Close\">&times;</span><h5>" ++ tags "</h5>" ++
        site.nodes.flatMap fun node => tags (nodePopupHtml browser node) := by
  have close : Balanced "<span class=\"close\" title=\"Close\">&times;</span><h5>" := by decide +kernel
  have titled := close.append (heading_plain plain label).balanced
  have ended := titled.append (by decide +kernel : Balanced "</h5>")
  -- no rewriting here: it would compare the literals character by character
  have lead := (tags_append close (heading browser site)).trans
    ((congrArg _ (heading_plain plain label).tags_eq).trans (List.append_nil _))
  have front := (tags_append titled "</h5>").trans (congrArg (· ++ _) lead)
  exact (tags_append ended _).trans (congrArg₂ (· ++ ·) front (tags_nodes balanced))

theorem openPopup_plain {site : Site} (calm : site.Plain) :
    tags (openPopup browser site) =
      tags "<span class=\"close\" title=\"Close\">&times;</span><h5>" ++ tags "</h5>" ++
        site.nodes.flatMap fun node => bones browser node.server := by
  have each (node : Node) (member : node ∈ site.nodes) := nodePopupHtml_plain plain (calm.nodes node member)
  have popup := openPopup_balanced plain calm.label fun node member => (each node member).1
  exact popup.trans (congrArg _ (List.flatMap_congr fun node member => (each node member).2))

theorem openPopup_named {site : Site} {node : Node} (listed : site.nodes = [node]) (label : PlainText site.label)
    (model : PlainText node.report.name) (name : Balanced (nameAndVersion node.server).name)
    (version : PlainText (nameAndVersion node.server).version) :
    tags (openPopup browser site) =
      tags "<span class=\"close\" title=\"Close\">&times;</span><h5>" ++ tags "</h5>" ++
        (tags opening ++ (tags (sharding browser node.server) ++ (tags (nameAndVersion node.server).name ++
          (tags versionMark ++ tags (footer browser node.server))))) := by
  have shown := modelLabel_plain plain node.server model
  obtain ⟨balanced, pieces⟩ := nodePopupHtml_balanced plain shown.balanced name version.balanced
  simp only [shown.tags_eq, version.tags_eq, List.nil_append] at pieces
  have popup := openPopup_balanced plain label fun other member => by
    rw [listed, List.mem_singleton] at member
    exact member ▸ balanced
  rw [listed, List.flatMap_singleton, pieces] at popup
  exact popup

theorem tags_plain {site other : Site} (reworded : site.Reworded other) (calm : site.Plain)
    (otherCalm : other.Plain) : tags (openPopup browser other) = tags (openPopup browser site) := by
  rw [openPopup_plain plain otherCalm, openPopup_plain plain calm, bones_reworded reworded.2]

theorem documents_plain {data other : Document} (reworded : data.Reworded other)
    (calm : ∀ site ∈ (collectSites browser data).all, site.Plain)
    (otherCalm : ∀ site ∈ (collectSites browser other).all, site.Plain) :
    ((collectSites browser other).all.map fun site => tags (openPopup browser site)) =
      (collectSites browser data).all.map fun site => tags (openPopup browser site) := by
  have pairs := collectSites_reworded browser reworded
  generalize (collectSites browser data).all = sites at pairs calm
  generalize (collectSites browser other).all = others at pairs otherCalm
  induction pairs with
  | nil => rfl
  | cons first _ ih =>
    have same := tags_plain plain first (calm _ List.mem_cons_self) (otherCalm _ List.mem_cons_self)
    have rest := ih (fun site member => calm site (List.mem_cons_of_mem _ member))
      fun site member => otherCalm site (List.mem_cons_of_mem _ member)
    rw [List.map_cons, List.map_cons, same, rest]

end

/-- The public name of a node puts an image with a script of its own on the page. -/
theorem public_name_injects :
    let peer (name : String) : Peer :=
      { peerId := "QmA", publicName := some name, version := some "kwaai-0.6.8", state := "online"
        shardLoading := false, model := some "M", span := some { start := 0, stop := 8 }
        throughput := some 0, usingRelay := none, peerIpInfo := {} }
    let site (name : String) : Site := { label := "Oslo, Norway", nodes := [(ofPeer (peer name)).node] }
    let browser : Browser :=
      { number := fun n => if n = 0 then "0" else "8", decimal := fun _ => "0", toFixed := fun _ _ => "0.00"
        inherited := fun _ => none }
    let image : Tag :=
      { closing := false, name := "img".toList
        attributes := [("onerror".toList, "alert(1)".toList), ("src".toList, "x".toList)] }
    (site "a").Reworded (site "<img src=x onerror=alert(1)>") ∧
      image ∈ tags (openPopup browser (site "<img src=x onerror=alert(1)>")) ∧
        tags (openPopup browser (site "<img src=x onerror=alert(1)>")) ≠ tags (openPopup browser (site "a")) := by
  intro peer site browser image
  let calm : Node := (ofPeer (peer "a")).node
  let hostile : Node := (ofPeer (peer "<img src=x onerror=alert(1)>")).node
  have reworded : calm.Reworded hostile := (ofPeer_reworded (peer "a") _ _ _).node
  have plain : browser.Plain := by
    refine ⟨fun n => ?_, fun _ _ => (by decide : PlainText "0.00"), fun _ _ none => nomatch none⟩
    change PlainText (if n = 0 then "0" else "8")
    split <;> decide
  have bare : tags (nameAndVersion calm.server).name = [] := by decide +kernel
  have injected : tags (nameAndVersion hostile.server).name = [image] := by decide +kernel
  have before : tags (openPopup browser (site "a")) = _ :=
    openPopup_named plain (rfl : _ = [calm]) (by decide) (by decide) (by decide +kernel) (by decide +kernel)
  have afterwards : tags (openPopup browser (site "<img src=x onerror=alert(1)>")) = _ :=
    openPopup_named plain (rfl : _ = [hostile]) (by decide) (by decide) (by decide +kernel) (by decide +kernel)
  rw [bare] at before
  rw [injected] at afterwards
  refine ⟨⟨rfl, .cons reworded .nil⟩, ?_, fun same => ?_⟩
  · rw [afterwards]
    have among := List.mem_append_left (tags versionMark ++ tags (footer browser hostile.server))
      (List.mem_singleton_self image)
    exact List.mem_append_right _ (List.mem_append_right _ (List.mem_append_right _ among))
  · obtain ⟨t, other⟩ := reworded
    have server : hostile.server = calm.server.withTexts t := congrArg Node.server other
    have counts := congrArg List.length same
    rw [before, afterwards, server, sharding_withTexts, footer_withTexts] at counts
    simp only [List.length_append, List.length_cons, List.length_nil] at counts
    omega

end KwaaiNetMap.Page
