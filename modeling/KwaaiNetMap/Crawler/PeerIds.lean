import KwaaiNetMap.Crawler.Scripted
import KwaaiNetMap.Text.Search

/-!
A query goes to the peer between the first `/p2p/` of an address and the next; the peer left out of the rows
is the one after the last. `one_peer_iff` says on which addresses that is one peer.
-/

namespace KwaaiNetMap

/-! ### Peer ids as text -/

/-- A letter or digit, but for the four that are easily confused. -/
def isBase58Digit (c : Char) : Bool := c.isAlphanum && decide (c ∉ ['0', 'O', 'I', 'l'])

def IsBase58 (id : List Char) : Prop := ∀ c ∈ id, isBase58Digit c = true

instance (id : List Char) : Decidable (IsBase58 id) := List.decidableBAll (fun c => isBase58Digit c = true) id

theorem IsBase58.slash {id : List Char} (digits : IsBase58 id) : '/' ∉ id := fun member =>
  absurd (digits '/' member) (by decide)

theorem IsBase58.dash {id : List Char} (digits : IsBase58 id) : '-' ∉ id := fun member =>
  absurd (digits '-' member) (by decide)

/-- Only non-empty base58 text parses, as the peer that prints as that text. -/
def ParsesBase58 (parsePeerId : String → Option PeerId) : Prop :=
  ∀ id peer, parsePeerId id = some peer → peer = id ∧ id ≠ "" ∧ IsBase58 id.toList

/-! ### The two readings -/

/-- A query to the address goes to the peer that `excludedPeers` takes from it. -/
def OnePeer (net : Network) (bootstrap : String) : Prop :=
  ∃ peer, queriedPeer net bootstrap = some peer ∧ trailingPeerId bootstrap = some peer

def FirstNamed (id addr : List Char) : Prop :=
  ∃ before rest, addr = before ++ p2pMark ++ id ++ rest ∧ ¬ p2pMark <:+: before ++ p2pMark.dropLast ∧
    (rest = [] ∨ p2pMark <+: rest)

theorem trailingPeerId_of_ends {bootstrap id : String} {before : List Char} (filled : id ≠ "")
    (slashless : '/' ∉ id.toList) (ends : bootstrap.toList = before ++ p2pMark ++ id.toList) :
    trailingPeerId bootstrap = some id := by
  have cut : Text.rsplitOnce p2pMark bootstrap.toList = some (before, id.toList) := by
    rw [ends]
    exact Text.rsplitOnce_of_fresh slashless before "/p2p".toList
  have nonempty : id.toList ≠ [] := by simpa using filled
  rw [trailingPeerId, cut]
  simp [nonempty, slashless]

theorem queriedPeer_eq_some {net : Network} (parses : ParsesBase58 net.parsePeerId) {bootstrap : String}
    {peer : PeerId} :
    queriedPeer net bootstrap = some peer ↔
      net.parsePeerId peer = some peer ∧ Text.secondPiece p2pMark bootstrap.toList = some peer.toList := by
  unfold queriedPeer
  rw [Option.bind_eq_some_iff]
  constructor
  · rintro ⟨piece, cut, parsed⟩
    have same := (parses _ _ parsed).1
    rw [← same] at parsed
    exact ⟨parsed, by rw [cut, same, String.toList_ofList]⟩
  · rintro ⟨parsed, cut⟩
    exact ⟨peer.toList, cut, by rwa [String.ofList_toList]⟩

/-- An address that ends in a peer id is asked at that peer exactly when its first `/p2p/` names it too. -/
theorem one_peer_iff {net : Network} (parses : ParsesBase58 net.parsePeerId) {bootstrap id : String}
    {before : List Char} {peer : PeerId} (valid : net.parsePeerId id = some peer)
    (ends : bootstrap.toList = before ++ p2pMark ++ id.toList) :
    OnePeer net bootstrap ↔ FirstNamed id.toList bootstrap.toList := by
  obtain ⟨rfl, filled, digits⟩ := parses id peer valid
  have trailing := trailingPeerId_of_ends filled digits.slash ends
  have first : Text.secondPiece p2pMark bootstrap.toList = some peer.toList ↔
      FirstNamed peer.toList bootstrap.toList := Text.secondPiece_eq_some digits.slash
  constructor
  · rintro ⟨asked, query, excluded⟩
    obtain rfl := Option.some.inj (trailing.symm.trans excluded)
    exact first.mp ((queriedPeer_eq_some parses).mp query).2
  · intro named
    exact ⟨peer, (queriedPeer_eq_some parses).mpr ⟨valid, first.mpr named⟩, trailing⟩

def parseBase58 (id : String) : Option PeerId :=
  if id ≠ "" ∧ IsBase58 id.toList then some id else none

theorem parseBase58_parses : ParsesBase58 parseBase58 := by
  intro id peer parsed
  unfold parseBase58 at parsed
  split at parsed
  · rename_i digits
    exact ⟨(Option.some.inj parsed).symm, digits⟩
  · cases parsed

def base58Network : Network := { Network.scripted [] with parsePeerId := parseBase58 }

theorem one_peer_of_plain_bootstrap :
    OnePeer base58Network "/dns/node/p2p/QmaCpDMGvV2BGHeYERUEnRQAwe3N8SzbUtfsmvsqQLuvuJ" := by
  have valid : base58Network.parsePeerId "QmaCpDMGvV2BGHeYERUEnRQAwe3N8SzbUtfsmvsqQLuvuJ" =
      some "QmaCpDMGvV2BGHeYERUEnRQAwe3N8SzbUtfsmvsqQLuvuJ" := by decide +kernel
  have ends : "/dns/node/p2p/QmaCpDMGvV2BGHeYERUEnRQAwe3N8SzbUtfsmvsqQLuvuJ".toList =
      "/dns/node".toList ++ p2pMark ++ "QmaCpDMGvV2BGHeYERUEnRQAwe3N8SzbUtfsmvsqQLuvuJ".toList := by decide +kernel
  refine (one_peer_iff parseBase58_parses valid ends).mpr ?_
  exact ⟨"/dns/node".toList, [], by decide +kernel, (Text.splitOnce_eq_none _ _).mp (by decide), Or.inl rfl⟩

/-- A bootstrap behind a relay: the first `/p2p/` is the relay's and goes on into `/p2p-circuit`, so it reads as
no peer, and nobody is asked. -/
theorem relayed_bootstrap_unread :
    let id := "QmNnooDu7bfjPFoTZYxMNLWUQJyrVwtbZg5gBMjTezGAJN"
    let bootstrap := "/dns/node/p2p/QmaCpDMGvV2BGHeYERUEnRQAwe3N8SzbUtfsmvsqQLuvuJ/p2p-circuit/p2p/" ++ id
    base58Network.parsePeerId id = some id ∧ trailingPeerId bootstrap = some id ∧
      queriedPeer base58Network bootstrap = none ∧ ¬ OnePeer base58Network bootstrap := by
  intro id bootstrap
  have unread : queriedPeer base58Network bootstrap = none := by decide +kernel
  refine ⟨by decide +kernel, by decide +kernel, unread, ?_⟩
  rintro ⟨peer, asked, -⟩
  rw [unread] at asked
  cases asked

end KwaaiNetMap
