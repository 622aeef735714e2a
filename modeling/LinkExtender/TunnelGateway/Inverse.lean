import LinkExtender.TunnelGateway.Surrogates

/-!
# The two tables of local endpoints

`localMeasurementEndpointToNodeId` leads from the key of a measurement endpoint to its
node, `localNodeIdToEndpointMap` from the node to the endpoint.  A gateway that writes
to both does not look for the entries that the new ones replace.
-/

namespace LinkExtender

namespace TunnelGateway

open EventMachine

variable {link : LinkLibrary} {g : TunnelGateway}

/-- A key belongs to a node exactly when the node is recorded with an endpoint of that
key. -/
def MutuallyInverse (link : LinkLibrary) (g : TunnelGateway) : Prop :=
  ∀ key node, g.localMeasurementEndpointToNodeId.find key = some node ↔
    ∃ endpoints, g.localNodeIdToEndpointMap.find node = some endpoints ∧
      createKeyFromEndpoint link endpoints.measurementEndpoint = key

/-- The key and the node are recorded for each other, or neither of them is. -/
def Paired (g : TunnelGateway) (key : String) (node : NodeId) : Prop :=
  g.localMeasurementEndpointToNodeId.find key = some node ∨
    g.localMeasurementEndpointToNodeId.find key = none ∧ g.hasLocalNode node = false

/-- Where a key and a node are written or erased together, they are paired. -/
def KeepsInverse (link : LinkLibrary) (g : TunnelGateway) : GatewayEvent → Prop
  | .lan now e =>
      match g.lanAction link now e with
      | .announce _ _ state call =>
          g.Paired (createKeyFromEndpoint link state.endpoint) call.fromNode
      | .leave call => g.Paired (g.measurementKey link call.fromNode) call.fromNode
      | .mint sender call => g.Paired (createKeyFromEndpoint link sender) call.fromNode
      | _ => True
  | .tunnel .. => True

/-! ## The keys of the recorded nodes as a table -/

def recordedKeys (link : LinkLibrary) (g : TunnelGateway) : PartialMap NodeId String :=
  ⟨g.recordedKey link⟩

theorem mutuallyInverse_iff : g.MutuallyInverse link ↔
    PartialMap.Inverse g.localMeasurementEndpointToNodeId (g.recordedKeys link) := by
  apply forall₂_congr
  intro key node
  exact iff_congr Iff.rfl Option.map_eq_some_iff.symm

theorem paired_iff {key : String} {node : NodeId} : g.Paired key node ↔
    PartialMap.Paired g.localMeasurementEndpointToNodeId (g.recordedKeys link) key node := by
  unfold Paired PartialMap.Paired hasLocalNode recordedKeys recordedKey
  rw [Option.isSome_eq_false_iff, Option.isNone_iff_eq_none, Option.map_eq_none_iff]

theorem recordedKeys_of_insert {g' : TunnelGateway} {node : NodeId}
    {endpoints : LocalNodeEndpoints} (h : g'.localNodeIdToEndpointMap =
      g.localNodeIdToEndpointMap.insert node endpoints) :
    g'.recordedKeys link = (g.recordedKeys link).insert node
      (createKeyFromEndpoint link endpoints.measurementEndpoint) := by
  ext node' : 2
  simp only [recordedKeys, recordedKey, h, PartialMap.find_insert]
  split <;> rfl

theorem recordedKeys_of_erase {g' : TunnelGateway} {node : NodeId}
    (h : g'.localNodeIdToEndpointMap = g.localNodeIdToEndpointMap.erase node) :
    g'.recordedKeys link = (g.recordedKeys link).erase node := by
  ext node' : 2
  simp only [recordedKeys, recordedKey, h, PartialMap.find_erase]
  split <;> rfl

theorem MutuallyInverse.congr {g' : TunnelGateway} (h : g.MutuallyInverse link)
    (hendpoints : g'.localNodeIdToEndpointMap = g.localNodeIdToEndpointMap)
    (hkeys : g'.localMeasurementEndpointToNodeId = g.localMeasurementEndpointToNodeId) :
    g'.MutuallyInverse link := by
  intro key node
  rw [hendpoints, hkeys]
  exact h key node

/-! ## One step -/

/-- A node that times out takes its key along. -/
theorem MutuallyInverse.onLocalPeerTimedOut (h : g.MutuallyInverse link) (id : NodeId) :
    (g.onLocalPeerTimedOut link id).MutuallyInverse link := by
  unfold TunnelGateway.onLocalPeerTimedOut
  cases hfind : g.localNodeIdToEndpointMap.find id with
  | none => exact h
  | some endpoints =>
      rw [mutuallyInverse_iff, recordedKeys_of_erase rfl]
      refine (PartialMap.Inverse.erase_iff (mutuallyInverse_iff.mp h)).mpr (Or.inl ?_)
      exact (h _ id).mpr ⟨endpoints, hfind, rfl⟩

theorem MutuallyInverse.foldl (h : g.MutuallyInverse link) (ids : List NodeId) :
    (ids.foldl (TunnelGateway.onLocalPeerTimedOut link) g).MutuallyInverse link := by
  induction ids generalizing g with
  | nil => exact h
  | cons id ids ih => exact ih (h.onLocalPeerTimedOut id)

/-- From a state in which the tables are inverse, they are inverse in the next state
exactly when the event meets the condition. -/
theorem mutuallyInverse_next_iff (h : g.MutuallyInverse link) (e : GatewayEvent) :
    (next (machine link) g e).MutuallyInverse link ↔ KeepsInverse link g e := by
  cases e with
  | tunnel io message =>
      obtain ⟨-, -, hendpoints, hkeys⟩ := forwardMessageLocally_local link g io message
      exact iff_of_true (h.congr hendpoints hkeys) trivial
  | lan now e =>
      rw [next_lan, KeepsInverse]
      have hinverse := mutuallyInverse_iff.mp h
      cases g.lanAction link now e with
      | ignore | relay => exact iff_of_true h trivial
      | announce sender ttl state call =>
          rw [mutuallyInverse_iff, recordedKeys_of_insert rfl]
          exact hinverse.insert_iff.trans paired_iff.symm
      | leave call =>
          rw [mutuallyInverse_iff, recordedKeys_of_erase rfl]
          exact hinverse.erase_iff.trans paired_iff.symm
      | mint sender call =>
          rw [mutuallyInverse_iff, recordedKeys_of_insert rfl]
          exact hinverse.insert_iff.trans paired_iff.symm
      | expireLocal => exact iff_of_true ((h.foldl _).congr rfl rfl) trivial
      | expireRemote =>
          obtain ⟨-, hendpoints, hkeys⟩ := pruneRemote_local g now
          exact iff_of_true (h.congr hendpoints hkeys) trivial

/-! ## Runs -/

theorem mutuallyInverse_create (link : LinkLibrary) (interfaceAddress : IpAddress) :
    (create interfaceAddress).MutuallyInverse link :=
  mutuallyInverse_iff.mpr PartialMap.inverse_empty

/-- The tables are inverse in every state of a run exactly when all of its events meet
the condition. -/
theorem throughout_mutuallyInverse_iff (link : LinkLibrary) (interfaceAddress : IpAddress)
    (es : List GatewayEvent) :
    Throughout (machine link) (MutuallyInverse link) (create interfaceAddress) es ↔
      Along (machine link) (KeepsInverse link) (create interfaceAddress) es :=
  throughout_iff_along_of_next_iff (machine link) (I := MutuallyInverse link)
    (fun _ e h ↦ mutuallyInverse_next_iff h e) (mutuallyInverse_create link interfaceAddress) es

/-! ## A node that moves -/

def movedTo (port : UInt16) : Datagram :=
  ⟨announcement ++ LinkLibrary.endpointEntry (localhost port), Nat.le_of_ble_eq_true rfl⟩

/-- The node is announced with one measurement endpoint and then with another. -/
def announcedAtTwoPorts : List GatewayEvent :=
  [.lan 0 (.multicast kSameSubnetPeer (movedTo 20809)),
    .lan (seconds 1) (.multicast kSameSubnetPeer (movedTo 20810))]

/-- The key of the first endpoint is left behind. -/
theorem not_throughout_mutuallyInverse :
    ¬ Throughout (machine .version1) (MutuallyInverse .version1) (create kLocalIfAddr)
        announcedAtTwoPorts := by
  intro h
  have hstale : (run (machine .version1) (create kLocalIfAddr)
      announcedAtTwoPorts).localMeasurementEndpointToNodeId.find "127.0.0.1:20809" =
        some default := by
    decide +kernel
  have hrecorded : (run (machine .version1) (create kLocalIfAddr)
      announcedAtTwoPorts).localNodeIdToEndpointMap.find default =
        some ⟨kSameSubnetPeer, localhost 20810⟩ := by
    decide +kernel
  obtain ⟨endpoints, hfind, hkey⟩ := (h.last _ default).mp hstale
  obtain rfl := Option.some.inj (hrecorded.symm.trans hfind)
  exact absurd hkey (by decide +kernel)

end TunnelGateway

end LinkExtender
