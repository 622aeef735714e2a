import LinkExtender.Site.Transparency

/-!
# The gateways of a controller

`PeerGateways` holds one gateway for each interface that is there and has the
factory make a new one when an interface appears or is repaired.  The gateway
registers itself with the tunnel in `listen()`; `Tunnel::removeGateway` is there to
undo this, and nothing calls it.
-/

namespace LinkExtender

open EventMachine

/-- A shared pointer to a gateway, as the number of the gateway. -/
abbrev GatewayPtr := ℕ

structure Controller where
  /-- Every gateway that was made, under its number. -/
  objects : List TunnelGateway
  /-- `Tunnel::gateways`. -/
  gateways : List GatewayPtr
  /-- The gateways that `PeerGateways` holds. -/
  peerGateways : PartialMap IpAddress GatewayPtr

inductive InterfaceEvent where
  | appear (addr : IpAddress)
  | vanish (addr : IpAddress)
  | repair (addr : IpAddress)
  /-- Something happens to a gateway on the side of its network. -/
  | lan (g : GatewayPtr) (now : TimePoint) (e : LanEvent)
  /-- The tunnel calls `forward_locally`. -/
  | deliver (ios : GatewayPtr → LocalIo) (message : LocalMessage)

/-- The destructor is `stop_listening`, which clears the tables; the tunnel is not
told. -/
def TunnelGateway.destruct (g : TunnelGateway) : TunnelGateway :=
  create g.localInterfaceAddress

namespace Controller

variable {link : LinkLibrary}

def create : Controller where
  objects := []
  gateways := []
  peerGateways := PartialMap.empty

def addGateway (gateways : List GatewayPtr) (g : GatewayPtr) : List GatewayPtr :=
  if g ∈ gateways then gateways else gateways ++ [g]

/-- `GatewayFactory` for an interface whose entry in `PeerGateways` is free. -/
def makeGateway (c : Controller) (addr : IpAddress) : Controller where
  objects := c.objects ++ [TunnelGateway.create addr]
  gateways := addGateway c.gateways c.objects.length
  peerGateways := c.peerGateways.insert addr c.objects.length

/-- `PeerGateways` gives up its pointer to `g`.  The gateway is destroyed if that was
the last one, so not while the tunnel has one. -/
def dropGateway (c : Controller) (addr : IpAddress) (g : GatewayPtr) : Controller where
  objects := if g ∈ c.gateways then c.objects else c.objects.modify g TunnelGateway.destruct
  gateways := c.gateways
  peerGateways := c.peerGateways.erase addr

/-- The loop of `Tunnel::forward_locally` over the registered gateways. -/
def forwardLocally (link : LinkLibrary) (ios : GatewayPtr → LocalIo) :
    List GatewayPtr → List TunnelGateway → LocalMessage →
      List TunnelGateway × List (GatewayPtr × GatewayOutput)
  | [], objects, _ => (objects, [])
  | g :: gs, objects, message =>
      match objects[g]? with
      | none => forwardLocally link ios gs objects message
      | some gateway =>
          let (gateway, buffer, out) := gateway.forwardMessageLocally link (ios g) message
          let (objects, rest) :=
            forwardLocally link ios gs (objects.set g gateway) { message with buffer := buffer }
          (objects, out.map (Prod.mk g) ++ rest)

def machine (link : LinkLibrary) :
    Machine Controller InterfaceEvent (GatewayPtr × GatewayOutput)
  | c, .appear addr =>
      match c.peerGateways.find addr with
      | some _ => (c, [])
      | none => (c.makeGateway addr, [])
  | c, .vanish addr =>
      match c.peerGateways.find addr with
      | some g => (c.dropGateway addr g, [])
      | none => (c, [])
  | c, .repair addr =>
      match c.peerGateways.find addr with
      | some g => ((c.dropGateway addr g).makeGateway addr, [])
      | none => (c, [])
  | c, .lan g now e =>
      match c.objects[g]? with
      | none => (c, [])
      | some gateway =>
          let (gateway, out) := gateway.lanStep link now e
          ({ c with objects := c.objects.set g gateway }, out.map (Prod.mk g))
  | c, .deliver ios message =>
      let (objects, out) := forwardLocally link ios c.gateways c.objects message
      ({ c with objects := objects }, out)

def interfaceOf (objects : List TunnelGateway) (g : GatewayPtr) : Option IpAddress :=
  (objects[g]?).map TunnelGateway.localInterfaceAddress

/-- The datagrams that are sent on an interface. -/
def sentOn (c : Controller) (addr : IpAddress) (out : List (GatewayPtr × GatewayOutput)) :
    List (UdpEndpoint × List UInt8 × UdpEndpoint) :=
  TunnelGateway.datagrams
    ((out.filter (fun p ↦ interfaceOf c.objects p.1 = some addr)).map Prod.snd)

def Works (io : LocalIo) : Prop := io.nodeSockets.isSome = true ∧ io.sendFails = false

/-- The tunnel has the gateways that `PeerGateways` holds, each once.  A broadcast
goes out once on every interface that is there, and no other gateway does anything. -/
structure ServesLive (link : LinkLibrary) (c : Controller) : Prop where
  nodup : c.gateways.Nodup
  mem : ∀ g, g ∈ c.gateways ↔ ∃ addr, c.peerGateways.find addr = some g
  once : ∀ ios message, message.type = .broadcast → (∀ g, Works (ios g)) → ∀ addr,
    (c.sentOn addr (emit (machine link) c (.deliver ios message))).length =
      if (c.peerGateways.find addr).isSome then 1 else 0
  live : ∀ e, ∀ p ∈ emit (machine link) c e, ∃ addr, c.peerGateways.find addr = some p.1

/-- No interface that is there vanishes or is repaired. -/
def KeepsInterfaces (c : Controller) : InterfaceEvent → Prop
  | .vanish addr | .repair addr => c.peerGateways.find addr = none
  | _ => True

/-! ## Forwarding to the registered gateways -/

theorem interfaceOf_set {objects : List TunnelGateway} {g : GatewayPtr}
    {gateway gateway' : TunnelGateway} (hg : objects[g]? = some gateway)
    (haddr : gateway'.localInterfaceAddress = gateway.localInterfaceAddress)
    (g' : GatewayPtr) : interfaceOf (objects.set g gateway') g' = interfaceOf objects g' := by
  unfold interfaceOf
  by_cases hsame : g' = g
  · subst hsame
    rw [List.getElem?_set_self (List.getElem?_eq_some_iff.mp hg).1, hg]
    exact congrArg some haddr
  · rw [List.getElem?_set_ne (Ne.symm hsame)]

theorem interfaceOf_forwardLocally (ios : GatewayPtr → LocalIo) (gs : List GatewayPtr)
    (objects : List TunnelGateway) (message : LocalMessage) (g : GatewayPtr) :
    interfaceOf (forwardLocally link ios gs objects message).1 g = interfaceOf objects g := by
  induction gs generalizing objects message with
  | nil => rfl
  | cons g' gs ih =>
      simp only [forwardLocally]
      cases hg : objects[g']? with
      | none => exact ih objects message
      | some gateway =>
          simp only [ih]
          exact interfaceOf_set hg
            (TunnelGateway.forwardMessageLocally_local link gateway (ios g') message).1 g

/-- Only registered gateways are called. -/
theorem exists_of_mem_forwardLocally {ios : GatewayPtr → LocalIo} {gs : List GatewayPtr}
    {objects : List TunnelGateway} {message : LocalMessage} {p : GatewayPtr × GatewayOutput}
    (hp : p ∈ (forwardLocally link ios gs objects message).2) :
    p.1 ∈ gs ∧ (interfaceOf objects p.1).isSome = true := by
  induction gs generalizing objects message with
  | nil => simp [forwardLocally] at hp
  | cons g gs ih =>
      simp only [forwardLocally] at hp
      cases hg : objects[g]? with
      | none =>
          rw [hg] at hp
          obtain ⟨hmem, hobject⟩ := ih hp
          exact ⟨List.mem_cons_of_mem _ hmem, hobject⟩
      | some gateway =>
          simp only [hg] at hp
          rcases List.mem_append.mp hp with hp | hp
          · obtain ⟨o, -, rfl⟩ := List.mem_map.mp hp
            exact ⟨List.mem_cons_self, by simp [interfaceOf, hg]⟩
          · obtain ⟨hmem, hobject⟩ := ih hp
            rw [interfaceOf_set hg
              (TunnelGateway.forwardMessageLocally_local link gateway (ios g) message).1]
              at hobject
            exact ⟨List.mem_cons_of_mem _ hmem, hobject⟩

/-- A gateway that can open its sockets and send re-emits a broadcast once. -/
theorem length_datagrams_broadcast (g : TunnelGateway) {io : LocalIo} (hio : Works io)
    {message : LocalMessage} (htype : message.type = .broadcast) :
    (TunnelGateway.datagrams (g.forwardMessageLocally link io message).2.2).length = 1 := by
  have hdest : g.destination link message = some (g.getBroadcastEndpoint link) := by
    unfold TunnelGateway.destination
    rw [htype]
  have hbroadcast := TunnelGateway.isSome_localEndpoint_getBroadcastEndpoint link g
  have hdelivery := TunnelGateway.delivery link g io message
  generalize (g.forwardMessageLocally link io message).1 = g' at hdelivery
  generalize (g.forwardMessageLocally link io message).2.1 = buffer at hdelivery
  generalize (g.forwardMessageLocally link io message).2.2 = out at hdelivery ⊢
  cases hdelivery with
  | unaddressed hnone => simp [hdest] at hnone
  | pingUnopened hping | ping hping => simp [htype] at hping
  | unopened _ _ hnone =>
      obtain ⟨surrogate, hsockets⟩ := Option.isSome_iff_exists.mp hio.1
      simp [TunnelGateway.nodeSurrogate, hsockets] at hnone
  | unroutable _ hdest' _ hnone =>
      obtain rfl := Option.some.inj (hdest.symm.trans hdest')
      simp [hnone] at hbroadcast
  | delivered =>
      rw [TunnelGateway.datagrams, List.filterMap_append, List.length_append]
      have hobserve := @TunnelGateway.datagrams_observe link
      simp only [TunnelGateway.datagrams] at hobserve
      rw [hobserve]
      simp [TunnelGateway.sendUdpMessage, hio.2]

theorem filter_map_mk (interface : GatewayPtr → Option IpAddress) (addr : IpAddress)
    (g : GatewayPtr) (out : List GatewayOutput) :
    ((out.map (Prod.mk g)).filter (fun p ↦ interface p.1 = some addr)).map Prod.snd =
      if interface g = some addr then out else [] := by
  rw [List.filter_map, List.map_map]
  by_cases h : interface g = some addr <;> simp [h, Function.comp_def]

theorem length_sent_forwardLocally {ios : GatewayPtr → LocalIo} (hios : ∀ g, Works (ios g))
    {interface : GatewayPtr → Option IpAddress} (addr : IpAddress) (gs : List GatewayPtr)
    {objects : List TunnelGateway} (hinterface : ∀ g, interfaceOf objects g = interface g)
    {message : LocalMessage} (htype : message.type = .broadcast) :
    (TunnelGateway.datagrams
      (((forwardLocally link ios gs objects message).2.filter
        (fun p ↦ interface p.1 = some addr)).map Prod.snd)).length =
      gs.countP (fun g ↦ interface g = some addr) := by
  induction gs generalizing objects message with
  | nil => rfl
  | cons g gs ih =>
      rw [List.countP_cons]
      simp only [forwardLocally]
      cases hg : objects[g]? with
      | none =>
          have hnone : interface g = none := by
            rw [← hinterface, interfaceOf, hg]
            rfl
          simp only [hnone, reduceCtorEq, decide_false, Bool.false_eq_true, if_false]
          exact ih hinterface htype
      | some gateway =>
          have hset := interfaceOf_set hg
            (TunnelGateway.forwardMessageLocally_local link gateway (ios g) message).1
          have hrest := @ih (objects.set g _) (fun g' ↦ (hset g').trans (hinterface g'))
            { message with
              buffer := (gateway.forwardMessageLocally link (ios g) message).2.1 } htype
          have honce := @length_datagrams_broadcast link gateway (ios g) (hios g) message htype
          simp only [List.filter_append, List.map_append, filter_map_mk]
          rw [TunnelGateway.datagrams, List.filterMap_append, List.length_append,
            ← TunnelGateway.datagrams, ← TunnelGateway.datagrams, hrest, Nat.add_comm]
          congr 1
          by_cases h : interface g = some addr
          · simpa only [h, if_true, decide_true] using honce
          · simp [h, TunnelGateway.datagrams]

/-! ## Runs -/

/-- Every gateway that was made is registered, and held for its interface. -/
structure Kept (c : Controller) : Prop where
  gateways : c.gateways = List.range c.objects.length
  held : ∀ addr g, c.peerGateways.find addr = some g ↔ interfaceOf c.objects g = some addr

theorem kept_create : create.Kept where
  gateways := rfl
  held := by simp [create, interfaceOf]

theorem isSome_interfaceOf {objects : List TunnelGateway} {g : GatewayPtr} :
    (interfaceOf objects g).isSome = true ↔ g < objects.length := by
  simp [interfaceOf]

theorem Kept.mem_iff {c : Controller} (h : c.Kept) (g : GatewayPtr) :
    g ∈ c.gateways ↔ ∃ addr, c.peerGateways.find addr = some g := by
  rw [h.gateways, List.mem_range, ← isSome_interfaceOf, Option.isSome_iff_exists]
  exact exists_congr fun addr ↦ (h.held addr g).symm

theorem Kept.exists_of_isSome {c : Controller} (h : c.Kept) {g : GatewayPtr}
    (hobject : (interfaceOf c.objects g).isSome = true) :
    ∃ addr, c.peerGateways.find addr = some g := by
  obtain ⟨addr, haddr⟩ := Option.isSome_iff_exists.mp hobject
  exact ⟨addr, (h.held addr g).mpr haddr⟩

theorem Kept.countP_gateways {c : Controller} (h : c.Kept) (addr : IpAddress) :
    c.gateways.countP (fun g ↦ interfaceOf c.objects g = some addr) =
      if (c.peerGateways.find addr).isSome then 1 else 0 := by
  have hnodup : c.gateways.Nodup := h.gateways ▸ List.nodup_range
  cases hheld : c.peerGateways.find addr with
  | none =>
      simp only [Option.isSome_none, Bool.false_eq_true, if_false, List.countP_eq_zero]
      intro g _ hg
      rw [decide_eq_true_eq, ← h.held, hheld] at hg
      cases hg
  | some g =>
      have hiff : ∀ g', decide (interfaceOf c.objects g' = some addr) = (g' == g) := by
        intro g'
        rw [beq_eq_decide, decide_eq_decide, ← h.held, hheld, Option.some.injEq, eq_comm]
      simp only [hiff, Option.isSome_some, if_true]
      exact List.count_eq_one_of_mem hnodup ((h.mem_iff g).mpr ⟨addr, hheld⟩)

theorem Kept.servesLive {c : Controller} (h : c.Kept) : c.ServesLive link where
  nodup := h.gateways ▸ List.nodup_range
  mem := h.mem_iff
  once := by
    intro ios message htype hios addr
    rw [← h.countP_gateways]
    exact length_sent_forwardLocally hios addr c.gateways (fun _ ↦ rfl) htype
  live := by
    intro e p hp
    cases e with
    | appear addr | vanish addr | repair addr =>
        simp only [emit, machine] at hp
        split at hp <;> cases hp
    | lan g now e =>
        simp only [emit, machine] at hp
        split at hp
        · cases hp
        · obtain ⟨o, -, rfl⟩ := List.mem_map.mp hp
          rename_i hg
          exact h.exists_of_isSome (by simp [interfaceOf, hg])
    | deliver ios message =>
        exact h.exists_of_isSome (exists_of_mem_forwardLocally hp).2

theorem Kept.congr {c : Controller} (h : c.Kept) {objects : List TunnelGateway}
    (hobjects : ∀ g, interfaceOf objects g = interfaceOf c.objects g) :
    Kept { c with objects := objects } where
  gateways := by
    have hlength : objects.length = c.objects.length := by
      apply Nat.le_antisymm <;> apply Nat.le_of_not_lt <;> intro hlt
      · have hlast := isSome_interfaceOf.mpr hlt
        rw [hobjects, isSome_interfaceOf] at hlast
        exact Nat.lt_irrefl _ hlast
      · have hlast := isSome_interfaceOf.mpr hlt
        rw [← hobjects, isSome_interfaceOf] at hlast
        exact Nat.lt_irrefl _ hlast
    rw [hlength]
    exact h.gateways
  held := by
    intro addr g
    rw [hobjects]
    exact h.held addr g

theorem interfaceOf_append (objects : List TunnelGateway) (addr : IpAddress)
    (g : GatewayPtr) :
    interfaceOf (objects ++ [TunnelGateway.create addr]) g =
      if g = objects.length then some addr else interfaceOf objects g := by
  unfold interfaceOf
  rcases Nat.lt_trichotomy g objects.length with hlt | rfl | hlt
  · rw [List.getElem?_append_left hlt, if_neg hlt.ne]
  · simp [TunnelGateway.create]
  · rw [if_neg hlt.ne', List.getElem?_eq_none hlt.le, List.getElem?_eq_none]
    simpa using Nat.succ_le_of_lt hlt

theorem Kept.makeGateway {c : Controller} (h : c.Kept) {addr : IpAddress}
    (hfree : c.peerGateways.find addr = none) : (c.makeGateway addr).Kept where
  gateways := by
    simp [Controller.makeGateway, addGateway, h.gateways, List.range_succ]
  held := by
    intro addr' g
    simp only [Controller.makeGateway, interfaceOf_append, PartialMap.find_insert]
    by_cases haddr : addr' = addr
    · subst haddr
      by_cases hg : g = c.objects.length
      · simp [hg]
      · have hother : interfaceOf c.objects g ≠ some addr' := by
          intro hinterface
          rw [← h.held, hfree] at hinterface
          cases hinterface
        simp [hg, hother, Ne.symm hg]
    · by_cases hg : g = c.objects.length
      · have hnew : c.peerGateways.find addr' ≠ some g := by
          intro hfind
          have hobject := isSome_interfaceOf.mp
            (Option.isSome_iff_exists.mpr ⟨addr', (h.held addr' g).mp hfind⟩)
          exact hobject.ne hg
        simp [haddr, hg, hg ▸ hnew, Ne.symm haddr]
      · simp [haddr, hg, h.held]

theorem Kept.next {c : Controller} (h : c.Kept) {e : InterfaceEvent}
    (he : c.KeepsInterfaces e) : (EventMachine.next (machine link) c e).Kept := by
  cases e with
  | appear addr =>
      cases hfind : c.peerGateways.find addr with
      | some g => simpa [EventMachine.next, machine, hfind] using h
      | none => simpa [EventMachine.next, machine, hfind] using h.makeGateway hfind
  | vanish addr | repair addr =>
      simp only [KeepsInterfaces] at he
      simpa [EventMachine.next, machine, he] using h
  | lan g now e =>
      cases hg : c.objects[g]? with
      | none => simpa [EventMachine.next, machine, hg] using h
      | some gateway =>
          have haddr : (gateway.lanStep link now e).1.localInterfaceAddress =
              gateway.localInterfaceAddress := by
            rw [TunnelGateway.lanStep_eq_perform]
            exact TunnelGateway.localInterfaceAddress_perform ..
          simp only [EventMachine.next, machine, hg]
          exact h.congr (interfaceOf_set hg haddr)
  | deliver ios message => exact h.congr (interfaceOf_forwardLocally ios c.gateways c.objects message)

/-- The gateway of an interface that goes away stays registered. -/
theorem keepsInterfaces_of_servesLive {c : Controller} (h : c.Kept) {e : InterfaceEvent}
    (hafter : (EventMachine.next (machine link) c e).ServesLive link) :
    c.KeepsInterfaces e := by
  have hregistered {addr : IpAddress} {g : GatewayPtr}
      (hheld : c.peerGateways.find addr = some g) : g ∈ c.gateways :=
    (h.mem_iff g).mpr ⟨addr, hheld⟩
  have hunheld {addr addr' : IpAddress} {g : GatewayPtr}
      (hheld : c.peerGateways.find addr = some g) :
      (c.peerGateways.erase addr).find addr' ≠ some g := by
    intro hfind
    obtain ⟨hne, hfind⟩ := (PartialMap.find_erase_eq_some ..).mp hfind
    rw [h.held] at hheld hfind
    exact hne (Option.some.inj (hfind.symm.trans hheld))
  cases e with
  | appear | lan | deliver => trivial
  | vanish addr =>
      cases hheld : c.peerGateways.find addr with
      | none => exact hheld
      | some g =>
          simp only [EventMachine.next, machine, hheld] at hafter
          obtain ⟨addr', hfind⟩ := (hafter.mem g).mp (hregistered hheld)
          exact absurd hfind (hunheld hheld)
  | repair addr =>
      cases hheld : c.peerGateways.find addr with
      | none => exact hheld
      | some g =>
          simp only [EventMachine.next, machine, hheld] at hafter
          have hmem := hregistered hheld
          have hstill : g ∈ ((c.dropGateway addr g).makeGateway addr).gateways := by
            simp only [Controller.makeGateway, dropGateway, addGateway, hmem, if_true]
            split <;> simp [hmem]
          obtain ⟨addr', hfind⟩ := (hafter.mem g).mp hstill
          simp only [Controller.makeGateway, dropGateway, hmem, if_true,
            PartialMap.find_insert] at hfind
          split at hfind
          · rw [h.gateways, List.mem_range] at hmem
            exact absurd (Option.some.inj hfind) hmem.ne'
          · exact absurd hfind (hunheld hheld)

/-- The tunnel serves the live gateways all along a run exactly when no interface
that is there vanishes or is repaired in it. -/
theorem throughout_servesLive_iff (link : LinkLibrary) (es : List InterfaceEvent) :
    Throughout (machine link) (ServesLive link) create es ↔
      Along (machine link) KeepsInterfaces create es :=
  throughout_iff_along (machine link) (I := Kept) (Q := ServesLive link)
    (fun _ h ↦ h.servesLive) (fun _ _ h he ↦ h.next he)
    (fun _ _ h hafter ↦ keepsInterfaces_of_servesLive h hafter) kept_create es

/-- An interface vanishes, and its gateway stays where it is. -/
theorem not_throughout_servesLive :
    ¬ Throughout (machine LinkLibrary.version1) (ServesLive LinkLibrary.version1) create
      [.appear TunnelGateway.kLocalIfAddr, .vanish TunnelGateway.kLocalIfAddr] := by
  intro h
  obtain ⟨addr, hfind⟩ := (h.last.mem 0).mp (by decide +kernel)
  simp [machine, EventMachine.next, create, Controller.makeGateway, dropGateway,
    PartialMap.find_insert, PartialMap.find_erase] at hfind

end Controller

end LinkExtender
