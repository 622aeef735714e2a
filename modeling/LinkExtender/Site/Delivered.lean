import LinkExtender.Site.PassThrough
import LinkExtender.UdpTunnel.Stop

/-!
# How often a measurement message is delivered

Sites with the tunnel messages in flight between them.  Messages may be lost and
overtake each other, but none is delivered twice.  A measurement message bypasses the
duplicate filter, enters the tunnel at most once and leaves it at one site; there each
gateway that can take it does.
-/

namespace LinkExtender

open EventMachine

/-! ## The gateways that take a message -/

namespace TunnelGateway

variable {link : LinkLibrary} {g : TunnelGateway} {io : LocalIo} {message : LocalMessage}

/-- A gateway takes a message where it knows a destination that its interface can reach,
has or can open the surrogate of the sender, and `send` does not throw. -/
def takes (link : LinkLibrary) (g : TunnelGateway) (io : LocalIo) (message : LocalMessage) :
    Bool :=
  ((g.destination link message).bind g.localEndpoint).isSome &&
    (if message.type = .measurementPing then
      (g.measurementSurrogate io message.fromNode).isSome
    else (g.nodeSurrogate io message.fromNode).isSome) && !io.sendFails

theorem length_datagrams_sendUdpMessage (routing : RoutingResult) (buffer : MessageBuffer)
    (size : ℕ) :
    (datagrams (sendUdpMessage io routing buffer size)).length = (!io.sendFails).toNat := by
  rw [datagrams_sendUdpMessage]
  cases io.sendFails <;> rfl

theorem length_datagrams_forwardMessageLocally (link : LinkLibrary) (g : TunnelGateway)
    (io : LocalIo) (message : LocalMessage) :
    (datagrams (g.forwardMessageLocally link io message).2.2).length =
      (g.takes link io message).toNat := by
  have hdelivery := delivery link g io message
  generalize (g.forwardMessageLocally link io message).1 = g' at hdelivery
  generalize (g.forwardMessageLocally link io message).2.1 = buffer at hdelivery
  generalize (g.forwardMessageLocally link io message).2.2 = out at hdelivery ⊢
  cases hdelivery with
  | unaddressed hdest => simp [takes, hdest, datagrams]
  | pingUnopened htype hdest hsocket => simp [takes, htype, hsocket, datagrams]
  | @ping dest socket htype hdest hsocket =>
      cases hlocal : g.localEndpoint dest with
      | none => simp [takes, hdest, hlocal, datagrams]
      | some e =>
          rw [Option.elim_some, length_datagrams_sendUdpMessage]
          simp [takes, htype, hdest, hsocket, hlocal]
  | unopened htype hdest hsurrogate => simp [takes, htype, hsurrogate, datagrams]
  | unroutable htype hdest hsurrogate hlocal => simp [takes, hdest, hlocal, datagrams]
  | @delivered dest e s htype hdest hsurrogate hlocal =>
      rw [datagrams, List.filterMap_append, ← datagrams, ← datagrams, datagrams_observe,
        List.nil_append, length_datagrams_sendUdpMessage]
      simp [takes, htype, hdest, hsurrogate, hlocal]

end TunnelGateway

namespace Site

variable {link : LinkLibrary}

def isHandover : SiteOutput → Bool
  | .gateway _ (.send ..) => true
  | _ => false

/-- How many datagrams go out on the local networks. -/
def handovers (out : List SiteOutput) : ℕ := out.countP isHandover

@[simp] theorem handovers_append (xs ys : List SiteOutput) :
    handovers (xs ++ ys) = handovers xs + handovers ys :=
  List.countP_append

theorem handovers_map_gateway (i : ℕ) (out : List GatewayOutput) :
    handovers (out.map (.gateway i)) = (TunnelGateway.datagrams out).length := by
  rw [handovers, List.countP_map, TunnelGateway.datagrams, List.length_filterMap_eq_countP]
  apply List.countP_congr
  intro o _
  cases o <;> simp [isHandover]

def takers (link : LinkLibrary) (s : Site) (ios : ℕ → LocalIo) (message : LocalMessage) : ℕ :=
  s.gateways.zipIdx.countP (fun r ↦ r.1.takes link (ios r.2) message)

theorem handovers_forwardLocally (ios : ℕ → LocalIo) (i : ℕ) (gs : List TunnelGateway)
    (message : LocalMessage) :
    handovers (forwardLocally link ios i gs message).2 =
      (gs.zipIdx i).countP (fun r ↦ r.1.takes link (ios r.2) message) := by
  induction gs generalizing i message with
  | nil => rfl
  | cons g gs ih =>
      simp only [forwardLocally, handovers_append, handovers_map_gateway]
      -- a gateway may have written behind the message, which has no bearing on the next
      rw [ih, TunnelGateway.length_datagrams_forwardMessageLocally, List.zipIdx_cons,
        List.countP_cons, Nat.add_comm]
      cases g.takes link (ios i) message <;> simp <;> rfl

theorem handovers_deliver_of_localCalls_eq_nil (ios : ℕ → LocalIo) (gs : List TunnelGateway)
    {out : List TunnelOutput} (h : localCalls out = []) :
    handovers (deliver link ios gs out).2 = 0 := by
  induction out generalizing gs with
  | nil => rfl
  | cons o out ih =>
      cases o with
      | forwardLocally message => cases h
      | send dest bytes => exact ih gs h
      | unknownPeer endpoint => exact ih gs h

/-- A message from a connected peer goes out once for each gateway that takes it. -/
theorem handovers_receive (s : Site) (now : TimePoint) (origin : UdpEndpoint)
    (datagram : Datagram) (ios : ℕ → LocalIo) {message : LocalMessage}
    (hmessage : UdpTunnel.messageOf datagram = some message) :
    handovers (emit (machine link) s (.tunnel (.receive now origin datagram) ios)) =
      if s.tunnel.isConnected origin = true ∧ message.type.isControl = false then
        s.takers link ios message
      else 0 := by
  rw [emit, @machine_tunnel link s (.receive now origin datagram) rfl ios]
  split
  · next h =>
      rw [emit_receive_of_connected now h.1 hmessage h.2]
      simp only [deliver, List.append_nil]
      exact handovers_forwardLocally ..
  · next h =>
      apply handovers_deliver_of_localCalls_eq_nil
      apply localCalls_eq_nil
      intro message' hmem
      obtain ⟨_, _, _, idx, peer, heq, hmessage', hdata, hpeer, hstate⟩ :=
        UdpTunnel.forwardLocally_mem_emit hmem
      cases heq
      obtain rfl := Option.some.inj (hmessage.symm.trans hmessage')
      exact h ⟨UdpTunnel.isConnected_eq_true.mpr ⟨idx, peer, hpeer, hstate⟩, hdata⟩

/-! ## What a measurement message sends into the tunnel -/

/-- A measurement message on the socket of a surrogate. -/
def isMeasured (s : Site) : SiteEvent → Bool
  | .lan i _ e _ => (s.gateways[i]?).any (fun g ↦ (g.measurementMessage? e).isSome)
  | .tunnel .. => false

end Site

theorem TunnelGateway.emit_of_measurementMessage? {link : LinkLibrary} {g : TunnelGateway}
    (now : TimePoint) {e : LanEvent} {r : UdpEndpoint × Datagram × NodeId × NodeId}
    (hmessage : g.measurementMessage? e = some r) :
    emit (machine link) g (.lan now e) =
      (g.lanAction link now e).call?.toList.map .forward := by
  have hstate : g.stateMessage? e = none := by
    cases e <;> first | rfl | cases hmessage
  rw [emit_lan]
  have hreading := lanReading link g now e
  generalize g.lanAction link now e = a at hreading
  cases hreading with
  | announced hmessage' | left hmessage' => simp [hstate] at hmessage'
  | localDue | remoteDue => cases hmessage
  | _ => rfl

namespace Site

variable {link : LinkLibrary}

/-- It is sent to no peer twice. -/
theorem exists_sent {t : UdpTunnel} (h : t.Seated) (steadyNow : TimePoint)
    {g : TunnelGateway} (now : TimePoint) {e : LanEvent}
    {r : UdpEndpoint × Datagram × NodeId × NodeId} (hmessage : g.measurementMessage? e = some r) :
    ∃ (dests : List UdpEndpoint) (bytes : List UInt8), dests.Nodup ∧
      (forwardAll t steadyNow (emit (TunnelGateway.machine link) g (.lan now e))).2 =
        dests.map (fun dest ↦ .send dest bytes) := by
  rw [TunnelGateway.emit_of_measurementMessage? now hmessage]
  cases (g.lanAction link now e).call? with
  | none => exact ⟨[], [], List.nodup_nil, rfl⟩
  | some call =>
      simp only [Option.toList_some, List.map_cons, List.map_nil, forwardAll, List.append_nil]
      rw [UdpTunnel.forward_snd]
      split
      · exact ⟨[], [], List.nodup_nil, rfl⟩
      · split
        · exact ⟨[], [], List.nodup_nil, rfl⟩
        · exact ⟨_, _, h.nodup_recipients call.type call.toNode, rfl⟩

theorem seated_forwardAll {t : UdpTunnel} (h : t.Seated) (steadyNow : TimePoint)
    (out : List GatewayOutput) : (forwardAll t steadyNow out).1.Seated := by
  induction out generalizing t with
  | nil => exact h
  | cons o out ih =>
      cases o with
      | forward call =>
          have hnext := UdpTunnel.seated_next h
            (.forward steadyNow call.type call.fromNode call.message call.toNode)
          exact ih hnext
      | _ => exact ih h

theorem seated_next {s : Site} (h : s.tunnel.Seated) (e : SiteEvent) :
    (next (machine link) s e).tunnel.Seated := by
  cases e with
  | tunnel e ios =>
      by_cases hexternal : isExternal e = true
      · rw [next, machine_tunnel hexternal]
        exact UdpTunnel.seated_next h e
      · simpa [next, machine, hexternal] using h
  | lan i now e steadyNow =>
      cases hg : s.gateways[i]? with
      | none => simpa [next, machine, hg] using h
      | some g =>
          rw [next, machine_lan hg]
          exact seated_forwardAll h steadyNow _

end Site

/-! ## Sites on a network -/

/-- A datagram on its way between two tunnels, with the number of the measurement
message, if any, that it was sent for. -/
structure Packet where
  source : UdpEndpoint
  dest : UdpEndpoint
  datagram : Datagram
  measurement : Option ℕ
deriving DecidableEq

structure SiteNetwork (ι : Type*) where
  site : ι → Site
  inFlight : List Packet
  steps : ℕ

/-- A step of a site may be the receipt of a datagram from elsewhere, too. -/
inductive SiteNetworkEvent (ι : Type*) where
  | step (x : ι) (e : SiteEvent)
  | arrive (k : ℕ) (y : ι) (now : TimePoint) (ios : ℕ → LocalIo)
  | lose (k : ℕ)

namespace SiteNetwork

variable {ι : Type*} (link : LinkLibrary) (address : ι → UdpEndpoint)

def create (initialPeers : ι → List UdpEndpoint) (interfaces : ι → List IpAddress) :
    SiteNetwork ι where
  site := fun x ↦ Site.create (initialPeers x) (interfaces x)
  inFlight := []
  steps := 0

def packets (source : UdpEndpoint) (measurement : Option ℕ) (out : List SiteOutput) :
    List Packet :=
  out.filterMap fun
    | .tunnel (.send dest bytes) =>
        some ⟨source, dest, Sites.receivedDatagram bytes, measurement⟩
    | _ => none

section Machine

variable [DecidableEq ι]

def act (n : SiteNetwork ι) (x : ι) (e : SiteEvent) (measurement : Option ℕ) :
    SiteNetwork ι × List (ι × SiteOutput) :=
  ({ site := Function.update n.site x (next (Site.machine link) (n.site x) e)
     inFlight := n.inFlight ++
       packets (address x) measurement (emit (Site.machine link) (n.site x) e)
     steps := n.steps + 1 },
    (emit (Site.machine link) (n.site x) e).map (Prod.mk x))

/-- A measurement message is numbered by the step in which it is received. -/
def machine : Machine (SiteNetwork ι) (SiteNetworkEvent ι) (ι × SiteOutput)
  | n, .step x e =>
      act link address n x e (if (n.site x).isMeasured e then some n.steps else none)
  | n, .arrive k y now ios =>
      match n.inFlight[k]? with
      | some p =>
          if p.dest = address y then
            act link address { n with inFlight := n.inFlight.eraseIdx k } y
              (.tunnel (.receive now p.source p.datagram) ios) none
          else (n, [])
      | none => (n, [])
  | n, .lose k => ({ n with inFlight := n.inFlight.eraseIdx k }, [])

/-- The datagrams that site `y` puts out on its local networks for the measurement
message `m`. -/
def deliveries (m : ℕ) (y : ι) (n : SiteNetwork ι) : SiteNetworkEvent ι → ℕ
  | .arrive k x now ios =>
      match n.inFlight[k]? with
      | some p =>
          if x = y ∧ p.dest = address y ∧ p.measurement = some m then
            Site.handovers (emit (Site.machine link) (n.site y)
              (.tunnel (.receive now p.source p.datagram) ios))
          else 0
      | none => 0
  | _ => 0

end Machine

/-- At most one gateway takes a measurement message that arrives from a connected peer. -/
def OneTaker (n : SiteNetwork ι) : SiteNetworkEvent ι → Prop
  | .arrive k y _ ios =>
      ∀ p ∈ n.inFlight[k]?, p.dest = address y → p.measurement.isSome = true →
        (n.site y).tunnel.isConnected p.source = true →
          ∀ message ∈ UdpTunnel.messageOf p.datagram, message.type.isControl = false →
            (n.site y).takers link ios message ≤ 1
  | _ => True

variable {link address}

section Counting

variable [DecidableEq ι]

theorem forall_deliveries_le_one_iff (n : SiteNetwork ι) (e : SiteNetworkEvent ι) :
    (∀ r : ℕ × ι, deliveries link address r.1 r.2 n e ≤ 1) ↔ OneTaker link address n e := by
  cases e with
  | arrive k y now ios =>
      cases hp : n.inFlight[k]? with
      | none => simp [deliveries, OneTaker, hp]
      | some p =>
          obtain ⟨message, hmessage, -⟩ := UdpTunnel.receive_eq_dispatch (n.site y).tunnel now
            p.source p.datagram
          have hcount := @Site.handovers_receive link (n.site y) now p.source p.datagram ios _
            hmessage
          simp only [deliveries, OneTaker, hp, Option.mem_def, Option.some.injEq, forall_eq',
            hmessage]
          constructor
          · intro h hdest hmeasurement hconnected hdata
            obtain ⟨m, hm⟩ := Option.isSome_iff_exists.mp hmeasurement
            simpa [hdest, hm, hconnected, hdata, hcount] using h (m, y)
          · rintro h ⟨m, y'⟩
            dsimp only
            split
            · next hm =>
                obtain ⟨rfl, hdest, hmeasurement⟩ := hm
                rw [hcount]
                split
                · next hpassed =>
                    exact h hdest (by rw [hmeasurement]; rfl) hpassed.1 hpassed.2
                · exact Nat.zero_le _
            · exact Nat.zero_le _
  | _ => simp [deliveries, OneTaker]

/-- The packets in which the measurement message `m` is or may yet be sent to `dest`. -/
def copies (m : ℕ) (dest : UdpEndpoint) (n : SiteNetwork ι) : ℕ :=
  n.inFlight.countP (fun p ↦ p.dest = dest ∧ p.measurement = some m) +
    if n.steps ≤ m then 1 else 0

theorem countP_packets_le (source : UdpEndpoint) (measurement : Option ℕ)
    (out : List SiteOutput) (m : ℕ) (dest : UdpEndpoint)
    (h : measurement = some m → ((packets source measurement out).map Packet.dest).Nodup) :
    (packets source measurement out).countP
        (fun p ↦ p.dest = dest ∧ p.measurement = some m) ≤
      if measurement = some m then 1 else 0 := by
  split
  · next hm =>
      calc (packets source measurement out).countP
            (fun p ↦ p.dest = dest ∧ p.measurement = some m)
          ≤ (packets source measurement out).countP (fun p ↦ p.dest = dest) := by
            apply List.countP_mono_left
            intro p _ hp
            exact decide_eq_true (of_decide_eq_true hp).1
        _ = ((packets source measurement out).map Packet.dest).count dest := by
            rw [List.count, List.countP_map]
            rfl
        _ ≤ 1 := List.nodup_iff_count_le_one.mp (h hm) dest
  · next hm =>
      rw [Nat.le_zero, List.countP_eq_zero]
      intro p hp
      obtain ⟨o, -, ho⟩ := List.mem_filterMap.mp hp
      cases o with
      | gateway => cases ho
      | tunnel o =>
          cases o <;> cases ho
          simp [hm]

theorem nodup_packets_of_isMeasured {s : Site} (hs : s.tunnel.Seated) {e : SiteEvent}
    (h : s.isMeasured e = true) (source : UdpEndpoint) (measurement : Option ℕ) :
    ((packets source measurement (emit (Site.machine link) s e)).map Packet.dest).Nodup := by
  cases e with
  | tunnel => cases h
  | lan i now e steadyNow =>
      obtain ⟨g, hg, hmessage⟩ := Option.any_eq_true _ _ |>.mp h
      obtain ⟨r, hr⟩ := Option.isSome_iff_exists.mp hmessage
      obtain ⟨dests, bytes, hnodup, hsent⟩ := @Site.exists_sent link _ hs steadyNow g now e r hr
      rw [emit, Site.machine_lan hg, hsent]
      simpa [packets, List.filterMap_map, Function.comp_def] using hnodup

/-- Nothing is added for a message that has been numbered before. -/
theorem copies_act_le {n : SiteNetwork ι} (hn : ∀ x, (n.site x).tunnel.Seated) (x : ι)
    {e : SiteEvent} {measurement : Option ℕ}
    (hnumber : measurement = none ∨
      measurement = some n.steps ∧ (n.site x).isMeasured e = true) (m : ℕ) (dest : UdpEndpoint) :
    copies m dest (act link address n x e measurement).1 ≤ copies m dest n := by
  have hcredit : (if measurement = some m then 1 else 0) + (if n.steps + 1 ≤ m then 1 else 0) ≤
      if n.steps ≤ m then 1 else 0 := by
    rcases hnumber with rfl | ⟨rfl, -⟩ <;>
      simp only [Option.some.injEq, reduceCtorEq, if_false] <;> split_ifs <;> omega
  have hnew := @countP_packets_le (address x) measurement
    (emit (Site.machine link) (n.site x) e) m dest (by
      intro hm
      rcases hnumber with hnone | ⟨-, hmeasured⟩
      · simp [hnone] at hm
      · exact nodup_packets_of_isMeasured (hn x) hmeasured (address x) measurement)
  change (n.inFlight ++ packets (address x) measurement
    (emit (Site.machine link) (n.site x) e)).countP _ +
      (if n.steps + 1 ≤ m then 1 else 0) ≤ copies m dest n
  rw [List.countP_append, copies]
  omega

omit [DecidableEq ι] in
theorem copies_eraseIdx {n : SiteNetwork ι} {k : ℕ} {p : Packet} (hp : n.inFlight[k]? = some p)
    (m : ℕ) (dest : UdpEndpoint) :
    copies m dest { n with inFlight := n.inFlight.eraseIdx k } +
      (if p.dest = dest ∧ p.measurement = some m then 1 else 0) = copies m dest n := by
  obtain ⟨hk, rfl⟩ := List.getElem?_eq_some_iff.mp hp
  have hperm := (List.getElem_cons_eraseIdx_perm hk).countP_eq
    (fun p ↦ decide (p.dest = dest ∧ p.measurement = some m))
  rw [List.countP_cons] at hperm
  simp only [decide_eq_true_eq] at hperm
  simp only [copies]
  omega

theorem seated_act {n : SiteNetwork ι} (hn : ∀ x, (n.site x).tunnel.Seated) (x : ι)
    (e : SiteEvent) (measurement : Option ℕ) (y : ι) :
    ((act link address n x e measurement).1.site y).tunnel.Seated := by
  by_cases hy : y = x
  · subst hy
    simpa [act] using Site.seated_next (hn y) e
  · simpa [act, hy] using hn y

theorem seated_next {n : SiteNetwork ι} (hn : ∀ x, (n.site x).tunnel.Seated)
    (e : SiteNetworkEvent ι) (y : ι) :
    ((next (machine link address) n e).site y).tunnel.Seated := by
  cases e with
  | step x e => exact seated_act hn x e _ y
  | lose k => exact hn y
  | arrive k x now ios =>
      simp only [next, machine]
      split
      · split
        · exact @seated_act ι link address _ n hn x _ none y
        · exact hn y
      · exact hn y

/-- A delivery uses up a packet. -/
theorem deliveries_add_copies_le {n : SiteNetwork ι} (hn : ∀ x, (n.site x).tunnel.Seated)
    (e : SiteNetworkEvent ι) (hone : OneTaker link address n e) (m : ℕ) (y : ι) :
    deliveries link address m y n e + copies m (address y) (next (machine link address) n e) ≤
      copies m (address y) n := by
  cases e with
  | step x e =>
      simp only [deliveries, Nat.zero_add]
      apply copies_act_le hn x _ m (address y)
      by_cases h : (n.site x).isMeasured e = true
      · exact Or.inr ⟨if_pos h, h⟩
      · exact Or.inl (if_neg h)
  | lose k =>
      simp only [deliveries, Nat.zero_add]
      cases hp : n.inFlight[k]? with
      | none =>
          rw [next, machine, List.eraseIdx_of_length_le (List.getElem?_eq_none_iff.mp hp)]
      | some p =>
          have herase := copies_eraseIdx hp m (address y)
          simp only [next, machine]
          omega
  | arrive k x now ios =>
      have hcount := (forall_deliveries_le_one_iff n (.arrive k x now ios)).mpr hone (m, y)
      cases hp : n.inFlight[k]? with
      | none => simp [deliveries, next, machine, hp]
      | some p =>
          by_cases hdest : p.dest = address x
          · have hpaid : deliveries link address m y n (.arrive k x now ios) ≤
                if p.dest = address y ∧ p.measurement = some m then 1 else 0 := by
              by_cases h : p.dest = address y ∧ p.measurement = some m
              · rwa [if_pos h]
              · simp only [deliveries, hp]
                rw [if_neg fun h' ↦ h h'.2]
                exact Nat.zero_le _
            have herase := copies_eraseIdx hp m (address y)
            have hact := @copies_act_le ι link address _
              { n with inFlight := n.inFlight.eraseIdx k } hn x
              (.tunnel (.receive now p.source p.datagram) ios) none (Or.inl rfl) m (address y)
            have hnext : next (machine link address) n (.arrive k x now ios) =
                (act link address { n with inFlight := n.inFlight.eraseIdx k } x
                  (.tunnel (.receive now p.source p.datagram) ios) none).1 := by
              simp only [next, machine, hp, hdest, if_true]
            rw [hnext]
            omega
          · have hzero : deliveries link address m y n (.arrive k x now ios) = 0 := by
              simp only [deliveries, hp]
              apply if_neg
              rintro ⟨rfl, hy, -⟩
              exact hdest hy
            rw [hzero, Nat.zero_add, next, machine]
            simp only [hp, hdest, if_false, le_refl]

theorem forall_tally_deliveries_le_one_iff (link : LinkLibrary) (address : ι → UdpEndpoint)
    (initialPeers : ι → List UdpEndpoint) (interfaces : ι → List IpAddress)
    (es : List (SiteNetworkEvent ι)) :
    (∀ m y, tally (machine link address) (deliveries link address m y)
        (create initialPeers interfaces) es ≤ 1) ↔
      Along (machine link address) (OneTaker link address) (create initialPeers interfaces)
        es := by
  have hseated : ∀ x, ((create initialPeers interfaces).site x).tunnel.Seated :=
    fun x ↦ UdpTunnel.seated_create (initialPeers x)
  have hcopies (m : ℕ) (dest : UdpEndpoint) :
      copies m dest (create initialPeers interfaces) = 1 := by
    simp [copies, create]
  constructor
  · intro h
    have halong : Along (machine link address)
        (fun n e ↦ ∀ r : ℕ × ι, deliveries link address r.1 r.2 n e ≤ 1)
        (create initialPeers interfaces) es :=
      (along_forall ..).mpr fun r ↦ along_of_tally_le _ (h r.1 r.2)
    exact along_of_invariant (machine link address) (I := fun _ ↦ True) (fun _ _ _ _ ↦ trivial)
      (fun n e _ hle ↦ (forall_deliveries_le_one_iff n e).mp hle) trivial halong
  · intro h m y
    rw [← hcopies m (address y)]
    exact tally_le_potential (machine link address) (fun n e hn _ ↦ seated_next hn e)
      (fun n e hn hone ↦ deliveries_add_copies_le hn e hone m y) hseated h

end Counting

/-! ## A node on two interfaces -/

open Handshake (Side)

def homeAddress : Side → UdpEndpoint
  | .a => localhost 1
  | .b => localhost 2

/-- The second site has two interfaces. -/
def twoInterfaces : SiteNetwork Side :=
  create (fun x ↦ match x with
    | .a => [localhost 2]
    | .b => [localhost 1]) (fun x ↦ match x with
    | .a => [TunnelGateway.kLocalIfAddr]
    | .b => [TunnelGateway.kLocalIfAddr, .v4 0x0a000001])

def alive (sender : UdpEndpoint) : LanEvent :=
  .multicast sender
    (Sites.receivedDatagram (Site.aliveBody ++ LinkLibrary.endpointEntry (localhost 20809)))

/-- The sites greet each other, the zero node is heard on both interfaces of the second
site, and a socket at the first site pings its surrogate. -/
def pingToTwo : List (SiteNetworkEvent Side) :=
  [.step .a (.tunnel (.runMaintenance 0) (fun _ ↦ TunnelGateway.openSockets 10000)),
    .arrive 0 .b 0 (fun _ ↦ TunnelGateway.openSockets 10000),
    .arrive 0 .a 0 (fun _ ↦ TunnelGateway.openSockets 10000),
    .arrive 0 .b 0 (fun _ ↦ TunnelGateway.openSockets 10000),
    .step .b (.lan 0 0 (alive TunnelGateway.kSameSubnetPeer) 0),
    .step .b (.lan 1 0 (alive ⟨.v4 0x0a000002, 20808⟩) 0),
    .arrive 0 .a 0 (fun _ ↦ TunnelGateway.openSockets 10000),
    .step .a (.lan 0 0 (.measurementSocket default (localhost 5000)
      (Sites.receivedDatagram Site.pingMessage) Site.drawnNode) 0),
    .arrive 0 .b 0 (fun i ↦ TunnelGateway.openSockets (20000 + 2 * UInt16.ofNat i))]

/-- Both gateways deliver the ping. -/
theorem not_forall_tally_deliveries_le_one :
    ¬ ∀ m y, tally (machine .version1 homeAddress) (deliveries .version1 homeAddress m y)
      twoInterfaces pingToTwo ≤ 1 := by
  intro h
  have htwo : tally (machine .version1 homeAddress) (deliveries .version1 homeAddress 7 .b)
      twoInterfaces pingToTwo = 2 := by
    decide +kernel
  exact absurd (h 7 .b) (by omega)

end SiteNetwork

end LinkExtender
