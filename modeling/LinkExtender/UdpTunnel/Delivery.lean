import LinkExtender.Handshake.Network
import LinkExtender.Library.Channel
import LinkExtender.TunnelGateway

/-!
# From tunnel to tunnel

Tunnels on a network that may lose, repeat and reorder datagrams, with everything that
else happens to them: maintenance, peers that come and go, strangers.  What the gateways
of one tunnel are handed from another is what the gateways of the other have forwarded
to it, unchanged.
-/

namespace LinkExtender

namespace Internet

open EventMachine UdpTunnel Handshake

variable {ι : Type*}

inductive InternetEvent (ι : Type*) where
  /-- What a tunnel does of itself, or for a datagram of a stranger. -/
  | act (x : ι) (e : TunnelEvent)
  | deliver (now : TimePoint) (flight : ℕ)
  | lose (flight : ℕ)
  | repeated (flight : ℕ)

def machine [DecidableEq ι] (hosts : Hosts ι) :
    Machine (Network ι) (InternetEvent ι) (ι × TunnelOutput)
  | n, .act x e => hosts.act n x e
  | n, .deliver now i => hosts.machine n (.deliver now i)
  | n, .lose i => ({ n with inFlight := n.inFlight.eraseIdx i }, [])
  | n, .repeated i => ({ n with inFlight := n.inFlight ++ n.inFlight[i]?.toList }, [])

/-- What a connected tunnel hands its gateways for a datagram. -/
def readCall (datagram : Datagram) : Option ForwardCall :=
  ((messageOf datagram).filter (fun m ↦ !m.type.isControl)).map LocalMessage.call

/-- The calls in those datagrams that are on their way from one tunnel to another. -/
def calls [DecidableEq ι] (x y : ι) (flights : List (Flight ι)) : List ForwardCall :=
  flights.filterMap (fun f ↦ if f.source = x ∧ f.dest = y then readCall f.datagram else none)

def underway [DecidableEq ι] (x y : ι) (n : Network ι) : List ForwardCall := calls x y n.inFlight

def localCall? : TunnelOutput → Option ForwardCall
  | .forwardLocally message => some message.call
  | _ => none

variable [DecidableEq ι] (hosts : Hosts ι)

/-- What the gateways of tunnel `x` have forwarded, once for each entry of its table that
sends it to tunnel `y`. -/
def offered (x y : ι) (n : Network ι) : InternetEvent ι → List ForwardCall
  | .act z (.forward now type fromNode message toNode) =>
      if z = x ∧ ¬ (n.tunnel z).Suppressed now type fromNode message ∧
          (encapsulate ⟨fromNode, type, toNode, 0⟩ message).isSome = true ∧
          type.isControl = false then
        List.replicate (((n.tunnel z).recipients type toNode).count (hosts.address y))
          ⟨type, fromNode, message, if type.hasToNode then toNode else none⟩
      else []
  | _ => []

/-- What the gateways of tunnel `y` are handed for a datagram from the address of `x`. -/
def handed (x y : ι) (n : Network ι) : InternetEvent ι → List ForwardCall
  | .act z (.receive now sender datagram) =>
      if z = y ∧ sender = hosts.address x then
        (emit (machine hosts) n (.act z (.receive now sender datagram))).filterMap
          (fun o ↦ localCall? o.2)
      else []
  | .deliver now i =>
      match n.inFlight[i]? with
      | some f =>
          if f.source = x ∧ f.dest = y then
            (emit (machine hosts) n (.deliver now i)).filterMap (fun o ↦ localCall? o.2)
          else []
      | none => []
  | _ => []

/-- Nobody but the tunnels sends from their addresses, and what is forwarded fits behind
its header. -/
def Genuine : InternetEvent ι → Prop
  | .act _ (.receive _ sender _) => hosts.owner sender = none
  | .act _ (.forward _ type _ message _) => encapsulatedSize type message.length ≤ kMaxMessageSize
  | _ => True

/-- No datagram is repeated. -/
def Single : InternetEvent ι → Prop
  | .repeated _ => False
  | _ => True

/-- The datagram takes a call from one tunnel to another. -/
def Carries (x y : ι) (f : Flight ι) : Prop :=
  f.source = x ∧ f.dest = y ∧ (readCall f.datagram).isSome = true

instance (x y : ι) (f : Flight ι) : Decidable (Carries x y f) :=
  inferInstanceAs (Decidable (_ ∧ _ ∧ _))

/-- No call from `x` to `y` is lost or repeated, and `y` is connected with `x` when it
comes in. -/
def Lossless (x y : ι) (n : Network ι) : InternetEvent ι → Prop
  | .lose i | .repeated i => ∀ f ∈ n.inFlight[i]?, ¬ Carries x y f
  | .deliver _ i => ∀ f ∈ n.inFlight[i]?, Carries x y f →
      (n.tunnel y).isConnected (hosts.address x) = true
  | .act .. => True

/-! ## Datagrams -/

theorem readCall_of_isControl {datagram : Datagram} {message : LocalMessage}
    (hmessage : messageOf datagram = some message) (hcontrol : message.type.isControl = true) :
    readCall datagram = none := by
  simp [readCall, hmessage, hcontrol]

theorem readCall_of_data {datagram : Datagram} {message : LocalMessage}
    (hmessage : messageOf datagram = some message) (hdata : message.type.isControl = false) :
    readCall datagram = some message.call := by
  simp [readCall, hmessage, Option.filter_some, hdata]

theorem readCall_controlBytes {type : TunnelMessageType} (hcontrol : type.isControl = true)
    {datagram : Datagram} (hbytes : datagram.bytes = controlBytes type) :
    readCall datagram = none := by
  obtain ⟨message, hmessage, htype⟩ := exists_messageOf_controlDatagram hcontrol
  have hsame : datagram = controlDatagram type := by
    obtain ⟨bytes, hsize⟩ := datagram
    obtain rfl : bytes = controlBytes type := hbytes
    rfl
  rw [hsame]
  exact readCall_of_isControl hmessage (htype ▸ hcontrol)

/-- A message in its envelope is read back as it was forwarded. -/
theorem readCall_of_fits {type : TunnelMessageType} {fromNode : NodeId} {toNode : Option NodeId}
    {message bytes : List UInt8}
    (hbytes : encapsulatedBytes ⟨fromNode, type, toNode, 0⟩ message = some bytes)
    {datagram : Datagram} (hdatagram : datagram.bytes = bytes) :
    readCall datagram = if type.isControl then none else
      some ⟨type, fromNode, message, if type.hasToNode then toNode else none⟩ := by
  obtain ⟨target, hsome, htarget, rfl⟩ := encapsulatedBytes_eq_some hbytes
  simp only at hsome htarget hdatagram
  have hnode : target = if type.hasToNode then toNode else none := by
    cases htype : type.hasToNode with
    | true => exact htarget htype
    | false => simpa [htype] using hsome
  obtain ⟨buffer, hbuffer, hmessage⟩ := exists_messageOf_header hsome hdatagram
  rw [← hnode]
  cases hcontrol : type.isControl with
  | true => simp [readCall_of_isControl hmessage hcontrol]
  | false => simp [readCall_of_data hmessage hcontrol, LocalMessage.call, hbuffer]

/-! ## One tunnel -/

/-- Only `forward` sends anything but control messages. -/
theorem exists_controlBytes {t : UdpTunnel} {e : TunnelEvent}
    (he : ∀ now type fromNode message toNode, e ≠ .forward now type fromNode message toNode)
    {dest : UdpEndpoint} {bytes : List UInt8} (h : .send dest bytes ∈ emit UdpTunnel.machine t e) :
    ∃ type : TunnelMessageType, type.isControl = true ∧ bytes = controlBytes type := by
  have heffect := effect t e
  generalize next UdpTunnel.machine t e = t', emit UdpTunnel.machine t e = out at heffect h
  cases heffect with
  | forward => exact absurd rfl (he _ _ _ _ _)
  | hello =>
      split at h
      · cases h
      · exact ⟨.tunnelHello, rfl, (TunnelOutput.send.inj (by simpa using h)).2⟩
  | add | accept => exact ⟨.tunnelHello, rfl, (TunnelOutput.send.inj (by simpa using h)).2⟩
  | remove => exact ⟨.tunnelBye, rfl, (TunnelOutput.send.inj (by simpa using h)).2⟩
  | maintain =>
      obtain ⟨peer, -, hpeer⟩ := List.mem_flatMap.mp h
      unfold maintenanceOutput at hpeer
      split at hpeer
      · split at hpeer
        · cases hpeer
        · exact ⟨.tunnelKeepalive, rfl, (TunnelOutput.send.inj (by simpa using hpeer)).2⟩
      · exact ⟨.tunnelHello, rfl, (TunnelOutput.send.inj (by simpa using hpeer)).2⟩
  | unknown | keepalive | bye | ignored | stopped | addKnown | removeUnknown | acceptKnown
  | reject => simp at h
  | leave | data => simp at h

/-- The gateways are handed what the datagram carries, if its sender is connected. -/
theorem localCalls_receive (t : UdpTunnel) (now : TimePoint) (sender : UdpEndpoint)
    (datagram : Datagram) :
    (emit UdpTunnel.machine t (.receive now sender datagram)).filterMap localCall? =
      if t.isConnected sender = true then (readCall datagram).toList else [] := by
  have heffect := effect t (.receive now sender datagram)
  generalize next UdpTunnel.machine t (.receive now sender datagram) = t',
    emit UdpTunnel.machine t (.receive now sender datagram) = out at heffect ⊢
  have hquiet {message : LocalMessage} (hmessage : messageOf datagram = some message)
      (hcontrol : message.type.isControl = true) :
      (if t.isConnected sender = true then (readCall datagram).toList else []) = [] := by
    rw [readCall_of_isControl hmessage hcontrol]
    simp
  cases heffect with
  | hello hmessage htype =>
      rw [hquiet hmessage (by rw [htype]; rfl)]
      split
      · rfl
      · rw [sendHello_eq]
        rfl
  | unknown hmessage htype | bye hmessage htype =>
      rw [hquiet hmessage (by rw [htype]; rfl)]
      rfl
  | keepalive hmessage htype =>
      rw [hquiet hmessage (by rw [htype]; rfl)]
      rfl
  | leave hmessage htype hpeer hstate =>
      rw [if_pos (isConnected_of_peer? hpeer hstate),
        readCall_of_data hmessage (by rw [htype]; rfl)]
      rfl
  | data hmessage hcontrol _ hpeer hstate =>
      rw [if_pos (isConnected_of_peer? hpeer hstate), readCall_of_data hmessage hcontrol]
      rfl
  | @ignored _ _ _ message hmessage hignored =>
      by_cases hcontrol : message.type.isControl = true
      · rw [hquiet hmessage hcontrol]
        rfl
      · have hhello : message.type ≠ .tunnelHello := fun h ↦ hcontrol (by rw [h]; rfl)
        have hbye : message.type ≠ .tunnelBye := fun h ↦ hcontrol (by rw [h]; rfl)
        have hnot : ¬ t.isConnected sender = true := by
          rw [isConnected_eq_true]
          rintro ⟨idx, peer, hpeer, hstate⟩
          exact hignored.other hhello hbye idx peer hpeer hstate
        rw [if_neg hnot]
        rfl

/-! ## One event -/

omit [DecidableEq ι] in
theorem Hosts.owner_eq_iff {dest : UdpEndpoint} {y : ι} :
    hosts.owner dest = some y ↔ dest = hosts.address y := by
  rw [hosts.owner_eq_some, eq_comm]

@[simp] theorem calls_append (x y : ι) (fs gs : List (Flight ι)) :
    calls x y (fs ++ gs) = calls x y fs ++ calls x y gs :=
  List.filterMap_append ..

theorem calls_cons (x y : ι) (f : Flight ι) (fs : List (Flight ι)) :
    calls x y (f :: fs) =
      (if f.source = x ∧ f.dest = y then (readCall f.datagram).toList else []) ++
        calls x y fs := by
  by_cases hends : f.source = x ∧ f.dest = y
  · cases hread : readCall f.datagram <;> simp [calls, hends, hread]
  · simp [calls, hends]

/-- Any other datagram adds nothing to the calls between the two. -/
theorem toList_of_not_carries {x y : ι} {f : Flight ι} (h : ¬ Carries x y f) :
    (if f.source = x ∧ f.dest = y then (readCall f.datagram).toList else []) = [] := by
  split
  · rename_i hends
    cases hread : readCall f.datagram with
    | none => rfl
    | some c => exact absurd ⟨hends.1, hends.2, by rw [hread]; rfl⟩ h
  · rfl

theorem calls_perm {x y : ι} {fs : List (Flight ι)} {i : ℕ} {f : Flight ι} (h : fs[i]? = some f) :
    (calls x y fs).Perm
      ((if f.source = x ∧ f.dest = y then (readCall f.datagram).toList else []) ++
        calls x y (fs.eraseIdx i)) := by
  obtain ⟨hlt, hget⟩ := List.getElem?_eq_some_iff.mp h
  have hperm : (f :: fs.eraseIdx i).Perm fs := hget ▸ List.getElem_cons_eraseIdx_perm hlt
  rw [← calls_cons]
  exact (hperm.filterMap _).symm

/-- The same bytes go to several destinations. -/
theorem calls_flights_map (x y z : ι) (dests : List UdpEndpoint) {bytes : List UInt8}
    (hsize : bytes.length ≤ kMaxMessageSize) :
    calls x y (hosts.flights z (dests.map (fun dest ↦ .send dest bytes))) =
      if z = x then
        (List.replicate (dests.count (hosts.address y)) (readCall ⟨bytes, hsize⟩)).filterMap id
      else [] := by
  induction dests with
  | nil => simp [calls, Hosts.flights]
  | cons dest dests ih =>
      have hfirst : hosts.flights z ((dest :: dests).map (fun dest ↦ .send dest bytes)) =
          (hosts.owner dest).toList.map (fun y' ↦ ⟨z, y', ⟨bytes, hsize⟩⟩) ++
            hosts.flights z (dests.map (fun dest ↦ .send dest bytes)) := by
        cases howner : hosts.owner dest <;> simp [Hosts.flights, howner, hsize]
      rw [hfirst, calls_append, ih, List.count_cons]
      by_cases hdest : dest = hosts.address y
      · subst hdest
        have howner : hosts.owner (hosts.address y) = some y := hosts.owner_eq_some.mpr rfl
        have hself : calls x y ((hosts.owner (hosts.address y)).toList.map
            (fun y' ↦ ⟨z, y', ⟨bytes, hsize⟩⟩)) =
              if z = x then (readCall ⟨bytes, hsize⟩).toList else [] := by
          rw [howner, Option.toList_some, List.map_singleton, calls_cons]
          simp [calls]
        rw [hself]
        by_cases hz : z = x
        · cases hread : readCall ⟨bytes, hsize⟩ <;>
            simp [hz, List.replicate_succ]
        · simp [hz]
      · have hnone : calls x y ((hosts.owner dest).toList.map
            (fun y' ↦ ⟨z, y', ⟨bytes, hsize⟩⟩)) = [] := by
          cases howner : hosts.owner dest with
          | none => rfl
          | some y' =>
              have hne : y' ≠ y := by
                rintro rfl
                exact hdest ((Hosts.owner_eq_iff hosts).mp howner)
              simp [calls, hne]
        rw [hnone]
        simp [hdest]

theorem calls_flights_of_control (x y z : ι) {t : UdpTunnel} {e : TunnelEvent}
    (he : ∀ now type fromNode message toNode, e ≠ .forward now type fromNode message toNode) :
    calls x y (hosts.flights z (emit UdpTunnel.machine t e)) = [] := by
  apply List.filterMap_eq_nil_iff.mpr
  intro f hf
  obtain ⟨o, ho, hflight⟩ := List.mem_filterMap.mp hf
  have hread : readCall f.datagram = none := by
    cases o with
    | send dest bytes =>
        obtain ⟨type, hcontrol, hbytes⟩ := exists_controlBytes he ho
        cases howner : hosts.owner dest with
        | none => simp [howner] at hflight
        | some y' =>
            simp only [howner, Option.dite_none_right_eq_some, Option.some.injEq] at hflight
            obtain ⟨hsize, rfl⟩ := hflight
            exact readCall_controlBytes hcontrol hbytes
    | _ => cases hflight
  simp [hread]

/-- What a tunnel sends another of itself is what its gateways have forwarded. -/
theorem calls_flights_act (x y z : ι) (n : Network ι) {e : TunnelEvent}
    (he : Genuine hosts (.act z e)) :
    calls x y (hosts.flights z (emit UdpTunnel.machine (n.tunnel z) e)) =
      offered hosts x y n (.act z e) := by
  cases e with
  | forward now type fromNode message toNode =>
      have hout : emit UdpTunnel.machine (n.tunnel z) (.forward now type fromNode message toNode) =
          ((n.tunnel z).forward now type fromNode message toNode).2 := rfl
      rw [hout, forward_snd]
      by_cases hsuppressed : (n.tunnel z).Suppressed now type fromNode message
      · simp [offered, hsuppressed, calls, Hosts.flights]
      · cases hbytes : encapsulatedBytes ⟨fromNode, type, toNode, 0⟩ message with
        | none => simp [offered, encapsulate, hbytes, calls, Hosts.flights]
        | some bytes =>
            have hsize : bytes.length ≤ kMaxMessageSize :=
              (length_encapsulatedBytes hbytes).trans_le he
            have hsent : ((n.tunnel z).recipients type toNode).map
                  (sendRaw (MessageBuffer.ofBytes bytes) (encapsulatedSize type message.length)) =
                ((n.tunnel z).recipients type toNode).map (fun dest ↦ .send dest bytes) :=
              List.map_congr_left fun dest _ ↦ sendRaw_encapsulatedBytes hbytes he dest
            have hread := @readCall_of_fits _ _ _ _ _ hbytes ⟨bytes, hsize⟩ rfl
            simp only [if_neg hsuppressed, encapsulate, hbytes, Option.map_some, hsent]
            rw [calls_flights_map hosts x y z _ hsize, hread]
            cases hcontrol : type.isControl <;>
              simp [offered, hsuppressed, encapsulate, hbytes, hcontrol]
  | receive | runMaintenance | addPeer | removePeer | acceptPeer | rejectPeer =>
      exact calls_flights_of_control hosts x y z (by simp)

theorem handed_deliver {x y : ι} {n : Network ι} {now : TimePoint} {i : ℕ} {f : Flight ι}
    (h : n.inFlight[i]? = some f) :
    handed hosts x y n (.deliver now i) =
      if f.source = x ∧ f.dest = y then
        if (n.tunnel y).isConnected (hosts.address x) = true then (readCall f.datagram).toList
        else []
      else [] := by
  simp only [handed, h]
  split
  · rename_i hends
    obtain ⟨rfl, rfl⟩ := hends
    rw [← localCalls_receive (n.tunnel f.dest) now (hosts.address f.source) f.datagram]
    simp only [emit, machine, Hosts.machine, h, Hosts.act, List.filterMap_map]
    rfl
  · rfl

theorem underway_deliver {x y : ι} {n : Network ι} {now : TimePoint} {i : ℕ} {f : Flight ι}
    (h : n.inFlight[i]? = some f) :
    underway x y (next (machine hosts) n (.deliver now i)) =
      calls x y (n.inFlight.eraseIdx i) := by
  simp only [underway, next, machine, Hosts.machine, h, Hosts.act, calls_append]
  rw [calls_flights_of_control hosts x y f.dest (by simp), List.append_nil]

/-- An event hands over what was underway or has been offered, but for what it drops and
what it repeats. -/
theorem exists_perm (x y : ι) {n : Network ι} {e : InternetEvent ι} (he : Genuine hosts e) :
    ∃ dropped again : List ForwardCall,
      (handed hosts x y n e ++ (dropped ++ underway x y (next (machine hosts) n e))).Perm
        (underway x y n ++ offered hosts x y n e ++ again) ∧
      again ⊆ underway x y n ∧ (Single e → again = []) ∧
      (Lossless hosts x y n e → dropped = [] ∧ again = []) := by
  cases e with
  | act z e =>
      have hhanded : handed hosts x y n (.act z e) = [] := by
        cases e with
        | receive now sender datagram =>
            have hne : sender ≠ hosts.address x := by
              intro heq
              have howner := hosts.owner_eq_some.mpr heq.symm
              rw [he] at howner
              cases howner
            simp [handed, hne]
        | _ => rfl
      have hunderway : underway x y (next (machine hosts) n (.act z e)) =
          underway x y n ++ offered hosts x y n (.act z e) := by
        rw [← calls_flights_act hosts x y z n he, underway, underway, ← calls_append]
        rfl
      refine ⟨[], [], ?_, List.nil_subset _, fun _ ↦ rfl, fun _ ↦ ⟨rfl, rfl⟩⟩
      rw [hhanded, hunderway]
      simp
  | deliver now i =>
      cases hget : n.inFlight[i]? with
      | none =>
          have hnext : next (machine hosts) n (.deliver now i) = n := by
            simp [next, machine, Hosts.machine, hget]
          refine ⟨[], [], ?_, List.nil_subset _, fun _ ↦ rfl, fun _ ↦ ⟨rfl, rfl⟩⟩
          rw [hnext]
          simp [handed, hget, offered]
      | some f =>
          have hperm := @calls_perm _ _ x y _ _ _ hget
          rw [handed_deliver hosts hget, underway_deliver hosts hget]
          by_cases hends : f.source = x ∧ f.dest = y
          · by_cases hconn : (n.tunnel y).isConnected (hosts.address x) = true
            · refine ⟨[], [], ?_, List.nil_subset _, fun _ ↦ rfl, fun _ ↦ ⟨rfl, rfl⟩⟩
              simpa [hends, hconn, offered, underway] using hperm.symm
            · refine ⟨(readCall f.datagram).toList, [], ?_, List.nil_subset _, fun _ ↦ rfl, ?_⟩
              · simpa [hends, hconn, offered, underway] using hperm.symm
              · intro h
                have hnot : ¬ Carries x y f := fun hcarries ↦ hconn (h f hget hcarries)
                refine ⟨?_, rfl⟩
                simpa [hends] using toList_of_not_carries hnot
          · refine ⟨[], [], ?_, List.nil_subset _, fun _ ↦ rfl, fun _ ↦ ⟨rfl, rfl⟩⟩
            simpa [hends, offered, underway] using hperm.symm
  | lose i =>
      cases hget : n.inFlight[i]? with
      | none =>
          have hnext : next (machine hosts) n (.lose i) = n := by
            have hlen := List.getElem?_eq_none_iff.mp hget
            simp [next, machine, List.eraseIdx_of_length_le hlen]
          refine ⟨[], [], ?_, List.nil_subset _, fun _ ↦ rfl, fun _ ↦ ⟨rfl, rfl⟩⟩
          rw [hnext]
          simp [handed, offered]
      | some f =>
          have hperm := @calls_perm _ _ x y _ _ _ hget
          refine ⟨if f.source = x ∧ f.dest = y then (readCall f.datagram).toList else [], [], ?_,
            List.nil_subset _, fun _ ↦ rfl, fun h ↦ ⟨toList_of_not_carries (h f hget), rfl⟩⟩
          simpa [handed, offered, underway, next, machine] using hperm.symm
  | repeated i =>
      refine ⟨[], calls x y n.inFlight[i]?.toList, ?_, ?_, fun h ↦ h.elim, fun h ↦ ⟨rfl, ?_⟩⟩
      · simp [handed, offered, underway, next, machine]
      · intro c hc
        obtain ⟨f, hf, hread⟩ := List.mem_filterMap.mp hc
        refine List.mem_filterMap.mpr ⟨f, ?_, hread⟩
        cases hget : n.inFlight[i]? with
        | none => simp [hget] at hf
        | some g =>
            obtain rfl : f = g := by simpa [hget] using hf
            exact List.mem_of_getElem? hget
      · cases hget : n.inFlight[i]? with
        | none => rfl
        | some f =>
            rw [Option.toList_some, calls_cons, toList_of_not_carries (h f hget)]
            rfl

theorem perm_of_lossless {x y : ι} {n : Network ι} {e : InternetEvent ι} (he : Genuine hosts e)
    (hlossless : Lossless hosts x y n e) :
    (handed hosts x y n e ++ underway x y (next (machine hosts) n e)).Perm
      (underway x y n ++ offered hosts x y n e) := by
  obtain ⟨dropped, again, hperm, -, -, hnothing⟩ := exists_perm hosts x y he
  obtain ⟨rfl, rfl⟩ := hnothing hlossless
  simpa using hperm

/-! ## Runs -/

section Runs

variable (x y : ι) (n : Network ι) {es : List (InternetEvent ι)}

theorem along_genuine (hgenuine : ∀ e ∈ es, Genuine hosts e) :
    Along (machine hosts) (fun _ e ↦ Genuine hosts e) n es :=
  along_of_forall_mem _ (fun _ ↦ hgenuine) n

theorem handed_append_underway_subset (hgenuine : ∀ e ∈ es, Genuine hosts e) :
    gathered (machine hosts) (handed hosts x y) n es ++
        underway x y (run (machine hosts) n es) ⊆
      underway x y n ++ gathered (machine hosts) (offered hosts x y) n es := by
  refine congruent_subset.conserved (machine hosts) (offered hosts x y)
    (handed hosts x y) (underway x y) (I := fun _ ↦ True) (fun _ _ _ _ ↦ trivial)
    (fun n e _ he ↦ ?_) trivial (along_genuine hosts n hgenuine)
  obtain ⟨dropped, again, hperm, hagain, -⟩ := exists_perm hosts x y he
  have hless : handed hosts x y n e ++ underway x y (next (machine hosts) n e) ⊆
      handed hosts x y n e ++ (dropped ++ underway x y (next (machine hosts) n e)) :=
    congruent_subset.append_left _ (List.subset_append_right dropped _)
  have hknown : underway x y n ++ offered hosts x y n e ++ again ⊆
      underway x y n ++ offered hosts x y n e :=
    List.append_subset.mpr ⟨List.Subset.refl _,
      List.Subset.trans hagain (List.subset_append_left _ _)⟩
  exact List.Subset.trans hless (List.Subset.trans hperm.subset hknown)

/-- Whatever the network does, nothing is handed over that was not forwarded to just this
tunnel, and nothing in another form. -/
theorem handed_subset (hgenuine : ∀ e ∈ es, Genuine hosts e) :
    gathered (machine hosts) (handed hosts x y) n es ⊆
      underway x y n ++ gathered (machine hosts) (offered hosts x y) n es :=
  List.Subset.trans (List.subset_append_left _ _)
    (handed_append_underway_subset hosts x y n hgenuine)

theorem handed_append_underway_subperm (hgenuine : ∀ e ∈ es, Genuine hosts e)
    (hsingle : ∀ e ∈ es, Single e) :
    (gathered (machine hosts) (handed hosts x y) n es ++
        underway x y (run (machine hosts) n es)).Subperm
      (underway x y n ++ gathered (machine hosts) (offered hosts x y) n es) := by
  have hall : Along (machine hosts) (fun _ e ↦ Genuine hosts e ∧ Single e) n es :=
    along_of_forall_mem _ (fun _ e he ↦ ⟨hgenuine e he, hsingle e he⟩) n
  refine congruent_subperm.conserved (machine hosts) (offered hosts x y)
    (handed hosts x y) (underway x y) (I := fun _ ↦ True) (fun _ _ _ _ ↦ trivial)
    (fun n e _ he ↦ ?_) trivial hall
  obtain ⟨dropped, again, hperm, -, hagain, -⟩ := exists_perm hosts x y he.1
  rw [hagain he.2, List.append_nil] at hperm
  have hless : (handed hosts x y n e ++ underway x y (next (machine hosts) n e)).Sublist
      (handed hosts x y n e ++ (dropped ++ underway x y (next (machine hosts) n e))) :=
    (List.sublist_append_right _ _).append_left _
  exact hless.subperm.trans hperm.subperm

/-- Where it repeats no datagram, nothing is handed over more often than it was
forwarded. -/
theorem handed_subperm (hgenuine : ∀ e ∈ es, Genuine hosts e) (hsingle : ∀ e ∈ es, Single e) :
    (gathered (machine hosts) (handed hosts x y) n es).Subperm
      (underway x y n ++ gathered (machine hosts) (offered hosts x y) n es) :=
  (List.sublist_append_left _ _).subperm.trans
    (handed_append_underway_subperm hosts x y n hgenuine hsingle)

/-- Where nothing is lost on the way either, what has not been handed over yet is on its
way. -/
theorem handed_append_underway_perm (hgenuine : ∀ e ∈ es, Genuine hosts e)
    (hlossless : Along (machine hosts) (Lossless hosts x y) n es) :
    (gathered (machine hosts) (handed hosts x y) n es ++
        underway x y (run (machine hosts) n es)).Perm
      (underway x y n ++ gathered (machine hosts) (offered hosts x y) n es) := by
  have hall : Along (machine hosts)
      (fun n e ↦ Genuine hosts e ∧ Lossless hosts x y n e) n es :=
    (along_and ..).mpr ⟨along_genuine hosts n hgenuine, hlossless⟩
  exact congruent_perm.conserved (machine hosts) (offered hosts x y) (handed hosts x y)
    (underway x y) (I := fun _ ↦ True) (fun _ _ _ _ ↦ trivial)
    (fun _ _ _ he ↦ perm_of_lossless hosts he.1 he.2) trivial hall

end Runs

/-! ## A broadcast that arrives twice -/

instance {κ : Type*} (hosts : Hosts κ) : ∀ e, Decidable (Genuine hosts e)
  | .act _ (.receive _ sender _) => inferInstanceAs (Decidable (hosts.owner sender = none))
  | .act _ (.forward _ type _ message _) =>
      inferInstanceAs (Decidable (encapsulatedSize type message.length ≤ kMaxMessageSize))
  | .act _ (.runMaintenance _) | .act _ (.addPeer _) | .act _ (.removePeer _)
  | .act _ (.acceptPeer _) | .act _ (.rejectPeer _) | .deliver .. | .lose _ | .repeated _ =>
      isTrue trivial

instance {κ : Type*} : ∀ e : InternetEvent κ, Decidable (Single e)
  | .repeated _ => isFalse id
  | .act .. | .deliver .. | .lose _ => isTrue trivial

instance {κ : Type*} [DecidableEq κ] (hosts : Hosts κ) (x y : κ) (n : Network κ) :
    ∀ e, Decidable (Lossless hosts x y n e)
  | .lose i | .repeated i => inferInstanceAs (Decidable (∀ f ∈ n.inFlight[i]?, ¬ Carries x y f))
  | .deliver _ i => inferInstanceAs (Decidable (∀ f ∈ n.inFlight[i]?,
      Carries x y f → (n.tunnel y).isConnected (hosts.address x) = true))
  | .act .. => isTrue trivial

def near : Fin 2 := ⟨0, Nat.two_pos⟩

def far : Fin 2 := ⟨1, Nat.one_lt_two⟩

/-- Each of the two has the other in its list. -/
def strangers : Network (Fin 2) where
  tunnel := fun x ↦ create [localhost (if x = near then 1 else 0)]
  inFlight := []

/-- One tunnel greets the other, and forwards a broadcast to it. -/
def greeted : List (InternetEvent (Fin 2)) :=
  [.act near (.runMaintenance 0), .deliver 0 0, .deliver 0 0, .deliver 0 0,
    .act near (.forward 0 .broadcast default [1, 2, 3] none)]

def sentState : ForwardCall := ⟨.broadcast, default, [1, 2, 3], none⟩

theorem handed_subset_strangers :
    let es := greeted ++ [.repeated 0, .deliver 1 0, .deliver 1 0]
    gathered (machine twoHosts) (handed twoHosts near far) strangers es ⊆
        underway near far strangers ++
          gathered (machine twoHosts) (offered twoHosts near far) strangers es ∧
      gathered (machine twoHosts) (handed twoHosts near far) strangers es =
        [sentState, sentState] :=
  ⟨handed_subset twoHosts near far strangers (by decide +kernel), by decide +kernel⟩

theorem handed_subperm_strangers :
    let es := greeted ++ [.lose 0, .deliver 1 0]
    (gathered (machine twoHosts) (handed twoHosts near far) strangers es).Subperm
      (underway near far strangers ++
        gathered (machine twoHosts) (offered twoHosts near far) strangers es) :=
  handed_subperm twoHosts near far strangers (by decide +kernel) (by decide)

/-- The second broadcast has not come in yet. -/
theorem handed_append_underway_strangers :
    let es := greeted ++ [.deliver 1 0, .act near (.forward 9 .broadcast default [1, 2, 3] none)]
    (gathered (machine twoHosts) (handed twoHosts near far) strangers es ++
        underway near far (run (machine twoHosts) strangers es)).Perm
      (underway near far strangers ++
        gathered (machine twoHosts) (offered twoHosts near far) strangers es) :=
  handed_append_underway_perm twoHosts near far strangers (by decide +kernel) (by decide +kernel)

end Internet

end LinkExtender
