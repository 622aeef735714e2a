import LinkExtender.UdpTunnel.Session
import Mathlib.Algebra.BigOperators.Ring.Finset
import Mathlib.Data.Fintype.BigOperators

/-!
# Any number of tunnels

Tunnels on a network, with the control messages in flight between them, while no
maintenance runs and no peer is added or removed by hand.  Every delivery and
every decision on an unknown sender lowers a potential, so the handshake comes to
rest, and a HELLO is only sent to a peer that was just connected or accepted.
-/

namespace LinkExtender

namespace Handshake

open EventMachine UdpTunnel

variable {ι : Type*}

/-- Where the tunnels listen. -/
structure Hosts (ι : Type*) where
  address : ι → UdpEndpoint
  owner : UdpEndpoint → Option ι
  owner_eq_some : ∀ {e x}, owner e = some x ↔ address x = e

structure Flight (ι : Type*) where
  source : ι
  dest : ι
  datagram : Datagram

structure Network (ι : Type*) where
  tunnel : ι → UdpTunnel
  inFlight : List (Flight ι)

inductive NetworkEvent (ι : Type*) where
  | deliver (now : TimePoint) (flight : ℕ)
  | accept (x : ι) (endpoint : UdpEndpoint)
  | reject (x : ι) (endpoint : UdpEndpoint)

namespace Hosts

variable (hosts : Hosts ι)

/-- The datagrams that reach a tunnel. -/
def flights (x : ι) (out : List TunnelOutput) : List (Flight ι) :=
  out.filterMap fun o ↦
    match o with
    | .send dest bytes =>
        match hosts.owner dest with
        | some y => if h : bytes.length ≤ kMaxMessageSize then some ⟨x, y, ⟨bytes, h⟩⟩ else none
        | none => none
    | _ => none

variable [DecidableEq ι]

def act (n : Network ι) (x : ι) (e : TunnelEvent) : Network ι × List (ι × TunnelOutput) :=
  ({ tunnel := Function.update n.tunnel x (next UdpTunnel.machine (n.tunnel x) e)
     inFlight := n.inFlight ++ hosts.flights x (emit UdpTunnel.machine (n.tunnel x) e) },
    (emit UdpTunnel.machine (n.tunnel x) e).map (fun o ↦ (x, o)))

def machine : Machine (Network ι) (NetworkEvent ι) (ι × TunnelOutput)
  | n, .deliver now i =>
      match n.inFlight[i]? with
      | some f =>
          hosts.act { n with inFlight := n.inFlight.eraseIdx i } f.dest
            (.receive now (hosts.address f.source) f.datagram)
      | none => (n, [])
  | n, .accept x endpoint => hosts.act n x (.acceptPeer endpoint)
  | n, .reject x endpoint => hosts.act n x (.rejectPeer endpoint)

end Hosts

/-- A datagram that is in flight is delivered, or an open request is decided. -/
def Possible (n : Network ι) : NetworkEvent ι → Prop
  | .deliver _ i => i < n.inFlight.length
  | .accept x endpoint | .reject x endpoint => endpoint ∈ (n.tunnel x).mPendingPeers

def IsControl (datagram : Datagram) : Prop :=
  ∃ message, messageOf datagram = some message ∧ message.type.isControl = true

/-- Sound peer tables, and nothing but HELLO, KEEPALIVE and BYE in flight. -/
structure Quiet (n : Network ι) : Prop where
  indexed : ∀ x, (n.tunnel x).Indexed
  control : ∀ f ∈ n.inFlight, IsControl f.datagram

/-! ## The counts -/

def helloCount (x : ι) (endpoint : UdpEndpoint) [DecidableEq ι] (hosts : Hosts ι)
    (n : Network ι) (e : NetworkEvent ι) : ℕ :=
  (emit hosts.machine n e).count (x, .send endpoint (controlBytes .tunnelHello))

def connectionCount (x : ι) (endpoint : UdpEndpoint) [DecidableEq ι] (hosts : Hosts ι)
    (n : Network ι) (e : NetworkEvent ι) : ℕ :=
  if (n.tunnel x).isConnected endpoint = false ∧
    ((next hosts.machine n e).tunnel x).isConnected endpoint = true then 1 else 0

def acceptanceCount [DecidableEq ι] (x : ι) (endpoint : UdpEndpoint) (_n : Network ι) :
    NetworkEvent ι → ℕ
  | .accept y other => if y = x ∧ other = endpoint then 1 else 0
  | _ => 0

/-! ## The potential -/

/-- What an endpoint can still stir up: a HELLO of a peer that is not connected is
answered, one of an unknown endpoint asks for a decision. -/
def standing (t : UdpTunnel) (endpoint : UdpEndpoint) : ℕ :=
  match t.peer? endpoint with
  | some (_, peer) => if peer.state = .connected then 0 else 1
  | none => if endpoint ∈ t.mPendingPeers ∨ endpoint ∈ t.mRejectedPeers then 0 else 3

def weight (datagram : Datagram) : ℕ :=
  if (messageOf datagram).map LocalMessage.type = some .tunnelBye then 2 else 1

section Potential

variable [Fintype ι] (hosts : Hosts ι)

def unrest (t : UdpTunnel) : ℕ :=
  ∑ y, standing t (hosts.address y) + 3 * t.mPendingPeers.card

def flightWeight (flights : List (Flight ι)) : ℕ :=
  (flights.map (fun f ↦ weight f.datagram)).sum

def potential (n : Network ι) : ℕ :=
  flightWeight n.inFlight + ∑ x, unrest hosts (n.tunnel x)

end Potential

/-! ### Looking up other endpoints -/

theorem peer?_setPeer_of_ne {t : UdpTunnel} (h : t.Indexed) {sender endpoint : UdpEndpoint}
    {idx : ℕ} {old : PeerEntry} (hpeer : t.peer? sender = some (idx, old))
    (hne : endpoint ≠ sender) (new : PeerEntry) :
    (t.setPeer idx new).peer? endpoint = t.peer? endpoint := by
  unfold peer? setPeer
  cases hfind : t.mEndpointToPeerIdx.find endpoint with
  | none => rfl
  | some i =>
      have hi : idx ≠ i := by
        rintro rfl
        obtain ⟨peer, hget, hendpoint⟩ := h.getElem? hfind
        obtain ⟨-, hget'⟩ := peer?_eq_some.mp hpeer
        obtain rfl : peer = old := Option.some.inj (hget.symm.trans hget')
        exact hne (hendpoint.symm.trans (h.mem_endpoints hpeer).2)
      simp only
      rw [List.getElem?_set_ne hi]

theorem peer?_pushPeer_of_ne {t : UdpTunnel} (h : t.Indexed) {endpoint other : UdpEndpoint}
    (hne : other ≠ endpoint) : (t.pushPeer endpoint).peer? other = t.peer? other := by
  unfold peer? pushPeer
  simp only [PartialMap.find_insert_of_ne _ hne]
  cases hfind : t.mEndpointToPeerIdx.find other with
  | none => rfl
  | some i =>
      obtain ⟨peer, hget, -⟩ := h.getElem? hfind
      simp only
      rw [List.getElem?_append_left (List.getElem?_eq_some_iff.mp hget).1]

theorem peer?_pushPeer_self (t : UdpTunnel) (endpoint : UdpEndpoint) :
    (t.pushPeer endpoint).peer? endpoint =
      some (t.mPeers.length, freshEntry endpoint) := by
  simp [peer?, pushPeer]

theorem standing_congr {t t' : UdpTunnel} {endpoint : UdpEndpoint}
    (hpeer : t'.peer? endpoint = t.peer? endpoint)
    (hpending : endpoint ∈ t'.mPendingPeers ↔ endpoint ∈ t.mPendingPeers)
    (hrejected : endpoint ∈ t'.mRejectedPeers ↔ endpoint ∈ t.mRejectedPeers) :
    standing t' endpoint = standing t endpoint := by
  simp only [standing, hpeer, hpending, hrejected]

/-! ### Changing one summand -/

section Sums

variable [Fintype ι] [DecidableEq ι]

theorem sum_add_eq_of_eq_elsewhere {f g : ι → ℕ} (x : ι) (h : ∀ y, y ≠ x → g y = f y) :
    ∑ y, g y + f x = ∑ y, f y + g x := by
  rw [← Finset.add_sum_erase _ g (Finset.mem_univ x),
    ← Finset.add_sum_erase _ f (Finset.mem_univ x)]
  have herase : ∑ y ∈ Finset.univ.erase x, g y = ∑ y ∈ Finset.univ.erase x, f y := by
    apply Finset.sum_congr rfl
    intro y hy
    exact h y (Finset.ne_of_mem_erase hy)
  omega

variable {hosts : Hosts ι}

omit [Fintype ι] [DecidableEq ι] in
theorem Hosts.address_injective (hosts : Hosts ι) : Function.Injective hosts.address := by
  intro x y h
  have hx := hosts.owner_eq_some.mpr (rfl : hosts.address x = hosts.address x)
  rw [h, hosts.owner_eq_some.mpr rfl] at hx
  exact (Option.some.inj hx).symm

theorem sum_standing_of_host {t t' : UdpTunnel} (x : ι)
    (h : ∀ e, e ≠ hosts.address x → standing t' e = standing t e) :
    ∑ y, standing t' (hosts.address y) + standing t (hosts.address x) =
      ∑ y, standing t (hosts.address y) + standing t' (hosts.address x) :=
  sum_add_eq_of_eq_elsewhere x fun _ hy ↦ h _ fun heq ↦ hy (hosts.address_injective heq)

theorem sum_standing_le {t t' : UdpTunnel} (endpoint : UdpEndpoint)
    (h : ∀ e, e ≠ endpoint → standing t' e = standing t e) :
    ∑ y, standing t' (hosts.address y) ≤
      ∑ y, standing t (hosts.address y) + (standing t' endpoint - standing t endpoint) := by
  cases howner : hosts.owner endpoint with
  | some x =>
      obtain rfl := hosts.owner_eq_some.mp howner
      have hsum := sum_standing_of_host x h
      omega
  | none =>
      have hsame : ∀ y, standing t' (hosts.address y) = standing t (hosts.address y) := by
        intro y
        apply h
        intro heq
        simp [hosts.owner_eq_some.mpr heq] at howner
      simp [hsame]

end Sums

/-! ### One event of one tunnel -/

theorem flightWeight_append (xs ys : List (Flight ι)) :
    flightWeight (xs ++ ys) = flightWeight xs + flightWeight ys := by
  simp [flightWeight]

theorem weight_controlDatagram_hello : weight (controlDatagram .tunnelHello) = 1 := by
  obtain ⟨message, hmessage, htype⟩ :=
    exists_messageOf_controlDatagram (rfl : TunnelMessageType.tunnelHello.isControl = true)
  simp [weight, hmessage, htype]

theorem flights_sendHello (hosts : Hosts ι) (x : ι) (dest : UdpEndpoint) :
    hosts.flights x (sendHello dest) = (hosts.owner dest).toList.map
      (fun y ↦ ⟨x, y, controlDatagram .tunnelHello⟩) := by
  have hlen : (controlBytes .tunnelHello).length ≤ kMaxMessageSize := by
    rw [length_controlBytes]
    decide
  rw [sendHello_eq, Hosts.flights]
  cases howner : hosts.owner dest with
  | none => simp [howner]
  | some y => simp [howner, hlen, controlDatagram]

theorem flightWeight_sendHello_le (hosts : Hosts ι) (x : ι) (dest : UdpEndpoint) :
    flightWeight (hosts.flights x (sendHello dest)) ≤ 1 := by
  rw [flights_sendHello]
  cases hosts.owner dest with
  | none => exact Nat.zero_le _
  | some y => simp [flightWeight, weight_controlDatagram_hello]

theorem weight_of_messageOf {datagram : Datagram} {message : LocalMessage}
    (hmessage : messageOf datagram = some message) :
    weight datagram = if message.type = .tunnelBye then 2 else 1 := by
  simp [weight, hmessage]

section Events

variable [Fintype ι] [DecidableEq ι] {hosts : Hosts ι}

def entryUnrest (peer : PeerEntry) : ℕ := if peer.state = .connected then 0 else 1

theorem standing_of_peer? {t : UdpTunnel} {endpoint : UdpEndpoint} {idx : ℕ}
    {peer : PeerEntry} (h : t.peer? endpoint = some (idx, peer)) :
    standing t endpoint = entryUnrest peer := by
  simp [standing, h, entryUnrest]

theorem unrest_setPeer {t : UdpTunnel} (h : t.Indexed) {y : ι} {idx : ℕ} {old : PeerEntry}
    (hpeer : t.peer? (hosts.address y) = some (idx, old)) (new : PeerEntry) :
    unrest hosts (t.setPeer idx new) + entryUnrest old = unrest hosts t + entryUnrest new := by
  have hself : (t.setPeer idx new).peer? (hosts.address y) = some (idx, new) :=
    peer?_setPeer_self hpeer new
  have hsum := @sum_standing_of_host _ _ _ hosts t (t.setPeer idx new) y fun e he ↦
    standing_congr (peer?_setPeer_of_ne h hpeer he new) Iff.rfl Iff.rfl
  rw [standing_of_peer? hself, standing_of_peer? hpeer] at hsum
  have hcard : (t.setPeer idx new).mPendingPeers = t.mPendingPeers := rfl
  simp only [unrest, hcard]
  omega

omit [Fintype ι] [DecidableEq ι] in
theorem flightWeight_reply_le (hosts : Hosts ι) (x : ι) (dest : UdpEndpoint)
    (peer : PeerEntry) :
    flightWeight (hosts.flights x (if peer.state = .connected then [] else sendHello dest)) ≤
      entryUnrest peer := by
  unfold entryUnrest
  split
  · exact Nat.le_refl 0
  · exact flightWeight_sendHello_le hosts x dest

/-- A delivery pays for what it stirs up. -/
theorem unrest_receive {t : UdpTunnel} (h : t.Indexed) (x y : ι) {now : TimePoint}
    {datagram : Datagram} (hcontrol : IsControl datagram) :
    unrest hosts (next UdpTunnel.machine t (.receive now (hosts.address y) datagram)) +
        flightWeight (hosts.flights x
          (emit UdpTunnel.machine t (.receive now (hosts.address y) datagram))) <
      unrest hosts t + weight datagram := by
  obtain ⟨message, hmessage, hisControl⟩ := hcontrol
  have hweight := weight_of_messageOf hmessage
  have heffect := effect t (.receive now (hosts.address y) datagram)
  generalize next UdpTunnel.machine t (.receive now (hosts.address y) datagram) = t',
    emit UdpTunnel.machine t (.receive now (hosts.address y) datagram) = out at heffect ⊢
  have hquiet : flightWeight (hosts.flights x []) = 0 := rfl
  cases heffect with
  | @hello _ _ _ message' idx peer hmessage' htype hpeer =>
      obtain rfl := Option.some.inj (hmessage.symm.trans hmessage')
      have hreply := flightWeight_reply_le hosts x (hosts.address y) peer
      have hunrest := unrest_setPeer h hpeer { peer with state := .connected, lastSeen := now }
      have hnew : entryUnrest { peer with state := .connected, lastSeen := now } = 0 := rfl
      rw [htype, if_neg (by decide)] at hweight
      omega
  | @keepalive _ _ _ message' idx peer hmessage' htype hpeer hstate =>
      obtain rfl := Option.some.inj (hmessage.symm.trans hmessage')
      have hunrest := unrest_setPeer h hpeer { peer with lastSeen := now }
      have hnew : entryUnrest { peer with lastSeen := now } = entryUnrest peer := rfl
      rw [htype, if_neg (by decide)] at hweight
      rw [hquiet]
      omega
  | @bye _ _ _ message' idx peer hmessage' htype hpeer =>
      obtain rfl := Option.some.inj (hmessage.symm.trans hmessage')
      have hunrest := unrest_setPeer h hpeer { peer with state := .disconnected }
      have hnew : entryUnrest { peer with state := .disconnected } = 1 := rfl
      rw [htype, if_pos rfl] at hweight
      rw [hquiet]
      change unrest hosts (t.setPeer idx { peer with state := .disconnected }) + 0 < _
      omega
  | @unknown _ _ _ message' hmessage' htype hpeer hrejected hpending =>
      obtain rfl := Option.some.inj (hmessage.symm.trans hmessage')
      rw [htype, if_neg (by decide)] at hweight
      have hsum := @sum_standing_of_host _ _ _ hosts t
        { t with mPendingPeers := insert (hosts.address y) t.mPendingPeers } y fun e he ↦
          standing_congr rfl (by simp [he]) Iff.rfl
      have hbefore : standing t (hosts.address y) = 3 := by
        simp [standing, hpeer, hpending, hrejected]
      have hafter : standing { t with
          mPendingPeers := insert (hosts.address y) t.mPendingPeers } (hosts.address y) = 0 := by
        have hsame : UdpTunnel.peer? { t with
            mPendingPeers := insert (hosts.address y) t.mPendingPeers } (hosts.address y) =
            none := hpeer
        simp [standing, hsame]
      have hcard := Finset.card_insert_of_notMem hpending
      change unrest hosts _ + 0 < _
      simp only [unrest, hcard]
      omega
  | ignored =>
      rw [hquiet, hweight]
      split <;> omega
  | @leave _ _ _ message' _ _ hmessage' htype =>
      obtain rfl := Option.some.inj (hmessage.symm.trans hmessage')
      rw [htype] at hisControl
      cases hisControl
  | @data _ _ _ message' _ _ hmessage' hcontrol =>
      obtain rfl := Option.some.inj (hmessage.symm.trans hmessage')
      rw [hcontrol] at hisControl
      cases hisControl

/-- A decision on an open request closes it for good. -/
theorem unrest_decide {t : UdpTunnel} (h : t.Indexed) (x : ι) {endpoint : UdpEndpoint}
    (hpending : endpoint ∈ t.mPendingPeers) {e : TunnelEvent}
    (he : e = .acceptPeer endpoint ∨ e = .rejectPeer endpoint) :
    unrest hosts (next UdpTunnel.machine t e) +
        flightWeight (hosts.flights x (emit UdpTunnel.machine t e)) < unrest hosts t := by
  have heffect := effect t e
  generalize next UdpTunnel.machine t e = t', emit UdpTunnel.machine t e = out at heffect ⊢
  have hquiet : flightWeight (hosts.flights x []) = 0 := rfl
  have hcard := Finset.card_erase_of_mem hpending
  have hpos : 0 < t.mPendingPeers.card := Finset.card_pos.mpr ⟨endpoint, hpending⟩
  cases heffect with
  | @accept other hnew =>
      obtain rfl : other = endpoint := by simpa using he
      have hsum := @sum_standing_le _ _ _ hosts t
        ({ t with mPendingPeers := t.mPendingPeers.erase other }.pushPeer other) other
        fun e he ↦ standing_congr (peer?_pushPeer_of_ne (h.congr rfl rfl) he)
          (by simp [pushPeer, he]) Iff.rfl
      have hafter : standing
          ({ t with mPendingPeers := t.mPendingPeers.erase other }.pushPeer other) other = 1 := by
        rw [standing_of_peer? (peer?_pushPeer_self _ other)]
        rfl
      have hreply := flightWeight_sendHello_le hosts x other
      have hcard' : ({ t with mPendingPeers := t.mPendingPeers.erase other }.pushPeer
        other).mPendingPeers = t.mPendingPeers.erase other := rfl
      simp only [unrest, hcard', hcard]
      omega
  | @acceptKnown other idx hknown =>
      obtain rfl : other = endpoint := by simpa using he
      obtain ⟨peer, hget, -⟩ := h.getElem? hknown
      have hpeer : t.peer? other = some (idx, peer) := peer?_eq_some.mpr ⟨hknown, hget⟩
      have hsame := standing_of_peer? hpeer
      have hafter : standing { t with mPendingPeers := t.mPendingPeers.erase other } other =
          entryUnrest peer := standing_of_peer? hpeer
      have hsum := @sum_standing_le _ _ _ hosts t
        { t with mPendingPeers := t.mPendingPeers.erase other } other
        fun e he ↦ standing_congr rfl (by simp [he]) Iff.rfl
      rw [hquiet]
      simp only [unrest, hcard]
      omega
  | @reject other =>
      obtain rfl : other = endpoint := by simpa using he
      have hafter : standing { t with
          mPendingPeers := t.mPendingPeers.erase other
          mRejectedPeers := insert other t.mRejectedPeers } other ≤ standing t other := by
        cases hpeer : t.peer? other with
        | none =>
            have hnone : UdpTunnel.peer? { t with
              mPendingPeers := t.mPendingPeers.erase other
              mRejectedPeers := insert other t.mRejectedPeers } other = none := hpeer
            simp [standing, hnone]
        | some found =>
            have hsame : standing { t with
              mPendingPeers := t.mPendingPeers.erase other
              mRejectedPeers := insert other t.mRejectedPeers } other = entryUnrest found.2 :=
                standing_of_peer? hpeer
            rw [hsame, standing_of_peer? hpeer]
      have hsum := @sum_standing_le _ _ _ hosts t { t with
          mPendingPeers := t.mPendingPeers.erase other
          mRejectedPeers := insert other t.mRejectedPeers } other
        fun e he ↦ standing_congr rfl (by simp [he]) (by simp [he])
      rw [hquiet]
      simp only [unrest, hcard]
      omega
  | _ => simp at he

end Events

/-! ## The network -/

section Run

variable [Fintype ι] [DecidableEq ι] {hosts : Hosts ι}

omit [Fintype ι] [DecidableEq ι] in
theorem flightWeight_eraseIdx {flights : List (Flight ι)} {i : ℕ} {f : Flight ι}
    (h : flights[i]? = some f) :
    flightWeight (flights.eraseIdx i) + weight f.datagram = flightWeight flights := by
  obtain ⟨hi, rfl⟩ := List.getElem?_eq_some_iff.mp h
  have hsplit : flights = flights.take i ++ flights[i] :: flights.drop (i + 1) := by
    rw [← List.drop_eq_getElem_cons hi, List.take_append_drop]
  have hcons : flightWeight (flights[i] :: flights.drop (i + 1)) =
      weight flights[i].datagram + flightWeight (flights.drop (i + 1)) := by
    simp only [flightWeight, List.map_cons, List.sum_cons]
  have htotal := congrArg flightWeight hsplit
  rw [flightWeight_append, hcons] at htotal
  rw [List.eraseIdx_eq_take_drop_succ, flightWeight_append]
  omega

/-- An event of one tunnel is judged by what it does there. -/
theorem potential_act {n : Network ι} {x : ι} {e : TunnelEvent} {gain : ℕ}
    (h : unrest hosts (next UdpTunnel.machine (n.tunnel x) e) +
      flightWeight (hosts.flights x (emit UdpTunnel.machine (n.tunnel x) e)) <
        unrest hosts (n.tunnel x) + gain) :
    potential hosts (hosts.act n x e).1 < potential hosts n + gain := by
  have hsum := @sum_add_eq_of_eq_elsewhere _ _ _ (fun y ↦ unrest hosts (n.tunnel y))
    (fun y ↦ unrest hosts ((hosts.act n x e).1.tunnel y)) x (by
      intro y hy
      simp [Hosts.act, hy])
  simp only [Hosts.act, Function.update_self] at hsum
  simp only [potential, Hosts.act, flightWeight_append]
  omega

theorem potential_next {n : Network ι} (h : Quiet n) {e : NetworkEvent ι}
    (he : Possible n e) : potential hosts (next hosts.machine n e) < potential hosts n := by
  cases e with
  | deliver now i =>
      have hget := List.getElem?_eq_getElem he
      generalize n.inFlight[i] = f at hget
      have hcontrol := h.control f (List.mem_of_getElem? hget)
      have hact := @potential_act _ _ _ hosts { n with inFlight := n.inFlight.eraseIdx i }
        f.dest (.receive now (hosts.address f.source) f.datagram) (weight f.datagram)
        (unrest_receive (h.indexed f.dest) f.dest f.source hcontrol)
      have hweight := flightWeight_eraseIdx hget
      have hbefore : potential hosts { n with inFlight := n.inFlight.eraseIdx i } +
          weight f.datagram = potential hosts n := by
        simp only [potential]
        omega
      rw [hbefore] at hact
      simpa [next, Hosts.machine, hget] using hact
  | accept x endpoint =>
      exact @potential_act _ _ _ hosts n x _ 0 (unrest_decide (h.indexed x) x he (Or.inl rfl))
  | reject x endpoint =>
      exact @potential_act _ _ _ hosts n x _ 0 (unrest_decide (h.indexed x) x he (Or.inr rfl))

end Run

/-- What a tunnel reads here: control messages and decisions. -/
def IsHandshake : TunnelEvent → Prop
  | .receive _ _ datagram => IsControl datagram
  | .acceptPeer _ | .rejectPeer _ => True
  | _ => False

/-- A tunnel sends nothing, or one HELLO to a peer that it has just accepted or
connected. -/
theorem reply_cases {t : UdpTunnel} {e : TunnelEvent} (he : IsHandshake e) :
    (∀ dest bytes, .send dest bytes ∉ emit UdpTunnel.machine t e) ∨
    ∃ dest, emit UdpTunnel.machine t e = sendHello dest ∧
      (e = .acceptPeer dest ∨ t.isConnected dest = false ∧
        (next UdpTunnel.machine t e).isConnected dest = true) := by
  have heffect := effect t e
  generalize next UdpTunnel.machine t e = t', emit UdpTunnel.machine t e = out at heffect ⊢
  cases heffect with
  | @hello _ _ _ message idx peer hmessage htype hpeer =>
      by_cases hstate : peer.state = .connected
      · simp [hstate]
      · refine Or.inr ⟨_, if_neg hstate, Or.inr ⟨by simp [isConnected, hpeer, hstate], ?_⟩⟩
        exact isConnected_of_peer? (peer?_setPeer_self hpeer _) rfl
  | accept hnew => exact Or.inr ⟨_, rfl, Or.inl rfl⟩
  | unknown | keepalive | bye | ignored | acceptKnown | reject => simp
  | leave | data => simp
  | _ => exact absurd he id

section Run

variable [DecidableEq ι] {hosts : Hosts ι}

theorem exists_act (hosts : Hosts ι) {n : Network ι} (h : Quiet n) {e : NetworkEvent ι} (he : Possible n e) :
    ∃ x te flights, (∀ f ∈ flights, f ∈ n.inFlight) ∧
      hosts.machine n e = hosts.act { n with inFlight := flights } x te ∧ IsHandshake te ∧
      ∀ endpoint, te = .acceptPeer endpoint → e = .accept x endpoint := by
  cases e with
  | deliver now i =>
      have hget := List.getElem?_eq_getElem he
      generalize n.inFlight[i] = f at hget
      exact ⟨f.dest, .receive now (hosts.address f.source) f.datagram, n.inFlight.eraseIdx i,
        fun f hf ↦ List.mem_of_mem_eraseIdx hf, by simp only [Hosts.machine, hget],
        h.control f (List.mem_of_getElem? hget), by simp⟩
  | accept x endpoint =>
      refine ⟨x, .acceptPeer endpoint, n.inFlight, fun f hf ↦ hf, rfl, trivial, ?_⟩
      intro other heq
      rw [TunnelEvent.acceptPeer.inj heq]
  | reject x endpoint =>
      exact ⟨x, .rejectPeer endpoint, n.inFlight, fun f hf ↦ hf, rfl, trivial, by simp⟩

omit [DecidableEq ι] in
theorem flights_of_no_send {out : List TunnelOutput}
    (h : ∀ dest bytes, .send dest bytes ∉ out) (x : ι) : hosts.flights x out = [] := by
  apply List.filterMap_eq_nil_iff.mpr
  intro o ho
  cases o with
  | send dest bytes => exact absurd ho (h dest bytes)
  | _ => rfl

theorem quiet_next {n : Network ι} (h : Quiet n) {e : NetworkEvent ι} (he : Possible n e) :
    Quiet (next hosts.machine n e) := by
  obtain ⟨x, te, flights, hflights, hact, hte, -⟩ := exists_act hosts h he
  rw [next, hact]
  refine ⟨fun y ↦ ?_, fun f hf ↦ ?_⟩
  · by_cases hy : y = x
    · subst hy
      simpa [Hosts.act] using indexed_next (h.indexed y) te
    · simpa [Hosts.act, hy] using h.indexed y
  · rcases List.mem_append.mp hf with hold | hnew
    · exact h.control f (hflights f hold)
    · rcases reply_cases (t := n.tunnel x) hte with hnone | ⟨dest, hsend, -⟩
      · rw [flights_of_no_send hnone] at hnew
        cases hnew
      · rw [hsend, flights_sendHello] at hnew
        obtain ⟨y, -, rfl⟩ := List.mem_map.mp hnew
        obtain ⟨message, hmessage, htype⟩ :=
          exists_messageOf_controlDatagram (rfl : TunnelMessageType.tunnelHello.isControl = true)
        exact ⟨message, hmessage, by rw [htype]; rfl⟩

/-- A HELLO goes out with a connection or an acceptance. -/
theorem helloCount_le {n : Network ι} (h : Quiet n) {e : NetworkEvent ι} (he : Possible n e)
    (x : ι) (endpoint : UdpEndpoint) :
    helloCount x endpoint hosts n e ≤
      connectionCount x endpoint hosts n e + acceptanceCount x endpoint n e := by
  obtain ⟨y, te, flights, -, hact, hte, haccept⟩ := exists_act hosts h he
  have hemit : emit hosts.machine n e =
      (emit UdpTunnel.machine (n.tunnel y) te).map (fun o ↦ (y, o)) := by
    rw [emit, hact, Hosts.act]
  simp only [helloCount, hemit]
  rcases reply_cases (t := n.tunnel y) hte with hnone | ⟨dest, hsend, hreason⟩
  · rw [List.count_eq_zero_of_not_mem]
    · exact Nat.zero_le _
    · intro hmem
      obtain ⟨o, ho, heq⟩ := List.mem_map.mp hmem
      obtain ⟨-, rfl⟩ := Prod.mk.inj heq
      exact hnone _ _ ho
  · rw [hsend, sendHello_eq, List.map_singleton, List.count_singleton]
    split
    · obtain ⟨rfl, hout⟩ := Prod.mk.inj (beq_iff_eq.mp ‹_›)
      obtain ⟨rfl, -⟩ := TunnelOutput.send.inj hout
      rcases hreason with rfl | ⟨hbefore, hafter⟩
      · obtain rfl := haccept dest rfl
        simp [acceptanceCount]
      · have hnext : ((next hosts.machine n e).tunnel y).isConnected dest = true := by
          rw [next, hact]
          simpa [Hosts.act] using hafter
        simp [connectionCount, hbefore, hnext]
    · exact Nat.zero_le _

/-- However the messages in flight are delivered and the unknown senders decided
on, the handshake comes to rest, and each tunnel has sent a peer no more HELLOs
than it has connected or accepted that peer. -/
theorem handshake_comes_to_rest [Fintype ι] (hosts : Hosts ι) {n : Network ι} (h : Quiet n)
    {es : List (NetworkEvent ι)} (hes : Along hosts.machine Possible n es) :
    es.length ≤ potential hosts n ∧
    ∀ x endpoint, tally hosts.machine (helloCount x endpoint hosts) n es ≤
      tally hosts.machine (connectionCount x endpoint hosts) n es +
        tally hosts.machine (acceptanceCount x endpoint) n es := by
  constructor
  · exact length_le_potential hosts.machine (fun _ _ h he ↦ quiet_next h he)
      (fun _ _ h he ↦ potential_next h he) h hes
  · intro x endpoint
    have hstep : ∀ n e, Quiet n → Possible n e → Quiet (next hosts.machine n e) :=
      fun _ _ h he ↦ quiet_next h he
    exact tally_le_tally_add hosts.machine hstep
      (fun _ _ h he ↦ helloCount_le h he x endpoint) h hes

end Run

/-! ## A stranger is let in -/

def twoHosts : Hosts (Fin 2) where
  address := fun x ↦ localhost (UInt16.ofNat x)
  owner := fun e ↦
    if e = localhost 0 then some 0 else if e = localhost 1 then some 1 else none
  owner_eq_some := by
    intro e x
    constructor
    · intro h
      split at h
      · rw [← Option.some.inj h, ‹e = _›]
        rfl
      · split at h
        · rw [← Option.some.inj h, ‹e = _›]
          rfl
        · cases h
    · rintro rfl
      revert x
      decide

/-- Tunnel 0 knows tunnel 1, which has not heard of it, and its HELLO is in flight. -/
def stranger : Network (Fin 2) where
  tunnel := fun x ↦ if x = 0 then create [localhost 1] else create []
  inFlight := [⟨0, 1, controlDatagram .tunnelHello⟩]

def letIn : List (NetworkEvent (Fin 2)) :=
  [.deliver 0 0, .accept 1 (localhost 0), .deliver 1 0, .deliver 2 0, .deliver 3 0]

instance {ι : Type*} (n : Network ι) : ∀ e, Decidable (Possible n e)
  | .deliver _ i => inferInstanceAs (Decidable (i < n.inFlight.length))
  | .accept x endpoint | .reject x endpoint =>
      inferInstanceAs (Decidable (endpoint ∈ (n.tunnel x).mPendingPeers))

theorem quiet_stranger : Quiet stranger := by
  refine ⟨fun x ↦ ?_, fun f hf ↦ ?_⟩
  · by_cases hx : x = 0
    · simpa [stranger, hx] using indexed_create [localhost 1]
    · simpa [stranger, hx] using indexed_create []
  · obtain rfl : f = ⟨0, 1, controlDatagram .tunnelHello⟩ := by simpa [stranger] using hf
    obtain ⟨message, hmessage, htype⟩ :=
      exists_messageOf_controlDatagram (rfl : TunnelMessageType.tunnelHello.isControl = true)
    exact ⟨message, hmessage, by rw [htype]; rfl⟩

/-- Five events, with one HELLO for the acceptance and one for the connection. -/
theorem letIn_comes_to_rest : letIn.length ≤ potential twoHosts stranger ∧
    tally twoHosts.machine (helloCount 1 (localhost 0) twoHosts) stranger letIn = 2 ∧
    2 ≤ tally twoHosts.machine (connectionCount 1 (localhost 0) twoHosts) stranger letIn +
      tally twoHosts.machine (acceptanceCount 1 (localhost 0)) stranger letIn := by
  have hes : Along twoHosts.machine Possible stranger letIn := by decide +kernel
  have hcount : tally twoHosts.machine (helloCount 1 (localhost 0) twoHosts) stranger letIn =
      2 := by decide +kernel
  obtain ⟨hlength, hhellos⟩ := handshake_comes_to_rest twoHosts quiet_stranger hes
  exact ⟨hlength, hcount, hcount.ge.trans (hhellos 1 (localhost 0))⟩

end Handshake

end LinkExtender
