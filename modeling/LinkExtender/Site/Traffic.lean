import LinkExtender.Site.Delivered
import LinkExtender.Site.Origins
import LinkExtender.UdpTunnel.Stop

/-!
# The traffic between sites

Whatever sites are connected and however many gateways they have: a gateway puts out no
more datagrams on its local network than the gateways of all sites have read from
theirs, unless the network between them repeats datagrams.
-/

namespace LinkExtender

open EventMachine
open Handshake (Hosts Network)
open Internet (InternetEvent near far)

/-! ## One step of a gateway -/

namespace TunnelGateway

variable {link : LinkLibrary}

/-- A message from the tunnel goes out once, or not at all. -/
theorem length_datagrams_tunnel_le (g : TunnelGateway) (io : LocalIo) (message : LocalMessage) :
    (datagrams (emit (machine link) g (.tunnel io message))).length ≤ 1 := by
  change (datagrams (g.forwardMessageLocally link io message).2.2).length ≤ 1
  rw [length_datagrams_forwardMessageLocally]
  exact Bool.toNat_le _

theorem datagrams_lan (g : TunnelGateway) (now : TimePoint) (e : LanEvent) :
    datagrams (emit (machine link) g (.lan now e)) = [] := by
  apply List.eq_nil_iff_forall_not_mem.mpr
  rintro ⟨source, bytes, dest⟩ hmem
  exact send_notMem_emit_lan (mem_datagrams.mp hmem)

end TunnelGateway

/-! ## One step of a site -/

namespace Site

variable {link : LinkLibrary}

/-- Every gateway puts out at most one datagram for each call of `forward_locally`. -/
theorem length_datagrams_le (s : Site) (e : TunnelEvent) (ios : ℕ → LocalIo) (j : ℕ) :
    (TunnelGateway.datagrams (outputsAt j (emit (machine link) s (.tunnel e ios)))).length ≤
      (localCalls (emit UdpTunnel.machine s.tunnel e)).length := by
  rw [outputsAt_emit]
  cases s.gateways[j]? with
  | none => simp [TunnelGateway.datagrams]
  | some g =>
      simp only [Option.elim_some, eventAt]
      split
      · cases hcalls : localCalls (emit UdpTunnel.machine s.tunnel e) with
        | nil => simp [TunnelGateway.datagrams]
        | cons message messages =>
            have hone := @TunnelGateway.length_datagrams_tunnel_le link g (ios j) message
            simp only [List.head?_cons, Option.map_some, Option.elim_some, List.length_cons]
            omega
      · simp [TunnelGateway.datagrams]

theorem datagrams_lan (s : Site) (i : ℕ) (now : TimePoint) (e : LanEvent)
    (steadyNow : TimePoint) (j : ℕ) :
    TunnelGateway.datagrams (outputsAt j (emit (machine link) s (.lan i now e steadyNow))) = [] := by
  rw [outputsAt_emit]
  cases s.gateways[j]? with
  | none => rfl
  | some g =>
      simp only [Option.elim_some, eventAt]
      split
      · exact TunnelGateway.datagrams_lan g now e
      · rfl

/-- The tunnel takes at most one step. -/
theorem length_tunnelEvents_le (s : Site) (e : SiteEvent) :
    (s.tunnelEvents link e).length ≤ 1 := by
  cases e with
  | tunnel e ios =>
      simp only [tunnelEvents]
      split <;> simp
  | lan i now e steadyNow =>
      cases hg : s.gateways[i]? with
      | none => simp [tunnelEvents, hg]
      | some g =>
          have hcalls := @TunnelGateway.length_calls_le link g now e
          simp only [tunnelEvents, hg, Option.elim_some, filterMap_forwardEvent?, List.length_map]
          exact hcalls.trans (by split <;> omega)

theorem tunnelEvents_cases (link : LinkLibrary) (s : Site) (e : SiteEvent) :
    s.tunnelEvents link e = [] ∨ ∃ te, s.tunnelEvents link e = [te] := by
  have hlength := @length_tunnelEvents_le link s e
  rcases Nat.le_one_iff_eq_zero_or_eq_one.mp hlength with hnone | hone
  · exact Or.inl (List.length_eq_zero_iff.mp hnone)
  · exact Or.inr (List.length_eq_one_iff.mp hone)

end Site

namespace Region

variable {ι : Type*} [DecidableEq ι] (hosts : Hosts ι) (link : LinkLibrary)

/-- The datagrams that gateway `j` of `y` puts out on its local network. -/
def putOut (y : ι) (j : ℕ) (r : Region ι) (e : RegionEvent ι) :
    List (UdpEndpoint × List UInt8 × UdpEndpoint) :=
  TunnelGateway.datagrams (Site.outputsAt j
    ((emit (machine hosts link) r e).filterMap (fun o ↦ if o.1 = y then some o.2 else none)))

omit [DecidableEq ι] in
/-- A gateway reads a datagram from its local network. -/
def isRead : RegionEvent ι → Bool
  | .step _ (.lan _ _ e _) => (TunnelGateway.datagram? e).isSome
  | _ => false

omit [DecidableEq ι] in
/-- No datagram is repeated on the way between sites. -/
def Single : RegionEvent ι → Prop
  | .repeated _ => False
  | _ => True

variable {hosts link}

theorem putOut_eq {r : Region ι} {e : RegionEvent ι} {x : ι} {out : List SiteOutput}
    (hemit : emit (machine hosts link) r e = out.map (Prod.mk x)) (y : ι) (j : ℕ) :
    putOut hosts link y j r e =
      if x = y then TunnelGateway.datagrams (Site.outputsAt j out) else [] := by
  rw [putOut, hemit, List.filterMap_map]
  by_cases hx : x = y
  · simp [hx]
  · simp [hx, Site.outputsAt, TunnelGateway.datagrams]

theorem putOut_of_emit_eq_nil {r : Region ι} {e : RegionEvent ι}
    (hemit : emit (machine hosts link) r e = []) (y : ι) (j : ℕ) :
    putOut hosts link y j r e = [] := by
  rw [putOut, hemit]
  rfl

theorem length_localCalls_le [Fintype ι] {r : Region ι} {e : RegionEvent ι} {y : ι}
    (h : Enclosed hosts (r.site y).tunnel) {now : TimePoint} {sender : UdpEndpoint}
    {datagram : Datagram} (hincoming : r.incoming? hosts e = some (y, now, sender, datagram)) :
    (Site.localCalls (emit UdpTunnel.machine (r.site y).tunnel
      (.receive now sender datagram))).length ≤ ∑ x, (heard hosts x y r e).length := by
  cases hcalls : Site.localCalls (emit UdpTunnel.machine (r.site y).tunnel
    (.receive now sender datagram)) with
  | nil => exact Nat.zero_le _
  | cons message messages =>
      obtain ⟨x, rfl, -⟩ := h.exists_site hosts (hcalls ▸ List.mem_cons_self)
      have hheard : (heard hosts x y r e).length = (message :: messages).length := by
        simp [heard, hincoming, hcalls]
      rw [← hheard]
      exact Finset.single_le_sum (f := fun x ↦ (heard hosts x y r e).length)
        (fun _ _ ↦ Nat.zero_le _) (Finset.mem_univ x)

/-- What a gateway puts out is paid for by what its tunnel is handed. -/
theorem length_putOut_le [Fintype ι] {r : Region ι} (h : ∀ z, Enclosed hosts (r.site z).tunnel)
    (y : ι) (j : ℕ) (e : RegionEvent ι) :
    (putOut hosts link y j r e).length ≤ ∑ x, (heard hosts x y r e).length := by
  cases e with
  | step z e =>
      rw [putOut_eq rfl y j]
      split
      · rename_i hz
        subst hz
        cases e with
        | lan i now e steadyNow => simp [Site.datagrams_lan]
        | tunnel e ios =>
            apply (Site.length_datagrams_le (r.site z) e ios j).trans
            cases e with
            | receive now sender datagram => exact length_localCalls_le (h z) rfl
            | _ =>
                rw [Site.localCalls_eq_nil]
                · exact Nat.zero_le _
                · intro message hmem
                  obtain ⟨_, _, _, _, _, heq, -⟩ := UdpTunnel.forwardLocally_mem_emit hmem
                  cases heq
      · exact Nat.zero_le _
  | deliver now i ios =>
      cases hflight : r.inFlight[i]? with
      | none =>
          rw [putOut_of_emit_eq_nil (by simp [emit, machine, hflight])]
          exact Nat.zero_le _
      | some f =>
          have hemit : emit (machine hosts link) r (.deliver now i ios) =
              (emit (Site.machine link) (r.site f.dest)
                (.tunnel (.receive now (hosts.address f.source) f.datagram) ios)).map
                  (Prod.mk f.dest) := by
            simp [emit, machine, hflight, act]
          rw [putOut_eq hemit y j]
          split
          · rename_i hy
            subst hy
            apply (Site.length_datagrams_le (r.site f.dest) _ ios j).trans
            exact length_localCalls_le (h f.dest) (by simp [incoming?, hflight])
          · exact Nat.zero_le _
  | lose i | repeated i =>
      rw [putOut_of_emit_eq_nil rfl]
      exact Nat.zero_le _

omit [DecidableEq ι] in
/-- A tunnel sends a message to a peer once, or not at all. -/
theorem length_copies_le {t : UdpTunnel} (h : t.Seated) (endpoint : UdpEndpoint)
    (steadyNow : TimePoint) (call : ForwardCall) :
    (copies t endpoint steadyNow call).length ≤ 1 := by
  unfold copies
  split
  · rw [List.length_replicate]
    exact List.nodup_iff_count_le_one.mp (h.nodup_recipients call.type call.toNode) _
  · exact Nat.zero_le _

theorem length_spoken_le {r : Region ι} (h : ∀ z, (r.site z).tunnel.Seated) (x y : ι)
    (e : RegionEvent ι) : (spoken hosts link x y r e).length ≤ if isRead e then 1 else 0 := by
  cases e with
  | step z e =>
      cases e with
      | tunnel => exact Nat.zero_le _
      | lan i now lan steadyNow =>
          simp only [spoken]
          split
          · cases hg : (r.site x).gateways[i]? with
            | none => exact Nat.zero_le _
            | some g =>
                have hcalls := @TunnelGateway.length_calls_le link g now lan
                have hone := hcalls.trans (by split <;> omega : _ ≤ 1)
                rw [Option.elim_some]
                generalize (emit (TunnelGateway.machine link) g (.lan now lan)).filterMap
                  GatewayOutput.call? = calls at hcalls hone ⊢
                cases calls with
                | nil => exact Nat.zero_le _
                | cons call rest =>
                    obtain rfl : rest = [] := by simpa using hone
                    rw [List.flatMap_singleton]
                    exact (length_copies_le (h x) _ steadyNow call).trans hcalls
          · exact Nat.zero_le _
  | deliver | lose | repeated => exact Nat.zero_le _

/-- What the gateways of all sites forward to `y` is paid for by what they read. -/
theorem sum_length_spoken_le [Fintype ι] {r : Region ι} (h : ∀ z, (r.site z).tunnel.Seated)
    (y : ι) (e : RegionEvent ι) :
    ∑ x, (spoken hosts link x y r e).length ≤ if isRead e then 1 else 0 := by
  cases e with
  | step z e =>
      -- only the site that steps has anything to say
      have hother : ∀ x ∈ Finset.univ, x ≠ z →
          (spoken hosts link x y r (.step z e)).length = 0 := by
        intro x _ hx
        cases e with
        | tunnel => rfl
        | lan => rw [spoken, if_neg (Ne.symm hx), List.length_nil]
      rw [Finset.sum_eq_single z hother (fun hz ↦ absurd (Finset.mem_univ z) hz)]
      exact length_spoken_le h z y (.step z e)
  | deliver | lose | repeated => simp [spoken]

theorem seated_next {r : Region ι} (h : ∀ z, (r.site z).tunnel.Seated) (e : RegionEvent ι)
    (z : ι) : ((next (machine hosts link) r e).site z).tunnel.Seated := by
  have hact (r : Region ι) (h : ∀ z, (r.site z).tunnel.Seated) (x : ι) (e : SiteEvent) :
      ((act hosts link r x e).1.site z).tunnel.Seated := by
    by_cases hz : z = x
    · subst hz
      simpa [act] using Site.seated_next (h z) e
    · simpa [act, hz] using h z
  cases e with
  | step x e => exact hact r h x e
  | deliver now i ios =>
      simp only [next, machine]
      split
      · exact hact { r with inFlight := r.inFlight.eraseIdx i } h _ _
      · exact h z
  | lose i | repeated i => exact h z

/-! ## Runs -/

omit [DecidableEq ι] in
theorem single_tunnelEvents {r : Region ι} {e : RegionEvent ι} (he : Single e) :
    ∀ e' ∈ r.tunnelEvents link e, Internet.Single e' := by
  intro e' he'
  cases e with
  | step x e =>
      obtain ⟨te, -, rfl⟩ := List.mem_map.mp he'
      trivial
  | repeated i => exact he.elim
  | deliver | lose =>
      obtain rfl := List.mem_singleton.mp he'
      trivial

theorem length_heard_le (initialPeers : ι → List UdpEndpoint) (interfaces : ι → List IpAddress)
    (x y : ι) {es : List (RegionEvent ι)} (hgenuine : ∀ e ∈ es, Genuine hosts e)
    (hsingle : ∀ e ∈ es, Single e) :
    (gathered (machine hosts link) (heard hosts x y) (create initialPeers interfaces) es).length ≤
      (gathered (machine hosts link) (spoken hosts link x y) (create initialPeers interfaces)
        es).length := by
  have hsingle' : ∀ e ∈ travels hosts link (create initialPeers interfaces) es,
      Internet.Single e := by
    intro e' he'
    obtain ⟨before, e, after, rfl, hmem⟩ := mem_gathered.mp he'
    exact single_tunnelEvents (hsingle e (by simp)) e' hmem
  have hlaw := Internet.handed_append_underway_subperm hosts x y
    (create initialPeers interfaces).tunnels
    (genuine_travels hosts link (r := create initialPeers interfaces) hgenuine) hsingle'
  rw [← gathered_heard, ← gathered_spoken] at hlaw
  have hlength := hlaw.length_le
  have hnone : Internet.underway x y (create initialPeers interfaces).tunnels = [] := rfl
  rw [hnone, List.nil_append, List.length_append] at hlength
  omega

/-- In every run a gateway puts out no more datagrams than the gateways of all sites have
read. -/
theorem length_putOut_le_countP [Fintype ι] {initialPeers : ι → List UdpEndpoint}
    (interfaces : ι → List IpAddress)
    (hpeers : ∀ x, ∀ endpoint ∈ initialPeers x, (hosts.owner endpoint).isSome = true)
    {es : List (RegionEvent ι)} (hgenuine : ∀ e ∈ es, Genuine hosts e)
    (hsingle : ∀ e ∈ es, Single e) (y : ι) (j : ℕ) :
    (gathered (machine hosts link) (putOut hosts link y j) (create initialPeers interfaces)
      es).length ≤ es.countP isRead := by
  set start := create initialPeers interfaces
  have hall : Along (machine hosts link) (fun _ e ↦ Genuine hosts e) start es :=
    along_of_forall_mem _ (fun _ ↦ hgenuine) start
  have henclosed : ∀ z, Enclosed hosts (start.site z).tunnel :=
    enclosed_run hosts link interfaces hpeers fun _ he ↦ absurd he List.not_mem_nil
  have hseated : ∀ z, (start.site z).tunnel.Seated := fun z ↦
    UdpTunnel.seated_create (initialPeers z)
  calc (gathered (machine hosts link) (putOut hosts link y j) start es).length
      ≤ ∑ x, (gathered (machine hosts link) (heard hosts x y) start es).length := by
        simp only [length_gathered, ← tally_sum]
        exact tally_le_tally (machine hosts link) (I := fun r ↦ ∀ z, Enclosed hosts (r.site z).tunnel)
          (fun _ _ h he ↦ enclosed_next hosts link h he)
          (fun _ e h _ ↦ length_putOut_le h y j e) henclosed hall
    _ ≤ ∑ x, (gathered (machine hosts link) (spoken hosts link x y) start es).length :=
        Finset.sum_le_sum fun x _ ↦ length_heard_le initialPeers interfaces x y hgenuine hsingle
    _ ≤ es.countP isRead := by
        simp only [length_gathered, ← tally_sum]
        rw [← tally_countP (machine hosts link) isRead start es]
        exact tally_le_tally (machine hosts link) (I := fun r ↦ ∀ z, (r.site z).tunnel.Seated)
          (fun _ e h _ ↦ seated_next h e) (fun _ e h _ ↦ sum_length_spoken_le h y e) hseated hall

instance {κ : Type*} : ∀ e : RegionEvent κ, Decidable (Single e)
  | .repeated _ => isFalse not_false
  | .step .. | .deliver .. | .lose _ => isTrue trivial

/-- A node is heard at one of two sites, and its message comes in at the other. -/
def heardOnce : List (RegionEvent (Fin 2)) := heardNode.eraseIdx 5

theorem length_putOut_le_countP_neighbours :
    (gathered (machine Handshake.twoHosts .version1) (putOut Handshake.twoHosts .version1 far 0)
        neighbours heardOnce).length ≤ heardOnce.countP isRead ∧
      (gathered (machine Handshake.twoHosts .version1) (putOut Handshake.twoHosts .version1 far 0)
        neighbours heardOnce).length = 1 :=
  ⟨length_putOut_le_countP (fun _ ↦ [TunnelGateway.kLocalIfAddr]) (by decide)
    (by decide +kernel) (by decide +kernel) far 0, by decide +kernel⟩

end Region

end LinkExtender
