import LinkExtender.Link.Payload
import LinkExtender.TunnelGateway.Datagrams

/-!
# The endpoint that is put in its place

`appendMeasurementEndpoint` adds the endpoint of the surrogate where the result stays
below `kMaxMessageSize`, and leaves the message as it is where it does not.  What it
leaves is sent all the same.
-/

namespace LinkExtender

/-- The bytes of the endpoint entry that is kept when the entries are read. -/
def lastEndpoint? (entries : List PayloadEntry) : Option (List UInt8) :=
  ((entries.filter PayloadEntry.isEndpoint).getLast?).map PayloadEntry.bytes

theorem lastEndpoint?_concat (entries : List PayloadEntry) {e : PayloadEntry}
    (he : e.isEndpoint = true) : lastEndpoint? (entries ++ [e]) = some e.bytes := by
  simp [lastEndpoint?, he]

namespace TunnelGateway

variable {link : LinkLibrary} {g : TunnelGateway} {io : LocalIo} {message : LocalMessage}

/-- Whoever reads the message takes `socket` for the endpoint to measure against. -/
def ShowsEndpoint (link : LinkLibrary) (socket : UdpEndpoint) (bytes : List UInt8) : Prop :=
  ∃ front entries, front.length = 20 ∧ bytes = front ++ payloadBytes entries ∧
    lastEndpoint? entries = some (link.endpointPayload socket)

/-- The datagrams that a tunnel message makes the gateway send. -/
def sentFor (link : LinkLibrary) (g : TunnelGateway) (io : LocalIo) (message : LocalMessage) :
    List (List UInt8) :=
  (datagrams (g.forwardMessageLocally link io message).2.2).map (fun d ↦ d.2.1)

/-- The size that the message has with the endpoint of the surrogate behind it. -/
def completeSize (link : LinkLibrary) (s : RemoteNodeSurrogate) (message : LocalMessage) : ℕ :=
  message.size + (link.endpointPayload s.measurementSocket).length

/-- What is sent for a state message shows the surrogate's endpoint.  It is sent where
there is a way and room for both, and not where there is no room. -/
structure AnnouncesSurrogate (link : LinkLibrary) (g : TunnelGateway) (io : LocalIo)
    (message : LocalMessage) : Prop where
  form : ∀ bytes ∈ sentFor link g io message, bytes.length ≤ kMaxMessageSize ∧
    ∃ s, (g.forwardMessageLocally link io message).1.mRemoteNodeIdToRemoteNodeSurrogate.find
        message.fromNode = some s ∧
      ShowsEndpoint link s.measurementSocket bytes
  sent : ∀ s dest, Routed link g io message s dest →
    completeSize link s message ≤ kMaxMessageSize → sentFor link g io message ≠ []
  refused : ∀ s dest, Routed link g io message s dest →
    kMaxMessageSize < completeSize link s message → sentFor link g io message = []

theorem showsEndpoint_append_iff {socket : UdpEndpoint} {front : List UInt8}
    {entries : List PayloadEntry} (hfront : front.length = 20) :
    ShowsEndpoint link socket (front ++ payloadBytes entries) ↔
      lastEndpoint? entries = some (link.endpointPayload socket) := by
  constructor
  · rintro ⟨front', entries', hfront', heq, hlast⟩
    obtain ⟨-, hpayload⟩ := List.append_inj heq (hfront.trans hfront'.symm)
    rw [payloadBytes_injective hpayload, hlast]
  · intro hlast
    exact ⟨front, entries, hfront, rfl, hlast⟩

section Routed

variable {front : List UInt8} {entries : List PayloadEntry}
  {s : RemoteNodeSurrogate} {dest : UdpEndpoint}

/-- Where there is room, the endpoint of the surrogate is shown last. -/
theorem announcesSurrogate_of_room (hlink : link.ParsesEntries)
    (hping : message.type ≠ .measurementPing) (hwhole : isSentWhole message.type = false)
    (hfront : front.length = 20)
    (hbytes : message.buffer.bytes.take message.size = front ++ payloadBytes entries)
    (hlength : (front ++ payloadBytes entries).length = message.size)
    (hrouted : Routed link g io message s dest)
    (hroom : completeSize link s message < kMaxMessageSize) :
    AnnouncesSurrogate link g io message := by
  obtain ⟨hfind, hsent⟩ := datagrams_of_routed hping hrouted
  rw [take_outgoing hwhole hroom, hbytes] at hsent
  have hshown : sentFor link g io message =
      [front ++ payloadBytes entries ++ link.endpointPayload s.measurementSocket] := by
    rw [sentFor, hsent]
    rfl
  refine ⟨?_, ?_, ?_⟩
  · intro bytes hmem
    rw [hshown, List.mem_singleton] at hmem
    subst hmem
    obtain ⟨e, he, hentry⟩ := hlink.entry s.measurementSocket
    refine ⟨?_, s, hfind, front, entries ++ [e], hfront, ?_, ?_⟩
    · rw [List.length_append, hlength]
      exact hroom.le
    · simp [hentry]
    · rw [lastEndpoint?_concat entries he, hentry]
  · intro s' dest' _ _
    simp [hshown]
  · intro s' dest' h hfull
    obtain ⟨rfl, -⟩ := hrouted.unique h
    exact absurd hfull hroom.not_gt

/-- Where there is none, the message goes out as it came. -/
theorem announcesSurrogate_iff_of_full (hping : message.type ≠ .measurementPing)
    (hfront : front.length = 20)
    (hbytes : message.buffer.bytes.take message.size = front ++ payloadBytes entries)
    (hlength : (front ++ payloadBytes entries).length = message.size)
    (hfits : message.size ≤ kMaxMessageSize) (hrouted : Routed link g io message s dest)
    (hroom : ¬ completeSize link s message < kMaxMessageSize) :
    AnnouncesSurrogate link g io message ↔ completeSize link s message = kMaxMessageSize ∧
      lastEndpoint? entries = some (link.endpointPayload s.measurementSocket) := by
  obtain ⟨hfind, hsent⟩ := datagrams_of_routed hping hrouted
  rw [take_outgoing_of_full (Or.inr hroom), hbytes] at hsent
  have hshown : sentFor link g io message = [front ++ payloadBytes entries] := by
    rw [sentFor, hsent]
    rfl
  constructor
  · intro h
    have hfull : completeSize link s message = kMaxMessageSize := by
      by_contra hne
      have hsilent := h.refused s dest hrouted (by omega)
      simp [hshown] at hsilent
    obtain ⟨-, s', hfind', hshows⟩ := h.form _ (hshown ▸ List.mem_singleton_self _)
    obtain rfl := Option.some.inj (hfind.symm.trans hfind')
    exact ⟨hfull, (showsEndpoint_append_iff hfront).mp hshows⟩
  · rintro ⟨hfull, hlast⟩
    refine ⟨?_, ?_, ?_⟩
    · intro bytes hmem
      rw [hshown, List.mem_singleton] at hmem
      subst hmem
      exact ⟨hlength ▸ hfits, s, hfind, (showsEndpoint_append_iff hfront).mpr hlast⟩
    · intro s' dest' _ _
      simp [hshown]
    · intro s' dest' h' hlarge
      obtain ⟨rfl, -⟩ := hrouted.unique h'
      omega

end Routed

theorem announcesSurrogate_of_not_routed (hping : message.type ≠ .measurementPing)
    (hnone : ∀ s dest, ¬ Routed link g io message s dest) :
    AnnouncesSurrogate link g io message := by
  have hsilent : sentFor link g io message = [] := by
    rw [sentFor, datagrams_eq_nil_of_not_routed hping hnone, List.map_nil]
  refine ⟨?_, ?_, ?_⟩
  · rw [hsilent]
    exact nofun
  · exact fun s dest h ↦ absurd h (hnone s dest)
  · exact fun _ _ _ _ ↦ hsilent

/-- For a state message of any size that the tunnel can bring: the surrogate is announced
exactly when there is no way to send it, or the message stays below the limit with the
endpoint, or it would reach the limit and shows that endpoint already. -/
theorem announcesSurrogate_iff (hlink : link.ParsesEntries) (g : TunnelGateway) (io : LocalIo)
    -- a message with a header and entries
    {message : LocalMessage} (htype : message.type = .broadcast ∨ message.type = .unicast)
    (hsize : encapsulatedSize message.type message.size ≤ kMaxMessageSize)
    {front : List UInt8} (hfront : front.length = 20) {entries : List PayloadEntry}
    (hbytes : message.buffer.bytes.take message.size = front ++ payloadBytes entries) :
    AnnouncesSurrogate link g io message ↔
      ∀ s dest, Routed link g io message s dest →
        completeSize link s message < kMaxMessageSize ∨
          completeSize link s message = kMaxMessageSize ∧
            lastEndpoint? entries = some (link.endpointPayload s.measurementSocket) := by
  have hping : message.type ≠ .measurementPing := by
    rcases htype with h | h <;> simp [h]
  have hwhole : isSentWhole message.type = false := by
    rcases htype with h | h <;> simp [h, isSentWhole]
  have hfits : message.size ≤ kMaxMessageSize := by
    rw [encapsulatedSize] at hsize
    omega
  have hlength : (front ++ payloadBytes entries).length = message.size := by
    rw [← hbytes, MessageBuffer.length_take_bytes hfits]
  by_cases hrouted : ∃ s dest, Routed link g io message s dest
  · obtain ⟨s, dest, hrouted⟩ := hrouted
    -- the way is unique, so it decides for all
    have hway (P : RemoteNodeSurrogate → Prop) :
        (∀ s dest, Routed link g io message s dest → P s) ↔ P s := by
      refine ⟨fun h ↦ h s dest hrouted, fun h s' dest' h' ↦ ?_⟩
      obtain ⟨rfl, -⟩ := hrouted.unique h'
      exact h
    rw [hway]
    by_cases hroom : completeSize link s message < kMaxMessageSize
    · exact iff_of_true
        (announcesSurrogate_of_room hlink hping hwhole hfront hbytes hlength hrouted hroom)
        (Or.inl hroom)
    · rw [announcesSurrogate_iff_of_full hping hfront hbytes hlength hfits hrouted hroom,
        or_iff_right hroom]
  · have hnone : ∀ s dest, ¬ Routed link g io message s dest := fun s dest h ↦
      hrouted ⟨s, dest, h⟩
    exact iff_of_true (announcesSurrogate_of_not_routed hping hnone)
      (fun s dest h ↦ absurd h (hnone s dest))

/-! ## Messages of three sizes -/

/-- An entry of `n` bytes behind its key and size. -/
def paddingEntry (n : ℕ) : PayloadEntry :=
  ⟨[0x5f, 0x70, 0x61, 0x64], List.replicate (n % kMaxMessageSize) 0, rfl, by
    rw [List.length_replicate]
    exact (Nat.mod_lt _ (by decide)).trans (by decide)⟩

/-- A kAlive message of the zero node, as it comes out of the tunnel. -/
def aliveMessage (entries : List PayloadEntry) : LocalMessage :=
  ⟨.broadcast, default,
    MessageBuffer.ofBytes (LinkLibrary.discoveryMessage 1 5 default (payloadBytes entries)),
    20 + (payloadBytes entries).length, none⟩

theorem announcesSurrogate_aliveMessage :
    AnnouncesSurrogate .version1 (create kLocalIfAddr) (openSockets 10000)
      (aliveMessage [paddingEntry 100]) := by
  refine (@announcesSurrogate_iff _ LinkLibrary.parsesEntries_version1 (create kLocalIfAddr)
    (openSockets 10000) (aliveMessage [paddingEntry 100]) (Or.inl rfl) (by decide +kernel)
    (LinkLibrary.discoveryMessage 1 5 default []) rfl [paddingEntry 100]
    (by decide +kernel)).mpr ?_
  intro s dest h
  have hsurrogate := h.surrogate
  obtain rfl : (⟨localhost 10000, localhost 10001⟩ : RemoteNodeSurrogate) = s := by
    simpa [nodeSurrogate, create, openSockets] using hsurrogate
  exact Or.inl (by decide +kernel)

/-- With the 14 bytes of its endpoint the first message has 512 bytes and the second
513.  Both are sent, and neither shows an endpoint. -/
theorem not_announcesSurrogate :
    ((aliveMessage [paddingEntry 470]).size = 498 ∧
      ¬ AnnouncesSurrogate .version1 (create kLocalIfAddr) (openSockets 10000)
        (aliveMessage [paddingEntry 470])) ∧
    ((aliveMessage [paddingEntry 471]).size = 499 ∧
      ¬ AnnouncesSurrogate .version1 (create kLocalIfAddr) (openSockets 10000)
        (aliveMessage [paddingEntry 471])) := by
  have hrouted : ∀ n, Routed .version1 (create kLocalIfAddr) (openSockets 10000)
      (aliveMessage [paddingEntry n]) ⟨localhost 10000, localhost 10001⟩
      LinkLibrary.version1.multicastEndpointV4 :=
    fun n ↦ ⟨⟨_, rfl, rfl⟩, rfl, rfl⟩
  refine ⟨⟨by decide +kernel, fun h ↦ ?_⟩, ⟨by decide +kernel, fun h ↦ ?_⟩⟩
  · obtain ⟨-, s, -, hshows⟩ := h.form
      (LinkLibrary.discoveryMessage 1 5 default (payloadBytes [paddingEntry 470]))
      (by decide +kernel)
    have hlast := (showsEndpoint_append_iff
      (show (LinkLibrary.discoveryMessage 1 5 default []).length = 20 from rfl)).mp hshows
    cases hlast
  · have hsilent := h.refused _ _ (hrouted 471) (by decide +kernel)
    revert hsilent
    decide +kernel

end TunnelGateway

end LinkExtender
