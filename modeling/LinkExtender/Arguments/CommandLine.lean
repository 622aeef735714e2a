import LinkExtender.Arguments.Grammar

/-!
# Whole command lines

`parseArgs` reads a command line item by item.  Each item is taken up whatever comes
after it, and the first that cannot be ends the reading.  A configuration can be written
as a command line that is read back as the same configuration.
-/

namespace LinkExtender

/-- What the arguments stand for. -/
inductive Item where
  | port (value : List Char)
  | peer (value : List Char)
  | shm
deriving DecidableEq

def Item.words : Item → List (List Char)
  | port value => ["--port".toList, value]
  | peer value => ["--peer".toList, value]
  | shm => ["--shm".toList]

namespace AddressLibrary

def portOf : Item → Option UInt16
  | .port value => (stoul value).toOption.map UInt16.ofNat
  | _ => none

def peerOf (names : AddressLibrary) : Item → Option UdpEndpoint
  | .peer value => (names.parseEndpoint value).toOption.map ParsedEndpoint.endpoint
  | _ => none

/-- The value of the item can be read. -/
def Accepts (names : AddressLibrary) : Item → Prop
  | .port value => ∃ port, stoul value = .ok port
  | .peer value => ∃ parsed, names.parseEndpoint value = .ok parsed
  | .shm => True

/-- The last port counts, and all peers do, in their order. -/
def assembled (names : AddressLibrary) (config : Config) (items : List Item) : Config where
  tunnelPort := (items.filterMap portOf).getLast?.getD config.tunnelPort
  peers := config.peers ++ items.filterMap names.peerOf
  useShm := config.useShm || items.contains .shm

/-- `args` are the words of accepted items, and behind them `rest`. -/
def Begins (names : AddressLibrary) (args : List (List Char)) (items : List Item)
    (rest : List (List Char)) : Prop :=
  args = items.flatMap Item.words ++ rest ∧ ∀ item ∈ items, names.Accepts item

/-- How the reading ends at the first of the arguments that are left. -/
inductive Fault (names : AddressLibrary) : List (List Char) → ArgsExit → Prop
  | help {arg : List Char} {args : List (List Char)}
      (harg : arg = "--help".toList ∨ arg = "-h".toList) : Fault names (arg :: args) (.exit 0)
  | noPort : Fault names ["--port".toList]
      (.thrown (.invalidArgument "--port requires a value".toList))
  | noPeer : Fault names ["--peer".toList]
      (.thrown (.invalidArgument "--peer requires a value".toList))
  | badPort {value : List Char} {args : List (List Char)} {e : StdException}
      (hvalue : stoul value = .error e) : Fault names ("--port".toList :: value :: args) (.thrown e)
  | badPeer {value : List Char} {args : List (List Char)} {e : StdException}
      (hvalue : names.parseEndpoint value = .error e) :
      Fault names ("--peer".toList :: value :: args) (.thrown e)
  | unknown {arg : List Char} {args : List (List Char)}
      (hhelp : ¬ (arg = "--help".toList ∨ arg = "-h".toList)) (hport : arg ≠ "--port".toList)
      (hpeer : arg ≠ "--peer".toList) (hshm : arg ≠ "--shm".toList) :
      Fault names (arg :: args) (.thrown (.invalidArgument ("unknown argument: ".toList ++ arg)))

/-! ## One item -/

variable {names : AddressLibrary}

theorem assembled_nil (config : Config) : names.assembled config [] = config := by
  simp [assembled]

theorem assembled_append (config : Config) (first items : List Item) :
    names.assembled config (first ++ items) =
      names.assembled (names.assembled config first) items := by
  simp [assembled, List.getLast?_append, Option.getD_or, Bool.or_assoc]

theorem parseArgs_words (config : Config) {item : Item} (h : names.Accepts item)
    (args : List (List Char)) :
    names.parseArgs config (item.words ++ args) =
      names.parseArgs (names.assembled config [item]) args := by
  cases item with
  | port value =>
      obtain ⟨port, hvalue⟩ := h
      have hassembled : names.assembled config [.port value] =
          { config with tunnelPort := UInt16.ofNat port } := by
        simp [assembled, portOf, peerOf, hvalue, Except.toOption]
      rw [hassembled, Item.words, List.cons_append, parseArgs.eq_def]
      simp [hvalue]
  | peer value =>
      obtain ⟨parsed, hvalue⟩ := h
      have hassembled : names.assembled config [.peer value] =
          { config with peers := config.peers ++ [parsed.endpoint] } := by
        simp [assembled, portOf, peerOf, hvalue, Except.toOption]
      rw [hassembled, Item.words, List.cons_append, parseArgs.eq_def]
      simp [hvalue]
  | shm =>
      have hassembled : names.assembled config [.shm] = { config with useShm := true } := by
        simp [assembled, portOf, peerOf]
      rw [hassembled, Item.words, List.cons_append, parseArgs.eq_def]
      simp

theorem parseArgs_fault (config : Config) {args : List (List Char)} {exit : ArgsExit}
    (h : names.Fault args exit) : names.parseArgs config args = .error exit := by
  rw [parseArgs.eq_def]
  cases h with
  | help harg => exact if_pos harg
  | noPort | noPeer => rfl
  | badPort hvalue => simp [hvalue]
  | badPeer hvalue => simp [hvalue]
  | unknown hhelp hport hpeer hshm =>
      simp only [if_neg hhelp, if_neg hport, if_neg hpeer, if_neg hshm]

/-! ## All of them -/

theorem Begins.nil (args : List (List Char)) : names.Begins args [] args :=
  ⟨rfl, by simp⟩

theorem Begins.cons {item : Item} {items : List Item} {args rest : List (List Char)}
    (hitem : names.Accepts item) (h : names.Begins args items rest) :
    names.Begins (item.words ++ args) (item :: items) rest := by
  obtain ⟨rfl, hitems⟩ := h
  exact ⟨by simp, List.forall_mem_cons.mpr ⟨hitem, hitems⟩⟩

theorem parseArgs_of_begins {items : List Item} {args rest : List (List Char)}
    (h : names.Begins args items rest) (config : Config) :
    names.parseArgs config args = names.parseArgs (names.assembled config items) rest := by
  obtain ⟨rfl, hitems⟩ := h
  induction items generalizing config with
  | nil => rw [assembled_nil, List.flatMap_nil, List.nil_append]
  | cons item items ih =>
      obtain ⟨hitem, hitems⟩ := List.forall_mem_cons.mp hitems
      rw [List.flatMap_cons, List.append_assoc, parseArgs_words config hitem, ih _ hitems,
        ← assembled_append]
      rfl

/-- Items up to the end, or up to an argument at which the reading ends. -/
theorem exists_begins (names : AddressLibrary) (args : List (List Char)) :
    ∃ items rest, names.Begins args items rest ∧ (rest = [] ∨ ∃ exit, names.Fault rest exit) := by
  have hstop : ∀ {args exit}, names.Fault args exit → ∃ items rest,
      names.Begins args items rest ∧ (rest = [] ∨ ∃ exit, names.Fault rest exit) :=
    fun hfault => ⟨[], _, .nil _, Or.inr ⟨_, hfault⟩⟩
  induction ({} : Config), args using parseArgs.induct names with
  | case1 config => exact ⟨[], [], .nil _, Or.inl rfl⟩
  | case2 config arg args harg => exact hstop (.help harg)
  | case3 config => exact hstop .noPort
  | case4 config value args e hvalue => exact hstop (.badPort hvalue)
  | case5 config value args port hvalue _ ih =>
      obtain ⟨items, rest, hbegins, hrest⟩ := ih
      have hitem : names.Accepts (.port value) := ⟨port, hvalue⟩
      exact ⟨.port value :: items, rest, hbegins.cons hitem, hrest⟩
  | case6 config => exact hstop .noPeer
  | case7 config value args e hvalue => exact hstop (.badPeer hvalue)
  | case8 config value args parsed hvalue _ _ ih =>
      obtain ⟨items, rest, hbegins, hrest⟩ := ih
      have hitem : names.Accepts (.peer value) := ⟨parsed, hvalue⟩
      exact ⟨.peer value :: items, rest, hbegins.cons hitem, hrest⟩
  | case9 config args _ _ _ ih =>
      obtain ⟨items, rest, hbegins, hrest⟩ := ih
      have hitem : names.Accepts .shm := trivial
      exact ⟨.shm :: items, rest, hbegins.cons hitem, hrest⟩
  | case10 config arg args hhelp hport hpeer hshm =>
      exact hstop (.unknown hhelp hport hpeer hshm)

/-- What is read, and where the reading ends otherwise. -/
theorem parseArgs_eq_iff (names : AddressLibrary) (config c : Config) (args : List (List Char))
    (exit : ArgsExit) :
    (names.parseArgs config args = .ok c ↔
      ∃ items, names.Begins args items [] ∧ c = names.assembled config items) ∧
    (names.parseArgs config args = .error exit ↔
      ∃ items rest, names.Begins args items rest ∧ names.Fault rest exit) := by
  have hok : ∀ {items}, names.Begins args items [] →
      names.parseArgs config args = .ok (names.assembled config items) := fun hbegins => by
    rw [parseArgs_of_begins hbegins]
    rfl
  have herror : ∀ {items rest exit}, names.Begins args items rest → names.Fault rest exit →
      names.parseArgs config args = .error exit := fun hbegins hfault => by
    rw [parseArgs_of_begins hbegins, parseArgs_fault _ hfault]
  obtain ⟨items, rest, hbegins, hrest⟩ := exists_begins names args
  constructor
  · constructor
    · intro h
      rcases hrest with rfl | ⟨exit', hfault⟩
      · rw [hok hbegins] at h
        exact ⟨items, hbegins, (Except.ok.inj h).symm⟩
      · rw [herror hbegins hfault] at h
        cases h
    · rintro ⟨items', hbegins', rfl⟩
      exact hok hbegins'
  · constructor
    · intro h
      rcases hrest with rfl | ⟨exit', hfault⟩
      · rw [hok hbegins] at h
        cases h
      · rw [herror hbegins hfault] at h
        cases h
        exact ⟨items, rest, hbegins, hfault⟩
    · rintro ⟨items', rest', hbegins', hfault⟩
      exact herror hbegins' hfault

/-! ## A configuration as a command line -/

/-- What asio prints for an endpoint. -/
def text (render : IpAddress → List Char) (endpoint : UdpEndpoint) : List Char :=
  if endpoint.address.isV4 then
    render endpoint.address ++ ':' :: Nat.toDigits 10 endpoint.port.toNat
  else '[' :: (render endpoint.address ++ ']' :: ':' :: Nat.toDigits 10 endpoint.port.toNat)

def items (render : IpAddress → List Char) (config : Config) : List Item :=
  .port (Nat.toDigits 10 config.tunnelPort.toNat) ::
    (config.peers.map fun peer => .peer (text render peer)) ++
    if config.useShm then [.shm] else []

def commandLine (render : IpAddress → List Char) (config : Config) : List (List Char) :=
  (items render config).flatMap Item.words

/-- The text of an address is read as this address, and has no bracket of its own. -/
structure Rendered (names : AddressLibrary) (render : IpAddress → List Char) (a : IpAddress) :
    Prop where
  read : names.makeAddress (render a) = some a
  ne_nil : render a ≠ []
  noBrackets : '[' ∉ render a ∧ ']' ∉ render a

variable {render : IpAddress → List Char}

theorem isPort_toDigits (port : UInt16) : IsPort (Nat.toDigits 10 port.toNat) port :=
  ⟨Nat.toDigits_ne_nil, fun _ hc => Nat.isDigit_of_mem_toDigits (by decide) (by decide) hc,
    Nat.ofDigitChars_ten_toDigits⟩

theorem parseEndpoint_of_denotes {s : List Char} {a : IpAddress} {port : UInt16}
    (h : names.Denotes s a port) : names.parseEndpoint s = .ok (.numeric ⟨a, port⟩) := by
  obtain ⟨host, portStr, hsplit, hliteral, hport, -⟩ := denotes_iff.mp h
  rw [parseEndpoint_of_number hsplit hliteral hport.not_noNumber, stoul_of_isPort hport]
  simp

theorem denotes_text {endpoint : UdpEndpoint} (h : names.Rendered render endpoint.address) :
    names.Denotes (text render endpoint) endpoint.address endpoint.port := by
  obtain ⟨address, port⟩ := endpoint
  obtain ⟨hread, hne, hopen, hclose⟩ := h
  have hport := isPort_toDigits port
  cases address with
  | v4 address =>
      have hhead : (render (.v4 address)).head? ≠ some '[' := fun h =>
        hopen (List.mem_of_mem_head? h)
      exact .v4 hread hne hhead hport
  | v6 bytes scopeId => exact .v6 hread hclose hport

theorem filterMap_peerOf {peers : List UdpEndpoint}
    (h : ∀ peer ∈ peers, names.Rendered render peer.address) :
    (peers.map fun peer => Item.peer (text render peer)).filterMap names.peerOf = peers := by
  induction peers with
  | nil => rfl
  | cons peer peers ih =>
      obtain ⟨hpeer, hpeers⟩ := List.forall_mem_cons.mp h
      have hhead : names.peerOf (.peer (text render peer)) = some peer := by
        rw [peerOf, parseEndpoint_of_denotes (denotes_text hpeer)]
        rfl
      rw [List.map_cons, List.filterMap_cons_some hhead, ih hpeers]

theorem accepts_of_mem_items {config : Config}
    (h : ∀ peer ∈ config.peers, names.Rendered render peer.address) :
    ∀ item ∈ items render config, names.Accepts item := by
  intro item hitem
  simp only [items, List.cons_append, List.mem_cons, List.mem_append, List.mem_map] at hitem
  rcases hitem with rfl | ⟨peer, hpeer, rfl⟩ | hshm
  · exact ⟨_, stoul_of_isPort (isPort_toDigits config.tunnelPort)⟩
  · exact ⟨_, parseEndpoint_of_denotes (denotes_text (h peer hpeer))⟩
  · have hitem : item = .shm := by
      split at hshm
      · exact List.mem_singleton.mp hshm
      · exact absurd hshm List.not_mem_nil
    rw [hitem]
    trivial

theorem assembled_items {config : Config}
    (h : ∀ peer ∈ config.peers, names.Rendered render peer.address) :
    names.assembled {} (items render config) = config := by
  have hpeers := filterMap_peerOf h
  obtain ⟨tunnelPort, peers, useShm⟩ := config
  have hport : portOf (.port (Nat.toDigits 10 tunnelPort.toNat)) = some tunnelPort := by
    rw [portOf, stoul_of_isPort (isPort_toDigits tunnelPort)]
    simp [Except.toOption]
  have hflag : portOf .shm = none := rfl
  have hnone : (peers.map fun peer => Item.peer (text render peer)).filterMap portOf = [] := by
    simp [List.filterMap_eq_nil_iff, portOf]
  have hports : (items render ⟨tunnelPort, peers, useShm⟩).filterMap portOf = [tunnelPort] := by
    cases useShm <;> simp [items, hport, hnone, hflag]
  have hpeers : (items render ⟨tunnelPort, peers, useShm⟩).filterMap names.peerOf = peers := by
    cases useShm <;> simpa [items, List.filterMap_cons, peerOf] using hpeers
  have hshm : (items render ⟨tunnelPort, peers, useShm⟩).contains .shm = useShm := by
    cases useShm <;> simp [items]
  rw [assembled, hports, hpeers, hshm]
  rfl

/-- A configuration is read back from its command line. -/
theorem parseArgs_commandLine {config : Config}
    (h : ∀ peer ∈ config.peers, names.Rendered render peer.address) :
    names.parseArgs {} (commandLine render config) = .ok config := by
  have hbegins : names.Begins (commandLine render config) (items render config) [] :=
    ⟨(List.append_nil _).symm, accepts_of_mem_items h⟩
  rw [parseArgs_of_begins hbegins, assembled_items h]
  rfl

/-- How asio writes the two loopback addresses. -/
def renderLoopback (address : IpAddress) : List Char :=
  if address.isV4 then "127.0.0.1".toList else "::1".toList

def loopback6 : IpAddress :=
  (loopback.makeAddress "::1".toList).getD (localhost 0).address

theorem rendered_loopback :
    loopback.Rendered renderLoopback (localhost 0).address ∧
      loopback.Rendered renderLoopback loopback6 := by
  refine ⟨⟨?_, ?_, ?_⟩, ?_, ?_, ?_⟩ <;> decide +kernel

theorem parseArgs_commandLine_loopback :
    loopback.parseArgs {} (commandLine renderLoopback
        ⟨20910, [localhost 20909, ⟨loopback6, 20911⟩], true⟩) =
      .ok ⟨20910, [localhost 20909, ⟨loopback6, 20911⟩], true⟩ := by
  apply parseArgs_commandLine
  simp only [List.mem_cons, List.not_mem_nil, or_false]
  rintro peer (rfl | rfl)
  · exact rendered_loopback.1
  · exact rendered_loopback.2

end AddressLibrary

end LinkExtender
