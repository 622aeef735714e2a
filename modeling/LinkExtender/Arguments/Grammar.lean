import LinkExtender.Arguments
import Mathlib.Data.List.TakeWhile

/-!
# What the command line accepts

The grammar of endpoints, `x:d` with an IPv4 literal and `[x]:d` with an IPv6 literal,
against `parseEndpoint`.  The two part where `std::stoul` reads more than a port, and
where a literal stands in the form of the other family.
-/

namespace LinkExtender

open Separators

/-- `d` is the decimal number `p`, possibly with leading zeros. -/
def IsPort (d : List Char) (p : UInt16) : Prop :=
  d ≠ [] ∧ (∀ c ∈ d, c.isDigit = true) ∧ Nat.ofDigitChars 10 d 0 = p.toNat

/-- There is no digit where `stoul` begins to read. -/
def NoNumber (d : List Char) : Prop :=
  (skipSign d).2.takeWhile Char.isDigit = []

instance (d : List Char) : Decidable (NoNumber d) := inferInstanceAs (Decidable (_ = _))

namespace AddressLibrary

variable {names : AddressLibrary}

/-- `s` is a numeric endpoint.  A host that begins with a bracket is none of the first
form, and the first closing bracket ends a host of the second. -/
inductive Denotes (names : AddressLibrary) : List Char → IpAddress → UInt16 → Prop
  | v4 {x d : List Char} {address : UInt32} {p : UInt16}
      (hliteral : names.makeAddress x = some (.v4 address)) (hx : x ≠ [])
      (hbracket : x.head? ≠ some '[') (hport : IsPort d p) :
      Denotes names (x ++ ':' :: d) (.v4 address) p
  | v6 {x d : List Char} {bytes : Vector UInt8 16} {scopeId : UInt32} {p : UInt16}
      (hliteral : names.makeAddress x = some (.v6 bytes scopeId)) (hbracket : ']' ∉ x)
      (hport : IsPort d p) :
      Denotes names ('[' :: (x ++ ']' :: ':' :: d)) (.v6 bytes scopeId) p

/-- The host part of `s` is not a numeric address. -/
def IsNamed (names : AddressLibrary) (s : List Char) : Prop :=
  ∃ host portStr, splitEndpoint s = .ok (host, portStr) ∧ names.makeAddress host = none

structure EndpointLaw (names : AddressLibrary) (s : List Char) : Prop where
  accepts : ∀ a p, names.parseEndpoint s = .ok (.numeric ⟨a, p⟩) ↔ names.Denotes s a p
  rejects : ¬ names.IsNamed s → (∀ a p, ¬ names.Denotes s a p) →
    ∃ what, names.parseEndpoint s = .error (.invalidArgument what)

/-- The same for the value of `--port`. -/
structure PortLaw (names : AddressLibrary) (d : List Char) : Prop where
  accepts : ∀ p, (∀ config args, names.parseArgs config ("--port".toList :: d :: args) =
    names.parseArgs { config with tunnelPort := p } args) ↔ IsPort d p
  rejects : (∀ p, ¬ IsPort d p) → ∀ config args, ∃ what,
    names.parseArgs config ("--port".toList :: d :: args) =
      .error (.thrown (.invalidArgument what))

/-- The port is a port or nothing that `stoul` could read. -/
def PlainPort (d : List Char) : Prop := NoNumber d ∨ ∃ p, IsPort d p

/-- If the host part is a numeric address, then the port is none that `stoul` could read,
or a port behind a host in the form of its family. -/
def PlainEndpoint (names : AddressLibrary) (s : List Char) : Prop :=
  ∀ host portStr addr, splitEndpoint s = .ok (host, portStr) →
    names.makeAddress host = some addr →
    NoNumber portStr ∨ (∃ p, IsPort portStr p) ∧ (addr.isV4 = true ↔ s.head? ≠ some '[')

end AddressLibrary

/-! ## Ports -/

theorem stoul_of_noNumber {d : List Char} (h : NoNumber d) :
    stoul d = .error (.invalidArgument "stoul".toList) := by
  rw [NoNumber] at h
  simp [stoul, h]

theorem noNumber_of_stoul {d what : List Char}
    (h : stoul d = .error (.invalidArgument what)) : NoNumber d := by
  by_contra hnumber
  rw [NoNumber] at hnumber
  simp only [stoul, hnumber, if_false] at h
  split at h <;> cases h

theorem noNumber_nil : NoNumber [] := rfl

theorem skipSign_of_isDigit {d : List Char} (hd : ∀ c ∈ d, c.isDigit = true) :
    skipSign d = (false, d) := by
  cases d with
  | nil => rfl
  | cons c d =>
      have hdigit := hd c List.mem_cons_self
      have hspace : isSpace c = false := by
        rw [isSpace, Bool.eq_false_iff]
        intro hmem
        simp only [List.contains_iff_mem, List.mem_cons, List.not_mem_nil, or_false] at hmem
        rcases hmem with rfl | rfl | rfl | rfl | rfl | rfl <;> revert hdigit <;> decide
      have hplus : c ≠ '+' := by
        rintro rfl
        revert hdigit
        decide
      have hminus : c ≠ '-' := by
        rintro rfl
        revert hdigit
        decide
      simp only [skipSign, List.dropWhile_cons, hspace, Bool.false_eq_true, if_false]
      split
      · simp_all
      · simp_all
      · rfl

theorem stoul_of_isPort {d : List Char} {p : UInt16} (h : IsPort d p) : stoul d = .ok p.toNat := by
  obtain ⟨hne, hdigits, hvalue⟩ := h
  have hsmall : ¬ ulongMax < p.toNat := by
    have hlt := p.toNat_lt
    rw [ulongMax]
    omega
  simp [stoul, skipSign_of_isDigit hdigits, List.takeWhile_eq_self_iff.mpr hdigits, hne, hvalue,
    hsmall]

theorem IsPort.not_noNumber {d : List Char} {p : UInt16} (h : IsPort d p) : ¬ NoNumber d := by
  intro hnumber
  have hstoul := stoul_of_isPort h
  rw [stoul_of_noNumber hnumber] at hstoul
  cases hstoul

theorem IsPort.eq {d : List Char} {p q : UInt16} (hp : IsPort d p) (hq : IsPort d q) : p = q :=
  UInt16.toNat_inj.mp (hp.2.2.symm.trans hq.2.2)

/-! ## Splitting -/

/-- Where `splitEndpoint` finds the host and the port of `s`. -/
inductive Splits : List Char → List Char → List Char → Prop
  | plain {x d : List Char} (hx : x ≠ []) (hd : d ≠ []) (hbracket : x.head? ≠ some '[')
      (hcolon : ':' ∉ d) : Splits (x ++ ':' :: d) x d
  | bracketed {x d : List Char} (hbracket : ']' ∉ x) : Splits ('[' :: (x ++ ']' :: ':' :: d)) x d

theorem head?_append_cons {x : List Char} (hx : x ≠ []) (d : List Char) :
    (x ++ ':' :: d).head? = x.head? := by
  cases x with
  | nil => exact absurd rfl hx
  | cons c x => rfl

theorem splitEndpoint_of_splits {s host portStr : List Char} (h : Splits s host portStr) :
    splitEndpoint s = .ok (host, portStr) := by
  cases h with
  | plain hx hd hbracket hcolon =>
      have hsplit : splitLast ':' (host ++ ':' :: portStr) = some (host, portStr) :=
        splitLast_eq_some.mpr ⟨rfl, hcolon⟩
      rw [← head?_append_cons hx portStr] at hbracket
      rw [splitEndpoint, if_neg hbracket, splitPlain, hsplit]
      exact if_neg (not_or.mpr ⟨hx, hd⟩)
  | bracketed hbracket =>
      have hsplit := splitFirst_append_cons hbracket (':' :: portStr)
      rw [splitEndpoint, if_pos List.head?_cons, splitBracketed, List.tail_cons, hsplit]
      exact if_pos rfl

theorem splits_of_splitEndpoint {s host portStr : List Char}
    (h : splitEndpoint s = .ok (host, portStr)) : Splits s host portStr := by
  unfold splitEndpoint at h
  by_cases hs : s.head? = some '['
  · rw [if_pos hs, splitBracketed] at h
    obtain ⟨rest, rfl⟩ := List.head?_eq_some_iff.mp hs
    split at h
    · cases h
    · rename_i host' rest' hsplit
      obtain ⟨rfl, hbracket⟩ := splitFirst_eq_some.mp hsplit
      split at h
      · rename_i hcolon
        obtain ⟨portStr', rfl⟩ := List.head?_eq_some_iff.mp hcolon
        cases h
        exact .bracketed hbracket
      · cases h
  · rw [if_neg hs, splitPlain] at h
    split at h
    · cases h
    · rename_i host' portStr' hsplit
      obtain ⟨rfl, hcolon⟩ := splitLast_eq_some.mp hsplit
      split at h
      · cases h
      · rename_i hne
        obtain ⟨hx, hd⟩ := not_or.mp hne
        rw [head?_append_cons hx] at hs
        cases h
        exact .plain hx hd hs hcolon

/-- Nothing but an invalid argument is thrown before the port is read. -/
theorem exists_what_of_splitEndpoint {s : List Char} {e : StdException}
    (h : splitEndpoint s = .error e) : ∃ what, e = .invalidArgument what := by
  simp only [splitEndpoint, splitBracketed, splitPlain] at h
  repeat' split at h
  all_goals first
    | cases h; exact ⟨_, rfl⟩
    | cases h

namespace AddressLibrary

variable {names : AddressLibrary} {s host portStr : List Char} {addr : IpAddress}

/-- The grammar, read off the split. -/
theorem denotes_iff {a : IpAddress} {p : UInt16} :
    names.Denotes s a p ↔ ∃ host portStr, splitEndpoint s = .ok (host, portStr) ∧
      names.makeAddress host = some a ∧ IsPort portStr p ∧
      (a.isV4 = true ↔ s.head? ≠ some '[') := by
  constructor
  · intro h
    cases h with
    | @v4 x d address p hliteral hx hbracket hport =>
        have hcolon : ':' ∉ d := by
          intro hmem
          have hdigit := hport.2.1 ':' hmem
          revert hdigit
          decide
        have hsplit := splitEndpoint_of_splits (.plain hx hport.1 hbracket hcolon)
        refine ⟨x, d, hsplit, hliteral, hport, iff_of_true rfl ?_⟩
        rwa [head?_append_cons hx]
    | @v6 x d bytes scopeId p hliteral hbracket hport =>
        have hsplit := splitEndpoint_of_splits (.bracketed hbracket (d := d))
        exact ⟨x, d, hsplit, hliteral, hport, by simp [IpAddress.isV4]⟩
  · rintro ⟨host, portStr, hsplit, hliteral, hport, hfamily⟩
    cases splits_of_splitEndpoint hsplit with
    | plain hx hd hbracket hcolon =>
        rw [head?_append_cons hx] at hfamily
        cases a with
        | v4 address => exact .v4 hliteral hx hbracket hport
        | v6 bytes scopeId => simp [IpAddress.isV4, hbracket] at hfamily
    | bracketed hbracket =>
        cases a with
        | v4 address => simp [IpAddress.isV4] at hfamily
        | v6 bytes scopeId => exact .v6 hliteral hbracket hport

theorem parseEndpoint_of_noNumber (hsplit : splitEndpoint s = .ok (host, portStr))
    (haddr : names.makeAddress host = some addr) (hport : NoNumber portStr) :
    ∃ what, names.parseEndpoint s = .error (.invalidArgument what) := by
  cases portStr with
  | nil =>
      simp only [parseEndpoint, hsplit]
      exact ⟨_, rfl⟩
  | cons c portStr =>
      simp only [parseEndpoint, hsplit, haddr, stoul_of_noNumber hport]
      exact ⟨_, rfl⟩

theorem parseEndpoint_of_number (hsplit : splitEndpoint s = .ok (host, portStr))
    (haddr : names.makeAddress host = some addr) (hport : ¬ NoNumber portStr) :
    names.parseEndpoint s =
      match stoul portStr with
      | .error e => .error e
      | .ok port => .ok (.numeric ⟨addr, UInt16.ofNat port⟩) := by
  cases portStr with
  | nil => exact absurd noNumber_nil hport
  | cons c portStr =>
      cases hstoul : stoul (c :: portStr) <;>
        simp only [parseEndpoint, hsplit, haddr, hstoul]

/-! ## The laws -/

theorem endpointLaw_of_error {e : StdException} (hsplit : splitEndpoint s = .error e) :
    names.EndpointLaw s := by
  obtain ⟨what, rfl⟩ := exists_what_of_splitEndpoint hsplit
  have hparse : names.parseEndpoint s = .error (.invalidArgument what) := by
    simp only [parseEndpoint, hsplit]
  constructor
  · intro a p
    rw [hparse, denotes_iff]
    simp [hsplit]
  · exact fun _ _ ↦ ⟨what, hparse⟩

/-- A host name is resolved, whatever the port. -/
theorem endpointLaw_of_named (hsplit : splitEndpoint s = .ok (host, portStr))
    (haddr : names.makeAddress host = none) : names.EndpointLaw s where
  accepts := by
    intro a p
    rw [denotes_iff]
    constructor
    · intro hparse
      cases portStr with
      | nil => simp [parseEndpoint, hsplit] at hparse
      | cons c portStr =>
          simp only [parseEndpoint, hsplit, haddr] at hparse
          split at hparse <;> cases hparse
    · rintro ⟨host', portStr', hsplit', hliteral, -⟩
      obtain ⟨rfl, -⟩ := Prod.mk.inj (Except.ok.inj (hsplit.symm.trans hsplit'))
      rw [haddr] at hliteral
      cases hliteral
  rejects := fun hnumeric ↦ absurd ⟨host, portStr, hsplit, haddr⟩ hnumeric

theorem endpointLaw_iff_of_numeric (hsplit : splitEndpoint s = .ok (host, portStr))
    (haddr : names.makeAddress host = some addr) :
    names.EndpointLaw s ↔ NoNumber portStr ∨
      (∃ p, IsPort portStr p) ∧ (addr.isV4 = true ↔ s.head? ≠ some '[') := by
  have hdenotes : ∀ a p, names.Denotes s a p ↔
      a = addr ∧ IsPort portStr p ∧ (addr.isV4 = true ↔ s.head? ≠ some '[') := by
    intro a p
    rw [denotes_iff]
    constructor
    · rintro ⟨host', portStr', hsplit', hliteral, hport, hfamily⟩
      obtain ⟨rfl, rfl⟩ := Prod.mk.inj (Except.ok.inj (hsplit.symm.trans hsplit'))
      obtain rfl := Option.some.inj (haddr.symm.trans hliteral)
      exact ⟨rfl, hport, hfamily⟩
    · rintro ⟨rfl, hport, hfamily⟩
      exact ⟨host, portStr, hsplit, haddr, hport, hfamily⟩
  constructor
  · intro hlaw
    by_cases hnumber : NoNumber portStr
    · exact Or.inl hnumber
    right
    by_contra hplain
    have hnone : ∀ a p, ¬ names.Denotes s a p := by
      intro a p hdenote
      obtain ⟨-, hport, hfamily⟩ := (hdenotes a p).mp hdenote
      exact hplain ⟨⟨p, hport⟩, hfamily⟩
    have hnumeric : ¬ names.IsNamed s := by
      rintro ⟨host', portStr', hsplit', hnone'⟩
      obtain ⟨rfl, -⟩ := Prod.mk.inj (Except.ok.inj (hsplit.symm.trans hsplit'))
      rw [haddr] at hnone'
      cases hnone'
    obtain ⟨what, hparse⟩ := hlaw.rejects hnumeric hnone
    rw [parseEndpoint_of_number hsplit haddr hnumber] at hparse
    split at hparse
    · rename_i hstoul
      cases hparse
      exact hnumber (noNumber_of_stoul hstoul)
    · cases hparse
  · rintro (hnumber | ⟨⟨p, hport⟩, hfamily⟩)
    · obtain ⟨what, hparse⟩ := parseEndpoint_of_noNumber hsplit haddr hnumber
      constructor
      · intro a p
        rw [hparse, hdenotes]
        refine iff_of_false (by simp) ?_
        rintro ⟨-, hport, -⟩
        exact hport.not_noNumber hnumber
      · exact fun _ _ ↦ ⟨what, hparse⟩
    · have hparse := parseEndpoint_of_number hsplit haddr hport.not_noNumber
      simp only [stoul_of_isPort hport, UInt16.ofNat_toNat] at hparse
      constructor
      · intro a q
        rw [hparse, hdenotes]
        constructor
        · intro heq
          cases heq
          exact ⟨rfl, hport, hfamily⟩
        · rintro ⟨rfl, hq, -⟩
          rw [hport.eq hq]
      · intro _ hnone
        exact absurd ((hdenotes addr p).mpr ⟨rfl, hport, hfamily⟩) (hnone addr p)

theorem endpointLaw_iff (names : AddressLibrary) (s : List Char) :
    names.EndpointLaw s ↔ names.PlainEndpoint s := by
  cases hsplit : splitEndpoint s with
  | error e =>
      refine iff_of_true (endpointLaw_of_error hsplit) ?_
      intro host portStr addr hsplit'
      rw [hsplit] at hsplit'
      cases hsplit'
  | ok r =>
      obtain ⟨host, portStr⟩ := r
      have hsame {host' portStr' : List Char}
          (hsplit' : splitEndpoint s = .ok (host', portStr')) :
          host = host' ∧ portStr = portStr' :=
        Prod.mk.inj (Except.ok.inj (hsplit.symm.trans hsplit'))
      cases haddr : names.makeAddress host with
      | none =>
          refine iff_of_true (endpointLaw_of_named hsplit haddr) ?_
          intro host' portStr' addr hsplit' haddr'
          obtain ⟨rfl, -⟩ := hsame hsplit'
          rw [haddr] at haddr'
          cases haddr'
      | some addr =>
          rw [endpointLaw_iff_of_numeric hsplit haddr]
          constructor
          · intro h host' portStr' addr' hsplit' haddr'
            obtain ⟨rfl, rfl⟩ := hsame hsplit'
            obtain rfl := Option.some.inj (haddr.symm.trans haddr')
            exact h
          · exact fun h ↦ h host portStr addr hsplit haddr

theorem parseArgs_port (config : Config) (d : List Char) (args : List (List Char)) :
    names.parseArgs config ("--port".toList :: d :: args) =
      match stoul d with
      | .error e => .error (.thrown e)
      | .ok port => names.parseArgs { config with tunnelPort := UInt16.ofNat port } args := by
  rfl

theorem portLaw_iff (names : AddressLibrary) (d : List Char) :
    names.PortLaw d ↔ PlainPort d := by
  constructor
  · intro hlaw
    by_cases hnumber : NoNumber d
    · exact Or.inl hnumber
    right
    by_contra hnone
    obtain ⟨what, hparse⟩ := hlaw.rejects (not_exists.mp hnone) {} []
    rw [parseArgs_port] at hparse
    split at hparse
    · rename_i hstoul
      cases hparse
      exact hnumber (noNumber_of_stoul hstoul)
    · cases hparse
  · rintro (hnumber | ⟨p, hport⟩)
    · have hparse (config : Config) (args : List (List Char)) :
          names.parseArgs config ("--port".toList :: d :: args) =
            .error (.thrown (.invalidArgument "stoul".toList)) := by
        rw [parseArgs_port, stoul_of_noNumber hnumber]
      constructor
      · intro p
        refine iff_of_false ?_ (fun hport ↦ hport.not_noNumber hnumber)
        intro h
        have hfirst := h {} []
        rw [hparse] at hfirst
        cases hfirst
      · exact fun _ config args ↦ ⟨_, hparse config args⟩
    · have hparse (config : Config) (args : List (List Char)) :
          names.parseArgs config ("--port".toList :: d :: args) =
            names.parseArgs { config with tunnelPort := p } args := by
        simp only [parseArgs_port, stoul_of_isPort hport, UInt16.ofNat_toNat]
      constructor
      · intro q
        constructor
        · intro h
          have hfirst := (hparse {} []).symm.trans (h {} [])
          have hport' : p = q := congrArg Config.tunnelPort (Except.ok.inj hfirst)
          rwa [← hport']
        · intro hq config args
          rw [hparse, hport.eq hq]
      · exact fun hnone ↦ absurd hport (hnone p)

/-- Both laws hold exactly where no text is read as a port that is none, and no literal
stands in the form of the other family. -/
theorem endpointLaw_and_portLaw_iff (names : AddressLibrary) (s d : List Char) :
    (names.EndpointLaw s ↔ names.PlainEndpoint s) ∧ (names.PortLaw d ↔ PlainPort d) :=
  ⟨endpointLaw_iff names s, portLaw_iff names d⟩

/-- An address library that knows the loopback address of each family. -/
def loopback : AddressLibrary where
  makeAddress host :=
    if host = "127.0.0.1".toList then some (localhost 0).address
    else if host = "::1".toList then
      some (.v6 #v[0, 0, 0, 0, 0, 0, 0, 0, 0, 0, 0, 0, 0, 0, 0, 1] 0)
    else none
  resolve _ _ := .error "Host not found".toList

example : loopback.parseEndpoint "127.0.0.1:20909".toList = .ok (.numeric (localhost 20909)) := by
  decide +kernel

/-- A port with a letter behind it, a port that does not fit in 16 bits and an IPv6
address without brackets are all accepted, and so is a negative port. -/
theorem not_endpointLaw_and_portLaw :
    ¬ loopback.EndpointLaw "127.0.0.1:80x".toList ∧
      ¬ loopback.EndpointLaw "127.0.0.1:65616".toList ∧
      ¬ loopback.EndpointLaw "::1:80".toList ∧ ¬ loopback.PortLaw "-1".toList := by
  refine ⟨?_, ?_, ?_, ?_⟩
  · intro hlaw
    have hplain := (endpointLaw_iff ..).mp hlaw "127.0.0.1".toList "80x".toList
      (localhost 0).address (by decide +kernel) (by decide +kernel)
    rcases hplain with hnumber | ⟨⟨p, -, hdigits, -⟩, -⟩
    · revert hnumber
      decide +kernel
    · have hletter := hdigits 'x' (by decide)
      revert hletter
      decide
  · intro hlaw
    have hplain := (endpointLaw_iff ..).mp hlaw "127.0.0.1".toList "65616".toList
      (localhost 0).address (by decide +kernel) (by decide +kernel)
    rcases hplain with hnumber | ⟨⟨p, -, -, hvalue⟩, -⟩
    · revert hnumber
      decide +kernel
    · have hlarge : Nat.ofDigitChars 10 "65616".toList 0 = 65616 := by decide +kernel
      have hlt := p.toNat_lt
      rw [hlarge] at hvalue
      omega
  · intro hlaw
    have hplain := (endpointLaw_iff ..).mp hlaw "::1".toList "80".toList
      (.v6 #v[0, 0, 0, 0, 0, 0, 0, 0, 0, 0, 0, 0, 0, 0, 0, 1] 0)
      (by decide +kernel) (by decide +kernel)
    rcases hplain with hnumber | ⟨-, hfamily⟩
    · revert hnumber
      decide +kernel
    · revert hfamily
      decide
  · intro hlaw
    rcases (portLaw_iff ..).mp hlaw with hnumber | ⟨p, -, hdigits, -⟩
    · revert hnumber
      decide +kernel
    · have hsign := hdigits '-' (by decide)
      revert hsign
      decide

end AddressLibrary

end LinkExtender
