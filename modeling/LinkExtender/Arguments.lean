import LinkExtender.Library.Separators
import LinkExtender.Wire

/-!
# The command line

`parseEndpoint` and `parseArgs` of `main.cpp`.  Numeric addresses and host names are
read by asio, so the parsers are modelled over any `AddressLibrary`; texts are lists of
characters.  Ports go through `std::stoul` and a cast to 16 bits.
-/

namespace LinkExtender

open Separators

inductive StdException where
  | invalidArgument (what : List Char)
  | outOfRange (what : List Char)
deriving DecidableEq

structure AddressLibrary where
  /-- `asio::ip::make_address`, `none` where it sets the error code. -/
  makeAddress : List Char → Option IpAddress
  /-- `resolver.resolve` of a host and a port, or the message of the error code. -/
  resolve : List Char → List Char → Except (List Char) (List UdpEndpoint)

/-! ## Ports -/

/-- `isspace` in the C locale. -/
def isSpace (c : Char) : Bool :=
  [' ', '\t', '\n', Char.ofNat 11, Char.ofNat 12, '\r'].contains c

/-- `ULONG_MAX` on Unix. -/
def ulongMax : ℕ := 2 ^ 64 - 1

/-- The sign that `strtoul` skips, after white space: whether it is a minus, and the
text behind it. -/
def skipSign (str : List Char) : Bool × List Char :=
  match str.dropWhile isSpace with
  | '+' :: rest => (false, rest)
  | '-' :: rest => (true, rest)
  | rest => (false, rest)

/-- `std::stoul` in base ten.  What follows the digits is ignored, and a minus sign
negates in the unsigned type. -/
def stoul (str : List Char) : Except StdException ℕ :=
  let (negative, rest) := skipSign str
  let digits := rest.takeWhile Char.isDigit
  let value := Nat.ofDigitChars 10 digits 0
  if digits = [] then .error (.invalidArgument "stoul".toList)
  else if ulongMax < value then .error (.outOfRange "stoul".toList)
  else .ok (if negative then (ulongMax + 1 - value) % (ulongMax + 1) else value)

/-! ## Endpoints -/

/-- `[addr]:port`. -/
def splitBracketed (s : List Char) : Except StdException (List Char × List Char) :=
  match splitFirst ']' s.tail with
  | none => .error (.invalidArgument ("peer has unmatched '[', got: ".toList ++ s))
  | some (host, rest) =>
      if rest.head? = some ':' then .ok (host, rest.tail)
      else .error (.invalidArgument ("peer must be in [ipv6]:port form, got: ".toList ++ s))

/-- `addr:port`. -/
def splitPlain (s : List Char) : Except StdException (List Char × List Char) :=
  match splitLast ':' s with
  | none => .error (.invalidArgument ("peer must be in host:port form, got: ".toList ++ s))
  | some (host, portStr) =>
      if host = [] ∨ portStr = [] then
        .error (.invalidArgument ("peer must be in host:port form, got: ".toList ++ s))
      else .ok (host, portStr)

/-- The first half of `parseEndpoint`: the host and the port as texts. -/
def splitEndpoint (s : List Char) : Except StdException (List Char × List Char) :=
  if s.head? = some '[' then splitBracketed s else splitPlain s

/-- The two returns of `parseEndpoint`: of an address that was given as such, and of the
first one that a host name stands for. -/
inductive ParsedEndpoint where
  | numeric (endpoint : UdpEndpoint)
  | resolved (endpoint : UdpEndpoint)
deriving DecidableEq

namespace ParsedEndpoint

def endpoint : ParsedEndpoint → UdpEndpoint
  | numeric endpoint | resolved endpoint => endpoint

end ParsedEndpoint

namespace AddressLibrary

def parseEndpoint (names : AddressLibrary) (s : List Char) :
    Except StdException ParsedEndpoint :=
  match splitEndpoint s with
  | .error e => .error e
  | .ok (_, []) => .error (.invalidArgument ("peer is missing port, got: ".toList ++ s))
  | .ok (host, portStr) =>
      match names.makeAddress host with
      | some addr =>
          match stoul portStr with
          | .error e => .error e
          | .ok port => .ok (.numeric ⟨addr, UInt16.ofNat port⟩)
      | none =>
          match names.resolve host portStr with
          | .error message =>
              .error (.invalidArgument
                ("cannot resolve '".toList ++ host ++ "': ".toList ++ message))
          | .ok [] =>
              .error (.invalidArgument
                ("no addresses found for '".toList ++ host ++ "'".toList))
          | .ok (endpoint :: _) => .ok (.resolved endpoint)

end AddressLibrary

/-! ## Arguments -/

/-- `Controller::Config`. -/
structure Config where
  tunnelPort : UInt16 := 20909
  peers : List UdpEndpoint := []
  useShm : Bool := false
deriving DecidableEq

/-- How `parseArgs` ends without a configuration. -/
inductive ArgsExit where
  | thrown (e : StdException)
  | exit (code : ℕ)
deriving DecidableEq

namespace AddressLibrary

/-- The loop of `parseArgs` over the arguments that are left. -/
def parseArgs (names : AddressLibrary) (config : Config) :
    List (List Char) → Except ArgsExit Config
  | [] => .ok config
  | arg :: args =>
      if arg = "--help".toList ∨ arg = "-h".toList then .error (.exit 0)
      else if arg = "--port".toList then
        match args with
        | [] => .error (.thrown (.invalidArgument "--port requires a value".toList))
        | value :: args =>
            match stoul value with
            | .error e => .error (.thrown e)
            | .ok port => names.parseArgs { config with tunnelPort := UInt16.ofNat port } args
      else if arg = "--peer".toList then
        match args with
        | [] => .error (.thrown (.invalidArgument "--peer requires a value".toList))
        | value :: args =>
            match names.parseEndpoint value with
            | .error e => .error (.thrown e)
            | .ok parsed =>
                names.parseArgs { config with peers := config.peers ++ [parsed.endpoint] } args
      else if arg = "--shm".toList then names.parseArgs { config with useShm := true } args
      else .error (.thrown (.invalidArgument ("unknown argument: ".toList ++ arg)))

end AddressLibrary

end LinkExtender
