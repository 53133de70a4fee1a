import H2Go.NetURL.Impl

/-!
This module contains the parser of data source names and the settings a connection sends to the
server.
-/

namespace H2Go

open Digits Strings Utf8

/--
The tables of Unicode that the model does not look into: the upper case of a rune outside of ASCII
and the representative of its case folding orbit.
-/
class UnicodeTables where
  upper : Nat → Nat
  fold : Nat → Nat

/--
The order in which a `range` loop visits a map.
-/
structure MapOrder where
  range : {β : Type} → List (GoString × β) → List (GoString × β)
  perm : ∀ {β : Type} (m : List (GoString × β)), (range m).Perm m

def MapOrder.inserted : MapOrder where
  range m := m
  perm m := List.Perm.refl m

section

variable [UnicodeTables]

def upperRune (r : Nat) : Nat :=
  if 97 ≤ r ∧ r ≤ 122 then r - 32 else if r < 0x80 then r else UnicodeTables.upper r

def foldRune (r : Nat) : Nat :=
  if 65 ≤ r ∧ r ≤ 90 then r + 32 else if r < 0x80 then r else UnicodeTables.fold r

def toUpper (s : GoString) : GoString := (runes s).flatMap (fun r => encodeRune (upperRune r))

def equalFold (s t : GoString) : Bool := (runes s).map foldRune = (runes t).map foldRune

end

def atoi (s : GoString) : Except Err Int :=
  let (neg, digits) := splitSign s
  if digits = [] ∨ ¬ digits.all isDecimal then
    .error (.errorf "strconv.Atoi: parsing %q: invalid syntax" [.str s])
  else
    let v : Int := if neg then -textValue 10 digits else textValue 10 digits
    if v < -2 ^ 63 ∨ v ≥ 2 ^ 63 then
      .error (.errorf "strconv.Atoi: parsing %q: value out of range" [.str s])
    else
      .ok v

def trimPrefix (pre s : GoString) : GoString := if pre.isPrefixOf s then s.drop pre.length else s

/--
A map of settings, in the order they were inserted.
-/
abbrev Params := List (GoString × GoString)

structure ParsedDSN where
  host : GoString
  port : GoString
  database : GoString
  user : GoString
  password : GoString
  params : Params
  originalURL : GoString
  tls : Bool
  deriving DecidableEq, Repr

def defaultTCPPortStr : GoString := ascii "9092"

def ParsedDSN.empty (input : GoString) : ParsedDSN :=
  { host := [], port := defaultTCPPortStr, database := [], user := [], password := [], params := [],
    originalURL := input, tls := false }

def forwardSettings : List GoString :=
  [ascii "ACCESS_MODE_DATA", ascii "FORBID_CREATION", ascii "IFEXISTS", ascii "INIT",
    ascii "LOCK_TIMEOUT", ascii "MODE"]

def localOnlySettings : List GoString :=
  [ascii "AUTO_RECONNECT", ascii "AUTO_SERVER", ascii "CIPHER", ascii "DB_CLOSE_DELAY",
    ascii "DB_CLOSE_ON_EXIT", ascii "FILE_LOCK", ascii "JMX", ascii "NETWORK_TIMEOUT",
    ascii "NON_KEYWORDS", ascii "OLD_INFORMATION_SCHEMA", ascii "OPEN_NEW", ascii "PAGE_SIZE",
    ascii "RECOVER", ascii "STATEMENT_CACHE_SIZE", ascii "TRACE_LEVEL_FILE",
    ascii "TRACE_LEVEL_SYSTEM_OUT"]

/--
The loop of `splitSettingSegments` with the segments that are complete and the one that is being
read.
-/
def splitSettingSegments.go (segs : List GoString) (b s : GoString) : List GoString :=
  match s with
  | [] => segs ++ [b]
  | [c] => if c = semicolonByte then go (segs ++ [b]) [] [] else go segs (b ++ [c]) []
  | c :: d :: s =>
    if c = backslashByte then
      go segs (b ++ [d]) s
    else if c = semicolonByte then
      go (segs ++ [b]) [] (d :: s)
    else
      go segs (b ++ [c]) (d :: s)

def splitSettingSegments (s : GoString) : List GoString :=
  if s = [] then [[]] else splitSettingSegments.go [] [] s

section

variable [UnicodeTables]

def isTruthy (v : GoString) : Bool :=
  toUpper (trimSpace v) ∈ [ascii "1", ascii "TRUE", ascii "YES", ascii "ON"]

/--
At most one key of `params` is equal to `key` up to case, so the order of the loop does not matter.
-/
def setParam (params : Params) (key value : GoString) : Except Err Params :=
  match params.find? (fun kv => equalFold kv.1 key) with
  | some (_, v) =>
    if v ≠ value then
      .error (.errorf "duplicate DSN setting %q with conflicting values %q and %q"
        [.str key, .str v, .str value])
    else
      .ok params
  | none => .ok (params ++ [(key, value)])

/--
The loop of `validateParams` with the flag and the unknown settings found so far.
-/
def validateParams.go (ignoreUnknown : Bool) (unknown : List GoString) (params : Params)
    : Except Err (Bool × List GoString) :=
  match params with
  | [] => .ok (ignoreUnknown, unknown)
  | (k, v) :: params =>
    if toUpper k = ascii "IGNORE_UNKNOWN_SETTINGS" then
      go (isTruthy v) unknown params
    else if toUpper k = ascii "USER" ∨ toUpper k = ascii "PASSWORD" then
      go ignoreUnknown unknown params
    else if toUpper k = ascii "QUERY_TIMEOUT" then
      match atoi (trimSpace v) with
      | .error _ =>
        .error (.errorf "invalid DSN setting QUERY_TIMEOUT=%q: must be a non-negative integer (milliseconds)"
          [.str v])
      | .ok _ => go ignoreUnknown unknown params
    else if toUpper k ∉ forwardSettings ∧ toUpper k ∉ localOnlySettings then
      go ignoreUnknown (unknown ++ [k]) params
    else
      go ignoreUnknown unknown params

def bytesLe (s t : GoString) : Bool :=
  match s, t with
  | [], _ => true
  | _ :: _, [] => false
  | a :: s, b :: t => a.toNat < b.toNat || (a = b && bytesLe s t)

def validateParams (o : MapOrder) (params : Params) : Except Err Unit := do
  let (ignoreUnknown, unknown) ← validateParams.go false [] (o.range params)
  if unknown = [] ∨ ignoreUnknown then
    .ok ()
  else
    .error (.errorf "unsupported DSN setting(s): %s (prefix the DSN with IGNORE_UNKNOWN_SETTINGS=TRUE to allow unknown settings, as with H2 JDBC)"
      [.str (List.intercalate (ascii ", ") (unknown.mergeSort bytesLe))])

def validate (o : MapOrder) (cfg : ParsedDSN) : Except Err ParsedDSN := do
  if cfg.host = [] then
    .error (.errorf "missing host in DSN" [])
  else
    let port ← (atoi cfg.port).mapError (Err.wrapf "invalid port %q: %w" [.str cfg.port])
    if port < 1 ∨ port > 65535 then
      .error (.errorf "invalid port %q: must be in range 1-65535" [.str cfg.port])
    else
      validateParams o cfg.params
      .ok cfg

/--
The host and the port of `u`, the port is left alone if `u` has none.
-/
def ParsedDSN.setAddress (cfg : ParsedDSN) (u : NetURL.URL) : ParsedDSN :=
  { cfg with host := u.hostname, port := if u.port ≠ [] then u.port else cfg.port }

/--
The credentials are kept in the settings and extracted from them as well.
-/
def ParsedDSN.setCredential (cfg : ParsedDSN) (key val : GoString) : ParsedDSN :=
  if equalFold key (ascii "USER") then
    { cfg with user := val }
  else if equalFold key (ascii "PASSWORD") then
    { cfg with password := val }
  else
    cfg

def parseJDBC.go (cfg : ParsedDSN) (parts : List GoString) : Except Err ParsedDSN :=
  match parts with
  | [] => .ok cfg
  | p :: parts =>
    if p = [] then
      go cfg parts
    else
      match cut equalsByte p with
      | (_, none) =>
        .error (.errorf "invalid DSN setting %q: expected key=value form (H2 rejects bare settings with URL format error 90046)"
          [.str p])
      | (key, some val) => do
        let params ← setParam cfg.params key val
        go ({ cfg with params }.setCredential key val) parts

def parseJDBC (o : MapOrder) (input : GoString) : Except Err ParsedDSN :=
  let inner := trimPrefix (ascii "jdbc:h2:") input
  if (ascii "mem:").isPrefixOf inner ∨ (ascii "file:").isPrefixOf inner then
    .error (.errorf "unsupported H2 connection mode: %q (only tcp and ssl are supported)"
      [.str inner])
  else if ¬ (ascii "ssl:").isPrefixOf inner ∧ ¬ (ascii "tcp:").isPrefixOf inner then
    .error (.errorf "unsupported H2 protocol: expected tcp:// or ssl://, got %q" [.str inner])
  else do
    let u ← (NetURL.parse inner).mapError (Err.wrapf "invalid URL after jdbc:h2: prefix: %w" [])
    let cfg := { ParsedDSN.empty input with tls := (ascii "ssl:").isPrefixOf inner }.setAddress u
    let parts := splitSettingSegments u.path
    let cfg := { cfg with database := trimPrefix (ascii "/") (parts.headD []) }
    let cfg ← parseJDBC.go cfg parts.tail
    validate o cfg

/--
The loop of `parseNative` over the query, only the first value of a key is looked at.
-/
def parseNative.go (params : Params) (q : NetURL.Values) : Except Err Params :=
  match q with
  | [] => .ok params
  | (k, vals) :: q =>
    match vals with
    | [] => go params q
    | val :: _ => do
      let params ← setParam params k val
      go params q

def ParsedDSN.setUserinfo (cfg : ParsedDSN) (user : Option NetURL.Userinfo) : ParsedDSN :=
  match user with
  | none => cfg
  | some user => { cfg with user := user.username, password := user.password.getD cfg.password }

def parseNative (o : MapOrder) (input : GoString) : Except Err ParsedDSN := do
  let u ← (NetURL.parse input).mapError (Err.wrapf "invalid native DSN: %w" [])
  let cfg := (ParsedDSN.empty input).setAddress u
  let cfg := { cfg with database := trimPrefix (ascii "/") u.path }.setUserinfo u.user
  let cfg := { cfg with tls := (ascii "h2+ssl://").isPrefixOf input }
  let params ← parseNative.go cfg.params (o.range u.query)
  validate o { cfg with params }

def parseDSN (o : MapOrder) (input : GoString) : Except Err ParsedDSN :=
  if input = [] then
    .error (.errorf "empty DSN" [])
  else if (ascii "jdbc:h2:").isPrefixOf input then
    parseJDBC o input
  else if (ascii "h2://").isPrefixOf input ∨ (ascii "h2+tcp://").isPrefixOf input
      ∨ (ascii "h2+ssl://").isPrefixOf input then
    parseNative o input
  else
    .error (.errorf "unsupported DSN scheme: %q (supported: jdbc:h2:, h2://, h2+tcp://, h2+ssl://)"
      [.str input])

def sessionPropertyMap (o : MapOrder) (params : Params) : Params :=
  let out := (o.range params).filterMap (fun kv =>
    let up := toUpper kv.1
    if up = ascii "IGNORE_UNKNOWN_SETTINGS" then
      none
    else if up ∈ forwardSettings then
      some (up, kv.2)
    else
      none)
  out.mergeSort (fun a b => bytesLe a.1 b.1)

end

end H2Go
