import H2Go.Text.Impl
import H2Go.Lib.Strings

/-!
This module contains the URL parser of the standard library, as far as the driver looks at its
results. It follows the release that the module file of the driver names, Go 1.22.
-/

namespace H2Go

open Digits Strings

def spaceByte : UInt8 := 32
def hashByte : UInt8 := 35
def percentByte : UInt8 := 37
def ampersandByte : UInt8 := 38
def slashByte : UInt8 := 47
def semicolonByte : UInt8 := 59
def equalsByte : UInt8 := 61
def questionByte : UInt8 := 63
def atByte : UInt8 := 64
def leftBracketByte : UInt8 := 91
def backslashByte : UInt8 := 92
def rightBracketByte : UInt8 := 93

namespace NetURL

def isLetter (b : UInt8) : Bool := (65 ≤ b.toNat && b.toNat ≤ 90) || (97 ≤ b.toNat && b.toNat ≤ 122)

def isAlnum (b : UInt8) : Bool := isLetter b || isDecimal b

inductive Encoding where
  | path
  | host
  | zone
  | userPassword
  | queryComponent
  | fragment
  deriving DecidableEq, Repr

structure Userinfo where
  username : GoString
  password : Option GoString
  deriving DecidableEq, Repr

structure URL where
  user : Option Userinfo
  host : GoString
  path : GoString
  rawQuery : GoString
  deriving DecidableEq, Repr

/--
`shouldEscape` for the modes `host` and `zone`.
-/
def shouldEscapeHost (b : UInt8) : Bool :=
  !(isAlnum b || (ascii "!$&'()*+,;=:[]<>\"-_.~").contains b)

def escapeError (s : GoString) : Err := .errorf "invalid URL escape %q" [.str (s.take 3)]

def unhex (h l : UInt8) : UInt8 :=
  UInt8.ofNat (16 * (digitValue h).getD 0 + (digitValue l).getD 0)

/--
The triplet `%hl` may stand in a part of the given mode.
-/
def tripletAllowed (mode : Encoding) (h l : UInt8) : Bool :=
  (digitValue h).isSome && (digitValue l).isSome &&
    match mode with
    -- only bytes that are not ASCII are escaped in a host, and the percent sign of a zone
    | .host => 8 ≤ (digitValue h).getD 0 || unhex h l = percentByte
    | .zone => unhex h l = percentByte || unhex h l = spaceByte || !shouldEscapeHost (unhex h l)
    | _ => true

def unescape (mode : Encoding) (s : GoString) : Except Err GoString :=
  match s with
  | [] => .ok []
  | b :: s =>
    if b = percentByte then
      match s with
      | h :: l :: s =>
        if tripletAllowed mode h l then
          (unescape mode s).map (unhex h l :: ·)
        else
          .error (escapeError (b :: h :: l :: s))
      | _ => .error (escapeError (b :: s))
    else if b = plusByte ∧ mode = .queryComponent then
      (unescape mode s).map (spaceByte :: ·)
    else if (mode = .host ∨ mode = .zone) ∧ b.toNat < 0x80 ∧ shouldEscapeHost b then
      .error (.errorf "invalid character %q in host name" [.str [b]])
    else
      (unescape mode s).map (b :: ·)

/--
The scheme and what follows its colon. The scheme is empty if the URL has none.
-/
def getScheme (rawURL : GoString) : Except Err (GoString × GoString) :=
  go [] rawURL
where
  go (scheme rest : GoString) : Except Err (GoString × GoString) :=
    match rest with
    | [] => .ok ([], rawURL)
    | c :: rest =>
      if isLetter c then
        go (scheme ++ [c]) rest
      else if isDecimal c || c = plusByte || c = minusByte || c = dotByte then
        if scheme = [] then .ok ([], rawURL) else go (scheme ++ [c]) rest
      else if c = colonByte then
        if scheme = [] then .error (.errorf "missing protocol scheme" []) else .ok (scheme, rest)
      else
        .ok ([], rawURL)

def validOptionalPort (port : GoString) : Bool :=
  match port with
  | [] => true
  | c :: digits => c = colonByte && digits.all isDecimal

/--
The zone of an IP literal starts at `%25`.
-/
def cutZone (s : GoString) : Option (GoString × GoString) :=
  match s with
  | [] => none
  | b :: s' =>
    if (ascii "%25").isPrefixOf s then some ([], s) else (cutZone s').map (fun p => (b :: p.1, p.2))

/--
The host of Go 1.22. What is between brackets is not checked to be an IP address, as it is in later
releases, which refuse `[foo]`.
-/
def parseHost (host : GoString) : Except Err GoString :=
  if (ascii "[").isPrefixOf host then
    match cutLast rightBracketByte host with
    | none => .error (.errorf "missing ']' in host" [])
    | some (literal, colonPort) =>
      if ¬ validOptionalPort colonPort then
        .error (.errorf "invalid port %q after host" [.str colonPort])
      else
        match cutZone literal with
        | some (address, zone) => do
          let host1 ← unescape .host address
          let host2 ← unescape .zone zone
          let host3 ← unescape .host (rightBracketByte :: colonPort)
          .ok (host1 ++ host2 ++ host3)
        | none => unescape .host host
  else
    match cutLast colonByte host with
    | some (_, port) =>
      if ¬ validOptionalPort (colonByte :: port) then
        .error (.errorf "invalid port %q after host" [.str (colonByte :: port)])
      else
        unescape .host host
    | none => unescape .host host

def validUserinfo (s : GoString) : Bool :=
  s.all (fun b => isAlnum b || (ascii "-._:~!$&'()*+,;=%@").contains b)

def parseUserinfo (userinfo : GoString) : Except Err Userinfo :=
  if ¬ validUserinfo userinfo then
    .error (.errorf "net/url: invalid userinfo" [])
  else
    match cut colonByte userinfo with
    | (username, none) => do
      let username ← unescape .userPassword username
      .ok { username, password := none }
    | (username, some password) => do
      let username ← unescape .userPassword username
      let password ← unescape .userPassword password
      .ok { username, password := some password }

def parseAuthority (authority : GoString) : Except Err (Option Userinfo × GoString) :=
  match cutLast atByte authority with
  | none => do
    let host ← parseHost authority
    .ok (none, host)
  | some (userinfo, hostport) => do
    let host ← parseHost hostport
    let user ← parseUserinfo userinfo
    .ok (some user, host)

def splitAuthority (rest : GoString) : GoString × GoString :=
  let authority := rest.drop 2
  (authority.takeWhile (· ≠ slashByte), authority.dropWhile (· ≠ slashByte))

/--
The URL without its fragment. A trailing `?` leaves an empty query, as no `?` does.
-/
def parseURL (rawURL : GoString) : Except Err URL :=
  if rawURL.any (fun b => b.toNat < 0x20 || b.toNat = 0x7F) then
    .error (.errorf "net/url: invalid control character in URL" [])
  else if rawURL = ascii "*" then
    .ok { user := none, host := [], path := ascii "*", rawQuery := [] }
  else do
    let (scheme, rest) ← getScheme rawURL
    let (rest, query) := cut questionByte rest
    let rawQuery := query.getD []
    if ¬ (ascii "/").isPrefixOf rest ∧ scheme ≠ [] then
      -- a rootless path is opaque
      .ok { user := none, host := [], path := [], rawQuery }
    else if ¬ (ascii "/").isPrefixOf rest ∧ colonByte ∈ (cut slashByte rest).1 then
      .error (.errorf "first path segment in URL cannot contain colon" [])
    else if (scheme ≠ [] ∨ ¬ (ascii "///").isPrefixOf rest) ∧ (ascii "//").isPrefixOf rest then
      let (user, host) ← parseAuthority (splitAuthority rest).1
      let path ← unescape .path (splitAuthority rest).2
      .ok { user, host, path, rawQuery }
    else
      let path ← unescape .path rest
      .ok { user := none, host := [], path, rawQuery }

def parse (rawURL : GoString) : Except Err URL :=
  match cut hashByte rawURL with
  | (u, frag) => do
    let url ← (parseURL u).mapError (Err.wrapf "parse %q: %w" [.str u])
    let _ ← (unescape .fragment (frag.getD [])).mapError (Err.wrapf "parse %q: %w" [.str rawURL])
    .ok url

/--
Split `host:port`. The brackets of an IP literal are dropped.
-/
def splitHostPort (hostPort : GoString) : GoString × GoString :=
  let (host, port) :=
    match cutLast colonByte hostPort with
    | some (host, port) => if port.all isDecimal then (host, port) else (hostPort, [])
    | none => (hostPort, [])
  if host.head? = some leftBracketByte ∧ host.getLast? = some rightBracketByte then
    ((host.drop 1).dropLast, port)
  else
    (host, port)

def URL.hostname (u : URL) : GoString := (splitHostPort u.host).1

def URL.port (u : URL) : GoString := (splitHostPort u.host).2

abbrev Values := List (GoString × List GoString)

def Values.add (m : Values) (key value : GoString) : Values :=
  match m with
  | [] => [(key, [value])]
  | (k, vals) :: m => if k = key then (k, vals ++ [value]) :: m else (k, vals) :: Values.add m key value

/--
One `key=value` of a query. A malformed one is dropped.
-/
def addSetting (m : Values) (setting : GoString) : Values :=
  if semicolonByte ∈ setting ∨ setting = [] then
    m
  else
    match cut equalsByte setting with
    | (key, value) =>
      match unescape .queryComponent key, unescape .queryComponent (value.getD []) with
      | .ok key, .ok value => m.add key value
      | _, _ => m

def querySettings (query : GoString) : List GoString :=
  match query with
  | [] => [[]]
  | b :: query =>
    if b = ampersandByte then
      [] :: querySettings query
    else
      match querySettings query with
      | setting :: settings => (b :: setting) :: settings
      | [] => [[b]]

def URL.query (u : URL) : Values := (querySettings u.rawQuery).foldl addSetting []

end NetURL

end H2Go
