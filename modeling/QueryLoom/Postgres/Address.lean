import QueryLoom.Error
import QueryLoom.Text.IpAddress
import QueryLoom.Text.Utf8

/-!
# Addresses of databases

An address is a list of settings in one of two notations: words of a name, an equals sign and a
value, or a URL with credentials, hosts, a database and further settings. Names have to be known,
and each has its own values. In a URL a byte may be written as a percent sign and two base-sixteen
digits; a percent sign without two digits stands for itself. A pool is opened for an address that
can be read.
-/

set_option autoImplicit false

namespace QueryLoom.Text.Percent

def decode : List Char → List UInt8
  | '%' :: a :: b :: cs =>
    match hexValue? [a, b] with
    | some n => UInt8.ofNat n :: decode cs
    | none => Utf8.encode ['%'] ++ decode (a :: b :: cs)
  | c :: cs => Utf8.encode [c] ++ decode cs
  | [] => []

def decodeText? (cs : List Char) : Option String :=
  (Utf8.decode? (decode cs)).map String.ofList

end QueryLoom.Text.Percent

namespace QueryLoom.Postgres

/-- The value is bytes, since a password and the path of a socket need not be texts. -/
structure Setting where
  name : String
  value : List UInt8
  deriving DecidableEq, Repr

def Setting.ofChars (name : String) (value : List Char) : Setting :=
  ⟨name, Text.Utf8.encode value⟩

/-! ## Values of settings -/

def isInteger (r : Text.Range) (s : String) : Bool := (r.read s).toOption.isSome

def isPort (cs : List Char) : Bool :=
  cs.isEmpty || isInteger (.unsigned 16) (String.ofList cs)

def allParts (p : List Char → Bool) (s : String) : Bool :=
  (Text.pieces (· == ',') s.toList).all p

def isAllowed (name value : String) : Bool :=
  match name with
  | "user" => true
  | "password" => true
  | "dbname" => true
  | "options" => true
  | "application_name" => true
  | "host" => true
  | "hostaddr" => allParts Text.isIpAddress value
  | "port" => allParts isPort value
  | "sslmode" => ["disable", "prefer", "require"].contains value
  | "sslnegotiation" => ["postgres", "direct"].contains value
  | "connect_timeout" => isInteger (.signed 64) value
  | "tcp_user_timeout" => isInteger (.signed 64) value
  | "keepalives" => isInteger (.unsigned 64) value
  | "keepalives_idle" => isInteger (.signed 64) value
  | "keepalives_interval" => isInteger (.signed 64) value
  | "keepalives_retries" => isInteger (.unsigned 32) value
  | "target_session_attrs" => ["any", "read-write", "read-only"].contains value
  | "channel_binding" => ["disable", "prefer", "require"].contains value
  | "load_balance_hosts" => ["disable", "random"].contains value
  | _ => false

def setting? (name value : String) : Option Setting :=
  if isAllowed name value then some (.ofChars name value.toList) else none

/-! ## Words -/

def quotedValue? : List Char → Option (List Char × List Char)
  | [] => none
  | ['\\'] => none
  | '\\' :: c :: cs => (quotedValue? cs).map fun (value, rest) => (c :: value, rest)
  | '\'' :: cs => some ([], cs)
  | c :: cs => (quotedValue? cs).map fun (value, rest) => (c :: value, rest)

def bareValue : List Char → List Char × List Char
  | [] => ([], [])
  | ['\\'] => ([], [])
  | '\\' :: c :: cs =>
    let (value, rest) := bareValue cs
    (c :: value, rest)
  | c :: cs =>
    if Text.isBlank c then ([], c :: cs)
    else
      let (value, rest) := bareValue cs
      (c :: value, rest)

def wordValue? : List Char → Option (List Char × List Char)
  | '\'' :: cs => quotedValue? cs
  | cs =>
    let (value, rest) := bareValue cs
    if value.isEmpty then none else some (value, rest)

def isNameEnd (c : Char) : Bool := Text.isBlank c || c == '='

/-- Settings in words up to the end or to a word without a name. Each setting takes characters, so
the number of these bounds theirs. -/
def words? : Nat → List Char → Option (List Setting)
  | 0, _ => some []
  | fuel + 1, cs =>
    let cs := Text.trimStart cs
    let name := cs.takeWhile (!isNameEnd ·)
    if name.isEmpty then some []
    else
      match Text.trimStart (cs.dropWhile (!isNameEnd ·)) with
      | '=' :: rest => do
        let (value, rest) ← wordValue? (Text.trimStart rest)
        let setting ← setting? (String.ofList name) (String.ofList value)
        let settings ← words? fuel rest
        return setting :: settings
      | _ => none

def ofWords? (s : String) : Option (List Setting) := words? (s.length + 1) s.toList

/-! ## URLs -/

def splitAt? (p : Char → Bool) (cs : List Char) : Option (List Char × List Char) :=
  match cs.dropWhile (!p ·) with
  | [] => none
  | _ :: rest => some (cs.takeWhile (!p ·), rest)

def credentials? (cs : List Char) : Option (List Setting) := do
  match splitAt? (· == ':') cs with
  | none => return [.ofChars "user" (← Text.Percent.decodeText? cs).toList]
  | some (user, password) =>
    return [.ofChars "user" (← Text.Percent.decodeText? user).toList,
      ⟨"password", Text.Percent.decode password⟩]

def host? (cs : List Char) : Option Setting :=
  let bytes := Text.Percent.decode cs
  if bytes.head? = some 0x2F || (Text.Utf8.decode? bytes).isSome then some ⟨"host", bytes⟩ else none

def defaultPort : List Char := ['5', '4', '3', '2']

def splitHost? : List Char → Option (List Char × List Char)
  | '[' :: cs => do
    let (host, rest) ← splitAt? (· == ']') cs
    match rest with
    | [] => return (host, defaultPort)
    | ':' :: port => return (host, port)
    | _ => none
  | cs => some ((splitAt? (· == ':') cs).getD (cs, defaultPort))

def hosts? (cs : List Char) : Option (List Setting) :=
  if cs.isEmpty then some []
  else do
    let settings ← (Text.pieces (· == ',') cs).mapM fun chunk => do
      let (host, port) ← splitHost? chunk
      return [← host? host, ← setting? "port" (← Text.Percent.decodeText? port)]
    return settings.flatten

def urlSetting? (name value : List Char) : Option Setting := do
  let name ← Text.Percent.decodeText? name
  if name = "host" then host? value else setting? name (← Text.Percent.decodeText? value)

/-- Settings with ampersands between them. A name reaches up to the next equals sign, whatever
stands before it. -/
def urlSettings? : Nat → List Char → Option (List Setting)
  | _, [] => some []
  | 0, _ => none
  | fuel + 1, cs => do
    let (name, rest) ← splitAt? (· == '=') cs
    let (value, rest) := (splitAt? (· == '&') rest).getD (rest, [])
    let setting ← urlSetting? name value
    let settings ← urlSettings? fuel rest
    return setting :: settings

def database? (cs : List Char) : Option (List Setting) :=
  if cs.isEmpty then some []
  else (Text.Percent.decodeText? cs).map fun s => [.ofChars "dbname" s.toList]

def ofUrl? (cs : List Char) : Option (List Setting) := do
  let (credentials, cs) ← match splitAt? (· == '@') cs with
    | none => some ([], cs)
    | some (front, rest) => (credentials? front).map fun c => (c, rest)
  let isHostEnd (c : Char) : Bool := c == '/' || c == '?'
  let hosts ← hosts? (cs.takeWhile (!isHostEnd ·))
  let (database, cs) ← match cs.dropWhile (!isHostEnd ·) with
    | '/' :: rest =>
      (database? (rest.takeWhile (· != '?'))).map fun d => (d, rest.dropWhile (· != '?'))
    | rest => some ([], rest)
  let settings ← urlSettings? cs.length (cs.drop 1)
  return credentials ++ hosts ++ database ++ settings

def settings? (address : String) : Option (List Setting) :=
  if address.startsWith "postgres://" then ofUrl? (address.toList.drop 11)
  else if address.startsWith "postgresql://" then ofUrl? (address.toList.drop 13)
  else ofWords? address

/-! ## Pools -/

structure Pool where
  settings : List Setting
  maxSize : Nat
  deriving Repr

def Pool.defaultSize : Nat := 16

def Pool.create (address : String) (maxSize : Nat) : Except Error Pool :=
  match settings? address with
  | some settings => .ok ⟨settings, maxSize⟩
  | none => .error (.connection "invalid database address")

end QueryLoom.Postgres
