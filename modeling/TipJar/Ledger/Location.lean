import TipJar.Fault.Basic
import TipJar.Text.Whole

/-! Where the tables are kept.

A location names a kind of store, perhaps a driver for it, and what that kind
needs to find the tables: a host for a server, a path for a file. An embedded
store without a path keeps its tables in memory, and then all work shares one
connection to it. -/
namespace TipJar.Ledger

structure Location where
  kind : String
  driver : Option String
  hasHost : Bool
  path : Option String

/-- Whether a character may occur in the name of a kind. -/
def isKindChar (c : Char) : Bool := c.isAlphanum || c == '_' || c == '+'

/-- What is left behind the marks that part a name from the rest. -/
def afterScheme? : List Char → Option (List Char)
  | ':' :: '/' :: '/' :: rest => some rest
  | _ => none

/-- Takes a user, and perhaps a password, before an `@`. -/
def takeUser (s : List Char) : Bool × List Char :=
  let rest := s.dropWhile fun c => c != ':' && c != '/' && c != '@'
  match rest with
  | '@' :: rest => (true, rest)
  | ':' :: rest =>
    match rest.dropWhile (· != '@') with
    | '@' :: rest => (true, rest)
    | _ => (false, s)
  | _ => (false, s)

/-- Takes a host and the number behind it. -/
def takeHost (s : List Char) : Checked (Bool × List Char) :=
  let afterHost := s.dropWhile fun c => c != '/' && c != ':' && c != '?'
  let hasHost := afterHost.length < s.length
  match afterHost with
  | ':' :: rest =>
    let number := rest.takeWhile fun c => c != '/' && c != '?'
    if number.isEmpty then .ok (hasHost, [])
    else match Text.whole? (String.ofList number) with
      | some _ => .ok (true, rest.drop number.length)
      | none => .error (.invalid (.notDigits 10 (Text.quoted (String.ofList number))))
  | rest => .ok (hasHost, rest)

def Location.parse (s : String) : Checked Location := do
  let name := s.toList.takeWhile isKindChar
  let some rest := afterScheme? (s.toList.drop name.length) | throw (.store .badLocation)
  if name.isEmpty then throw (.store .badLocation)
  let (hasUser, rest) := takeUser rest
  let (hasHost, rest) ← takeHost rest
  let path := match rest with
    | '/' :: rest => some (String.ofList (rest.takeWhile (· != '?')))
    | _ => none
  let kind := String.ofList (name.takeWhile (· != '+'))
  let driver := match name.dropWhile (· != '+') with
    | '+' :: rest => some (String.ofList rest)
    | _ => none
  return { kind, driver, hasHost := hasHost || hasUser, path }

/-- How connections are kept. -/
inductive Pool
  /-- One connection that all work shares. -/
  | single
  | queue
deriving DecidableEq

def Pool.name : Pool → String
  | single => "StaticPool"
  | queue => "QueuePool"

/-- A store that work can be done on. -/
structure Connection where
  dialect : String
  pool : Pool
  busyTimeoutMs : Int

/-- The kinds of stores whose drivers are not there. -/
def missingDrivers : List (String × String) :=
  [("mysql", "MySQLdb"), ("mariadb", "MySQLdb"), ("oracle", "cx_Oracle"), ("mssql", "pyodbc")]

/-- How long a writer waits for others unless configured otherwise. -/
def defaultBusyTimeoutMs : Int := 30000

/-- Whether an embedded store of this path is in memory. -/
def isInMemory (path : Option String) : Bool :=
  path == none || path == some "" || path == some ":memory:"

/-- The connection to a location. Nothing is opened yet. -/
def Connection.to (url : String) (busyTimeoutMs : Int) : Checked Connection := do
  let l ← Location.parse url
  match l.kind with
  | "sqlite" =>
    if !(l.driver == none || l.driver == some "pysqlite") then throw (.store .unknownKind)
    if l.hasHost then throw (.store .badLocation)
    return ⟨"sqlite", if isInMemory l.path then .single else .queue, busyTimeoutMs⟩
  | "postgresql" =>
    if !(l.driver == none || l.driver == some "psycopg2") then throw (.store .unknownKind)
    return ⟨"postgresql", .queue, busyTimeoutMs⟩
  | kind =>
    match missingDrivers.find? (·.1 == kind) with
    | some (_, driver) => throw (.noDriver driver)
    | none => throw (.store .unknownKind)

def tableNames : List String := ["accounts", "ledger_entries", "reactdrops"]

end TipJar.Ledger
