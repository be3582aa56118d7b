import TipJar.Drop.Status
import TipJar.Text.Digit
import TipJar.Text.Whole

/-! The arguments of the operator's tool.

Options may come before the command and, those of the command, among what follows
it. The name of an option may be cut short as long as it stays clear which is
meant, and its value may follow behind an equals sign. An argument that looks like
a negative number is no option. -/
namespace TipJar.Operator

/-- What the operator wants done. -/
inductive Command
  | createTables
  | balance (account : String)
  | deposit (account coins : String)
  | history (account : String) (limit : Int)
  | blacklist (account : String) (lift : Bool)
  | drops (status : Drop.Status) (limit : Int)
  | stalled

/-- A command, and where the configuration is. -/
structure Request where
  config : Option String
  logLevel : Option String
  command : Command

/-- Why arguments are not carried out. -/
inductive Rejection
  | usage
  /-- The operator asked what there is. -/
  | help
deriving DecidableEq

/-! ### Options -/

structure Flag where
  name : String
  takesValue : Bool
deriving DecidableEq

namespace Flag

def help : Flag := ⟨"--help", false⟩
def config : Flag := ⟨"--config", true⟩
def logLevel : Flag := ⟨"--log-level", true⟩
def limit : Flag := ⟨"--limit", true⟩
def remove : Flag := ⟨"--remove", false⟩
def status : Flag := ⟨"--status", true⟩

/-- The option that is written as a single letter. -/
def helpLetter : String := "-h"

end Flag

/-- What the form of an argument tells. -/
inductive Form
  | positional
  | flag (f : Flag) (value : Option String)
  | rejected

/-- Whether a text is a minus and digits, perhaps with a point among them. -/
def isNegativeNumber (s : List Char) : Bool :=
  match s with
  | '-' :: rest =>
    let isDigit (c : Char) := (Text.digitValue? c).isSome
    let behind := rest.dropWhile isDigit
    match behind with
    | [] => !rest.isEmpty
    | '.' :: fraction => !fraction.isEmpty && fraction.all isDigit
    | _ => false
  | _ => false

/-- A text up to its first equals sign, and what follows if there is one. -/
def splitValue (arg : List Char) : List Char × Option String :=
  match arg.dropWhile (· != '=') with
  | _ :: value => (arg.takeWhile (· != '='), some (String.ofList value))
  | [] => (arg, none)

/-- The options that a name, perhaps cut short, can mean. -/
def meant (flags : List Flag) (name : List Char) : List Flag :=
  match flags.find? (·.name.toList == name) with
  | some f => [f]
  | none => flags.filter fun f => name.isPrefixOf f.name.toList

/-- The form of an argument where certain options are known. -/
def Form.of (flags : List Flag) (arg : String) : Form :=
  match arg.toList with
  | '-' :: '-' :: rest =>
    let (name, value) := splitValue ('-' :: '-' :: rest)
    match meant flags name with
    | [f] => .flag f value
    | _ :: _ :: _ => .rejected
    | [] => if arg.contains ' ' then .positional else .rejected
  | '-' :: c :: rest =>
    if arg == Flag.helpLetter then .flag .help none
    else if c == 'h' then .rejected
    else if isNegativeNumber ('-' :: c :: rest) || arg.contains ' ' then .positional
    else .rejected
  | _ => .positional

/-! ### Scanning -/

/-- Arguments taken apart. -/
structure Scanned where
  flags : List (Flag × String)
  positional : List String

/-- A scan with one more option in front. -/
def Scanned.withFlag (s : Scanned) (f : Flag) (value : String) : Scanned :=
  { s with flags := (f, value) :: s.flags }

/-- The last value of an option. -/
def Scanned.value? (s : Scanned) (f : Flag) : Option String :=
  (s.flags.reverse.find? (·.1 == f)).map (·.2)

/-- Takes arguments apart. Without `all`, what follows the first positional one is left alone. -/
def scan (flags : List Flag) (all : Bool) : List String → Except Rejection Scanned
  | [] => .ok ⟨[], []⟩
  | "--" :: rest => if all then .ok ⟨[], rest⟩ else .error .usage
  | arg :: rest =>
    match Form.of flags arg with
    | .rejected => .error .usage
    | .positional => do
      if all then
        let scanned ← scan flags all rest
        return { scanned with positional := arg :: scanned.positional }
      else return ⟨[], arg :: rest⟩
    | .flag f value =>
      if !f.takesValue then
        if value.isSome then .error .usage
        else if f == .help then .error .help
        else (scan flags all rest).map (·.withFlag f "")
      else match value, rest with
        | some value, rest => (scan flags all rest).map (·.withFlag f value)
        | none, [] => .error .usage
        | none, value :: rest =>
          match if value == "--" then .rejected else Form.of flags value with
          | .positional => (scan flags all rest).map (·.withFlag f value)
          | _ => .error .usage

/-! ### Commands -/

/-- How many rows are shown unless the operator says otherwise. -/
def defaultLimit : Int := 50

/-- The number of rows to show. -/
def limitOf (s : Scanned) : Except Rejection Int :=
  match s.value? .limit with
  | none => .ok defaultLimit
  | some written =>
    match Text.whole? written with
    | some n => .ok n
    | none => .error .usage

/-- The status of the drops to show. -/
def statusOf (s : Scanned) : Except Rejection Drop.Status :=
  match s.value? .status with
  | none => .ok .pending
  | some written =>
    match Drop.Status.ofText? written with
    | some status => .ok status
    | none => .error .usage

/-- Reads a command and what follows it. -/
def Command.read (name : String) (args : List String) : Except Rejection Command := do
  let scanned (flags : List Flag) := scan (.help :: flags) true args
  match name with
  | "init-db" =>
    let s ← scanned []
    if s.positional.isEmpty then return .createTables else throw .usage
  | "balance" =>
    let s ← scanned []
    let [account] := s.positional | throw .usage
    return .balance account
  | "deposit" =>
    let s ← scanned []
    let [account, coins] := s.positional | throw .usage
    return .deposit account coins
  | "history" =>
    let s ← scanned [.limit]
    let limit ← limitOf s
    let [account] := s.positional | throw .usage
    return .history account limit
  | "blacklist" =>
    let s ← scanned [.remove]
    let [account] := s.positional | throw .usage
    return .blacklist account (s.value? .remove).isSome
  | "reactdrops" =>
    let s ← scanned [.status, .limit]
    let status ← statusOf s
    let limit ← limitOf s
    if s.positional.isEmpty then return .drops status limit else throw .usage
  | "stalled" =>
    let s ← scanned []
    if s.positional.isEmpty then return .stalled else throw .usage
  | _ => throw .usage

/-- Reads the arguments of the tool. -/
def Request.read (args : List String) : Except Rejection Request := do
  let s ← scan [.help, .config, .logLevel] false args
  match s.positional with
  | [] => throw .usage
  | name :: rest =>
    return ⟨s.value? .config, s.value? .logLevel, ← Command.read name rest⟩

end TipJar.Operator
