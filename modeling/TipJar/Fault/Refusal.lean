import TipJar.Value.Shown

/-! Refusals: the errors a caller is meant to tell apart.

Every refusal belongs to a category with a code that programs can test, carries
the details that an answer needs, and has a text. Categories form a tree below
the general one, so that a caller can treat all of one kind alike. -/
namespace TipJar

/-- Categories of refusals, general ones before their kinds. -/
inductive Category
  | general
  | validation
  | insufficientFunds
  | invalidSplit
  | belowMinimum
  | invalidToken
  | invalidDuration
  | blacklisted
  | concurrency
  | alreadySettled
  | delivery
  | deliveryFailure
  | persistence
  | persistenceFailure
  | drop
  | dropNotFound
  | immutability
deriving DecidableEq

namespace Category

/-- The name under which a refusal is reported and logged. -/
def name : Category → String
  | general => "TipKernelError"
  | validation => "ValidationError"
  | insufficientFunds => "InsufficientFundsError"
  | invalidSplit => "InvalidSplitError"
  | belowMinimum => "BelowMinimumError"
  | invalidToken => "InvalidTriggerTokenError"
  | invalidDuration => "InvalidReactdropDurationError"
  | blacklisted => "AccountBlacklistedError"
  | concurrency => "ConcurrencyError"
  | alreadySettled => "AlreadySettledError"
  | delivery => "DeliveryError"
  | deliveryFailure => "DeliveryFailureError"
  | persistence => "PersistenceError"
  | persistenceFailure => "PersistenceFailureError"
  | drop => "ReactdropError"
  | dropNotFound => "ReactdropNotFoundError"
  | immutability => "ImmutabilityViolationError"

/-- The code that programs test. -/
def code : Category → String
  | general => "TIP_KERNEL_ERROR"
  | validation => "VALIDATION_ERROR"
  | insufficientFunds => "INSUFFICIENT_FUNDS"
  | invalidSplit => "INVALID_SPLIT"
  | belowMinimum => "BELOW_MINIMUM"
  | invalidToken => "INVALID_TRIGGER_TOKEN"
  | invalidDuration => "INVALID_REACTDROP_DURATION"
  | blacklisted => "ACCOUNT_BLACKLISTED"
  | concurrency => "CONCURRENCY_ERROR"
  | alreadySettled => "ALREADY_SETTLED"
  | delivery => "DELIVERY_ERROR"
  | deliveryFailure => "DELIVERY_FAILURE"
  | persistence => "PERSISTENCE_ERROR"
  | persistenceFailure => "PERSISTENCE_FAILURE"
  | drop => "REACTDROP_ERROR"
  | dropNotFound => "REACTDROP_NOT_FOUND"
  | immutability => "IMMUTABILITY_VIOLATION"

/-- The next more general category. -/
def parent? : Category → Option Category
  | general => none
  | insufficientFunds | invalidSplit | belowMinimum | invalidToken | invalidDuration
  | blacklisted => some validation
  | alreadySettled => some concurrency
  | deliveryFailure => some delivery
  | persistenceFailure => some persistence
  | dropNotFound => some drop
  | validation | concurrency | delivery | persistence | drop | immutability => some general

/-- A category and all above it, nearest first. -/
def lineage (c : Category) : List Category :=
  match c.parent? with
  | none => [c]
  | some p => match p.parent? with
    | none => [c, p]
    | some q => [c, p, q]

def every : List Category :=
  [general, validation, insufficientFunds, invalidSplit, belowMinimum, invalidToken,
   invalidDuration, blacklisted, concurrency, alreadySettled, delivery, deliveryFailure,
   persistence, persistenceFailure, drop, dropNotFound, immutability]

def ofName? (s : String) : Option Category := every.find? (·.name == s)

/-- The names of the details, in order; none where a refusal is a bare text. -/
def details? : Category → Option (List String)
  | insufficientFunds => some ["account_id", "requested", "available"]
  | invalidSplit => some ["reason"]
  | belowMinimum => some ["amount", "minimum"]
  | invalidToken => some ["token"]
  | invalidDuration => some ["duration", "unit", "reason"]
  | blacklisted => some ["account_id"]
  | alreadySettled => some ["reactdrop_id", "status"]
  | deliveryFailure => some ["target", "channel_kind", "reason"]
  | persistenceFailure => some ["operation", "reason"]
  | dropNotFound => some ["reactdrop_id"]
  | immutability => some ["entity_type", "entity_id", "reason"]
  | general | validation | concurrency | delivery | persistence | drop => none

end Category

/-- The plain text of a bare error's arguments: a single one as it is, several as a tuple. -/
def plainArguments : List Value → Except Decimal.ArithmeticError String
  | [] => .ok ""
  | [v] => v.plain
  | vs => .ok (Value.tuple vs).shown

/-- A refusal as it is reported. -/
structure Report where
  category : Category
  fields : List (String × Value)
  message : String

namespace Report

/-- The text of a refusal from its details. -/
def messageOf (c : Category) (details : List Value) : Except Decimal.ArithmeticError String := do
  match c, details with
  | .insufficientFunds, [account, requested, available] =>
    return "Insufficient funds in account " ++ (← account.plain) ++ ": requested " ++
      (← requested.plain) ++ ", available " ++ (← available.plain)
  | .invalidSplit, [reason] => return "Invalid split: " ++ (← reason.plain)
  | .belowMinimum, [amount, minimum] =>
    return "Amount " ++ (← amount.plain) ++ " is below the minimum tip of " ++ (← minimum.plain)
  | .invalidToken, [token] => return "Invalid reactdrop trigger token: " ++ token.shown
  | .invalidDuration, [duration, unit, reason] =>
    return "Invalid reactdrop duration " ++ (← duration.plain) ++ " " ++ (← unit.plain) ++ ": " ++
      (← reason.plain)
  | .blacklisted, [account] => return "Account " ++ (← account.plain) ++ " is blacklisted"
  | .alreadySettled, [drop, status] =>
    return "Reactdrop " ++ (← drop.plain) ++ " is not pending (status: " ++ (← status.plain) ++ ")"
  | .deliveryFailure, [target, channel, reason] =>
    return "Failed to deliver " ++ (← channel.plain) ++ " message to " ++
      (← target.plain) ++ ": " ++ (← reason.plain)
  | .persistenceFailure, [operation, reason] =>
    return "Persistence failure during " ++ (← operation.plain) ++ ": " ++ (← reason.plain)
  | .dropNotFound, [drop] => return "Reactdrop not found: " ++ (← drop.plain)
  | .immutability, [entity, id, reason] =>
    return "Cannot modify " ++ (← entity.plain) ++ " " ++ (← id.plain) ++ ": " ++ (← reason.plain)
  | _, details => plainArguments details

/-- The report of a category with the given details. -/
def of (c : Category) (details : List Value) : Except Decimal.ArithmeticError Report := do
  let message ← messageOf c details
  return ⟨c, ((c.details?).getD []).zip details, message⟩

end Report

/-- Why a request is malformed. -/
inductive Malformed
  /-- An account is named by a text of blanks, or by no text at all. -/
  | account (shown : String)
  | longAccount (shown : String)
  | emptyDeposit
  | emptyDrop
  | deadlineNotLater
  | noCredits
deriving DecidableEq

/-- The characters the name of an account may have. -/
def accountNameLimit : Nat := 64

def Malformed.message : Malformed → String
  | account shown => "Invalid account id: " ++ shown
  | longAccount shown =>
    "Account id longer than " ++ toString accountNameLimit ++ " characters: " ++ shown
  | emptyDeposit => "Deposit amount must be positive"
  | emptyDrop => "Reactdrop amount must be positive"
  | deadlineNotLater => "Reactdrop deadline must be after its start"
  | noCredits => "No credits given"

/-- Why an amount cannot be split among recipients. -/
inductive SplitFault
  | noDestinations
  | duplicateDestinations
  | sourceAmongDestinations
deriving DecidableEq

def SplitFault.message : SplitFault → String
  | noDestinations => "no destinations"
  | duplicateDestinations => "duplicate destinations"
  | sourceAmongDestinations => "source cannot be a destination"

/-- Why a drop cannot last as long as asked. -/
inductive DurationFault
  | notWhole
  | tooShort
  | unknownUnit (shown : String)
  | tooLong (hours : String)
deriving DecidableEq

def DurationFault.message : DurationFault → String
  | notWhole => "duration must be an integer"
  | tooShort => "duration must be at least 1"
  | unknownUnit shown => "Unknown duration unit: " ++ shown
  | tooLong hours => "longer than the maximum of " ++ hours ++ " hours"

/-- A change that history does not allow. -/
inductive FrozenChange
  | entryChanged
  | entryDeleted
  | dropChanged (status : String)
  | dropDeleted
deriving DecidableEq

namespace FrozenChange

/-- What was to be changed. -/
def entity : FrozenChange → String
  | entryChanged | entryDeleted => "LedgerEntry"
  | dropChanged _ | dropDeleted => "Reactdrop"

/-- What was to be done to it. -/
def operation : FrozenChange → String
  | entryChanged | dropChanged _ => "UPDATE"
  | entryDeleted | dropDeleted => "DELETE"

def message : FrozenChange → String
  | entryChanged => "Ledger entries are append-only and cannot be modified"
  | entryDeleted => "Ledger entries are append-only and cannot be deleted"
  | dropChanged status => "Reactdrop is already " ++ status ++ " and cannot be modified"
  | dropDeleted => "Reactdrops are kept for audit and cannot be deleted"

end FrozenChange

/-- How the store failed. -/
inductive StoreFault
  /-- The tables are missing, or the store is out of reach. -/
  | unreachable
  /-- A row would break a rule of the tables. -/
  | violation
  /-- A value cannot be written into a statement. -/
  | unwritable
  /-- The type of a value cannot be written into a statement. -/
  | unsupported
  /-- A column that no row has. -/
  | unknownColumn
  /-- A row that was asked for is not there. -/
  | noRow
  /-- A row that was to be changed is not there any more. -/
  | goneRow
  /-- The unit of work has failed already and must be given up. -/
  | spoiled
  /-- A sum that is asked for is beyond 64 bits. -/
  | overflowed
  /-- A location that cannot be read as one. -/
  | badLocation
  /-- A location for a kind of store that is not known. -/
  | unknownKind
deriving DecidableEq

def StoreFault.name : StoreFault → String
  | unreachable => "OperationalError"
  | violation => "IntegrityError"
  | unwritable => "StatementError"
  | unsupported => "ProgrammingError"
  | spoiled => "PendingRollbackError"
  | unknownColumn => "CompileError"
  | noRow => "NoResultFound"
  | goneRow => "StaleDataError"
  | overflowed => "OperationalError"
  | badLocation => "ArgumentError"
  | unknownKind => "NoSuchModuleError"

/-- A request that is refused, with its cause. -/
inductive Refusal
  | malformed (why : Malformed)
  | insufficientFunds (account : String) (requested available : Amount)
  | invalidSplit (why : SplitFault)
  | belowMinimum (amount minimum : Amount)
  | invalidToken (token : String)
  | invalidDuration (duration : Value) (unit : String) (why : DurationFault)
  | blacklisted (account : String)
  /-- The drop is not in the status that a transition starts from. -/
  | alreadySettled (drop : Uuid) (status : String)
  | undelivered (target channel reason : String)
  | unsaved (operation : String) (cause : StoreFault)
  | dropNotFound (drop : Uuid)
  /-- A change of history, with the identifier that the copy of the row shows. -/
  | frozen (id : String) (change : FrozenChange)

namespace Refusal

def category : Refusal → Category
  | malformed _ => .validation
  | insufficientFunds .. => .insufficientFunds
  | invalidSplit _ => .invalidSplit
  | belowMinimum .. => .belowMinimum
  | invalidToken _ => .invalidToken
  | invalidDuration .. => .invalidDuration
  | blacklisted _ => .blacklisted
  | alreadySettled .. => .alreadySettled
  | undelivered .. => .deliveryFailure
  | unsaved .. => .persistenceFailure
  | dropNotFound _ => .dropNotFound
  | frozen .. => .immutability

/-- Whether the request itself is at fault, whatever the kind. -/
def isValidation (r : Refusal) : Bool := r.category.lineage.contains .validation

/-- The details in the order of their names. -/
def details : Refusal → List Value
  | malformed why => [.text why.message]
  | insufficientFunds account requested available =>
    [.text account, .nat requested.units, .nat available.units]
  | invalidSplit why => [.text why.message]
  | belowMinimum amount minimum => [.nat amount.units, .nat minimum.units]
  | invalidToken token => [.text token]
  | invalidDuration duration unit why => [duration, .text unit, .text why.message]
  | blacklisted account => [.text account]
  | alreadySettled drop status => [.text drop.text, .text status]
  | undelivered target channel reason => [.text target, .text channel, .text reason]
  | unsaved operation cause => [.text operation, .text cause.name]
  | dropNotFound drop => [.text drop.text]
  | frozen id change => [.text change.entity, .text id, .text change.message]

/-- The report of a refusal. A duration beyond any printable amount has no text, and is left out. -/
def report (r : Refusal) : Report :=
  match Report.of r.category r.details with
  | .ok report => report
  | .error _ => ⟨r.category, ((r.category.details?).getD []).zip r.details, ""⟩

def message (r : Refusal) : String := r.report.message

end Refusal
end TipJar
