import TipJar.Ledger.Name
import TipJar.Ledger.Work
import TipJar.Value.Number

/-! Work on accounts.

An account comes into being, with nothing in it, when it is first read or
credited. Balances change by deposits and by one debit with its credits, which is
checked against what the drops of the account hold: what can be spent is the
balance without the holds, except for the hold of a drop that is just being paid
out. -/
namespace TipJar.Ledger

/-! ### Names -/

/-- The elements of a list, each at its first place only. -/
def distinct : List String → List String
  | [] => []
  | a :: rest => a :: (distinct rest).filter (· != a)

/-- Names in the order of their characters, each once: the order in which accounts are locked. -/
def lockOrder (names : List String) : List String :=
  (distinct names).mergeSort fun a b => decide (a ≤ b)

/-- The stored text that a value is looked up by; nothing is looked up by what is nothing or no
number. -/
def lookupKey (v : Value) : Checked (Option String) :=
  match v with
  | .scalar .null => .ok none
  | .scalar (.bool b) => .ok (some (if b then "1" else "0"))
  | .scalar (.int i) =>
    if columnMax < i ∨ i < -columnMax - 1 then .error (.beyond .stored)
    else .ok (some (Text.integerText i))
  | .scalar (.float f) => .ok (if f.isNan then none else some f.text)
  | .scalar (.moment m) => .ok (some m.text)
  | .scalar (.date d) => .ok (some d.text)
  | v =>
    match v.text? with
    | some s => .ok (some s)
    | none => .error (.store .unsupported)

/-! ### Opening accounts -/

/-- The account of a name, which is opened if there is none. -/
def ensure (who : Value) : Work Account := do
  let name ← Work.check ((checkName who).mapError .refused)
  match (← Work.tables).account? name with
  | some account => return account
  | none =>
    Work.write (·.withAccount name)
    return .opened name

/-- Opens what is missing of some accounts, in their locking order, and reads them all. -/
def lock (names : List String) : Work (List Account) := do
  let ordered := lockOrder names
  for name in ordered do
    let _ ← ensure (.text name)
  Work.read fun s => ordered.filterMap s.account?

/-- Opens one account if it is missing. -/
def lockOne (who : Value) : Work Unit := do
  match who with
  | .list _ => throw (.mismatch (.unhashable "list"))
  | .map _ => throw (.mismatch (.unhashable "dict"))
  | who =>
    let _ ← ensure who

/-! ### Reading -/

/-- The balance of an account, which is opened if there is none. -/
def balanceOf (who : Value) : Work Amount := do return (← ensure who).balance

/-- Sums that the store forms for a question: each within 64 bits. -/
def summed (sums : List Amount) : Work Unit :=
  if ∀ sum ∈ sums, sum.units ≤ columnMax then pure () else Work.storeFails .overflowed

/-- What the drops of an account hold. Nobody's drops hold nothing. -/
def heldBy (who : Value) (except : Option Uuid) : Work Amount := do
  match ← Work.check (lookupKey who) with
  | some name =>
    let held ← Work.read (·.held name except)
    summed [held]
    return held
  | none => Work.read fun _ => .zero

/-- The balance of an account as its holder sees it. -/
def viewOf (who : Value) (except : Option Uuid) : Work Balance := do
  let account ← ensure who
  let held ← heldBy who except
  return ⟨account.name, account.balance, held⟩

/-! ### Deposits and debits -/

/-- Adds units that arrived from the wallet: the new balance. -/
def deposit (who : Value) (amount : Amount) : Work Amount := do
  if amount.units = 0 then Work.refuse (.malformed .emptyDeposit)
  lockOne who
  Work.column amount.units
  let name := who.text?.getD ""
  Work.write (·.credit name amount)
  let balance ← Work.read (·.balance name)
  Work.note .info "services.balance_store" "deposit_applied"
    [("account_id", .text name), ("amount", .nat amount.units), ("balance", .nat balance.units)]
  return balance

/-- Checks that an amount can be spent: what can be. -/
def checkAvailable (who : Value) (amount : Amount) : Work Amount := do
  lockOne who
  let view ← viewOf who none
  if view.available < amount then
    Work.refuse (.insufficientFunds view.account amount view.available)
  return view.available

/-- Adds up the credits of each destination, in the order in which they first appear. -/
def gather (credits : List (String × Amount)) : List (String × Amount) :=
  credits.foldl (fun sums (name, amount) =>
    if sums.any (·.1 == name) then
      sums.map fun (n, a) => if n == name then (n, a + amount) else (n, a)
    else sums ++ [(name, amount)]) []

/-- Takes the sum of some credits from one account and adds each to its own. Nothing is written if
what can be spent is less than the sum. -/
def debitAndCredit (source : String) (credits : List (String × Amount)) (except : Option Uuid) :
    Work Amount := do
  if credits.isEmpty then Work.refuse (.malformed .noCredits)
  for (destination, _) in credits do
    let _ ← Work.check ((checkName (.text destination)).mapError .refused)
  let sums := gather credits
  let total := Amount.sum (sums.map (·.2))
  let _ ← lock (source :: sums.map (·.1))
  Work.column total.units
  let store ← Work.tables
  summed [store.held source except]
  if store.Covers source except total then
    Work.write (·.debit source total)
    for (destination, amount) in sums do
      Work.write (·.credit destination amount)
    return total
  else
    let available := (← viewOf (.text source) except).available
    Work.note .info "services.balance_store" "debit_rejected_insufficient_funds"
      [("account_id", .text source), ("requested", .nat total.units),
       ("available", .nat available.units)]
    Work.refuse (.insufficientFunds source total available)

/-! ### Settings -/

/-- An account as it is shown; a stored preference that is none is found out here. -/
def Account.read (a : Account) : Checked (Option Preference) :=
  match a.preference with
  | none => .ok none
  | some p => some <$> p.get "NotificationPreference"

/-- An account's settings and balance, each checked. -/
structure AccountInfo where
  name : String
  balance : Amount
  preference : Option Preference
  blacklisted : Bool

/-- What an account tells about itself, if its stored preference is one. -/
def Account.info (a : Account) : Checked AccountInfo := do
  return ⟨a.name, a.balance, ← a.read, a.blacklisted⟩

/-- What an account tells about itself; it is opened if there is none. -/
def accountInfo (who : Value) : Work AccountInfo := do Work.check (← ensure who).info

/-- The account after a change of its settings. -/
def changeSettings (who : Value) (change : Account → Account) : Work Account := do
  let account ← ensure who
  Work.write (·.updateAccount account.name change)
  return change account

/-- Stores what a holder prefers, or that the holder prefers nothing. -/
def setPreference (who preference : Value) : Work AccountInfo := do
  let chosen ← Work.check (match preference with
    | .scalar .null => .ok none
    | v => some <$> readMember "NotificationPreference" Preference.ofText? v)
  let account ← changeSettings who fun a => { a with preference := chosen.map .known }
  Work.note .info "services.account" "notification_preference_set"
    [("account_id", .text account.name), ("preference", .ofOption (.text ·.text) chosen)]
  Work.check account.info

def setBlacklisted (who : Value) (blacklisted : Bool) : Work AccountInfo := do
  let account ← changeSettings who fun a => { a with blacklisted }
  Work.note .warning "services.account" "account_blacklist_changed"
    [("account_id", .text account.name), ("blacklisted", .bool blacklisted)]
  Work.check account.info

/-- Whether an account may not start transfers. An account that is not there may. -/
def isBlacklisted (who : Value) : Work Bool := do
  let key ← Work.check (lookupKey who)
  Work.read fun s => ((key.bind s.account?).map (·.blacklisted)).getD false

/-- Refuses an account that may not start transfers. -/
def requireAllowed (who : Value) : Work Unit := do
  if ← isBlacklisted who then
    let name := ((lookupKey who).toOption.getD none).getD ""
    Work.note .info "services.account" "blacklisted_account_rejected" [("account_id", .text name)]
    Work.refuse (.blacklisted name)

/-- The preferences of several names, in order of first appearance. Names without an account prefer
nothing, and none is opened for them. -/
def preferencesOf (names : List String) : Work (List (String × Option Preference)) := do
  match distinct names with
  | [] => return []
  | wanted =>
    let store ← Work.tables
    Work.check (wanted.mapM fun name => do
      match store.account? name with
      | some account => return (name, ← account.read)
      | none => return (name, none))

end TipJar.Ledger
