import TipJar.Binary64.Basic
import TipJar.Ledger.Work
import TipJar.Program.Call
import TipJar.Supply

/-! Programs: what a command or a sweep does, step by step.

A command is not one unit of work. Between two of them it waits for the chat
platform, and meanwhile others work on the same tables. So a program is a tree: at
each node one effect, and for each outcome of the effect the program that follows.
What happens in between is up to whoever runs the program, which makes a statement
about a program a statement about every platform and every interleaving.

Only units of work change the tables, and a failure of a program ends it. -/
namespace TipJar

/-- What a program does at the desk. -/
inductive Chore : Type → Type 1
  /-- A unit of work under the name of an operation. -/
  | transact {α : Type} (operation : String) (work : Ledger.Work α) : Chore (Checked α)
  | note (level : Log.Level) (part message : String) (fields : List (String × Value))
      (failure : Option Failure) : Chore Unit
  | now : Chore Moment
  | freshId : Chore Uuid
  /-- Binds identifiers: the ones that were in force. -/
  | bind (changes : List (Log.Field × String)) : Chore Log.Context
  /-- Restores identifiers to what they were. -/
  | restore (old : Log.Context) (changed : List Log.Field) : Chore Unit

def Chore.run {β : Type} : Chore β → Ledger.Desk → β × Ledger.Desk
  | transact operation work, desk => desk.transact operation work
  | note level part message fields failure, desk =>
    ((), desk.note level part message fields failure)
  | now, desk => (desk.now, desk)
  | freshId, desk => (desk.ids desk.nextId, { desk with nextId := desk.nextId + 1 })
  | bind changes, desk => (desk.context, { desk with context := desk.context.putAll changes })
  | restore old changed, desk => ((), { desk with context := desk.context.restore old changed })

/-- Whether a chore is a unit of work. -/
def Chore.isWork {β : Type} : Chore β → Bool
  | transact .. => true
  | _ => false

/-- What a program does and waits for. -/
inductive Effect : Type → Type 1
  | chore {β : Type} (c : Chore β) : Effect β
  /-- A call to the platform, given up after so many seconds if a limit is set. -/
  | call (c : Call) (limit : Option Binary64) : Effect (Except CallFault c.Reply)
  /-- The markup that mentions an account. -/
  | mention (account : String) : Effect (Except CallFault String)
  /-- The figures of the wallet. -/
  | wallet : Effect (Checked Supply.Figures)
  /-- Whether the sweeper has been asked to stop. -/
  | stopping : Effect Bool

/-- What is done, and how it goes on. -/
inductive Program (α : Type) : Type 1
  | done (result : Checked α)
  | perform {β : Type} (e : Effect β) (next : β → Program α)

namespace Program

variable {α β : Type}

/-- One program after another; a failure of the first is the failure of both. -/
def bind : Program α → (α → Program β) → Program β
  | done (.ok a), f => f a
  | done (.error why), _ => done (.error why)
  | perform e next, f => perform e fun b => (next b).bind f

instance : Monad Program where
  pure a := done (.ok a)
  bind := bind

def fail (why : Fault) : Program α := done (.error why)

/-- The result of a program as a value, a failure too. -/
def attempt : Program α → Program (Checked α)
  | done result => done (.ok result)
  | perform e next => perform e fun b => (next b).attempt

/-- A check that does nothing. -/
def check (x : Checked α) : Program α := done x

/-! ### Single effects -/

/-- Does a unit of work under the name of an operation. -/
def transact (operation : String) (work : Ledger.Work α) : Program α :=
  perform (.chore (.transact operation work)) done

/-- Writes a log line. -/
def note (level : Log.Level) (part message : String) (fields : List (String × Value)) :
    Program Unit :=
  perform (.chore (.note level part message fields none)) fun _ => done (.ok ())

/-- Writes a line about a fault. -/
def noteFault (level : Log.Level) (part message : String) (fields : List (String × Value))
    (why : Fault) : Program Unit :=
  perform (.chore (.note level part message fields (some why.failure))) fun _ => done (.ok ())

def now : Program Moment := perform (.chore .now) fun m => done (.ok m)

/-- An identifier that was not used before. -/
def freshId : Program Uuid := perform (.chore .freshId) fun id => done (.ok id)

/-- A call, its failure as a value. -/
def tryCall (c : Call) (limit : Option Binary64) : Program (Except CallFault c.Reply) :=
  perform (.call c limit) fun answer => done (.ok answer)

/-- A call whose failure is the program's. -/
def call (c : Call) (limit : Option Binary64) : Program c.Reply :=
  perform (.call c limit) fun answer => done (answer.mapError .call)

/-- The markup that mentions an account. -/
def mention (account : String) : Program String :=
  perform (.mention account) fun markup => done (markup.mapError .call)

/-- The figures of the wallet. -/
def wallet : Program Supply.Figures := perform .wallet done

/-- Whether the sweeper has been asked to stop. -/
def stopping : Program Bool := perform .stopping fun b => done (.ok b)

/-- A program during which some identifiers are bound; they are restored however it ends. -/
def within (changes : List (Log.Field × String)) (p : Program α) : Program α :=
  perform (.chore (.bind changes)) fun old =>
    p.attempt.bind fun result =>
      perform (.chore (.restore old (changes.map (·.1)))) fun _ => done result

/-! ### Running -/

/-- Runs a program, each effect as the runner performs it. -/
def run {m : Type → Type} [Monad m] (perform : {β : Type} → Effect β → m β) :
    Program α → m (Checked α)
  | done result => pure result
  | .perform e next => do
    let outcome ← perform e
    (next outcome).run perform

end Program
end TipJar
