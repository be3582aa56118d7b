import TipJar.Fault.Basic

/-! Calls to the chat platform.

Channels, messages and accounts are named by opaque texts of the platform's own.
Every call may fail, and a call that takes too long is given up. -/
namespace TipJar

/-- What the platform is asked for. -/
inductive Call
  /-- A public message in a channel. -/
  | post (channel text : String)
  /-- A direct message to an account. -/
  | tell (account text : String)
  /-- The members of a role. -/
  | members (role : String)
  /-- Who reacted to a message with a token. -/
  | reactions (channel message token : String)
  /-- Whether a token can be used in a channel. -/
  | usable (channel token : String)
  /-- A reaction of our own to a message. -/
  | react (channel message token : String)
  /-- The plain name of an account. -/
  | name (account : String)
deriving DecidableEq

namespace Call

/-- What the platform answers; a public message is answered with its own name. -/
abbrev Reply : Call → Type
  | post .. => String
  | tell .. => Unit
  | members .. => List String
  | reactions .. => List String
  | usable .. => Bool
  | react .. => Unit
  | name .. => String

end Call

/-- How the failure of a call is told: its name and its text. -/
def CallFault.told (f : CallFault) : String := f.name ++ ": " ++ f.message

end TipJar
