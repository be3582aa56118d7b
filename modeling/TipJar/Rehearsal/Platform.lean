import TipJar.Program.Call

/-! A platform that answers as told.

It knows roles, names and reactions, and can be told to fail or to keep silent.
Whoever waits for a silent platform waits until the limit. -/
namespace TipJar.Rehearsal

/-- How the platform reports that a public message failed. -/
inductive PostTrouble
  | unavailable
  /-- The platform itself waited too long. -/
  | timedOut
deriving DecidableEq

/-- What the platform knows, and how it behaves. -/
structure Platform where
  roles : List (String × List String)
  names : List (String × String)
  /-- Who reacted, by message and token. -/
  reactions : List ((String × String) × List String)
  /-- The tokens that can be used; without a list, all. -/
  validTokens : Option (List String)
  closedAccounts : List String
  silentAccounts : List String
  postTrouble : Option PostTrouble
  failsLookup : Bool
  failsReact : Bool
  failsRole : Bool
  failsValidate : Bool
  failsName : Bool
  failsMention : Bool
  silentPost : Bool
  silentLookup : Bool
  silentName : Bool

namespace Platform

/-- A platform that knows nobody and never fails. -/
def quiet : Platform :=
  { roles := [], names := [], reactions := [], validTokens := none, closedAccounts := [],
    silentAccounts := [], postTrouble := none, failsLookup := false, failsReact := false,
    failsRole := false, failsValidate := false, failsName := false, failsMention := false,
    silentPost := false, silentLookup := false, silentName := false }

/-- The last thing that was said of a key. -/
def find? {κ α : Type} [BEq κ] (known : List (κ × α)) (key : κ) : Option α :=
  (known.find? (·.1 == key)).map (·.2)

/-- An answer, or silence. -/
inductive Response (α : Type)
  | answer (result : Except CallFault α)
  | silence

/-- The answer to a call, once so many public messages have been posted. -/
def respond (p : Platform) (posted : Nat) : (c : Call) → Response c.Reply
  | .post .. =>
    if p.silentPost then .silence
    else match p.postTrouble with
      | some .unavailable => .answer (.error (.connection "channel unavailable"))
      | some .timedOut => .answer (.error (.timeout "gateway timed out"))
      | none => .answer (.ok ("msg-" ++ toString (posted + 1)))
  | .tell account _ =>
    if p.silentAccounts.contains account then .silence
    else if p.closedAccounts.contains account then
      .answer (.error (.permission ("DMs closed for " ++ account)))
    else .answer (.ok ())
  | .members role =>
    if p.failsRole then .answer (.error (.lookup ("no such role " ++ role)))
    else .answer (.ok ((find? p.roles role).getD []))
  | .reactions _ message token =>
    if p.silentLookup then .silence
    else if p.failsLookup then .answer (.error (.timeout "reaction lookup timed out"))
    else .answer (.ok ((find? p.reactions (message, token)).getD []))
  | .usable _ token =>
    if p.failsValidate then .answer (.error (.connection "emoji list unavailable"))
    else .answer (.ok ((p.validTokens.map (·.contains token)).getD true))
  | .react .. =>
    if p.failsReact then .answer (.error (.connection "reaction rejected")) else .answer (.ok ())
  | .name account =>
    if p.silentName then .silence
    else if p.failsName then .answer (.error (.connection "member list unavailable"))
    else .answer (.ok ((find? p.names account).getD ("user-" ++ account)))

/-- The markup that mentions an account. -/
def mention (p : Platform) (account : String) : Except CallFault String :=
  if p.failsMention then .error (.runtime "mention markup unavailable")
  else .ok ("<@" ++ account ++ ">")

end Platform

/-- The word for a kind of call. -/
def callWord : Call → String
  | .post .. => "public"
  | .tell .. => "dm"
  | .members .. => "role"
  | .reactions .. => "lookup"
  | .usable .. => "validate"
  | .react .. => "react"
  | .name .. => "name"

/-- A call as it is recorded: its word and what it is about. -/
def callRecord (c : Call) : List String :=
  callWord c :: match c with
    | .post channel text => [channel, text]
    | .tell account text => [account, text]
    | .members role => [role]
    | .reactions channel message token => [channel, message, token]
    | .usable channel token => [channel, token]
    | .react channel message token => [channel, message, token]
    | .name account => [account]

end TipJar.Rehearsal
