import TipJar.Fault.Basic

/-! Equal splits, and the rules a transfer obeys before anything is touched.

Every destination gets the same share, and what does not divide stays with the
source, so that shares and remainder always make up the amount asked for. -/
namespace TipJar.Transfer

/-- An amount split among recipients. -/
structure Split where
  requested : Amount
  recipients : Nat
  share : Amount
  remainder : Amount
deriving DecidableEq

namespace Split

/-- The split of an amount among a number of recipients. -/
def of (requested : Amount) (recipients : Nat) : Split :=
  let (share, remainder) := requested.split recipients
  ⟨requested, recipients, share, remainder⟩

/-- What leaves the source. -/
def moved (s : Split) : Amount := s.share.times s.recipients

/-- What moves and what stays make up what was asked for. -/
theorem moved_add_remainder (requested : Amount) (n : Nat) :
    (of requested n).moved + (of requested n).remainder = requested := by
  ext
  exact requested.split_units n

end Split

/-- A request to move an amount from one account to others. -/
structure Intent where
  source : String
  destinations : List String
  amount : Amount
  kind : Kind
deriving DecidableEq

/-- The least amount a transfer may have unless another is configured. -/
def defaultMinimum : Amount := ⟨1⟩

/-- Checks a request: destinations there are, all different and none the source, and the amount is
not below the minimum. -/
def Intent.check (i : Intent) (minimum : Amount) : Except Refusal Unit :=
  if i.destinations = [] then .error (.invalidSplit .noDestinations)
  else if ¬ i.destinations.Nodup then .error (.invalidSplit .duplicateDestinations)
  else if i.source ∈ i.destinations then .error (.invalidSplit .sourceAmongDestinations)
  else if i.amount < minimum then .error (.belowMinimum i.amount minimum)
  else .ok ()

/-- A transfer that took place. -/
structure Receipt where
  event : Uuid
  source : String
  destinations : List String
  kind : Kind
  requested : Amount
  share : Amount
  moved : Amount
  remainder : Amount
  settledAt : Moment
deriving DecidableEq

/-- The receipt of a split among destinations. -/
def Receipt.ofSplit (event : Uuid) (i : Intent) (s : Split) (time : Moment) : Receipt :=
  { event, source := i.source, destinations := i.destinations, kind := i.kind,
    requested := i.amount, share := s.share, moved := s.moved, remainder := s.remainder,
    settledAt := time }

/-- Whether less moved than was asked for. -/
def Receipt.isAdjusted (r : Receipt) : Bool := r.moved != r.requested

end TipJar.Transfer
