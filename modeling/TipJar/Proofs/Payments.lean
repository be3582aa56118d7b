import TipJar.Ledger.Transfers
import TipJar.Proofs.Spending

/-! Transfers, in one line each.

A transfer that is executed moves its shares, appends its entries and gives a
receipt; everything it needs for that is collected in `Desk.CanPay`, so that to
execute a transfer is exactly to have that. The second half says what such a
transfer moves, account by account, and what its entries look like. -/
namespace TipJar

namespace Transfer.Intent

/-- The split of the amount among the destinations. -/
def split (i : Intent) : Split := .of i.amount i.destinations.length

/-- One share for every destination. -/
def credits (i : Intent) : List (String × Amount) := i.destinations.map (·, i.split.share)

variable {i : Intent}

theorem map_fst_credits : i.credits.map (·.1) = i.destinations := by
  unfold credits
  rw [List.map_map]
  exact List.map_id _

theorem sum_credits : Amount.sum (i.credits.map (·.2)) = i.split.moved := by
  have hshares (names : List String) (share : Amount) :
      Amount.sum ((names.map (·, share)).map (·.2)) = share.times names.length := by
    ext
    rw [Amount.units_sum, List.map_map, List.map_map, Amount.units_times]
    induction names with
    | nil => rfl
    | cons n rest ih =>
      rw [List.map_cons, List.sum_cons, ih, List.length_cons, Nat.mul_succ, Nat.add_comm]
      rfl
  exact hshares i.destinations i.split.share

/-- No more moves than was asked for. -/
theorem moved_le : i.split.moved.units ≤ i.amount.units := by
  have := congrArg Amount.units (Split.moved_add_remainder i.amount i.destinations.length)
  rw [Amount.units_add] at this
  exact Nat.le.intro this

/-- What a transfer that passes its check looks like. -/
theorem check_ok {minimum : Amount} :
    i.check minimum = .ok () ↔
      i.destinations ≠ [] ∧ i.destinations.Nodup ∧ i.source ∉ i.destinations ∧
        minimum ≤ i.amount := by
  have hle : ¬ i.amount < minimum ↔ minimum ≤ i.amount := Nat.not_lt
  unfold check
  by_cases hsome : i.destinations = []
  · simp [hsome]
  · by_cases hnodup : i.destinations.Nodup
    · by_cases hsource : i.source ∈ i.destinations
      · simp [hsome, hnodup, hsource]
      · by_cases hmin : i.amount < minimum
        · simp [hsome, hnodup, hsource, hmin, ← hle]
        · simp [hsome, hnodup, hsource, hmin, ← hle]
    · simp [hsome, hnodup]

end Transfer.Intent

namespace Ledger

/-! ### Entries -/

/-- Each name with an identifier of its own, in the order in which they are handed out. -/
def stamp (ids : Nat → Uuid) : Nat → List String → List (String × Uuid)
  | _, [] => []
  | next, name :: rest => (name, ids next) :: stamp ids (next + 1) rest

theorem map_fst_stamp (ids : Nat → Uuid) (next : Nat) (names : List String) :
    (stamp ids next names).map (·.1) = names := by
  induction names generalizing next with
  | nil => rfl
  | cons n rest ih =>
    unfold stamp
    rw [List.map_cons, ih]

theorem map_snd_stamp (ids : Nat → Uuid) (next : Nat) (names : List String) :
    (stamp ids next names).map (·.2) =
      (List.range names.length).map fun k => ids (next + k) := by
  induction names generalizing next with
  | nil => rfl
  | cons n rest ih =>
    unfold stamp
    rw [List.map_cons, ih, List.length_cons, List.range_succ_eq_map, List.map_cons, List.map_map]
    congr 1
    apply List.map_congr_left
    intro k _
    show ids (next + 1 + k) = ids (next + (k + 1))
    rw [Nat.add_assoc, Nat.add_comm 1 k]

section Entries
variable {event : Uuid} {i : Transfer.Intent} {share : Amount} {utc : Moment} {line : Nat}
  {stamped : List (String × Uuid)}

theorem length_entriesFor :
    (entriesFor event i share utc line stamped).length = stamped.length := by
  induction stamped generalizing line with
  | nil => rfl
  | cons s rest ih => exact congrArg (· + 1) ih

theorem map_destination_entriesFor :
    (entriesFor event i share utc line stamped).map (·.destination) = stamped.map (·.1) := by
  induction stamped generalizing line with
  | nil => rfl
  | cons s rest ih => exact congrArg (s.1 :: ·) ih

theorem map_id_entriesFor :
    (entriesFor event i share utc line stamped).map (·.id) = stamped.map (·.2) := by
  induction stamped generalizing line with
  | nil => rfl
  | cons s rest ih => exact congrArg (s.2 :: ·) ih

/-- Entries of one transfer differ only in what is theirs: identifier, number and destination. -/
theorem shared_of_mem_entriesFor {e : Entry} (h : e ∈ entriesFor event i share utc line stamped) :
    e.event = event ∧ e.kind = .known i.kind ∧ e.source = i.source ∧ e.amount = share ∧
      e.recordedAt = utc := by
  induction stamped generalizing line with
  | nil => cases h
  | cons s rest ih =>
    rcases List.mem_cons.mp h with rfl | h
    · exact ⟨rfl, rfl, rfl, rfl, rfl⟩
    · exact ih h

theorem line_le_of_mem_entriesFor {e : Entry}
    (h : e ∈ entriesFor event i share utc line stamped) : line ≤ e.line := by
  induction stamped generalizing line with
  | nil => cases h
  | cons s rest ih =>
    rcases List.mem_cons.mp h with rfl | h
    · exact Int.le_refl _
    · have := ih h
      omega

/-- Numbers are handed out once. -/
theorem pairwise_line_entriesFor :
    (entriesFor event i share utc line stamped).Pairwise fun a b => a.line ≠ b.line := by
  induction stamped generalizing line with
  | nil => exact List.Pairwise.nil
  | cons s rest ih =>
    refine List.Pairwise.cons (fun e he => ?_) ih
    have := line_le_of_mem_entriesFor he
    show (line : Int) ≠ e.line
    omega

/-- Entries of a new event with new identifiers are admitted where their accounts are. -/
theorem admits_entriesFor {s : Store} (hids : (stamped.map (·.2)).Nodup)
    (hnew : ∀ e ∈ s.entries, e.event ≠ event ∧ e.id ∉ stamped.map (·.2))
    (hsource : (s.account? i.source).isSome)
    (hdestinations : ∀ name ∈ stamped.map (·.1), (s.account? name).isSome) :
    s.Admits (entriesFor event i share utc line stamped) := by
  refine ⟨?_, ?_, ?_⟩
  · have hdiffer : (entriesFor event i share utc line stamped).Pairwise fun a b => a.id ≠ b.id := by
      refine List.pairwise_map.mp (?_ : List.Nodup _)
      rw [map_id_entriesFor]
      exact hids
    refine (hdiffer.and pairwise_line_entriesFor).imp ?_
    intro a b hrow hclash
    obtain ⟨hid, hline⟩ := hrow
    simp [Entry.clashes, hid, hline] at hclash
  · intro row hrow e he hclash
    have hevent := (shared_of_mem_entriesFor hrow).1
    have hid : row.id ∈ stamped.map (·.2) := by
      rw [← map_id_entriesFor]
      exact List.mem_map.mpr ⟨row, hrow, rfl⟩
    have hneid : e.id ≠ row.id := fun h => (hnew e he).2 (h ▸ hid)
    have hneevent : e.event ≠ row.event := fun h => (hnew e he).1 (h.trans hevent)
    simp [Entry.clashes, hneid, hneevent] at hclash
  · intro row hrow
    rw [(shared_of_mem_entriesFor hrow).2.2.1]
    refine ⟨hsource, hdestinations _ ?_⟩
    rw [← map_destination_entriesFor]
    exact List.mem_map.mpr ⟨row, hrow, rfl⟩

end Entries

/-! ### Executing -/

variable {desk after : Desk}

/-- Handing out one identifier for each name. -/
theorem stamp_gives {names : List String} {stamped : List (String × Uuid)} :
    (names.mapM fun name => do return (name, ← Work.freshId)).Gives desk stamped after ↔
      stamp desk.ids desk.nextId names = stamped ∧ desk.skip names.length = after := by
  induction names generalizing desk stamped with
  | nil => exact Work.gives_mapM_nil
  | cons n rest ih =>
    rw [Work.gives_mapM_cons]
    simp only [Work.gives_bind, Work.gives_freshId, Work.gives_pure, ih]
    have hskip : (desk.skip 1).skip rest.length = desk.skip (n :: rest).length := by
      rw [Desk.skip_skip, List.length_cons, Nat.add_comm]
    constructor
    · intro h
      obtain ⟨_, _, _, ⟨_, _, ⟨rfl, rfl⟩, rfl, rfl⟩, ⟨rfl, rfl⟩, rfl⟩ := h
      exact ⟨rfl, hskip.symm⟩
    · intro h
      obtain ⟨rfl, rfl⟩ := h
      exact ⟨_, _, _, ⟨_, _, ⟨rfl, rfl⟩, rfl, rfl⟩, ⟨rfl, hskip⟩, rfl⟩

theorem record_gives {event : Uuid} {i : Transfer.Intent} {share : Amount} {time : Moment}
    {u : Unit} :
    (record event i share time).Gives desk u after ↔
      ∃ s utc, desk.Holds s ∧ time.IsStoredAs utc ∧
        let rows := entriesFor event i share utc 0 (stamp desk.ids desk.nextId i.destinations)
        s.Admits rows ∧
          (desk.keep { s with entries := s.entries ++ rows }).skip i.destinations.length =
            after := by
  unfold record
  simp only [Work.gives_flushing, Work.gives_bind, stamp_gives, Work.gives_stored,
    Work.gives_tables, Work.gives_guard_store, Work.gives_write, not_not]
  constructor
  · intro h
    obtain ⟨_, _, ⟨rfl, rfl⟩, utc, _, ⟨htime, rfl⟩, s, _, ⟨hs, rfl⟩, hadmits, t, ht, rfl⟩ := h
    obtain rfl := hs.unique ht
    exact ⟨s, utc, ⟨hs.sound, hs.tables⟩, htime, hadmits, rfl⟩
  · intro h
    obtain ⟨s, utc, hs, htime, hadmits, rfl⟩ := h
    exact ⟨_, _, ⟨rfl, rfl⟩, utc, _, ⟨htime, rfl⟩, s, _, ⟨hs.skip _, rfl⟩, hadmits, s,
      hs.skip _, rfl⟩

/-- The tables once a transfer has moved its shares and appended its entries. -/
def Store.transferred (s : Store) (i : Transfer.Intent) (rows : List Entry) : Store :=
  let moved := s.debitedAndCredited i.source i.credits
  { moved with entries := moved.entries ++ rows }

/-- The entries that a transfer executed at the desk leaves. -/
def Desk.rowsFor (desk : Desk) (i : Transfer.Intent) (utc : Moment) : List Entry :=
  entriesFor (desk.ids desk.nextId) i i.split.share utc 0 
    (stamp desk.ids (desk.nextId + 1) i.destinations)

/-- What a transfer needs to be executed at the desk: it is proper, the accounts can be named, the
source can spend what moves, and its entries can be kept. -/
structure Desk.CanPay (desk : Desk) (s : Store) (i : Transfer.Intent) (minimum : Amount)
    (except : Option Uuid) (utc : Moment) : Prop where
  proper : i.check minimum = .ok ()
  names : ∀ name ∈ i.source :: i.destinations, IsName name
  fits : i.split.moved.units ≤ columnMax
  summed : (s.held i.source except).units ≤ columnMax
  covered : s.Covers i.source except i.split.moved
  timed : desk.now.IsStoredAs utc
  admitted : (s.debitedAndCredited i.source i.credits).Admits (desk.rowsFor i utc)

/-- The desk once a transfer is executed. -/
def Desk.afterTransfer (desk : Desk) (i : Transfer.Intent) (s : Store) : Desk :=
  let changes := [(.event, (desk.ids desk.nextId).text), (.account, i.source)]
  let noted := Desk.note
    { ((desk.keep s).skip 1).skip i.destinations.length with
      context := desk.context.putAll changes }
    .info "services.transfer_engine" "transfer_settled"
    [("kind", .text i.kind.text), ("recipients", .nat i.destinations.length),
     ("requested_total", .nat i.amount.units), ("moved_total", .nat i.split.moved.units),
     ("share", .nat i.split.share.units), ("remainder", .nat i.split.remainder.units)] none
  { noted with context := noted.context.restore desk.context (changes.map (·.1)) }

/-- A proper transfer has one credit for each destination to begin with. -/
theorem gather_credits {i : Transfer.Intent} {minimum : Amount} (h : i.check minimum = .ok ()) :
    gather i.credits = i.credits := by
  apply gather_of_nodup
  rw [Transfer.Intent.map_fst_credits]
  exact (Transfer.Intent.check_ok.mp h).2.1

theorem execute_gives {i : Transfer.Intent} {minimum : Amount} {except : Option Uuid}
    {receipt : Transfer.Receipt} :
    (execute i minimum except).Gives desk receipt after ↔
      ∃ s utc, desk.Holds s ∧ desk.CanPay s i minimum except utc ∧
        .ofSplit (desk.ids desk.nextId) i i.split desk.now = receipt ∧
        desk.afterTransfer i (s.transferred i (desk.rowsFor i utc)) = after := by
  have hsome (hproper : i.check minimum = .ok ()) : i.credits ≠ [] := by
    unfold Transfer.Intent.credits
    simp [(Transfer.Intent.check_ok.mp hproper).1]
  unfold execute
  simp only [Work.gives_bind, Work.gives_check, checked_refused, Work.gives_freshId, Work.gives_now,
    Work.gives_within, debitAndCredit_gives, record_gives, Work.gives_note, Work.gives_pure]
  constructor
  · intro h
    obtain ⟨_, _, ⟨hproper, rfl⟩, _, _, ⟨rfl, rfl⟩, _, _, ⟨rfl, rfl⟩, _,
      ⟨_, _, ⟨s, hs, -, hnames, rfl, hfits, hsummed, hcovered, rfl⟩, _, _,
        ⟨t, utc, ht, htime, hadmits, rfl⟩, _, _, rfl, hreceipt, rfl⟩, rfl⟩ := h
    have htables := (Option.some.inj ht.tables).symm
    change ∀ name ∈ i.source :: i.credits.map (·.1), IsName name at hnames
    change ((Amount.sum ((gather i.credits).map (·.2))).units : Int) ≤ columnMax at hfits
    change s.Covers i.source except (.sum ((gather i.credits).map (·.2))) at hcovered
    change t = s.debitedAndCredited i.source (gather i.credits) at htables
    rw [gather_credits hproper, Transfer.Intent.sum_credits] at hfits hcovered
    rw [Transfer.Intent.map_fst_credits] at hnames
    rw [gather_credits hproper] at htables
    subst htables
    exact ⟨s, utc, ⟨hs.sound, hs.tables⟩,
      ⟨hproper, hnames, hfits, hsummed, hcovered, htime, hadmits⟩, hreceipt, rfl⟩
  · intro h
    obtain ⟨s, utc, hs, hpay, hreceipt, rfl⟩ := h
    have hmoved : Amount.sum ((gather i.credits).map (·.2)) = i.split.moved := by
      rw [gather_credits hpay.proper, Transfer.Intent.sum_credits]
    let begun : Desk := { desk.skip 1 with
      context := desk.context.putAll [(.event, (desk.ids desk.nextId).text), (.account, i.source)] }
    have hbegun : begun.Holds s := ⟨hs.sound, hs.tables⟩
    refine ⟨⟨⟩, desk, ⟨hpay.proper, rfl⟩, _, _, ⟨rfl, rfl⟩, _, _, ⟨rfl, rfl⟩, _,
      ⟨i.split.moved, begun.keep (s.debitedAndCredited i.source i.credits), ⟨s, hbegun,
        hsome hpay.proper, ?_, hmoved, hpay.fits, hpay.summed, hpay.covered, ?_⟩, ⟨⟩, _,
        ⟨s.debitedAndCredited i.source i.credits, utc, hbegun.keep _, hpay.timed,
          hpay.admitted, rfl⟩, ⟨⟩, _, rfl, hreceipt, rfl⟩, rfl⟩
    · change ∀ name ∈ i.source :: i.credits.map (·.1), IsName name
      rw [Transfer.Intent.map_fst_credits]
      exact hpay.names
    · change begun.keep (s.debitedAndCredited i.source (gather i.credits)) = _
      rw [gather_credits hpay.proper]

/-- The desk that a transfer leaves holds the tables it left. -/
theorem Desk.Holds.afterTransfer {s : Store} (hs : desk.Holds s) (i : Transfer.Intent) (t : Store) :
    (desk.afterTransfer i t).Holds t := by
  have hnoted : (({ ((desk.keep t).skip 1).skip i.destinations.length with
      context := desk.context.putAll
        [(.event, (desk.ids desk.nextId).text), (.account, i.source)] } : Desk)).Holds t :=
    ⟨hs.sound, rfl⟩
  exact ⟨(hnoted.note ..).sound, (hnoted.note ..).tables⟩

/-! ### What a transfer moves -/

namespace Store
variable (s : Store)

section DebitedAndCredited
variable (source : String) (credits : List (String × Amount)) (name : String)

@[simp] theorem drops_debitedAndCredited :
    (s.debitedAndCredited source credits).drops = s.drops := by
  unfold debitedAndCredited
  rw [drops_creditAll]
  exact s.drops_opened _

@[simp] theorem entries_debitedAndCredited :
    (s.debitedAndCredited source credits).entries = s.entries := by
  unfold debitedAndCredited
  rw [entries_creditAll]
  exact s.entries_opened _

/-- The balance of an account after a debit and its credits, as its column calculates. -/
def settledBalance (balance : Nat) : Nat :=
  topped credits name
    (if source = name then (columnDifference balance (Amount.sum (credits.map (·.2))).units).toNat
      else balance)

/-- The accounts that take part are there afterwards, and of all accounts only balances changed. -/
theorem account?_debitedAndCredited :
    (s.debitedAndCredited source credits).account? name =
      (if name ∈ source :: credits.map (·.1) then some ((s.account? name).getD (.opened name))
        else s.account? name).map fun a =>
          { a with balance := ⟨settledBalance source credits name a.balance.units⟩ } := by
  unfold debitedAndCredited settledBalance
  rw [account?_creditAll, account?_debit]
  by_cases h : source = name
  · subst h
    rw [if_pos rfl, account?_opened, if_pos (mem_lockOrder.mpr List.mem_cons_self),
      if_pos List.mem_cons_self]
    simp only [if_pos]
    rfl
  · rw [if_neg (Ne.symm h), account?_opened]
    simp only [mem_lockOrder, if_neg h]

theorem isSome_account?_debitedAndCredited :
    ((s.debitedAndCredited source credits).account? name).isSome =
      (decide (name ∈ source :: credits.map (·.1)) || (s.account? name).isSome) := by
  rw [account?_debitedAndCredited, Option.isSome_map]
  by_cases h : name ∈ source :: credits.map (·.1)
  · rw [if_pos h, decide_eq_true h]
    rfl
  · rw [if_neg h, decide_eq_false h, Bool.false_or]

theorem isSome_account?_debited {c : String × Amount} (hc : c ∈ credits) :
    (((s.opened (lockOrder (source :: credits.map (·.1)))).debit source
      (.sum (credits.map (·.2)))).account? c.1).isSome := by
  have h := s.isSome_account?_debitedAndCredited source credits c.1
  unfold debitedAndCredited at h
  rw [isSome_account?_creditAll] at h
  rw [h, decide_eq_true (List.mem_cons_of_mem _ (List.mem_map.mpr ⟨c, hc, rfl⟩)), Bool.true_or]

theorem balance_debitedAndCredited :
    ((s.debitedAndCredited source credits).balance name).units =
      settledBalance source credits name (s.balance name).units := by
  unfold debitedAndCredited settledBalance
  rw [balance_creditAll _ _ _ fun _ hc => s.isSome_account?_debited source credits hc,
    balance_debit, balance_opened]

/-- As long as a balance fits its column before and after, it has lost and gained exactly what it
had to. -/
theorem settledBalance_of_fits {source : String} {credits : List (String × Amount)} {name : String}
    {balance : Nat} (before : source = name → balance ≤ columnMax)
    (after : (balance - (if source = name then (Amount.sum (credits.map (·.2))).units else 0) +
      credited credits name : Nat) ≤ columnMax) :
    settledBalance source credits name balance =
      balance - (if source = name then (Amount.sum (credits.map (·.2))).units else 0) +
        credited credits name := by
  unfold settledBalance
  by_cases h : source = name
  · rw [if_pos h] at after ⊢
    have hleft : (columnDifference balance (Amount.sum (credits.map (·.2))).units).toNat =
        balance - (Amount.sum (credits.map (·.2))).units := by
      rw [columnDifference_of_fits (before h)]
      omega
    rw [if_pos h, hleft, topped_of_fits after]
  · rw [if_neg h, Nat.sub_zero] at after
    rw [if_neg h, if_neg h, Nat.sub_zero, topped_of_fits after]

theorem namesDiffer_debitedAndCredited {s : Store} (h : s.NamesDiffer) :
    (s.debitedAndCredited source credits).NamesDiffer :=
  namesDiffer_creditAll credits (namesDiffer_debit source _ (namesDiffer_opened _ h))

/-- What is taken from one account is what the others get, as long as all balances fit. -/
theorem custodial_debitedAndCredited {s : Store} (hn : s.NamesDiffer)
    (hcovered : (Amount.sum (credits.map (·.2))).units ≤ (s.balance source).units)
    (before : (s.balance source).units ≤ columnMax)
    (after : ∀ name, ((s.balance name).units -
      (if source = name then (Amount.sum (credits.map (·.2))).units else 0) +
        credited credits name : Nat) ≤ columnMax) :
    (s.debitedAndCredited source credits).custodial.units = s.custodial.units := by
  have hthere (c : String × Amount) (hc : c ∈ credits) :=
    s.isSome_account?_debited source credits hc
  have hopened := namesDiffer_opened (lockOrder (source :: credits.map (·.1))) hn
  have hdebited := custodial_debit source (.sum (credits.map (·.2))) hopened
  rw [balance_opened, custodial_opened, Amount.units_sum, List.map_map] at hdebited
  rw [Amount.units_sum, List.map_map] at hcovered
  have hroom (name : String) : ((((s.opened (lockOrder (source :: credits.map (·.1)))).debit source
      (.sum (credits.map (·.2)))).balance name).units + credited credits name : Nat) ≤
        columnMax := by
    have hall := after name
    rw [balance_debit, balance_opened]
    by_cases h : source = name
    · subst h
      rw [if_pos rfl] at hall ⊢
      rw [columnDifference_of_fits before]
      omega
    · rw [if_neg h] at hall ⊢
      exact hall
  unfold debitedAndCredited
  rw [custodial_creditAll credits (namesDiffer_debit _ _ hopened) hthere hroom]
  exact hdebited hcovered before

end DebitedAndCredited

section Transferred
variable {i : Transfer.Intent} (rows : List Entry) (name : String)

@[simp] theorem drops_transferred : (s.transferred i rows).drops = s.drops :=
  s.drops_debitedAndCredited i.source i.credits

@[simp] theorem entries_transferred : (s.transferred i rows).entries = s.entries ++ rows :=
  congrArg (· ++ rows) (s.entries_debitedAndCredited i.source i.credits)

/-- Who takes no part keeps the account as it is. -/
theorem account?_transferred_of_not_mem (h : name ∉ i.source :: i.destinations) :
    (s.transferred i rows).account? name = s.account? name := by
  have hsource : i.source ≠ name := fun hsame => h (hsame ▸ List.mem_cons_self)
  have hnone : name ∉ i.credits.map (·.1) := by
    rw [Transfer.Intent.map_fst_credits]
    exact fun hmem => h (List.mem_cons_of_mem _ hmem)
  have haccount := s.account?_debitedAndCredited i.source i.credits name
  simp only [settledBalance, if_neg hsource, topped_of_not_mem hnone] at haccount
  rw [Transfer.Intent.map_fst_credits, if_neg h] at haccount
  refine haccount.trans ?_
  cases s.account? name <;> rfl

theorem namesDiffer_transferred {s : Store} (h : s.NamesDiffer) :
    (s.transferred i rows).NamesDiffer := namesDiffer_debitedAndCredited i.source i.credits h

/-- Accounts stay, and those that take part are there. -/
theorem isSome_account?_transferred :
    ((s.transferred i rows).account? name).isSome =
      (decide (name ∈ i.source :: i.destinations) || (s.account? name).isSome) := by
  have h := s.isSome_account?_debitedAndCredited i.source i.credits name
  rw [Transfer.Intent.map_fst_credits] at h
  exact h

/-- Every destination has one credit, of one share. -/
theorem filter_credits (different : i.destinations.Nodup) :
    i.credits.filter (·.1 == name) =
      if name ∈ i.destinations then [(name, i.split.share)] else [] := by
  unfold Transfer.Intent.credits
  generalize i.split.share = share
  generalize i.destinations = destinations at different
  induction destinations with
  | nil => rfl
  | cons d rest ih =>
    rw [List.nodup_cons] at different
    have hrest := ih different.2
    by_cases h : d = name
    · subst h
      rw [if_neg different.1] at hrest
      rw [List.map_cons, List.filter_cons_of_pos (by simp), hrest, if_pos List.mem_cons_self]
    · rw [List.map_cons, List.filter_cons_of_neg (by simp [h]), hrest]
      simp [Ne.symm h]

theorem credited_credits (different : i.destinations.Nodup) :
    credited i.credits name = if name ∈ i.destinations then i.split.share.units else 0 := by
  rw [credited, filter_credits name different]
  split <;> rfl

theorem topped_credits (different : i.destinations.Nodup) (balance : Nat) :
    topped i.credits name balance =
      if name ∈ i.destinations then columnSum balance i.split.share.units else balance := by
  rw [topped, filter_credits name different]
  split <;> rfl

section Balance
variable (different : i.destinations.Nodup) (apart : i.source ∉ i.destinations)
include different apart

/-- The source loses all shares, and every destination gets one, as their columns calculate. -/
theorem balance_transferred :
    ((s.transferred i rows).balance name).units =
      if i.source = name then (columnDifference (s.balance name).units i.split.moved.units).toNat
      else if name ∈ i.destinations then columnSum (s.balance name).units i.split.share.units
      else (s.balance name).units := by
  have hbalance := s.balance_debitedAndCredited i.source i.credits name
  rw [settledBalance, Transfer.Intent.sum_credits, topped_credits name different] at hbalance
  refine hbalance.trans ?_
  by_cases h : i.source = name
  · have hnot : name ∉ i.destinations := h ▸ apart
    rw [if_neg hnot, if_pos h]
    exact (if_pos h).symm
  · rw [if_neg h, if_neg h]

variable {s name}

/-- A source that can pay loses all shares exactly, and a destination with room gains one. -/
theorem balance_transferred_of_fits (fits : (s.balance i.source).units ≤ columnMax)
    (enough : i.split.moved.units ≤ (s.balance i.source).units)
    (room : name ∈ i.destinations →
      ((s.balance name).units + i.split.share.units : Nat) ≤ columnMax) :
    ((s.transferred i rows).balance name).units +
        (if i.source = name then i.split.moved.units else 0) =
      (s.balance name).units + (if name ∈ i.destinations then i.split.share.units else 0) := by
  rw [balance_transferred s rows name different apart]
  by_cases hsource : i.source = name
  · subst hsource
    rw [if_pos rfl, if_pos rfl, if_neg apart, columnDifference_of_fits fits]
    omega
  · rw [if_neg hsource, if_neg hsource, Nat.add_zero]
    by_cases hmem : name ∈ i.destinations
    · rw [if_pos hmem, if_pos hmem, columnSum_of_fits (room hmem)]
    · rw [if_neg hmem, if_neg hmem]
      rfl

variable {rows}

/-- A destination whose balance fits its column has been credited exactly. -/
theorem room_of_transferred (fits : ((s.transferred i rows).balance name).units ≤ columnMax)
    (hmem : name ∈ i.destinations) :
    ((s.balance name).units + i.split.share.units : Nat) ≤ columnMax := by
  have hsource : i.source ≠ name := fun h => apart (h ▸ hmem)
  rw [balance_transferred s rows name different apart, if_neg hsource, if_pos hmem] at fits
  exact columnSum_fits.mp fits

end Balance

/-- A transfer moves value about, and makes none, as long as all balances fit. -/
theorem custodial_transferred {s : Store} (hn : s.NamesDiffer) (different : i.destinations.Nodup)
    (apart : i.source ∉ i.destinations)
    (enough : i.split.moved.units ≤ (s.balance i.source).units)
    (fits : (s.balance i.source).units ≤ columnMax)
    (after : ∀ name, ((s.transferred i rows).balance name).units ≤ columnMax) :
    (s.transferred i rows).custodial.units = s.custodial.units := by
  have hcovered : (Amount.sum (i.credits.map (·.2))).units ≤ (s.balance i.source).units := by
    rw [Transfer.Intent.sum_credits]
    exact enough
  refine custodial_debitedAndCredited i.source i.credits hn hcovered fits ?_
  intro name
  have hafter := after name
  have hexact := balance_transferred_of_fits rows different apart fits enough
    (room_of_transferred different apart hafter)
  rw [Transfer.Intent.sum_credits, credited_credits name different]
  split at hexact
  · next hsource =>
    subst hsource
    rw [if_pos rfl]
    omega
  · next hother =>
    rw [if_neg hother]
    omega

end Transferred
end Store

end Ledger
end TipJar
