import TipJar.Proofs.Minimums

/-! Deposits at the operator's tool.

The operator names an account and writes down a number of coins. The text is taken for
a number of units first, for exactly what it says if that has at most 28 digits, and
what is left is one unit of work. A run ends in one of four ways, and the number of
units and the name decide which: the units arrive and the new balance is printed, or
an error is printed and nothing has changed. The other two ways are no errors that the
tool knows how to print, so they end it, and nothing has changed either: a number that
no column holds, and one beyond the range of decimals. -/
namespace TipJar
open Decimal Ledger

/-! ### What is read -/

namespace Amount

/-- The numbers of units that a text in coins is taken for: what it says if that has at most 28
digits, and the nearest number that has so few otherwise. What is no number is taken for none. -/
inductive TakenFor (coins : String) : Option ℚ → Prop
  | nothing (unread : (readCoins? (.text coins)).bind value? = none) : TakenFor coins none
  | units {meant units : ℚ} (read : (readCoins? (.text coins)).bind value? = some meant)
      (near : standard.Near (meant * unitsPerCoin) units)
      (unchanged : standard.Holds (meant * unitsPerCoin) → units = meant * unitsPerCoin) :
      TakenFor coins (some units)

/-- What reading gives, by the number of units that was read. -/
inductive Reading : Option ℚ → Checked Amount → Prop
  | amount (a : Amount) (small : (a.units : ℚ) < 10 ^ (standard.maxExponent + 1)) :
      Reading (some a.units) (.ok a)
  | overflowed {units : ℚ} (large : 10 ^ (standard.maxExponent + 1) ≤ |units|) :
      Reading (some units) (.error (.arithmetic .overflow))
  | refused {units : Option ℚ} (why : Invalid)
      (bad : ∀ r ∈ units, |r| < 10 ^ (standard.maxExponent + 1) ∧ ∀ n : Nat, r ≠ n) :
      Reading units (.error (.invalid why))

theorem ReadAs.reading {units : ℚ} {got : Checked Amount} (h : ReadAs units got)
    (hover : 10 ^ (standard.maxExponent + 1) ≤ |units| → got = .error (.arithmetic .overflow)) :
    Reading (some units) got := by
  cases got with
  | ok a =>
    obtain ⟨rfl, hsmall⟩ := (h.1 a).mp rfl
    exact .amount a hsmall
  | error why =>
    obtain ⟨why, rfl⟩ | ⟨rfl, hlarge⟩ := h.2 why rfl
    · refine .refused why fun r hr => ?_
      obtain rfl := Option.some.inj hr
      have hsmall : |units| < 10 ^ (standard.maxExponent + 1) := by
        by_contra hlarge
        cases hover (not_lt.mp hlarge)
      refine ⟨hsmall, fun n hn => ?_⟩
      cases (h.1 ⟨n⟩).mpr ⟨hn, (le_abs_self units).trans_lt hsmall⟩
    · exact .overflowed hlarge

/-- Every text is taken for some number of units or for none, and is read as that. -/
theorem reading_of_text (coins : String) :
    ∃ units, TakenFor coins units ∧ Reading units (ofCoins (.text coins)) := by
  have htext : (Value.text coins).IsCoins := .text coins
  cases hread : (readCoins? (.text coins)).bind value? with
  | none =>
    refine ⟨none, .nothing hread, ?_⟩
    rw [ofCoins_unreadable htext hread]
    exact .refused _ nofun
  | some meant =>
    obtain ⟨d, hd, hvalue⟩ := Option.bind_eq_some_iff.mp hread
    obtain ⟨negative, c, e⟩ | _ | _ := d
    case finite =>
      obtain rfl := Option.some.inj hvalue
      obtain ⟨written, hof⟩ := ofCoins_finite htext hd
      have hunits : signed negative (scaled c e) * unitsPerCoin =
          signed negative (scaled (c * unitsPerCoin) e) := by
        rw [scaled_mul, signed_mul]
      refine ⟨some (signed negative (standard.rounded (c * unitsPerCoin) e)),
        .units hread ?_ fun hholds => ?_, ?_⟩
      · rw [hunits]
        exact Bounds.near_signed Bounds.rounded_near negative
      · rw [hunits] at hholds ⊢
        rw [Bounds.rounded_of_holds (by decide) (Bounds.holds_signed.mp hholds)]
      · rw [hof]
        refine (readAs_ofDecimal negative c e written).reading fun hlarge => ?_
        rw [abs_signed, abs_of_nonneg (Bounds.rounded_nonneg ..)] at hlarge
        exact ofDecimal_overflow hlarge written
    all_goals cases hvalue

/-- A text that says a number of units of at most 28 digits is taken for that number. -/
theorem TakenFor.exactly {coins : String} {units : Option ℚ} {c n : Nat} {e : Int}
    (h : TakenFor coins units) (read : readCoins? (.text coins) = some (.finite false c e))
    (whole : scaled (c * unitsPerCoin) e = n) (short : n < 10 ^ standard.precision) :
    units = some (n : ℚ) := by
  have hmeant : (readCoins? (.text coins)).bind value? = some (scaled c e) := by
    rw [read]
    rfl
  cases h with
  | nothing unread => cases hmeant.symm.trans unread
  | units read _ unchanged =>
    obtain rfl := Option.some.inj (hmeant.symm.trans read)
    rw [scaled_mul] at whole
    rw [unchanged ?_, whole]
    rw [whole]
    exact holds_units short

end Amount

/-! ### What is kept -/

namespace Ledger
variable {s t : Store} {name : String} {amount : Amount}

/-- Tables in which so many units arrived at one account, which is opened if it was missing. Nothing
else is different. -/
structure Store.Deposited (s t : Store) (name : String) (amount : Amount) : Prop where
  account : ∃ before, before = (s.account? name).getD (.opened name) ∧
    t.account? name = some { before with balance := before.balance + amount }
  others : ∀ other, other ≠ name → t.account? other = s.account? other
  names : t.accounts.map (·.name) = (s.withAccount name).accounts.map (·.name)
  entries : t.entries = s.entries
  drops : t.drops = s.drops

theorem Store.deposited_credit (room : ((s.balance name).units + amount.units : Nat) ≤ columnMax) :
    s.Deposited ((s.withAccount name).credit name amount) name amount where
  account := by
    rw [← s.balance_getD_opened name] at room
    refine ⟨_, rfl, ?_⟩
    rw [account?_credit, if_pos rfl, account?_withAccount, if_pos rfl, Option.map_some,
      columnSum_of_fits room]
    rfl
  others := by
    intro other hne
    rw [account?_credit, if_neg hne, account?_withAccount, if_neg hne]
  names := Rows.map_key_update Account.name fun _ => rfl
  entries := s.entries_withAccount name
  drops := s.drops_withAccount name

theorem Store.Deposited.balance (h : s.Deposited t name amount) :
    (t.balance name).units = (s.balance name).units + amount.units := by
  obtain ⟨before, hbefore, haccount⟩ := h.account
  rw [← s.balance_getD_opened name, ← hbefore, Store.balance, haccount]
  rfl

/-- What a deposit fails with, and when. The amount is looked at first, and the name before the
column. -/
inductive DepositFault (name : String) (amount : Amount) : Fault → Prop
  | nothing (zero : amount.units = 0) :
      DepositFault name amount (.refused (.malformed .emptyDeposit))
  | unnamed (why : Malformed) (unnamed : ¬IsName name) :
      DepositFault name amount (.refused (.malformed why))
  | oversized (named : IsName name) (large : columnMax < amount.units) :
      DepositFault name amount (.beyond .stored)

theorem deposit_failsOnly :
    (deposit (.text name) amount).FailsOnly s (DepositFault name amount) := by
  unfold deposit
  split
  · next hnone => exact (Work.failsOnly_refuse (.nothing hnone)).bind fun _ _ _ _ h => by cases h
  have hensure : (ensure (.text name)).FailsOnly s (DepositFault name amount) :=
    ensure_failsOnly fun why herror => .unnamed why fun hname => by
      cases hname.symm.trans herror
  have hlock : (lockOne (.text name)).FailsOnly s (DepositFault name amount) := by
    refine hensure.bind fun desk _ mid hs h => ?_
    obtain ⟨_, _, _, _, _, rfl⟩ := ensure_gives.mp h
    exact ⟨_, hs.keep _, Work.failsOnly_pure⟩
  refine hlock.bind fun desk _ mid hs h => ?_
  obtain ⟨_, other, ht, hchecked, rfl⟩ := lockOne_gives.mp h
  obtain rfl := hs.unique ht
  obtain ⟨htext, hname⟩ := checkName_ok hchecked
  obtain rfl := Option.some.inj htext
  have hcolumn : (Work.column amount.units).FailsOnly (s.withAccount name)
      (DepositFault name amount) :=
    Work.failsOnly_column fun hlarge =>
      .oversized hname (Int.not_le.mp (mt natCast_fits.mpr hlarge))
  refine ⟨_, hs.keep _, hcolumn.ask Work.reads_column fun _ => ?_⟩
  refine Work.FailsOnly.written (Work.failsOnly_read.ask Work.reads_read fun _ => ?_)
  refine Work.failsOnly_note.bind fun _ _ _ hs h => ?_
  exact ⟨_, (Work.gives_note.mp h) ▸ hs.note .., Work.failsOnly_pure⟩

end Ledger

/-! ### What a run ends with -/

namespace Operator
variable (c : Config) (trace : Log.Event) (today : Moment) {desk mid : Desk} {r : Request}

@[simp] theorem lines_one (text : String) : lines [text] = text ++ "\n" := by
  simp [lines, String.join]

theorem holds_connect {s : Store} (hs : desk.tables = some s) :
    Desk.Holds { connect c trace desk with spoiled := false } s := by
  refine ⟨rfl, ?_⟩
  simpa [connect] using hs

theorem Request.run_of_gives {out : String}
    (h : (r.command.work c today).Gives { connect c trace desk with spoiled := false }
      (.ok out) mid)
    (sound : mid.spoiled = false) :
    r.run c trace today desk = (.ok ⟨0, out, ""⟩, mid) := by
  unfold Request.run Command.run
  rw [Desk.commit_ok.mpr ⟨h, sound⟩]
  rfl

/-- What comes of a run whose work fails. -/
def ended (why : Fault) : Checked Outcome :=
  match errorText? why with
  | some text => .ok ⟨1, "", lines [text]⟩
  | none => .error why

theorem ended_invalid (why : Invalid) :
    ended (.invalid why) = .ok ⟨1, "", "ERROR" ++ (": " ++ why.message) ++ "\n"⟩ := by
  simp only [ended, errorText?, lines_one, ← String.append_assoc]
  rfl

theorem ended_refused (why : Refusal) :
    ended (.refused why) =
      .ok ⟨1, "", "ERROR" ++ (" [" ++ why.category.code ++ "]: " ++ why.message) ++ "\n"⟩ := by
  simp only [ended, errorText?, lines_one, ← String.append_assoc]
  rfl

/-- A run whose work fails leaves the tables as they were. -/
theorem Request.run_of_error {why : Fault}
    (h : r.command.work c today { connect c trace desk with spoiled := false } =
      (.error why, mid)) :
    (r.run c trace today desk).1 = ended why ∧
      (r.run c trace today desk).2.tables = desk.tables := by
  obtain ⟨after, hcommit, htables⟩ := Desk.commit_of_error h
  have hafter : after.tables = desk.tables := by
    rw [htables]
    simp [connect]
  unfold Request.run Command.run ended
  rw [hcommit]
  cases htext : errorText? why with
  | none => simpa [Except.bind, htext] using hafter
  | some text => simpa [Except.bind, htext] using hafter

/-- How a deposit ends on some tables, by the number of units that its text is taken for: what comes
of the run, and the tables that it leaves. -/
inductive DepositEnds (ticker account : String) (s : Store) :
    Option ℚ → Checked Outcome → Store → Prop
  | made {amount : Amount} {t : Store} (named : IsName account) (something : amount.units ≠ 0)
      (fits : amount.units ≤ columnMax) (arrived : s.Deposited t account amount) :
      DepositEnds ticker account s (some amount.units)
        (.ok ⟨0, "Deposited " ++ amount.printed ticker ++ "; balance now " ++
          (t.balance account).printed ticker ++ "\n", ""⟩) t
  | refused {units : Option ℚ} (why : String)
      (bad : ∀ x ∈ units, |x| < 10 ^ (standard.maxExponent + 1) ∧
        (IsName account → ∀ n : Nat, x = n → n = 0)) :
      DepositEnds ticker account s units (.ok ⟨1, "", "ERROR" ++ why ++ "\n"⟩) s
  | oversized {amount : Amount} (named : IsName account) (large : columnMax < amount.units)
      (small : (amount.units : ℚ) < 10 ^ (standard.maxExponent + 1)) :
      DepositEnds ticker account s (some amount.units) (.error (.beyond .stored)) s
  | overflowed {units : ℚ} (large : 10 ^ (standard.maxExponent + 1) ≤ |units|) :
      DepositEnds ticker account s (some units) (.error (.arithmetic .overflow)) s

variable {s : Store} {account coins : String}

/-- Units for an account with a name arrive if a column can hold them, and end the tool if not. -/
theorem DepositEnds.of_units {ticker : String} {n : Nat} {got : Checked Outcome} {t : Store}
    (h : DepositEnds ticker account s (some (n : ℚ)) got t) (named : IsName account)
    (something : n ≠ 0) (small : (n : ℚ) < 10 ^ (standard.maxExponent + 1)) :
    (n ≤ columnMax ∧ s.Deposited t account ⟨n⟩ ∧
      got = .ok ⟨0, "Deposited " ++ (Amount.mk n).printed ticker ++ "; balance now " ++
        (t.balance account).printed ticker ++ "\n", ""⟩) ∨
      (columnMax < n ∧ t = s ∧ got = .error (.beyond .stored)) := by
  generalize hunits : some (n : ℚ) = units at h
  cases h with
  | @made amount _ _ _ fits arrived =>
    obtain rfl : n = amount.units := by exact_mod_cast Option.some.inj hunits
    exact .inl ⟨fits, arrived, rfl⟩
  | refused _ bad => exact absurd ((bad n hunits.symm).2 named n rfl) something
  | @oversized amount _ large =>
    obtain rfl : n = amount.units := by exact_mod_cast Option.some.inj hunits
    exact .inr ⟨large, rfl, rfl⟩
  | overflowed large =>
    obtain rfl := Option.some.inj hunits
    rw [Nat.abs_cast] at large
    exact absurd small (not_lt.mpr large)

/-- What is printed about a deposit can always be written. -/
theorem depositText_ok {amount balance : Amount} (ticker : String)
    (fits : amount.units ≤ columnMax) (room : balance.units ≤ columnMax) :
    (do
      return lines ["Deposited " ++ (← written ticker amount) ++ "; balance now " ++
        (← written ticker balance)] : Checked String) =
      .ok ("Deposited " ++ amount.printed ticker ++ "; balance now " ++ balance.printed ticker ++
        "\n") := by
  have hwritten {a : Amount} (h : a.units ≤ columnMax) :
      written ticker a = .ok (a.printed ticker) := by
    unfold written
    rw [Amount.format_eq_printed (Amount.short_of_fits h)]
    rfl
  rw [hwritten fits, hwritten room, ← lines_one]
  rfl

section
variable (hcommand : r.command = .deposit account coins) (hs : desk.tables = some s)
include hcommand hs

/-- A text that is not read ends the run before anything is done. -/
theorem run_unread {why : Fault} (hread : Amount.ofCoins (.text coins) = .error why) :
    (r.run c trace today desk).1 = ended why ∧ (r.run c trace today desk).2.tables = some s := by
  have hwork (d : Desk) : r.command.work c today d = (.error why, d) := by
    rw [hcommand]
    simp only [Command.work, hread]
    rfl
  rw [← hs]
  exact Request.run_of_error c trace today (hwork _)

/-- A text that is read ends the run as the deposit of its amount does. -/
theorem run_read {amount : Amount} (hread : Amount.ofCoins (.text coins) = .ok amount)
    (small : (amount.units : ℚ) < 10 ^ (standard.maxExponent + 1))
    (room : amount.units ≤ columnMax → (s.balance account).units + amount.units ≤ columnMax) :
    ∃ t, (r.run c trace today desk).2.tables = some t ∧
      DepositEnds c.ledger.ticker account s (some amount.units) (r.run c trace today desk).1 t := by
  have hbegun := holds_connect c trace hs
  have hwork : r.command.work c today =
      deposit (.text account) amount >>= fun balance => pure (do
        return lines ["Deposited " ++ (← written c.ledger.ticker amount) ++ "; balance now " ++
          (← written c.ledger.ticker balance)]) := by
    rw [hcommand]
    simp only [Command.work, hread]
    rfl
  rcases hdone : deposit (.text account) amount { connect c trace desk with spoiled := false } with
    ⟨why | balance, mid⟩
  case error =>
    obtain ⟨hend, htables⟩ := Request.run_of_error c trace today (r := r)
      (by rw [hwork]; exact Work.bind_of_error hdone)
    refine ⟨s, htables.trans hs, ?_⟩
    rw [hend]
    cases deposit_failsOnly hbegun hdone with
    | nothing hnone =>
      rw [ended_refused]
      refine .refused _ fun x hx => ?_
      obtain rfl := Option.some.inj hx
      exact ⟨by rwa [Nat.abs_cast], fun _ n hn => by rw [← hnone]; exact_mod_cast hn.symm⟩
    | unnamed why hname =>
      rw [ended_refused]
      refine .refused _ fun x hx => ?_
      obtain rfl := Option.some.inj hx
      exact ⟨by rwa [Nat.abs_cast], fun named => absurd named hname⟩
    | oversized named large => exact .oversized named large small
  case ok =>
    obtain ⟨t, name, ht, hchecked, hsome, hfits, hbalance, hafter⟩ := deposit_gives.mp hdone
    obtain rfl := hbegun.unique ht
    obtain ⟨htext, named⟩ := checkName_ok hchecked
    obtain rfl := Option.some.inj htext
    have harrived := Store.deposited_credit (s := s) (room hfits)
    have hleft : balance.units ≤ columnMax := by
      rw [← hbalance, harrived.balance]
      exact room hfits
    have hgives : (r.command.work c today).Gives { connect c trace desk with spoiled := false }
        (.ok ("Deposited " ++ amount.printed c.ledger.ticker ++ "; balance now " ++
          balance.printed c.ledger.ticker ++ "\n")) mid := by
      rw [hwork, ← depositText_ok c.ledger.ticker hfits hleft]
      exact Work.gives_bind.mpr ⟨balance, mid, hdone, Work.gives_pure.mpr ⟨rfl, rfl⟩⟩
    have hkept : mid.Holds ((s.withAccount account).credit account amount) := by
      rw [← hafter]
      exact (hbegun.keep _).note ..
    rw [Request.run_of_gives c trace today hgives hkept.sound, ← hbalance]
    exact ⟨_, hkept.tables, .made named hsome hfits harrived⟩

/-- A deposit is exact or it is refused, whatever the text; only numbers that no column or no
decimal can hold end the tool, and then nothing is kept either. -/
theorem deposit_exact_or_refused
    (room : ∀ amount, Amount.ofCoins (.text coins) = .ok amount → amount.units ≤ columnMax →
      (s.balance account).units + amount.units ≤ columnMax) :
    ∃ units t, Amount.TakenFor coins units ∧ (r.run c trace today desk).2.tables = some t ∧
      DepositEnds c.ledger.ticker account s units (r.run c trace today desk).1 t := by
  obtain ⟨units, htaken, hreading⟩ := Amount.reading_of_text coins
  cases hread : Amount.ofCoins (.text coins) with
  | ok amount =>
    rw [hread] at hreading
    cases hreading with
    | amount _ small =>
      obtain ⟨t, htables, hends⟩ :=
        run_read c trace today hcommand hs hread small (room amount hread)
      exact ⟨_, t, htaken, htables, hends⟩
  | error why =>
    rw [hread] at hreading
    obtain ⟨hend, htables⟩ := run_unread c trace today hcommand hs hread
    refine ⟨units, s, htaken, htables, ?_⟩
    rw [hend]
    cases hreading with
    | overflowed large => exact .overflowed large
    | refused why bad =>
      rw [ended_invalid]
      exact .refused _ fun x hx => ⟨(bad x hx).1, fun _ n hn => absurd hn ((bad x hx).2 n)⟩

end

end Operator

/-! ### Two deposits -/

namespace Sample

/-- Five units for Alice. -/
def deposit : Operator.Request := ⟨none, none, .deposit "alice" "0.00000005"⟩

/-- One unit more than a column holds. -/
def hugeDeposit : Operator.Request := ⟨none, none, .deposit "alice" "92233720368.54775808"⟩

/-- The tool run where Alice has ten units. -/
def operated (r : Operator.Request) : Checked Operator.Outcome × Desk :=
  r.run config (config.traceEvent false) opening (funded.begun (desk 1))

end Sample

/-- Five units arrive, but a number of units that no column holds ends the tool. -/
theorem Operator.sample_deposits :
    (∃ t, (Sample.operated Sample.deposit).2.tables = some t ∧ (t.balance "alice").units = 15 ∧
      (Sample.operated Sample.deposit).1 = .ok
        ⟨0, "Deposited 0.00000005 VRSC; balance now 0.00000015 VRSC\n", ""⟩) ∧
    (Sample.operated Sample.hugeDeposit).2.tables = some Sample.funded.store ∧
      (Sample.operated Sample.hugeDeposit).1 = .error (.beyond .stored) := by
  have hten : (Sample.funded.store.balance "alice").units = 10 := by decide +kernel
  constructor
  · have hread : Amount.readCoins? (.text "0.00000005") =
        some (.finite false 5 (-(Amount.decimalPlaces : Int))) := by decide +kernel
    have hfive : Amount.ofCoins (.text "0.00000005") = .ok ⟨5⟩ :=
      Amount.ofCoins_units (.text _) hread (by decide)
    obtain ⟨units, t, htaken, htables, hends⟩ :=
      deposit_exact_or_refused Sample.config (Sample.config.traceEvent false) Sample.opening
        (r := Sample.deposit) rfl (Sample.funded.holds_begun (Sample.desk 1)).tables
        fun amount hamount _ => by
          obtain rfl := Except.ok.inj (hfive.symm.trans hamount)
          rw [hten]
          decide
    obtain rfl := htaken.exactly (n := 5) hread
      (by norm_num [scaled, Amount.unitsPerCoin, Amount.decimalPlaces]) (by decide)
    obtain ⟨-, arrived, hprinted⟩ | ⟨large, -⟩ :=
      hends.of_units rfl (by decide) (Amount.lt_largest (by decide))
    · have hfifteen : t.balance "alice" = ⟨15⟩ :=
        Amount.ext (arrived.balance.trans (congrArg (· + 5) hten))
      have hshown : "Deposited " ++ Amount.printed ⟨5⟩ "VRSC" ++ "; balance now " ++
          Amount.printed ⟨15⟩ "VRSC" ++ "\n" =
            "Deposited 0.00000005 VRSC; balance now 0.00000015 VRSC\n" := by decide +kernel
      rw [hfifteen] at hprinted
      refine ⟨t, htables, by rw [hfifteen], hprinted.trans ?_⟩
      exact congrArg (fun out => Except.ok (Outcome.mk 0 out "")) hshown
    · exact absurd large (by decide)
  · have hread : Amount.readCoins? (.text "92233720368.54775808") =
        some (.finite false 9223372036854775808 (-(Amount.decimalPlaces : Int))) := by
      decide +kernel
    have hhuge : Amount.ofCoins (.text "92233720368.54775808") = .ok ⟨9223372036854775808⟩ :=
      Amount.ofCoins_units (.text _) hread (by decide)
    obtain ⟨units, t, htaken, htables, hends⟩ :=
      deposit_exact_or_refused Sample.config (Sample.config.traceEvent false) Sample.opening
        (r := Sample.hugeDeposit) rfl (Sample.funded.holds_begun (Sample.desk 1)).tables
        fun amount hamount fits => by
          obtain rfl := Except.ok.inj (hhuge.symm.trans hamount)
          exact absurd fits (by decide)
    obtain rfl := htaken.exactly (n := 9223372036854775808) hread
      (by norm_num [scaled, Amount.unitsPerCoin, Amount.decimalPlaces]) (by decide)
    obtain ⟨fits, -⟩ | ⟨-, rfl, hended⟩ :=
      hends.of_units rfl (by decide) (Amount.lt_largest (by decide))
    · exact absurd fits (by decide)
    · exact ⟨htables, hended⟩

end TipJar
