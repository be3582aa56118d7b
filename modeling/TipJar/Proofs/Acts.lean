import TipJar.Proofs.Settling

/-! What a program is seen to do.

A play tells which units of work a program has kept. Whether a message was sent before
or after one of them it does not tell, so here the calls to the platform stand among
the units of work, in the one order in which both came about. What others do in the
meantime is a parameter: any run of theirs, or nothing when a program is alone. -/
namespace TipJar
open Ledger

/-- What can be seen of a program from outside. -/
inductive Act
  | kept (k : Kept)
  | called (c : Call)

/-- Whether a call sends a message. -/
def Call.IsMessage : Call → Prop
  | .post .. | .tell .. => True
  | _ => False

/-- The units of work among some acts. -/
def Act.units (acts : List Act) : List Kept :=
  acts.filterMap fun
    | .kept k => some k
    | .called _ => none

/-- The calls among some acts. -/
def Act.calls (acts : List Act) : List Call :=
  acts.filterMap fun
    | .kept _ => none
    | .called c => some c

namespace Act
variable (acts more : List Act) (k : Kept) (c : Call)

theorem units_append : units (acts ++ more) = units acts ++ units more := List.filterMap_append

theorem calls_append : calls (acts ++ more) = calls acts ++ calls more := List.filterMap_append

@[simp] theorem units_kept : units (.kept k :: acts) = k :: units acts := rfl

@[simp] theorem units_called : units (.called c :: acts) = units acts := rfl

@[simp] theorem calls_kept : calls (.kept k :: acts) = calls acts := rfl

@[simp] theorem calls_called : calls (.called c :: acts) = c :: calls acts := rfl

@[simp] theorem units_map_kept (units : List Kept) : Act.units (units.map .kept) = units := by
  induction units with
  | nil => rfl
  | cons k rest ih => exact congrArg (k :: ·) ih

@[simp] theorem calls_map_kept (units : List Kept) : calls (units.map .kept) = [] := by
  induction units with
  | nil => rfl
  | cons k rest ih => exact ih

@[simp] theorem units_map_called (calls : List Call) : units (calls.map .called) = [] := by
  induction calls with
  | nil => rfl
  | cons c rest ih => exact ih

@[simp] theorem calls_map_called (calls : List Call) : Act.calls (calls.map .called) = calls := by
  induction calls with
  | nil => rfl
  | cons c rest ih => exact congrArg (c :: ·) ih

end Act

namespace Effect
variable {β : Type}

/-- What is seen of an effect. -/
def acts (e : Effect β) (σ : State) (b : β) (τ : State) : List Act :=
  match e with
  | .call c _ => [.called c]
  | e => (e.kept σ b τ).map .kept

/-- Whether anything can be seen of an effect. -/
def isSeen : Effect β → Bool
  | .call .. => true
  | e => e.isWork

theorem isWork_of_unseen {e : Effect β} (unseen : e.isSeen = false) : e.isWork = false := by
  cases e with
  | call => rfl
  | chore | mention | wallet | stopping => exact unseen

theorem acts_of_unseen {e : Effect β} {σ τ : State} {b : β} (unseen : e.isSeen = false) :
    e.acts σ b τ = [] := by
  cases e with
  | call => cases unseen
  | chore c => exact congrArg (List.map Act.kept) (kept_of_other (e := .chore c) unseen)
  | mention | wallet | stopping => rfl

theorem units_acts (e : Effect β) (σ : State) (b : β) (τ : State) :
    Act.units (e.acts σ b τ) = e.kept σ b τ := by
  cases e with
  | call => rfl
  | chore | mention | wallet | stopping =>
    show List.filterMap _ (List.map Act.kept _) = _
    rw [List.filterMap_map]
    exact List.filterMap_some

end Effect

namespace Program
variable {α β : Type}

/-- How a program goes: what is seen of it, the result that it ends with and the state at its last
effect. Before each effect the others may do something. -/
def Goes (W : World) (others : State → State → Prop) :
    Program α → State → List Act → Checked α → State → Prop
  | done result, σ, acts, r, τ => acts = [] ∧ result = r ∧ σ = τ
  | perform (β := β) e next, σ, acts, r, τ =>
    ∃ (ready : State) (b : β) (left : State) (rest : List Act),
      others σ ready ∧ W β e b ∧ e.ComesTo ready b left ∧ (next b).Goes W others left rest r τ ∧
        acts = e.acts ready b left ++ rest

variable {W : World} {others : State → State → Prop} {σ τ : State} {acts : List Act}

/-- Whatever is seen of a program, it is a play of it. -/
theorem Goes.plays {p : Program α} {r : Checked α} (h : p.Goes W others σ acts r τ)
    (runs : ∀ σ τ, others σ τ → State.Run σ τ) : p.Plays W σ (Act.units acts) r τ := by
  induction p generalizing σ acts with
  | done result =>
    obtain ⟨rfl, rfl, rfl⟩ := h
    exact ⟨rfl, rfl, rfl⟩
  | perform e next ih =>
    obtain ⟨ready, b, left, rest, before, hworld, hcomes, hrest, rfl⟩ := h
    refine ⟨ready, b, left, Act.units rest, runs _ _ before, hworld, hcomes, ih b hrest, ?_⟩
    exact List.filterMap_append.trans (congrArg (· ++ Act.units rest) (e.units_acts ready b left))

/-- A program that is alone among others is one that they leave alone. -/
theorem Goes.plays_alone {p : Program α} {r : Checked α} (h : p.Goes W Eq σ acts r τ) :
    p.Plays W σ (Act.units acts) r τ :=
  h.plays fun _ _ same => same ▸ .refl

/-- In a world that allows more answers a program may go as before. -/
theorem Goes.mono {W' : World} {p : Program α} {r : Checked α}
    (more : ∀ (β : Type) (e : Effect β) (b : β), W β e b → W' β e b)
    (h : p.Goes W others σ acts r τ) : p.Goes W' others σ acts r τ := by
  induction p generalizing σ acts with
  | done result => exact h
  | perform e next ih =>
    obtain ⟨ready, b, left, rest, before, hworld, hcomes, hrest, rfl⟩ := h
    exact ⟨ready, b, left, rest, before, more _ e b hworld, hcomes, ih b hrest, rfl⟩

/-! ### Programs put together -/

/-- Two programs in a row, of which the second begins unless the first one fails. -/
theorem goes_bind {p : Program α} {f : α → Program β} {r : Checked β} :
    (p >>= f).Goes W others σ acts r τ ↔
      (∃ why, p.Goes W others σ acts (.error why) τ ∧ .error why = r) ∨
        ∃ a μ first second, p.Goes W others σ first (.ok a) μ ∧
          (f a).Goes W others μ second r τ ∧ acts = first ++ second := by
  change (p.bind f).Goes W others σ acts r τ ↔ _
  induction p generalizing σ acts with
  | done result =>
    cases result with
    | ok a =>
      constructor
      · exact fun h => .inr ⟨a, σ, [], acts, ⟨rfl, rfl, rfl⟩, h, rfl⟩
      · rintro (⟨why, ⟨-, h, -⟩, -⟩ | ⟨b, μ, first, second, ⟨rfl, h, rfl⟩, hnext, rfl⟩)
        · cases h
        · cases h
          exact hnext
    | error why =>
      constructor
      · rintro ⟨rfl, rfl, rfl⟩
        exact .inl ⟨why, ⟨rfl, rfl, rfl⟩, rfl⟩
      · rintro (⟨other, ⟨rfl, h, rfl⟩, rfl⟩ | ⟨b, μ, first, second, ⟨-, h, -⟩, -⟩)
        · cases h
          exact ⟨rfl, rfl, rfl⟩
        · cases h
  | perform e next ih =>
    constructor
    · rintro ⟨ready, b, left, rest, before, hworld, hcomes, hrest, rfl⟩
      rcases (ih b).mp hrest with ⟨why, hfirst, rfl⟩ | ⟨a, μ, first, second, hfirst, hnext, rfl⟩
      · exact .inl ⟨why, ⟨ready, b, left, rest, before, hworld, hcomes, hfirst, rfl⟩, rfl⟩
      · exact .inr ⟨a, μ, e.acts ready b left ++ first, second,
          ⟨ready, b, left, first, before, hworld, hcomes, hfirst, rfl⟩, hnext,
          (List.append_assoc ..).symm⟩
    · rintro (⟨why, ⟨ready, b, left, rest, before, hworld, hcomes, hfirst, rfl⟩, rfl⟩ |
        ⟨a, μ, _, second, ⟨ready, b, left, rest, before, hworld, hcomes, hfirst, rfl⟩, hnext, rfl⟩)
      · exact ⟨ready, b, left, rest, before, hworld, hcomes,
          (ih b).mpr (.inl ⟨why, hfirst, rfl⟩), rfl⟩
      · exact ⟨ready, b, left, rest ++ second, before, hworld, hcomes,
          (ih b).mpr (.inr ⟨a, μ, rest, second, hfirst, hnext, rfl⟩), List.append_assoc ..⟩

theorem Goes.andThen {p : Program α} {f : α → Program β} {a : α} {μ : State} {k l : List Act}
    {r : Checked β} (hp : p.Goes W others σ k (.ok a) μ) (hf : (f a).Goes W others μ l r τ) :
    (p >>= f).Goes W others σ (k ++ l) r τ :=
  goes_bind.mpr (.inr ⟨a, μ, k, l, hp, hf, rfl⟩)

/-- An attempt goes as what is attempted, and never fails. -/
theorem goes_attempt {p : Program α} {r : Checked (Checked α)} :
    p.attempt.Goes W others σ acts r τ ↔
      ∃ result, p.Goes W others σ acts result τ ∧ .ok result = r := by
  induction p generalizing σ acts with
  | done result =>
    constructor
    · rintro ⟨rfl, rfl, rfl⟩
      exact ⟨result, ⟨rfl, rfl, rfl⟩, rfl⟩
    · rintro ⟨_, ⟨rfl, rfl, rfl⟩, rfl⟩
      exact ⟨rfl, rfl, rfl⟩
  | perform e next ih =>
    constructor
    · rintro ⟨ready, b, left, rest, before, hworld, hcomes, hrest, rfl⟩
      obtain ⟨result, hgoes, rfl⟩ := (ih b).mp hrest
      exact ⟨result, ⟨ready, b, left, rest, before, hworld, hcomes, hgoes, rfl⟩, rfl⟩
    · rintro ⟨result, ⟨ready, b, left, rest, before, hworld, hcomes, hrest, rfl⟩, rfl⟩
      exact ⟨ready, b, left, rest, before, hworld, hcomes, (ih b).mpr ⟨result, hrest, rfl⟩, rfl⟩

/-! ### Single effects -/

/-- An effect of which nothing is seen. -/
theorem goes_perform {γ : Type} {e : Effect γ} {next : γ → Program α} {r : Checked α}
    (unseen : e.isSeen = false) :
    (perform e next).Goes W others σ acts r τ ↔
      ∃ ready b, others σ ready ∧ W γ e b ∧ (next b).Goes W others ready acts r τ := by
  constructor
  · rintro ⟨ready, b, left, rest, before, hworld, hcomes, hrest, rfl⟩
    obtain rfl := (Effect.comesTo_of_other (Effect.isWork_of_unseen unseen)).mp hcomes
    rw [Effect.acts_of_unseen unseen]
    exact ⟨left, b, before, hworld, hrest⟩
  · rintro ⟨ready, b, before, hworld, hrest⟩
    refine ⟨ready, b, ready, acts, before, hworld,
      (Effect.comesTo_of_other (Effect.isWork_of_unseen unseen)).mpr rfl, hrest, ?_⟩
    rw [Effect.acts_of_unseen unseen]
    rfl

/-- An effect of which nothing is seen, before the rest of a program, which is told the answer. -/
theorem goes_asked {γ : Type} {e : Effect γ} {g : γ → Checked β} {f : β → Program α}
    {r : Checked α} (unseen : e.isSeen = false) :
    ((perform e fun b => done (g b)) >>= f).Goes W others σ acts r τ ↔
      ∃ ready b, others σ ready ∧ W γ e b ∧
        (done (g b) >>= f).Goes W others ready acts r τ :=
  goes_perform unseen

/-- A call, before the rest of a program, which is told the answer. -/
theorem goes_called {c : Call} {limit : Option Binary64} {g : Except CallFault c.Reply → Checked β}
    {f : β → Program α} {r : Checked α} :
    ((perform (.call c limit) fun b => done (g b)) >>= f).Goes W others σ acts r τ ↔
      ∃ ready b rest, others σ ready ∧ W _ (.call c limit) b ∧
        (done (g b) >>= f).Goes W others ready rest r τ ∧ acts = .called c :: rest := by
  constructor
  · rintro ⟨ready, b, left, rest, before, hworld, rfl, hrest, rfl⟩
    exact ⟨_, b, rest, before, hworld, hrest, rfl⟩
  · rintro ⟨ready, b, rest, before, hworld, hrest, rfl⟩
    exact ⟨ready, b, ready, rest, before, hworld, rfl, hrest, rfl⟩

section Units
variable {operation : String} {work : Work α}

/-- A unit of work is kept or undone. -/
theorem goes_transact {r : Checked α} :
    (transact operation work).Goes W others σ acts r τ ↔
      ∃ ready, others σ ready ∧ W _ (.chore (.transact operation work)) r ∧
        ((∃ a, .ok a = r ∧ ready.Keeps work a τ ∧ acts = [.kept ⟨operation, ready, τ⟩]) ∨
          ∃ why, .error why = r ∧ ready.Undoes operation work why ∧ acts = [] ∧ ready = τ) := by
  constructor
  · rintro ⟨ready, b, left, rest, before, hworld, hcomes, ⟨rfl, rfl, rfl⟩, rfl⟩
    cases b with
    | ok a => exact ⟨ready, before, hworld, .inl ⟨a, rfl, hcomes, rfl⟩⟩
    | error why =>
      obtain ⟨rfl, hundone⟩ := hcomes
      exact ⟨left, before, hworld, .inr ⟨why, rfl, hundone, rfl, rfl⟩⟩
  · rintro ⟨ready, before, hworld, ⟨a, rfl, hkept, rfl⟩ | ⟨why, rfl, hundone, rfl, rfl⟩⟩
    · exact ⟨ready, .ok a, τ, [], before, hworld, hkept, ⟨rfl, rfl, rfl⟩, rfl⟩
    · exact ⟨ready, .error why, ready, [], before, hworld, ⟨rfl, hundone⟩, ⟨rfl, rfl, rfl⟩, rfl⟩

/-- A unit of work that the rest of a program needs: it is kept, or the program ends with it. -/
theorem Goes.needed {f : α → Program β} {r : Checked β}
    (h : (transact operation work >>= f).Goes W others σ acts r τ) :
    (∃ why, .error why = r ∧ others σ τ ∧ W _ (.chore (.transact operation work)) (.error why) ∧
        τ.Undoes operation work why ∧ acts = []) ∨
      ∃ ready a μ rest, others σ ready ∧ ready.Keeps work a μ ∧ (f a).Goes W others μ rest r τ ∧
        acts = .kept ⟨operation, ready, μ⟩ :: rest := by
  rcases goes_bind.mp h with ⟨why, hfailed, rfl⟩ | ⟨a, μ, first, second, hdone, hrest, rfl⟩
  · obtain ⟨ready, before, hworld, ⟨_, hnever, -⟩ | ⟨_, heq, hundone, rfl, rfl⟩⟩ :=
      goes_transact.mp hfailed
    · cases hnever
    · obtain rfl := Except.error.inj heq
      exact .inl ⟨_, rfl, before, hworld, hundone, rfl⟩
  · obtain ⟨ready, before, -, ⟨_, heq, hkept, rfl⟩ | ⟨_, hnever, -⟩⟩ := goes_transact.mp hdone
    · obtain rfl := Except.ok.inj heq
      exact .inr ⟨ready, _, μ, second, before, hkept, hrest, rfl⟩
    · cases hnever

/-- A unit of work that is attempted before the rest of a program, which is told what became of
it. -/
theorem Goes.tried {f : Checked α → Program β} {r : Checked β}
    (h : ((transact operation work).attempt >>= f).Goes W others σ acts r τ) :
    ∃ ready, others σ ready ∧
      ((∃ a μ rest, ready.Keeps work a μ ∧ (f (.ok a)).Goes W others μ rest r τ ∧
          acts = .kept ⟨operation, ready, μ⟩ :: rest) ∨
        ∃ why, W _ (.chore (.transact operation work)) (.error why) ∧
          ready.Undoes operation work why ∧ (f (.error why)).Goes W others ready acts r τ) := by
  rcases goes_bind.mp h with ⟨_, htried, -⟩ | ⟨_, μ, first, second, htried, hrest, rfl⟩
  · obtain ⟨_, -, hnever⟩ := goes_attempt.mp htried
    cases hnever
  · obtain ⟨result, hgoes, hresult⟩ := goes_attempt.mp htried
    cases hresult
    obtain ⟨ready, before, hworld, ⟨a, rfl, hkept, rfl⟩ | ⟨why, rfl, hundone, rfl, rfl⟩⟩ :=
      goes_transact.mp hgoes
    · exact ⟨ready, before, .inl ⟨a, μ, second, hkept, hrest, rfl⟩⟩
    · exact ⟨ready, before, .inr ⟨why, hworld, hundone, hrest⟩⟩

/-- A unit of work that is kept at once. -/
theorem goes_kept {a : α} (still : others σ σ) (h : σ.Keeps work a τ)
    (hworld : W _ (.chore (.transact operation work)) (.ok a)) :
    (transact operation work).Goes W others σ [.kept ⟨operation, σ, τ⟩] (.ok a) τ :=
  goes_transact.mpr ⟨σ, still, hworld, .inl ⟨a, rfl, h, rfl⟩⟩

/-- A unit of work that is undone at once. -/
theorem goes_undone {why : Fault} (still : others σ σ) (h : σ.Undoes operation work why)
    (hworld : W _ (.chore (.transact operation work)) (.error why)) :
    (transact operation work).Goes W others σ [] (.error why) σ :=
  goes_transact.mpr ⟨σ, still, hworld, .inr ⟨why, rfl, h, rfl, rfl⟩⟩

/-! ### Alone

A program that nobody disturbs finds the tables as it has left them. Where the store loses
nothing either, a unit of work fails as its work does. -/

section Alone
variable {P : Fault → Prop}

theorem goes_transact_alone {r : Checked α} (saves : ¬W.Loses operation)
    (fails : work.FailsOnly σ.store P) (h : (transact operation work).Goes W Eq σ acts r τ) :
    (∃ a, .ok a = r ∧ σ.Keeps work a τ ∧ acts = [.kept ⟨operation, σ, τ⟩]) ∨
      ∃ why, .error why = r ∧ (P why ∧ ∀ cause, why ≠ .store cause) ∧ acts = [] ∧ σ = τ := by
  obtain ⟨_, rfl, hworld, ⟨a, rfl, hkept, rfl⟩ | ⟨why, rfl, hundone, rfl, rfl⟩⟩ :=
    goes_transact.mp h
  · exact .inl ⟨a, rfl, hkept, rfl⟩
  · rcases hundone.faults fails with ⟨cause, rfl⟩ | hwhy
    · exact absurd ⟨_, _, cause, hworld⟩ saves
    · exact .inr ⟨why, rfl, hwhy, rfl, rfl⟩

theorem Goes.neededAlone {f : α → Program β} {r : Checked β} (saves : ¬W.Loses operation)
    (fails : work.FailsOnly σ.store P)
    (h : (transact operation work >>= f).Goes W Eq σ acts r τ) :
    (∃ why, .error why = r ∧ (P why ∧ ∀ cause, why ≠ .store cause) ∧ acts = [] ∧ σ = τ) ∨
      ∃ a μ rest, σ.Keeps work a μ ∧ (f a).Goes W Eq μ rest r τ ∧
        acts = .kept ⟨operation, σ, μ⟩ :: rest := by
  rcases goes_bind.mp h with ⟨why, hfailed, rfl⟩ | ⟨a, μ, first, second, hdone, hrest, rfl⟩
  · rcases goes_transact_alone saves fails hfailed with ⟨_, hnever, -⟩ | ⟨_, heq, hundone⟩
    · cases hnever
    · obtain rfl := Except.error.inj heq
      exact .inl ⟨_, rfl, hundone⟩
  · rcases goes_transact_alone saves fails hdone with ⟨_, heq, hkept, rfl⟩ | ⟨_, hnever, -⟩
    · obtain rfl := Except.ok.inj heq
      exact .inr ⟨_, μ, second, hkept, hrest, rfl⟩
    · cases hnever

theorem Goes.triedAlone {f : Checked α → Program β} {r : Checked β} (saves : ¬W.Loses operation)
    (fails : work.FailsOnly σ.store P)
    (h : ((transact operation work).attempt >>= f).Goes W Eq σ acts r τ) :
    (∃ a μ rest, σ.Keeps work a μ ∧ (f (.ok a)).Goes W Eq μ rest r τ ∧
        acts = .kept ⟨operation, σ, μ⟩ :: rest) ∨
      ∃ why, (P why ∧ ∀ cause, why ≠ .store cause) ∧
        (f (.error why)).Goes W Eq σ acts r τ := by
  obtain ⟨_, rfl, hkept | ⟨why, hworld, hundone, hrest⟩⟩ := h.tried
  · exact .inl hkept
  · rcases hundone.faults fails with ⟨cause, rfl⟩ | hwhy
    · exact absurd ⟨_, _, cause, hworld⟩ saves
    · exact .inr ⟨why, hwhy, hrest⟩

end Alone

end Units

/-- An effect of which nothing is seen, answered at once. -/
theorem goes_answered {γ : Type} {e : Effect γ} {b : γ} {g : γ → Checked α}
    (unseen : e.isSeen = false) (still : others σ σ) (hworld : W γ e b) :
    (perform e fun b => done (g b)).Goes W others σ [] (g b) σ :=
  (goes_perform unseen).mpr ⟨σ, b, still, hworld, rfl, rfl, rfl⟩

/-- A call that is answered at once. -/
theorem goes_call {c : Call} {limit : Option Binary64} {b : Except CallFault c.Reply}
    {g : Except CallFault c.Reply → Checked α} (still : others σ σ)
    (hworld : W _ (.call c limit) b) :
    (perform (.call c limit) fun b => done (g b)).Goes W others σ [.called c] (g b) σ :=
  ⟨σ, b, σ, [], still, hworld, rfl, ⟨rfl, rfl, rfl⟩, rfl⟩

/-- Identifiers that are bound for a while are not seen. -/
theorem goes_within {p : Program α} {changes : List (Log.Field × String)} {r : Checked α} :
    (within changes p).Goes W others σ acts r τ ↔
      ∃ ready old left, others σ ready ∧ W _ (.chore (.bind changes)) old ∧
        p.Goes W others ready acts r left ∧ others left τ ∧
        W _ (.chore (.restore old (changes.map (·.1)))) ⟨⟩ := by
  constructor
  · intro h
    obtain ⟨ready, old, before, hbind, h⟩ := (goes_perform rfl).mp h
    rcases (goes_bind (p := p.attempt)).mp h with
      ⟨why, htried, -⟩ | ⟨result, left, first, second, htried, hafter, rfl⟩
    · obtain ⟨_, -, hnever⟩ := goes_attempt.mp htried
      cases hnever
    · obtain ⟨_, hgoes, hresult⟩ := goes_attempt.mp htried
      cases hresult
      obtain ⟨_, _, after, hrestore, rfl, rfl, rfl⟩ := (goes_perform rfl).mp hafter
      rw [List.append_nil]
      exact ⟨ready, old, left, before, hbind, hgoes, after, hrestore⟩
  · intro h
    obtain ⟨ready, old, left, before, hbind, hgoes, after, hrestore⟩ := h
    refine (goes_perform rfl).mpr ⟨ready, old, before, hbind, ?_⟩
    refine (goes_bind (p := p.attempt)).mpr (.inr ⟨r, left, acts, [],
      goes_attempt.mpr ⟨r, hgoes, rfl⟩, ?_, (List.append_nil _).symm⟩)
    exact (goes_perform rfl).mpr ⟨τ, ⟨⟩, after, hrestore, rfl, rfl, rfl⟩

theorem Goes.within {p : Program α} {changes : List (Log.Field × String)} {r : Checked α}
    (h : (within changes p).Goes W others σ acts r τ) :
    ∃ σ' τ', others σ σ' ∧ p.Goes W others σ' acts r τ' ∧ others τ' τ := by
  obtain ⟨ready, _, left, before, -, hgoes, after, -⟩ := goes_within.mp h
  exact ⟨ready, left, before, hgoes, after⟩

theorem Goes.bound {p : Program α} {changes : List (Log.Field × String)} {r : Checked α}
    (h : p.Goes W others σ acts r τ) (old : Log.Context) (still : ∀ σ, others σ σ)
    (hbind : W _ (.chore (.bind changes)) old)
    (hrestore : W _ (.chore (.restore old (changes.map (·.1)))) ⟨⟩) :
    (Program.within changes p).Goes W others σ acts r τ :=
  goes_within.mpr ⟨σ, old, τ, still σ, hbind, h, still τ, hrestore⟩

/-- A program that is alone has moved on the tables by the units of work that it has kept, one after
the other. What each of them keeps, the program keeps. -/
theorem Goes.preserves {P : State → Prop} {p : Program α} {r : Checked α}
    (h : p.Goes W Eq σ acts r τ)
    (kept : ∀ k ∈ Act.units acts, Relation.ReflGen State.Step k.before k.after → P k.before →
      P k.after) (first : P σ) : P τ := by
  induction p generalizing σ acts with
  | done result =>
    obtain ⟨-, -, rfl⟩ := h
    exact first
  | perform e next ih =>
    obtain ⟨_, b, left, rest, rfl, -, hcomes, hrest, rfl⟩ := h
    have hunits : Act.units (e.acts σ b left ++ rest) = e.kept σ b left ++ Act.units rest :=
      List.filterMap_append.trans (congrArg (· ++ Act.units rest) (e.units_acts σ b left))
    rw [hunits] at kept
    obtain ⟨hnow, hlater⟩ := List.forall_mem_append.mp kept
    refine ih b hrest hlater ?_
    rcases hcomes.same_or_kept with rfl | ⟨step, operation, hkept⟩
    · exact first
    · rw [hkept] at hnow
      exact hnow _ (List.mem_singleton_self _) step first

/-- A program that is alone and only asks leaves the tables as they are. -/
theorem Goes.unchanged {p : Program α} {r : Checked α} (h : p.Goes W Eq σ acts r τ)
    (asks : ∀ k ∈ Act.units acts, k.Asks) : τ.store = σ.store :=
  h.preserves (P := fun ρ => ρ.store = σ.store) (fun k hk _ hsame => (asks k hk).trans hsame) rfl

/-- Nor does it take a balance beyond its column. -/
theorem Goes.contained {p : Program α} {r : Checked α} (h : p.Goes W Eq σ acts r τ)
    (asks : ∀ k ∈ Act.units acts, k.Asks) (contained : σ.Contained) : τ.Contained :=
  h.preserves (fun k hk step before => before.next step ((asks k hk).symm ▸ before.bounded))
    contained

/-- A program all of whose effects are answered comes to its end. -/
theorem exists_goes (still : ∀ σ, others σ σ)
    (answered : ∀ (β : Type) (e : Effect β) (σ : State), ∃ b τ, W β e b ∧ e.ComesTo σ b τ)
    (p : Program α) (σ : State) : ∃ acts r τ, p.Goes W others σ acts r τ := by
  induction p generalizing σ with
  | done result => exact ⟨[], result, σ, rfl, rfl, rfl⟩
  | perform e next ih =>
    obtain ⟨b, left, hworld, hcomes⟩ := answered _ e σ
    obtain ⟨rest, r, τ, hrest⟩ := ih b left
    exact ⟨_, r, τ, σ, b, left, rest, still σ, hworld, hcomes, hrest, rfl⟩

end Program
end TipJar
