import TipJar.Fault.Basic

/-! What log lines are stamped with.

Four identifiers travel with a request: its own, the account that acts, the
transfer event and the drop being settled. Binding some of them lasts until the
work bound to them ends, and then restores exactly those, to what they were. -/
namespace TipJar.Log

/-- The names of the identifiers, in the order in which lines show them. -/
inductive Field
  | request
  | account
  | event
  | drop
deriving DecidableEq

namespace Field

def every : List Field := [request, account, event, drop]

/-- The name as lines show it. -/
def name : Field → String
  | request => "request_id"
  | account => "account_id"
  | event => "event_id"
  | drop => "reactdrop_id"

def ofName? (s : String) : Option Field := every.find? (·.name == s)

/-- No two identifiers bear the same name. -/
theorem name_inj {f g : Field} : f.name = g.name ↔ f = g := by
  cases f <;> cases g <;> decide

theorem mem_every (f : Field) : f ∈ every := by
  cases f <;> decide

end Field

/-- The identifiers in force. -/
def Context := Field → Option String

namespace Context

def empty : Context := fun _ => none

def put (c : Context) (f : Field) (value : Option String) : Context :=
  fun g => if g = f then value else c g

/-- Changes several identifiers, the last change of one counts. -/
def putAll (c : Context) (changes : List (Field × String)) : Context :=
  changes.foldl (fun c (f, value) => c.put f (some value)) c

/-- Restores the identifiers that were changed. -/
def restore (c old : Context) (changed : List Field) : Context :=
  fun f => if f ∈ changed then old f else c f

/-- The identifiers in force, with their names. -/
def toList (c : Context) : List (String × String) :=
  Field.every.filterMap fun f => (c f).map (f.name, ·)

theorem put_same (c : Context) (f : Field) (v : Option String) : c.put f v f = v := by
  simp [put]

theorem put_other (c : Context) {f g : Field} (v : Option String) (h : g ≠ f) :
    c.put f v g = c g := by
  simp [put, h]

theorem restore_changed (c old : Context) (changed : List Field) (f : Field) (h : f ∈ changed) :
    c.restore old changed f = old f := by
  simp [restore, h]

theorem restore_kept (c old : Context) (changed : List Field) (f : Field) (h : f ∉ changed) :
    c.restore old changed f = c f := by
  simp [restore, h]

theorem putAll_kept (c : Context) (changes : List (Field × String)) (f : Field)
    (h : f ∉ changes.map (·.1)) : c.putAll changes f = c f := by
  induction changes generalizing c with
  | nil => rfl
  | cons change rest ih =>
    obtain ⟨hne, hrest⟩ : f ≠ change.1 ∧ f ∉ rest.map (·.1) := by simpa using h
    exact (ih _ hrest).trans (c.put_other _ hne)

/-- Restoring what was changed is as if nothing had been changed. -/
theorem restore_putAll (c : Context) (changes : List (Field × String)) :
    (c.putAll changes).restore c (changes.map (·.1)) = c := by
  funext f
  by_cases hf : f ∈ changes.map (·.1)
  · exact restore_changed _ _ _ _ hf
  · rw [restore_kept _ _ _ _ hf, putAll_kept _ _ _ hf]

end Context

/-- The identifier of a name, or a fault for a name that is none. -/
def fieldNamed (name : String) : Checked Field :=
  match Field.ofName? name with
  | some f => .ok f
  | none => .error (.invalid (.unknownContextField name))

/-- The identifiers to change among named values; values that are missing change nothing, and their
names are not looked at. -/
def changesOf (fields : List (String × Option String)) : Checked (List (Field × String)) :=
  (fields.filterMap fun (name, value) => value.map (name, ·)).mapM fun (name, value) => do
    return (← fieldNamed name, value)

/-! ### Setting and taking back -/

/-- What takes one change back: an identifier, and what it was just before the change. -/
structure Token where
  field : Field
  before : Option String

namespace Context

/-- Sets identifiers one after another. A value that is missing sets nothing, and what stands before
a name that is none stays set. -/
def assign (c : Context) : List (String × Option String) → Checked Unit × Context
  | [] => (.ok (), c)
  | (_, none) :: rest => c.assign rest
  | (name, some value) :: rest =>
    match fieldNamed name with
    | .ok f => (c.put f (some value)).assign rest
    | .error why => (.error why, c)

/-- Changes identifiers one after another, with a token for each change. -/
def bindAll (c : Context) : List (Field × String) → Context × List Token
  | [] => (c, [])
  | (f, value) :: rest =>
    let (bound, tokens) := (c.put f (some value)).bindAll rest
    (bound, ⟨f, c f⟩ :: tokens)

/-- Takes changes back, the last one first. -/
def undo (c : Context) (tokens : List Token) : Context :=
  tokens.foldr (fun token c => c.put token.field token.before) c

/-- A block: identifiers are bound, the body is run, and the changes are taken back in whatever way
it ends. All names are looked at before anything is bound. -/
def during {α : Type} (c : Context) (fields : List (String × Option String))
    (body : Context → Checked α × Context) : Checked α × Context :=
  match changesOf fields with
  | .error why => (.error why, c)
  | .ok changes =>
    let (bound, tokens) := c.bindAll changes
    let (result, left) := body bound
    (result, left.undo tokens)

/-- Binding identifiers changes them as changing them for good does. -/
theorem bindAll_fst (c : Context) (changes : List (Field × String)) :
    (c.bindAll changes).1 = c.putAll changes := by
  induction changes generalizing c with
  | nil => rfl
  | cons change rest ih => exact ih _

/-- Taken back one by one, the changes leave what was bound as it was before all of them, also if it
was bound more than once. -/
theorem undo_bindAll (c left : Context) (changes : List (Field × String)) :
    left.undo (c.bindAll changes).2 = left.restore c (changes.map (·.1)) := by
  induction changes generalizing c with
  | nil => exact funext fun f => (left.restore_kept c [] f List.not_mem_nil).symm
  | cons change rest ih =>
    obtain ⟨g, value⟩ := change
    show (left.undo ((c.put g (some value)).bindAll rest).2).put g (c g) =
      left.restore c (g :: rest.map (·.1))
    rw [ih]
    funext f
    by_cases hf : f = g
    · subst hf
      rw [put_same, restore_changed _ _ _ _ List.mem_cons_self]
    · rw [put_other _ _ hf]
      by_cases hrest : f ∈ rest.map (·.1)
      · rw [restore_changed _ _ _ _ hrest, put_other _ _ hf,
          restore_changed _ _ _ _ (List.mem_cons_of_mem _ hrest)]
      · have hnone : f ∉ g :: rest.map (·.1) := by
          simp only [List.mem_cons, not_or]
          exact ⟨hf, hrest⟩
        rw [restore_kept _ _ _ _ hrest, restore_kept _ _ _ _ hnone]

/-- A block that changes nothing else leaves everything as it was. -/
theorem undo_bindAll_self (c : Context) (changes : List (Field × String)) :
    (c.bindAll changes).1.undo (c.bindAll changes).2 = c := by
  rw [bindAll_fst, undo_bindAll, restore_putAll]

/-- A block whose names are known: its body runs with the changes made, and then they are taken
back. -/
theorem during_of_ok {α : Type} (c : Context) {fields : List (String × Option String)}
    {changes : List (Field × String)} (body : Context → Checked α × Context)
    (h : changesOf fields = .ok changes) :
    c.during fields body =
      ((body (c.putAll changes)).1,
        (body (c.putAll changes)).2.restore c (changes.map (·.1))) := by
  unfold during
  rw [h]
  dsimp only
  rw [bindAll_fst, undo_bindAll]

end Context
end TipJar.Log
