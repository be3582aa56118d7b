import TipJar.Fault.Basic

/-! Checks one after the other.

A check that consists of several gives what the last one gives, if all of them give
something, and fails as the first one fails that does. -/
namespace TipJar.Checked

variable {α β : Type} {x : Checked α} {f : α → Checked β} {P Q : Fault → Prop}

theorem bind_ok {b : β} : (x >>= f) = .ok b ↔ ∃ a, x = .ok a ∧ f a = .ok b := by
  cases x with
  | ok a => exact ⟨fun h => ⟨a, rfl, h⟩, fun ⟨_, ha, h⟩ => Except.ok.inj ha ▸ h⟩
  | error why => exact ⟨nofun, fun ⟨_, ha, _⟩ => nomatch ha⟩

theorem map_ok {g : α → β} {b : β} : x.map g = .ok b ↔ ∃ a, x = .ok a ∧ g a = b := by
  cases x with
  | ok a => exact ⟨fun h => ⟨a, rfl, Except.ok.inj h⟩, fun ⟨_, ha, h⟩ => Except.ok.inj ha ▸ h ▸ rfl⟩
  | error why => exact ⟨nofun, fun ⟨_, ha, _⟩ => nomatch ha⟩

theorem bind_error {why : Fault} :
    (x >>= f) = .error why ↔ x = .error why ∨ ∃ a, x = .ok a ∧ f a = .error why := by
  cases x with
  | ok a =>
    refine ⟨fun h => .inr ⟨a, rfl, h⟩, ?_⟩
    rintro (h | ⟨_, ha, h⟩)
    · cases h
    · exact Except.ok.inj ha ▸ h
  | error other =>
    refine ⟨fun h => .inl (congrArg Except.error (Except.error.inj h)), ?_⟩
    rintro (h | ⟨_, ha, -⟩)
    · exact congrArg Except.error (Except.error.inj h)
    · cases ha

/-- Whether a check fails with nothing but faults of a kind. -/
def FailsOnly (x : Checked α) (P : Fault → Prop) : Prop := ∀ ⦃why : Fault⦄, x = .error why → P why

theorem failsOnly_ok (a : α) : FailsOnly (.ok a) P := nofun

theorem failsOnly_error {why : Fault} (h : P why) : FailsOnly (.error why : Checked α) P :=
  fun _ heq => Except.error.inj heq ▸ h

theorem FailsOnly.imp (h : FailsOnly x P) (himp : ∀ why, P why → Q why) : FailsOnly x Q :=
  fun _ heq => himp _ (h heq)

/-- What the first check fails with, and what the second one fails with on what the first gives. -/
theorem FailsOnly.bind (hx : FailsOnly x P) (hf : ∀ a, x = .ok a → FailsOnly (f a) P) :
    FailsOnly (x >>= f) P := by
  intro why h
  obtain h | ⟨a, ha, h⟩ := bind_error.mp h
  · exact hx h
  · exact hf a ha h

theorem FailsOnly.map {g : α → β} (h : FailsOnly x P) : FailsOnly (x.map g) P := by
  cases x with
  | ok a => exact nofun
  | error why => exact failsOnly_error (h rfl)

/-! ### Moments that may lie outside the calendar -/

section Calendar
variable {found : Option α} {a : α} {why : Fault}

theorem inCalendar_ok : inCalendar found = .ok a ↔ found = some a := by
  cases found with
  | none => exact iff_of_false nofun nofun
  | some b => exact ⟨fun h => congrArg some (Except.ok.inj h), fun h => by rw [h]; rfl⟩

theorem inCalendar_error : inCalendar found = .error why ↔ found = none ∧ why = .beyond .date := by
  cases found with
  | none => exact ⟨fun h => ⟨rfl, (Except.error.inj h).symm⟩, fun h => h.2 ▸ rfl⟩
  | some b => exact iff_of_false nofun nofun

end Calendar

/-! ### Traversals -/

section Traversals
variable {g : α → Checked β} {xs : List α}

/-- A traversal that succeeds everywhere. -/
theorem mapM_eq_ok {h : α → β} (each : ∀ x ∈ xs, g x = .ok (h x)) :
    xs.mapM g = .ok (xs.map h) := by
  induction xs with
  | nil => rfl
  | cons x xs ih =>
    obtain ⟨hx, hxs⟩ := List.forall_mem_cons.mp each
    rw [List.mapM_cons, hx, ih hxs]
    rfl

/-- A traversal succeeds exactly if it does everywhere. -/
theorem mapM_ok_iff : (∃ ys, xs.mapM g = .ok ys) ↔ ∀ x ∈ xs, ∃ y, g x = .ok y := by
  induction xs with
  | nil => exact iff_of_true ⟨[], rfl⟩ nofun
  | cons x xs ih =>
    rw [List.forall_mem_cons, ← ih, List.mapM_cons]
    constructor
    · rintro ⟨_, h⟩
      obtain ⟨y, hy, h⟩ := bind_ok.mp h
      obtain ⟨ys, hys, -⟩ := bind_ok.mp h
      exact ⟨⟨y, hy⟩, ys, hys⟩
    · rintro ⟨⟨y, hy⟩, ys, hys⟩
      exact ⟨y :: ys, bind_ok.mpr ⟨y, hy, bind_ok.mpr ⟨ys, hys, rfl⟩⟩⟩

theorem failsOnly_mapM (h : ∀ x ∈ xs, FailsOnly (g x) P) : FailsOnly (xs.mapM g) P := by
  induction xs with
  | nil => exact nofun
  | cons x xs ih =>
    obtain ⟨hx, hxs⟩ := List.forall_mem_cons.mp h
    rw [List.mapM_cons]
    exact hx.bind fun _ _ => (ih hxs).bind fun _ _ => nofun

end Traversals

end TipJar.Checked
