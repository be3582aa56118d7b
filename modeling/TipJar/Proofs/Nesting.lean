import TipJar.Log.Context
import TipJar.Proofs.Checking

/-! Blocks within blocks.

Identifiers are bound for the time of a block. What runs inside may set them, clear them
and bind them again, in blocks of its own as deep as it likes, and may fail anywhere. A
script is any such course of action. Whatever it is, a block that is left gives back what
it has bound and nothing else: the rest is as the body left it. -/
namespace TipJar.Log

/-! ### What a block binds -/

/-- A name stands for the one identifier that bears it. -/
theorem fieldNamed_ok {name : String} {f : Field} : fieldNamed name = .ok f ↔ f.name = name := by
  constructor
  · intro h
    unfold fieldNamed at h
    cases hfound : Field.ofName? name with
    | none => simp [hfound] at h
    | some g =>
      have hname : g.name = name := by simpa using List.find?_some hfound
      rw [hfound] at h
      rw [← Except.ok.inj h]
      exact hname
  · intro h
    rw [← h]
    cases f <;> rfl

/-- Whether an identifier is given a value. -/
def Binds (fields : List (String × Option String)) (f : Field) : Prop :=
  ∃ value, (f.name, some value) ∈ fields

theorem changesOf_nil : changesOf [] = .ok [] := rfl

theorem changesOf_none (name : String) (rest : List (String × Option String)) :
    changesOf ((name, none) :: rest) = changesOf rest := rfl

theorem changesOf_some {name value : String} {rest : List (String × Option String)}
    {changes : List (Field × String)} :
    changesOf ((name, some value) :: rest) = .ok changes ↔
      ∃ f later, fieldNamed name = .ok f ∧ changesOf rest = .ok later ∧
        (f, value) :: later = changes := by
  unfold changesOf
  rw [List.filterMap_cons_some (by rfl), List.mapM_cons, Checked.bind_ok]
  constructor
  · intro h
    obtain ⟨_, hone, h⟩ := h
    obtain ⟨f, hf, hpair⟩ := Checked.bind_ok.mp hone
    obtain ⟨later, hlater, hall⟩ := Checked.bind_ok.mp h
    cases hpair
    cases hall
    exact ⟨f, later, hf, hlater, rfl⟩
  · intro h
    obtain ⟨f, later, hf, hlater, rfl⟩ := h
    refine ⟨(f, value), Checked.bind_ok.mpr ⟨f, hf, rfl⟩, ?_⟩
    exact Checked.bind_ok.mpr ⟨later, hlater, rfl⟩

/-- The changes that a block makes are those of the identifiers that it is given values for. -/
theorem mem_changesOf {fields : List (String × Option String)} {changes : List (Field × String)}
    (h : changesOf fields = .ok changes) (f : Field) :
    f ∈ changes.map (·.1) ↔ Binds fields f := by
  induction fields generalizing changes with
  | nil =>
    cases changesOf_nil.symm.trans h
    simp [Binds]
  | cons given rest ih =>
    obtain ⟨name, value⟩ := given
    cases value with
    | none =>
      rw [changesOf_none] at h
      rw [ih h]
      simp [Binds]
    | some value =>
      obtain ⟨g, later, hg, hlater, rfl⟩ := changesOf_some.mp h
      rw [List.map_cons, List.mem_cons, ih hlater, ← Field.name_inj, fieldNamed_ok.mp hg]
      simp only [Binds, List.mem_cons, Prod.mk.injEq, Option.some.injEq, exists_or,
        exists_and_left, exists_eq, and_true]

/-! ### Scripts -/

/-- A course of action on the identifiers in force. -/
inductive Script
  | done
  | fail (why : Fault)
  | set (fields : List (String × Option String)) (next : Script)
  | clear (next : Script)
  /-- Goes on by what is in force. -/
  | look (next : Context → Script)
  /-- A block with its body, and what follows unless the body fails. -/
  | bind (fields : List (String × Option String)) (body next : Script)
  /-- A body whose failure is caught, and what follows it either way. -/
  | attempt (body : Script) (next : Checked Unit → Script)

/-- What is in force around one block. -/
structure Passage where
  /-- What the block was given. -/
  fields : List (String × Option String)
  /-- Just before the block was entered. -/
  before : Context
  /-- When its body ended. -/
  left : Context
  /-- Once the block was left. -/
  after : Context

/-- What the block has bound is as it was before it, and the rest is as the body left it. -/
def Passage.IsUndone (p : Passage) : Prop :=
  ∀ f, (Binds p.fields f → p.after f = p.before f) ∧ (¬Binds p.fields f → p.after f = p.left f)

namespace Script

/-- Runs a script. -/
def run : Script → Context → Checked Unit × Context
  | done, c => (.ok (), c)
  | fail why, c => (.error why, c)
  | set fields next, c =>
    match c.assign fields with
    | (.ok (), c) => next.run c
    | (.error why, c) => (.error why, c)
  | clear next, _ => next.run .empty
  | look next, c => (next c).run c
  | bind fields body next, c =>
    match c.during fields body.run with
    | (.ok (), c) => next.run c
    | (.error why, c) => (.error why, c)
  | attempt body next, c => (next (body.run c).1).run (body.run c).2

/-- The blocks that are entered while a script runs, in the order in which they are left. -/
def passages : Script → Context → List Passage
  | done, _ => []
  | fail _, _ => []
  | set fields next, c =>
    match c.assign fields with
    | (.ok (), c) => next.passages c
    | (.error _, _) => []
  | clear next, _ => next.passages .empty
  | look next, c => (next c).passages c
  | bind fields body next, c =>
    match changesOf fields with
    | .error _ => []
    | .ok changes =>
      let begun := (c.bindAll changes).1
      body.passages begun ++
        ⟨fields, c, (body.run begun).2, (c.during fields body.run).2⟩ ::
          match c.during fields body.run with
          | (.ok (), c) => next.passages c
          | (.error _, _) => []
  | attempt body next, c => body.passages c ++ (next (body.run c).1).passages (body.run c).2

end Script

/-- One block, whatever its body does. -/
theorem Context.during_undone {fields : List (String × Option String)}
    {changes : List (Field × String)} (c : Context) (body : Context → Checked Unit × Context)
    (h : changesOf fields = .ok changes) :
    Passage.IsUndone
      ⟨fields, c, (body (c.bindAll changes).1).2, (c.during fields body).2⟩ := by
  intro f
  rw [c.during_of_ok body h, bindAll_fst]
  constructor
  · intro hbinds
    exact restore_changed _ _ _ _ ((mem_changesOf h f).mpr hbinds)
  · intro hnot
    exact restore_kept _ _ _ _ fun hmem => hnot ((mem_changesOf h f).mp hmem)

/-- Every block of every script. -/
theorem Script.passages_undone (s : Script) (c : Context) : ∀ p ∈ s.passages c, p.IsUndone := by
  induction s generalizing c with
  | done => nofun
  | fail why => nofun
  | set fields next ih =>
    unfold passages
    split
    · exact ih _
    · nofun
  | clear next ih => exact ih _
  | look next ih => exact ih c c
  | bind fields body next ihbody ihnext =>
    unfold passages
    cases hchanges : changesOf fields with
    | error why => nofun
    | ok changes =>
      have hown := c.during_undone body.run hchanges
      intro p hp
      rcases List.mem_append.mp hp with hinner | hrest
      · exact ihbody _ p hinner
      rcases List.mem_cons.mp hrest with hself | hlater
      · rw [hself]
        exact hown
      · split at hlater
        · exact ihnext _ p hlater
        · cases hlater
  | attempt body next ihbody ihnext =>
    intro p hp
    rcases List.mem_append.mp hp with hbody | hnext
    · exact ihbody c p hbody
    · exact ihnext _ _ p hnext

end TipJar.Log
