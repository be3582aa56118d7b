import TipJar.Proofs.Columns
import TipJar.Proofs.Deeds

/-! History stays as it is.

A session flushes what it changed of its own copies of rows, and the guard judges a
flush by the copy, not by the row. That is enough for entries, which no flush may
change, and for deletions, which are never allowed: whatever was read and whenever,
the flush is refused and the tables stay as they were. It is also enough for a drop
whose copy shows that its life is over. The guard lets every other flush of a drop
pass, and the columns that were changed are written as far as their values fit; the
tables have rules of their own, and a value that breaks one is refused by them.

From one flush this carries over to the flushes of a session, which are kept together
or not at all, and to one session after the other. -/
namespace TipJar.Ledger

/-! ### Refusals -/

/-- What a refused change of history fails with: the refusal, or what is wrong with the identifier
that the copy shows if it has no text. -/
def frozenFault (shown : Checked String) (change : FrozenChange) : Fault :=
  match shown with
  | .ok id => .refused (.frozen id change)
  | .error why => why

/-- A flush that is refused as a change of history. It leaves the tables as they were, and the unit
of work it was part of cannot be kept. -/
def Work.Freezes {α : Type} (flush : Work α) (desk : Desk) (shown : Checked String)
    (change : FrozenChange) : Prop :=
  ∃ after, flush desk = (.error (frozenFault shown change), after) ∧
    after.tables = desk.tables ∧ after.spoiled = true

section Refusals
variable {α : Type} {desk : Desk} {shown : Checked String} {change : FrozenChange}

theorem Work.bind_desk (f : Desk → Work α) : ((getThe Desk : Work Desk) >>= f) desk = f desk desk :=
  Work.bind_of_ok rfl

theorem guardHistory_refuses (shown : Checked String) (change : FrozenChange)
    (up : desk.guarded = true) :
    ∃ after, guardHistory shown change desk = (.error (frozenFault shown change), after) ∧
      after.tables = desk.tables := by
  unfold guardHistory
  rw [Work.bind_desk, if_pos up]
  cases shown with
  | error why => exact ⟨desk, rfl, rfl⟩
  | ok id =>
    have hshown : (Work.check (.ok id)).Gives desk id desk := Work.gives_check.mpr ⟨rfl, rfl⟩
    rw [Work.bind_of_ok hshown]
    exact ⟨_, Work.bind_of_ok (a := ⟨⟩) (Work.gives_note.mpr rfl), Desk.tables_note ..⟩

theorem freezes_flushing {guard : Work Unit} (rest : Work α)
    (h : ∃ after, guard desk = (.error (frozenFault shown change), after) ∧
      after.tables = desk.tables) :
    (Work.flushing (guard >>= fun _ => rest)).Freezes desk shown change := by
  obtain ⟨after, herror, htables⟩ := h
  refine ⟨{ after with spoiled := true }, ?_, htables, rfl⟩
  unfold Work.flushing
  rw [Work.bind_of_error herror]

theorem flushEntryDeletion_freezes (id : Uuid) (up : desk.guarded = true) :
    (flushEntryDeletion id).Freezes desk (.ok id.text) .entryDeleted :=
  freezes_flushing _ (guardHistory_refuses _ .entryDeleted up)

theorem flushEntry_freezes (seen : Entry) {changes : Changes} (up : desk.guarded = true)
    (touched : touches entryColumns changes = true) :
    (flushEntry seen changes).Freezes desk (shownId seen.id changes) .entryChanged := by
  unfold flushEntry
  rw [touched, Bool.not_true, if_neg Bool.false_ne_true]
  exact freezes_flushing _ (guardHistory_refuses _ .entryChanged up)

theorem flushDropDeletion_freezes (id : Uuid) (up : desk.guarded = true) :
    (flushDropDeletion id).Freezes desk (.ok id.text) .dropDeleted :=
  freezes_flushing _ (guardHistory_refuses _ .dropDeleted up)

end Refusals

/-! ### What a copy shows -/

/-- The status that the flush of a copy is judged by: that of the copy, or that of the row if what
was read of it was let go of and no status is assigned. -/
inductive DropCopy.Shows (s : Store) (changes : Changes) (status : Drop.Status) : DropCopy → Prop
  | seen {d : Drop} (shown : d.status = .known status) : Shows s changes status (.seen d)
  | gone {d : Drop} {id : Uuid} (stored : s.drop? id = some d)
      (unassigned : touches ["status"] changes = false) (shown : d.status = .known status) :
      Shows s changes status (.gone id)

/-- Whether the life of a drop was not over when the copy was read. -/
def DropCopy.IsAlive : DropCopy → Prop
  | seen d => d.isHolding = true
  | gone _ => True

theorem status_of_isHolding {d : Drop} (h : d.isHolding = true) :
    ∃ status, d.status = .known status ∧ status.isTerminal = false := by
  rcases Bool.or_eq_true_iff.mp h with h | h
  · exact ⟨.pending, eq_of_beq h, rfl⟩
  · exact ⟨.settling, eq_of_beq h, rfl⟩

section Guard
variable {desk : Desk} {s : Store} {c : DropCopy} {changes : Changes} {status : Drop.Status}

theorem storedDrop_gives {id : Uuid} {d : Drop} {after : Desk} :
    (storedDrop id).Gives desk d after ↔
      ∃ s, desk.Holds s ∧ s.drop? id = some d ∧ desk = after := by
  unfold storedDrop
  simp only [Work.gives_bind, Work.gives_tables]
  constructor
  · intro h
    obtain ⟨s, _, ⟨hs, rfl⟩, h⟩ := h
    cases hd : s.drop? id with
    | none =>
      rw [hd] at h
      exact absurd h Work.gives_storeFails
    | some found =>
      rw [hd] at h
      obtain ⟨rfl, rfl⟩ := Work.gives_pure.mp h
      exact ⟨s, hs, hd, rfl⟩
  · intro h
    obtain ⟨s, hs, hd, rfl⟩ := h
    refine ⟨s, desk, ⟨hs, rfl⟩, ?_⟩
    rw [hd]
    exact Work.gives_pure.mpr ⟨rfl, rfl⟩

theorem statusBefore_gives (hs : desk.Holds s) (shows : c.Shows s changes status) :
    (c.statusBefore changes).Gives desk (some (.known status)) desk := by
  cases shows with
  | seen shown => exact Work.gives_pure.mpr ⟨congrArg some shown, rfl⟩
  | gone stored unassigned shown =>
    unfold DropCopy.statusBefore
    dsimp only
    rw [unassigned, if_neg Bool.false_ne_true, ← shown]
    exact Work.gives_bind.mpr ⟨_, desk, storedDrop_gives.mpr ⟨s, hs, stored, rfl⟩,
      Work.gives_pure.mpr ⟨rfl, rfl⟩⟩

/-- The guard while it is up, once it is known what the copy shows. -/
theorem guardDrop_eq (up : desk.guarded = true) (hs : desk.Holds s)
    (shows : c.Shows s changes status) :
    guardDrop c changes desk =
      (if status.isTerminal then guardHistory (shownId c.id changes) (.dropChanged status.text)
        else pure ⟨⟩) desk := by
  unfold guardDrop
  rw [Work.bind_desk, if_pos up, Work.bind_of_ok (statusBefore_gives hs shows)]
  exact Work.bind_of_ok (Work.gives_check.mpr ⟨rfl, rfl⟩)

theorem flushDrop_freezes (up : desk.guarded = true) (hs : desk.Holds s)
    (shows : c.Shows s changes status) (terminal : status.isTerminal = true)
    (touched : touches dropColumns changes = true) :
    (flushDrop c changes).Freezes desk (shownId c.id changes) (.dropChanged status.text) := by
  unfold flushDrop
  rw [if_pos touched]
  refine freezes_flushing _ ?_
  rw [guardDrop_eq up hs shows, if_pos terminal]
  exact guardHistory_refuses _ _ up

/-- The guard does nothing to a flush from a copy that was read while the drop was alive, if the
drop still is. -/
theorem guardDrop_passes (up : desk.guarded = true) (hs : desk.Holds s) (alive : c.IsAlive)
    {row : Drop} (stored : s.drop? c.id = some row) (holding : row.isHolding = true) :
    guardDrop c changes desk = (.ok ⟨⟩, desk) := by
  have hshown {status : Drop.Status} (shows : c.Shows s changes status)
      (going : status.isTerminal = false) : guardDrop c changes desk = (.ok ⟨⟩, desk) := by
    rw [guardDrop_eq up hs shows, going]
    rfl
  cases c with
  | seen d =>
    obtain ⟨status, shown, going⟩ := status_of_isHolding alive
    exact hshown (.seen shown) going
  | gone id =>
    cases htouched : touches ["status"] changes with
    | false =>
      obtain ⟨status, shown, going⟩ := status_of_isHolding holding
      exact hshown (.gone stored htouched shown) going
    | true =>
      unfold guardDrop DropCopy.statusBefore
      rw [Work.bind_desk, if_pos up]
      dsimp only
      rw [htouched, if_pos rfl]
      rfl

end Guard

/-! ### Flushes of drops -/

section Flushes
variable {desk : Desk} {s : Store} {c : DropCopy} {changes : Changes}

/-- The row as a copy has it belongs to the identifier of the copy. -/
theorem read_gives {row : Drop} (hs : desk.Holds s) (stored : s.drop? c.id = some row) :
    ∃ seen, c.read.Gives desk seen desk ∧ seen.id = c.id := by
  cases c with
  | seen d => exact ⟨d, Work.gives_pure.mpr ⟨rfl, rfl⟩, rfl⟩
  | gone id => exact ⟨row, storedDrop_gives.mpr ⟨s, hs, stored, rfl⟩, Store.id_of_drop? s id stored⟩

/-- The columns that a session changed are written into the row, and the others are left. -/
theorem writeDrop_gives {seen changed row : Drop} (hs : desk.Holds s)
    (read : c.read.Gives desk seen desk) (set : (setDropAll seen changes).Gives desk changed desk)
    (stored : s.drop? c.id = some row) (free : takesId s c.id changed.id = false) :
    (writeDrop c changes).Gives desk changed
      (desk.keep (s.updateDrop c.id (mergeDrop seen (normalDrop changed)))) := by
  unfold writeDrop
  refine Work.gives_bind.mpr ⟨seen, desk, read, Work.gives_bind.mpr ⟨changed, desk, set,
    Work.gives_bind.mpr ⟨s, desk, Work.gives_tables.mpr ⟨hs, rfl⟩, ?_⟩⟩⟩
  dsimp only
  rw [stored, free, if_neg (by simp), if_neg Bool.false_ne_true]
  exact Work.gives_bind.mpr ⟨⟨⟩, _, Work.gives_write.mpr ⟨s, hs, rfl⟩,
    Work.gives_pure.mpr ⟨rfl, rfl⟩⟩

theorem binds_storedDrop {id : Uuid} : (storedDrop id).Binds := by
  refine Work.binds_tables.bind fun t => ?_
  cases t.drop? id with
  | none => exact Work.binds_storeFails
  | some d => exact Work.binds_pure

theorem binds_read : c.read.Binds := by
  cases c with
  | seen d => exact Work.binds_pure
  | gone id => exact binds_storedDrop

theorem writeDrop_failsOnly : (writeDrop c changes).FailsOnly s NotFrozen := by
  refine (binds_read.fails s).ask binds_read.stays.reads fun seen => ?_
  have hset := binds_setDropAll seen changes
  refine (hset.fails s).ask hset.stays.reads fun changed =>
    Work.failsOnly_tables.ask Work.reads_tables fun t => ?_
  have hrefused (why : StoreFault) (f : PUnit → Work Drop) :
      (Work.storeFails why >>= f).FailsOnly s NotFrozen :=
    (Work.failsOnly_storeFails fun _ _ => nofun).bind fun _ _ _ _ h =>
      absurd h Work.gives_storeFails
  dsimp only
  split
  · exact hrefused _ _
  · split
    · exact hrefused _ _
    · exact Work.FailsOnly.written Work.failsOnly_pure

/-- A flush from a copy that was read while the drop was alive, if the drop still is: it is never
refused as a change of history, and it goes through if the values fit. -/
theorem flushDrop_passes (up : desk.guarded = true) (hs : desk.Holds s) (alive : c.IsAlive)
    {row : Drop} (stored : s.drop? c.id = some row) (holding : row.isHolding = true)
    (touched : touches dropColumns changes = true) :
    (∀ why after, flushDrop c changes desk = (.error why, after) → NotFrozen why) ∧
      ((∀ change ∈ changes, Fits s c.id change.1 change.2) →
        ∃ seen changed, c.read.Gives desk seen desk ∧
          (setDropAll seen changes).Gives desk changed desk ∧
          (flushDrop c changes).Gives desk changed
            (desk.keep (s.updateDrop c.id (mergeDrop seen (normalDrop changed))))) := by
  have hpasses : flushDrop c changes desk = Work.flushing (writeDrop c changes) desk := by
    unfold flushDrop Work.flushing
    rw [if_pos touched, Work.bind_of_ok (guardDrop_passes up hs alive stored holding)]
  refine ⟨fun why after herror => ?_, fun fits => ?_⟩
  · exact writeDrop_failsOnly.flushing hs (hpasses.symm.trans herror)
  · obtain ⟨seen, hread, hid⟩ := read_gives hs stored
    have hfree : takesId s c.id seen.id = false := by
      unfold takesId
      rw [hid, bne_self_eq_false, Bool.false_and]
    obtain ⟨changed, hset, hfree⟩ := setDropAll_gives hs fits hfree
    exact ⟨seen, changed, hread, hset, hpasses.trans
      (Work.gives_flushing.mpr (writeDrop_gives hs hread hset stored hfree))⟩

theorem stays_guardHistory {shown : Checked String} {change : FrozenChange} :
    (guardHistory shown change).Stays := by
  intro desk u after h
  unfold guardHistory at h
  obtain ⟨_, _, hget, h⟩ := Work.gives_bind.mp h
  obtain ⟨rfl, rfl⟩ := Work.gives_get.mp hget
  split at h
  · obtain ⟨_, _, -, h⟩ := Work.gives_bind.mp h
    obtain ⟨_, _, -, h⟩ := Work.gives_bind.mp h
    exact absurd h Work.gives_refuse
  · exact (Work.gives_pure.mp h).2.symm

theorem stays_statusBefore : (c.statusBefore changes).Stays := by
  cases c with
  | seen d => exact Work.stays_pure
  | gone id =>
    unfold DropCopy.statusBefore
    dsimp only
    split
    · exact Work.stays_pure
    · exact binds_storedDrop.stays.bind fun _ => Work.stays_pure

theorem stays_guardDrop : (guardDrop c changes).Stays := by
  intro desk u after h
  unfold guardDrop at h
  obtain ⟨_, _, hget, h⟩ := Work.gives_bind.mp h
  obtain ⟨rfl, rfl⟩ := Work.gives_get.mp hget
  split at h
  · refine (stays_statusBefore.bind fun found => ?_) h
    cases found with
    | none => exact Work.stays_pure
    | some stored =>
      refine Work.stays_check.bind fun status => ?_
      split
      · exact stays_guardHistory
      · exact Work.stays_pure
  · exact (Work.gives_pure.mp h).2.symm

/-- Whatever a flush of a drop writes, it writes into the rows of its identifier. -/
theorem flushDrop_leaves {d : Drop} {after : Desk} (hs : desk.Holds s)
    (h : (flushDrop c changes).Gives desk d after) :
    after = desk ∨
      (touches dropColumns changes = true ∧ ∃ f, after = desk.keep (s.updateDrop c.id f)) := by
  unfold flushDrop at h
  split at h
  case isTrue touched =>
    obtain ⟨_, mid, hguard, hwriting⟩ := Work.gives_bind.mp (Work.gives_flushing.mp h)
    cases stays_guardDrop hguard
    unfold writeDrop at hwriting
    obtain ⟨seen, mid, hread, hrest⟩ := Work.gives_bind.mp hwriting
    cases binds_read.stays hread
    obtain ⟨changed, mid, hset, hrest⟩ := Work.gives_bind.mp hrest
    cases (binds_setDropAll seen changes).stays hset
    obtain ⟨t, mid, htables, hrest⟩ := Work.gives_bind.mp hrest
    obtain ⟨-, rfl⟩ := Work.gives_tables.mp htables
    simp only [Work.gives_guard_store] at hrest
    obtain ⟨-, -, hrest⟩ := hrest
    obtain ⟨_, mid, hwrite, hrest⟩ := Work.gives_bind.mp hrest
    obtain ⟨_, ht, rfl⟩ := Work.gives_write.mp hwrite
    cases hs.unique ht
    obtain ⟨-, rfl⟩ := Work.gives_pure.mp hrest
    exact .inr ⟨touched, _, rfl⟩
  case isFalse => exact .inl (binds_read.stays h)

end Flushes

/-! ### Many flushes -/

/-- What a session flushes of one row. -/
inductive Edit
  | entry (seen : Entry) (changes : Changes)
  | entryDeletion (id : Uuid)
  | drop (c : DropCopy) (changes : Changes)
  | dropDeletion (id : Uuid)

/-- The flush of it. -/
def Edit.flush : Edit → Work Unit
  | entry seen changes => do let _ ← flushEntry seen changes
  | entryDeletion id => flushEntryDeletion id
  | drop c changes => do let _ ← flushDrop c changes
  | dropDeletion id => flushDropDeletion id

/-- The flushes of a session, one after the other. -/
def flushAll (edits : List Edit) : Work Unit := edits.forM Edit.flush

/-- Whether the life of a drop is over. -/
def IsOver (d : Drop) : Prop := ∃ status, d.status = .known status ∧ status.isTerminal = true

/-- Whether the copy of a drop shows that its life is over, if it is. -/
def Edit.IsCurrent (s : Store) : Edit → Prop
  | drop c changes => ∀ d ∈ s.drops, d.id = c.id → IsOver d →
      ∃ status, c.Shows s changes status ∧ status.isTerminal = true
  | _ => True

/-- Whether every copy shows that when its turn comes. -/
def AreCurrent : Desk → List Edit → Prop
  | _, [] => True
  | desk, e :: rest => (∀ s, desk.Holds s → e.IsCurrent s) ∧
      ∀ after, e.flush.Gives desk ⟨⟩ after → AreCurrent after rest

/-- A session that flushes edits while the guard is up, with the tables before and after it. It is
one unit of work, which may or may not be kept. -/
structure Session (desk : Desk) (edits : List Edit) (s t : Store) : Prop where
  up : desk.guarded = true
  before : desk.Holds s
  after : ∃ operation, (desk.transact operation (flushAll edits)).2.tables = some t

/-- The tables hold the same accounts and entries, and as many drops. -/
structure Store.SameHistory (s t : Store) : Prop where
  accounts : t.accounts = s.accounts
  entries : t.entries = s.entries
  drops : t.drops.length = s.drops.length

/-- Every drop whose life is over is still there as it was. -/
def Store.KeepsFinished (s t : Store) : Prop := ∀ d ∈ s.drops, IsOver d → d ∈ t.drops

section Keeps
variable {desk after : Desk} {s t u : Store} {e : Edit} {edits : List Edit}

theorem Store.SameHistory.refl (s : Store) : s.SameHistory s := ⟨rfl, rfl, rfl⟩

theorem Store.SameHistory.trans (h : s.SameHistory t) (h' : t.SameHistory u) : s.SameHistory u :=
  ⟨h'.accounts.trans h.accounts, h'.entries.trans h.entries, h'.drops.trans h.drops⟩

theorem Store.KeepsFinished.refl (s : Store) : s.KeepsFinished s := fun _ hd _ => hd

theorem Store.KeepsFinished.trans (h : s.KeepsFinished t) (h' : t.KeepsFinished u) :
    s.KeepsFinished u := fun d hd ended => h' d (h d hd ended) ended

theorem Work.Freezes.not_gives {α : Type} {flush : Work α} {shown : Checked String}
    {change : FrozenChange} {a : α} (h : flush.Freezes desk shown change) :
    ¬flush.Gives desk a after := by
  obtain ⟨_, herror, -⟩ := h
  exact fun hgives => nomatch herror.symm.trans hgives

/-- Rows of other identifiers stay; and if the row of this one were over, a current copy would show
it and the flush would not have gone through. -/
theorem flushDrop_keepsFinished {c : DropCopy} {changes : Changes} {d : Drop} {f : Drop → Drop}
    (up : desk.guarded = true) (hs : desk.Holds s) (current : (Edit.drop c changes).IsCurrent s)
    (touched : touches dropColumns changes = true)
    (h : (flushDrop c changes).Gives desk d after) : s.KeepsFinished (s.updateDrop c.id f) := by
  intro row hrow ended
  refine Store.mem_updateDrop_of_ne c.id hrow fun hid => ?_
  obtain ⟨status, shows, terminal⟩ := current row hrow hid ended
  exact (flushDrop_freezes up hs shows terminal touched).not_gives h

theorem Edit.keeps (up : desk.guarded = true) (hs : desk.Holds s)
    (h : e.flush.Gives desk ⟨⟩ after) :
    ∃ t, after = desk.keep t ∧ s.SameHistory t ∧ (e.IsCurrent s → s.KeepsFinished t) := by
  have hsame : ∃ t, desk = desk.keep t ∧ s.SameHistory t ∧ (e.IsCurrent s → s.KeepsFinished t) :=
    ⟨s, hs.keep_self.symm, .refl s, fun _ => .refl s⟩
  cases e with
  | entry seen changes =>
    obtain ⟨_, _, hflush, h⟩ := Work.gives_bind.mp h
    obtain ⟨-, rfl⟩ := Work.gives_pure.mp h
    cases htouched : touches entryColumns changes with
    | true => exact absurd hflush (flushEntry_freezes seen up htouched).not_gives
    | false =>
      unfold flushEntry at hflush
      rw [htouched, Bool.not_false, if_pos rfl] at hflush
      obtain ⟨-, rfl⟩ := Work.gives_pure.mp hflush
      exact hsame
  | entryDeletion id => exact absurd h (flushEntryDeletion_freezes id up).not_gives
  | drop c changes =>
    obtain ⟨_, _, hflush, h⟩ := Work.gives_bind.mp h
    obtain ⟨-, rfl⟩ := Work.gives_pure.mp h
    rcases flushDrop_leaves hs hflush with rfl | ⟨touched, f, rfl⟩
    · exact hsame
    · exact ⟨_, rfl, ⟨rfl, rfl, List.length_map _⟩,
        fun current => flushDrop_keepsFinished up hs current touched hflush⟩
  | dropDeletion id => exact absurd h (flushDropDeletion_freezes id up).not_gives

theorem flushAll_keeps (up : desk.guarded = true) (hs : desk.Holds s)
    (h : (flushAll edits).Gives desk ⟨⟩ after) :
    ∃ t, after = desk.keep t ∧ s.SameHistory t ∧ (AreCurrent desk edits → s.KeepsFinished t) := by
  induction edits generalizing desk s with
  | nil =>
    obtain ⟨-, rfl⟩ := Work.gives_pure.mp h
    exact ⟨s, hs.keep_self.symm, .refl s, fun _ => .refl s⟩
  | cons e rest ih =>
    obtain ⟨_, mid, hflush, hrest⟩ := Work.gives_bind.mp h
    obtain ⟨t, rfl, hsame, hkept⟩ := Edit.keeps up hs hflush
    have hup : (desk.keep t).guarded = true := up
    obtain ⟨u, rfl, hsame', hkept'⟩ := ih hup (hs.keep t) hrest
    exact ⟨u, rfl, hsame.trans hsame', fun current =>
      (hkept (current.1 s hs)).trans (hkept' (current.2 _ hflush))⟩

/-- A session leaves the accounts and the entries and loses no drop, and from current copies it
leaves the drops whose life is over. If any of its flushes is refused, it leaves everything. -/
theorem Session.keeps (session : Session desk edits s t) :
    s.SameHistory t ∧ (AreCurrent desk edits → s.KeepsFinished t) := by
  obtain ⟨up, hs, operation, hafter⟩ := session
  rcases hdone : desk.transact operation (flushAll edits) with ⟨why | u, after⟩
  · rw [hdone, Desk.tables_transact_error hdone, hs.tables] at hafter
    obtain rfl := Option.some_inj.mp hafter
    exact ⟨.refl s, fun _ => .refl s⟩
  · have hgives := (Desk.commit_ok.mp (Desk.transact_ok.mp hdone)).1
    have hdesk : { desk with spoiled := false } = desk := by rw [← hs.sound]
    rw [hdesk] at hgives
    obtain ⟨u, rfl, hkept⟩ := flushAll_keeps up hs hgives
    rw [hdone] at hafter
    obtain rfl := Option.some_inj.mp hafter
    exact hkept

/-- Any number of sessions leaves the accounts and the entries and loses no drop. -/
theorem sessions_keep
    (h : Relation.ReflTransGen (fun s t => ∃ desk edits, Session desk edits s t) s t) :
    s.SameHistory t := by
  induction h with
  | refl => exact .refl s
  | tail _ next ih =>
    obtain ⟨desk, edits, session⟩ := next
    exact ih.trans session.keeps.1

/-- Any number of sessions whose copies are current leaves the drops whose life is over. -/
theorem current_sessions_keep
    (h : Relation.ReflTransGen
      (fun s t => ∃ desk edits, Session desk edits s t ∧ AreCurrent desk edits) s t) :
    s.KeepsFinished t := by
  induction h with
  | refl => exact .refl s
  | tail _ next ih =>
    obtain ⟨desk, edits, session, current⟩ := next
    exact ih.trans (session.keeps.2 current)

end Keeps

/-- What a session can do to history while the guard is up, however old its copies are. Entries are
neither changed nor deleted, drops not deleted, and a drop is not changed from a copy that shows its
life to be over: each such flush is refused and leaves the tables. A drop that is alive is changed
from any copy read while it was, if the values fit; if they do not, it is the tables that refuse. -/
theorem history_guarded {desk : Desk} {s : Store} (up : desk.guarded = true) (hs : desk.Holds s) :
    (∀ seen changes, touches entryColumns changes = true →
      (flushEntry seen changes).Freezes desk (shownId seen.id changes) .entryChanged) ∧
    (∀ id, (flushEntryDeletion id).Freezes desk (.ok id.text) .entryDeleted) ∧
    (∀ id, (flushDropDeletion id).Freezes desk (.ok id.text) .dropDeleted) ∧
    (∀ (c : DropCopy) changes status, c.Shows s changes status → status.isTerminal = true →
      touches dropColumns changes = true →
        (flushDrop c changes).Freezes desk (shownId c.id changes) (.dropChanged status.text)) ∧
    (∀ (c : DropCopy) changes row, c.IsAlive → s.drop? c.id = some row → row.isHolding = true →
      touches dropColumns changes = true →
        (∀ why after, flushDrop c changes desk = (.error why, after) → NotFrozen why) ∧
        ((∀ change ∈ changes, Fits s c.id change.1 change.2) →
          ∃ seen changed, c.read.Gives desk seen desk ∧
            (setDropAll seen changes).Gives desk changed desk ∧
            (flushDrop c changes).Gives desk changed
              (desk.keep (s.updateDrop c.id (mergeDrop seen (normalDrop changed)))))) ∧
    (∀ t, Relation.ReflTransGen (fun s t => ∃ desk edits, Session desk edits s t) s t →
      s.SameHistory t) ∧
    ∀ t, Relation.ReflTransGen
        (fun s t => ∃ desk edits, Session desk edits s t ∧ AreCurrent desk edits) s t →
      s.KeepsFinished t :=
  ⟨fun seen _ touched => flushEntry_freezes seen up touched,
    fun id => flushEntryDeletion_freezes id up,
    fun id => flushDropDeletion_freezes id up,
    fun _ _ _ shows terminal touched => flushDrop_freezes up hs shows terminal touched,
    fun _ _ _ alive stored holding touched => flushDrop_passes up hs alive stored holding touched,
    fun _ sessions => sessions_keep sessions, fun _ sessions => current_sessions_keep sessions⟩

/-! ### One drop, waiting and over -/

/-- Alice's drop before it is claimed. -/
def waitingDrop : Drop :=
  Sample.request.row (.ofNat 1) "alice" Sample.opening Sample.deadline

/-- The same drop once nobody has taken part. -/
def expiredDrop : Drop := (waitingDrop.asClaimed Sample.deadline).asExpired Sample.deadline

/-- The tables while a drop is all that is in them. -/
def dropAlone (d : Drop) : Store := ⟨[⟨"alice", ⟨10⟩, none, false⟩], [], [d]⟩

/-- Another channel can be given to the drop while it waits, but not once it has expired. -/
theorem waitingDrop_guarded :
    (∃ changed after, (flushDrop (.seen waitingDrop) [("channel_ref", .text "square")]).Gives
      ((Sample.desk 0).keep (dropAlone waitingDrop)) changed after) ∧
    (flushDrop (.seen expiredDrop) [("channel_ref", .text "square")]).Freezes
      ((Sample.desk 0).keep (dropAlone expiredDrop)) (.ok (Uuid.ofNat 1).text)
      (.dropChanged "expired") := by
  have hwaiting : ((Sample.desk 0).keep (dropAlone waitingDrop)).Holds (dropAlone waitingDrop) :=
    ⟨rfl, rfl⟩
  have hexpired : ((Sample.desk 0).keep (dropAlone expiredDrop)).Holds (dropAlone expiredDrop) :=
    ⟨rfl, rfl⟩
  obtain ⟨-, -, -, -, hpasses, -⟩ := history_guarded rfl hwaiting
  obtain ⟨-, -, -, hfreezes, -⟩ := history_guarded rfl hexpired
  constructor
  · have hfits : ∀ change ∈ [("channel_ref", Value.text "square")],
        Fits (dropAlone waitingDrop) (.ofNat 1) change.1 change.2 := by
      intro change hchange
      obtain rfl := List.mem_singleton.mp hchange
      exact .text "square" (by decide)
    obtain ⟨_, changed, -, -, hgives⟩ :=
      (hpasses (.seen waitingDrop) _ waitingDrop rfl rfl rfl rfl).2 hfits
    exact ⟨changed, _, hgives⟩
  · exact hfreezes (.seen expiredDrop) _ .expired (.seen rfl) rfl rfl

/-- Not every flush of a drop that waits goes through: the tables have no drops of nothing. And a
copy that was read while the drop waited can change it after it has expired. -/
theorem waitingDrop_not_always :
    (∃ after, flushDrop (.seen waitingDrop) [("amount", .amount .zero)]
      ((Sample.desk 0).keep (dropAlone waitingDrop)) = (.error (.store .violation), after)) ∧
    ∃ changed after, (flushDrop (.seen waitingDrop) [("failure_reason", .text "rewritten")]).Gives
        ((Sample.desk 0).keep (dropAlone expiredDrop)) changed after ∧
      after.tables = some (dropAlone { expiredDrop with reason := some "rewritten" }) :=
  ⟨⟨_, rfl⟩, _, _, rfl, rfl⟩

end TipJar.Ledger
