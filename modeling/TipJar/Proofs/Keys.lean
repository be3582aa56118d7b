import Mathlib.Data.List.Nodup
import TipJar.Proofs.Checking
import TipJar.Value.Json

/-! Keys in order.

The text that stands for a configuration has the entries of every mapping in the order
of their keys. Keys have an order only among their kind: texts, numbers, dates, and
moments with and without an offset. So the entries of a mapping can be put in order
exactly if it has a single key or keys of a single kind; what cannot is a mismatch of
kinds, and nothing else can go wrong. -/
namespace TipJar

/-- The kinds of keys that have an order among themselves. -/
inductive KeyKind
  | text
  | number
  | date
  | moment (naive : Bool)
deriving DecidableEq

/-- A fault of a value of the wrong kind. -/
def Fault.IsMismatch (why : Fault) : Prop := ∃ kind, why = .mismatch kind

namespace Scalar
variable {α β : Type} {a b : Scalar}

/-- The kind of a key, if it has an order with others. -/
def keyKind? : Scalar → Option KeyKind
  | text _ | unit _ | preference _ => some .text
  | bool _ | int _ | float _ => some .number
  | date _ => some .date
  | moment m => some (.moment m.isNaive)
  | _ => none

theorem keyKind_text_iff : a.keyKind? = some .text ↔ ∃ s, (Value.scalar a).text? = some s := by
  cases a <;> simp [keyKind?, Value.text?]

/-- Truth values count as numbers. -/
theorem keyKind_number_iff :
    a.keyKind? = some .number ↔ (∃ i, a.asNumber = .int i) ∨ ∃ f, a.asNumber = .float f := by
  cases a <;> simp [keyKind?, asNumber]

theorem numberBefore?_float (f g : Binary64) : ∃ r, numberBefore? (float f) (float g) = some r := by
  unfold numberBefore?
  cases f <;> cases g <;> exact ⟨_, rfl⟩

theorem numberBefore?_some_iff : (∃ r, numberBefore? a.asNumber b.asNumber = some r) ↔
    a.keyKind? = some .number ∧ b.keyKind? = some .number := by
  rw [keyKind_number_iff, keyKind_number_iff]
  constructor
  · rintro ⟨r, h⟩
    unfold numberBefore? at h
    split at h
    · next i j hi hj => exact ⟨.inl ⟨i, hi⟩, .inl ⟨j, hj⟩⟩
    · next i f hi hf => exact ⟨.inl ⟨i, hi⟩, .inr ⟨f, hf⟩⟩
    · next f i hf hi => exact ⟨.inr ⟨f, hf⟩, .inl ⟨i, hi⟩⟩
    · next f g hf hg => exact ⟨.inr ⟨f, hf⟩, .inr ⟨g, hg⟩⟩
    · cases h
  · rintro ⟨⟨i, hi⟩ | ⟨f, hf⟩, ⟨j, hj⟩ | ⟨g, hg⟩⟩
    · exact ⟨_, by rw [hi, hj]; rfl⟩
    · exact ⟨_, by rw [hi, hg]; rfl⟩
    · exact ⟨_, by rw [hf, hj]; rfl⟩
    · rw [hf, hg]
      exact numberBefore?_float f g

theorem keyKind_date (h : a.keyKind? = some .date) : ∃ d, a = .date d := by
  cases a <;> simp [keyKind?] at h ⊢

theorem keyKind_moment {naive : Bool} (h : a.keyKind? = some (.moment naive)) :
    ∃ m, a = .moment m := by
  cases a <;> simp [keyKind?] at h ⊢

/-- Keys have an order exactly if they are of one kind. -/
theorem keyBefore_ok_iff :
    (∃ r, keyBefore a b = .ok r) ↔ a.keyKind? = b.keyKind? ∧ a.keyKind?.isSome := by
  unfold keyBefore
  split
  · next s t hs ht =>
    have ha := keyKind_text_iff.mpr ⟨s, hs⟩
    have hb := keyKind_text_iff.mpr ⟨t, ht⟩
    exact iff_of_true ⟨_, rfl⟩ ⟨ha.trans hb.symm, ha ▸ rfl⟩
  next hnoTexts =>
  split
  · next before hbefore =>
    obtain ⟨ha, hb⟩ := numberBefore?_some_iff.mp ⟨before, hbefore⟩
    exact iff_of_true ⟨_, rfl⟩ ⟨ha.trans hb.symm, ha ▸ rfl⟩
  next hnoNumbers =>
  split
  · exact iff_of_true ⟨_, rfl⟩ ⟨rfl, rfl⟩
  · next m n _ _ =>
    split
    · next h => exact iff_of_true ⟨_, rfl⟩ ⟨congrArg (some ∘ KeyKind.moment) h, rfl⟩
    · next h =>
      refine iff_of_false nofun fun hsame => h ?_
      exact KeyKind.moment.inj (Option.some.inj hsame.1)
  · next hnoDates hnoMoments =>
    -- Whatever kind both keys were of, they would have been compared before.
    refine iff_of_false nofun ?_
    rintro ⟨hsame, hsome⟩
    obtain ⟨kind, ha⟩ := Option.isSome_iff_exists.mp hsome
    have hb := hsame.symm.trans ha
    cases kind with
    | text =>
      obtain ⟨s, hs⟩ := keyKind_text_iff.mp ha
      obtain ⟨t, ht⟩ := keyKind_text_iff.mp hb
      exact hnoTexts s t hs ht
    | number =>
      obtain ⟨r, hr⟩ := numberBefore?_some_iff.mpr ⟨ha, hb⟩
      cases hnoNumbers.symm.trans hr
    | date =>
      obtain ⟨d, rfl⟩ := keyKind_date ha
      obtain ⟨e, rfl⟩ := keyKind_date hb
      exact hnoDates d e rfl rfl
    | moment naive =>
      obtain ⟨m, rfl⟩ := keyKind_moment ha
      obtain ⟨n, rfl⟩ := keyKind_moment hb
      exact hnoMoments m n rfl rfl

theorem keyBefore_fails : Checked.FailsOnly (keyBefore a b) Fault.IsMismatch := by
  unfold keyBefore
  split
  · exact nofun
  split
  · exact nofun
  split
  · exact nofun
  · split
    · exact nofun
    · exact Checked.failsOnly_error ⟨_, rfl⟩
  · exact Checked.failsOnly_error ⟨_, rfl⟩

end Scalar

/-! ### Sorting -/

section Sorting
variable {α β : Type} {key : Scalar} {value : α} {entries out : List (Scalar × α)}

/-- Whether the keys of entries are all of one kind. -/
def KeysOf (kind : KeyKind) (entries : List (Scalar × α)) : Prop :=
  ∀ e ∈ entries, e.1.keyKind? = some kind

theorem insertEntry_perm (h : insertEntry key value entries = .ok out) :
    out.Perm ((key, value) :: entries) := by
  induction entries generalizing out with
  | nil => exact Except.ok.inj h ▸ .refl _
  | cons e rest ih =>
    obtain ⟨k, v⟩ := e
    obtain ⟨before, -, h⟩ := Checked.bind_ok.mp h
    cases before with
    | true => exact Except.ok.inj h ▸ .refl _
    | false =>
      obtain ⟨more, hmore, h⟩ := Checked.bind_ok.mp h
      obtain rfl := Except.ok.inj h
      exact ((ih hmore).cons _).trans (.swap ..)

theorem insertEntry_fails : Checked.FailsOnly (insertEntry key value entries) Fault.IsMismatch := by
  induction entries with
  | nil => exact nofun
  | cons e rest ih =>
    obtain ⟨k, v⟩ := e
    refine Scalar.keyBefore_fails.bind fun before _ => ?_
    cases before with
    | true => exact nofun
    | false => exact ih.bind fun _ _ => nofun

/-- An entry is compared with the first one, if there is any. -/
theorem keyKind_of_insertEntry {e : Scalar × α} {rest : List (Scalar × α)}
    (h : insertEntry key value (e :: rest) = .ok out) :
    ∃ kind, key.keyKind? = some kind ∧ e.1.keyKind? = some kind := by
  obtain ⟨before, hbefore, -⟩ := Checked.bind_ok.mp h
  obtain ⟨hsame, hsome⟩ := Scalar.keyBefore_ok_iff.mp ⟨before, hbefore⟩
  obtain ⟨kind, hkind⟩ := Option.isSome_iff_exists.mp hsome
  exact ⟨kind, hkind, hsame ▸ hkind⟩

theorem insertEntry_ok {kind : KeyKind} (new : key.keyKind? = some kind)
    (alike : KeysOf kind entries) : ∃ out, insertEntry key value entries = .ok out := by
  induction entries with
  | nil => exact ⟨_, rfl⟩
  | cons e rest ih =>
    obtain ⟨k, v⟩ := e
    obtain ⟨hk, hrest⟩ := List.forall_mem_cons.mp alike
    have hsame : key.keyKind? = Scalar.keyKind? k := new.trans hk.symm
    obtain ⟨before, hbefore⟩ := Scalar.keyBefore_ok_iff.mpr ⟨hsame, new ▸ rfl⟩
    obtain ⟨more, hmore⟩ := ih hrest
    cases before with
    | true => exact ⟨_, Checked.bind_ok.mpr ⟨true, hbefore, rfl⟩⟩
    | false =>
      exact ⟨_, Checked.bind_ok.mpr ⟨false, hbefore, Checked.bind_ok.mpr ⟨more, hmore, rfl⟩⟩⟩

/-- Whether entries can be put in order: a single one, or any number of one kind. -/
def Orderable (entries : List (Scalar × α)) : Prop :=
  entries.length ≤ 1 ∨ ∃ kind, KeysOf kind entries

theorem Orderable.of_perm (h : Orderable entries) (hperm : out.Perm entries) : Orderable out := by
  obtain h | ⟨kind, h⟩ := h
  · exact .inl (hperm.length_eq ▸ h)
  · exact .inr ⟨kind, fun e he => h e (hperm.mem_iff.mp he)⟩

/-- An entry can be inserted exactly if it can be put in order with the others. -/
theorem insertEntry_ok_iff (h : Orderable entries) :
    (∃ out, insertEntry key value entries = .ok out) ↔ Orderable ((key, value) :: entries) := by
  cases entries with
  | nil => exact iff_of_true ⟨_, rfl⟩ (.inl (Nat.le_refl 1))
  | cons e rest =>
    constructor
    · rintro ⟨out, hout⟩
      obtain ⟨kind, hkey, he⟩ := keyKind_of_insertEntry hout
      refine .inr ⟨kind, List.forall_mem_cons.mpr ⟨hkey, ?_⟩⟩
      obtain hsingle | ⟨other, halike⟩ := h
      · have hlength : rest.length = 0 := Nat.le_zero.mp (Nat.le_of_succ_le_succ hsingle)
        obtain rfl : rest = [] := List.length_eq_zero_iff.mp hlength
        exact List.forall_mem_cons.mpr ⟨he, nofun⟩
      · obtain rfl : other = kind :=
          Option.some.inj ((halike e List.mem_cons_self).symm.trans he)
        exact halike
    · rintro (hsingle | ⟨kind, halike⟩)
      · exact absurd (Nat.le_of_succ_le_succ hsingle) (Nat.not_succ_le_zero _)
      · obtain ⟨hkey, hrest⟩ := List.forall_mem_cons.mp halike
        exact insertEntry_ok hkey hrest

theorem Orderable.of_sublist (h : Orderable entries) (hsub : out.Sublist entries) :
    Orderable out := by
  obtain h | ⟨kind, h⟩ := h
  · exact .inl (Nat.le_trans hsub.length_le h)
  · exact .inr ⟨kind, fun e he => h e (hsub.mem he)⟩

/-- Puts entries into their places among others that are in order. -/
def insertEntries (todo done : List (Scalar × α)) : Checked (List (Scalar × α)) :=
  todo.foldlM (fun sorted e => insertEntry e.1 e.2 sorted) done

theorem sortEntries_eq (entries : List (Scalar × α)) :
    sortEntries entries = insertEntries entries [] := rfl

theorem insertEntries_cons (e : Scalar × α) (todo done : List (Scalar × α)) :
    insertEntries (e :: todo) done = insertEntry e.1 e.2 done >>= insertEntries todo := rfl

theorem insertEntries_perm {todo done : List (Scalar × α)} (h : insertEntries todo done = .ok out) :
    out.Perm (todo ++ done) := by
  induction todo generalizing done with
  | nil => exact Except.ok.inj h ▸ .refl _
  | cons e todo ih =>
    obtain ⟨placed, hplaced, h⟩ := Checked.bind_ok.mp h
    exact (ih h).trans (((insertEntry_perm hplaced).append_left todo).trans List.perm_middle)

theorem insertEntries_fails {todo done : List (Scalar × α)} :
    Checked.FailsOnly (insertEntries todo done) Fault.IsMismatch := by
  induction todo generalizing done with
  | nil => exact nofun
  | cons e todo ih => exact insertEntry_fails.bind fun _ _ => ih

theorem insertEntries_ok_iff {todo done : List (Scalar × α)} (h : Orderable done) :
    (∃ out, insertEntries todo done = .ok out) ↔ Orderable (todo ++ done) := by
  induction todo generalizing done with
  | nil => exact iff_of_true ⟨_, rfl⟩ h
  | cons e todo ih =>
    have hplace {placed : List (Scalar × α)} (hplaced : insertEntry e.1 e.2 done = .ok placed) :
        (todo ++ placed).Perm (e :: (todo ++ done)) :=
      ((insertEntry_perm hplaced).append_left todo).trans List.perm_middle
    have hfirst {placed : List (Scalar × α)} (hplaced : insertEntry e.1 e.2 done = .ok placed) :
        Orderable placed :=
      ((insertEntry_ok_iff h).mp ⟨placed, hplaced⟩).of_perm (insertEntry_perm hplaced)
    constructor
    · rintro ⟨out, hout⟩
      obtain ⟨placed, hplaced, hout⟩ := Checked.bind_ok.mp hout
      exact ((ih (hfirst hplaced)).mp ⟨out, hout⟩).of_perm (hplace hplaced).symm
    · intro hall
      have hnext : Orderable (e :: done) :=
        hall.of_sublist ((List.sublist_append_right todo done).cons_cons e)
      obtain ⟨placed, hplaced⟩ := (insertEntry_ok_iff h).mpr hnext
      obtain ⟨out, hout⟩ := (ih (hfirst hplaced)).mpr (hall.of_perm (hplace hplaced))
      exact ⟨out, Checked.bind_ok.mpr ⟨placed, hplaced, hout⟩⟩

/-- Entries can be sorted exactly if they can be put in order. -/
theorem sortEntries_ok_iff : (∃ out, sortEntries entries = .ok out) ↔ Orderable entries := by
  have hnothing : Orderable ([] : List (Scalar × α)) := .inl (Nat.zero_le 1)
  rw [sortEntries_eq, insertEntries_ok_iff hnothing, List.append_nil]

theorem sortEntries_perm (h : sortEntries entries = .ok out) : out.Perm entries := by
  have hperm := insertEntries_perm h
  rwa [List.append_nil] at hperm

/-! ### Values in order -/

theorem orderable_map (g : α → β) :
    Orderable (entries.map (Prod.map id g)) ↔ Orderable entries := by
  unfold Orderable KeysOf
  simp only [List.length_map, List.forall_mem_map]
  exact Iff.rfl

/-- Where an entry belongs does not depend on the values. -/
theorem insertEntry_map (g : α → β) (key : Scalar) (value : α) (entries : List (Scalar × α)) :
    insertEntry key (g value) (entries.map (Prod.map id g)) =
      (insertEntry key value entries).map (List.map (Prod.map id g)) := by
  induction entries with
  | nil => rfl
  | cons e rest ih =>
    obtain ⟨k, v⟩ := e
    show insertEntry key (g value) ((k, g v) :: rest.map (Prod.map id g)) = _
    unfold insertEntry
    cases Scalar.keyBefore key k with
    | error why => rfl
    | ok before =>
      cases before with
      | true => rfl
      | false =>
        show (insertEntry key (g value) (rest.map (Prod.map id g)) >>= fun more =>
          pure ((k, g v) :: more)) = _
        rw [ih]
        cases insertEntry key value rest <;> rfl

theorem sortEntries_map (g : α → β) (entries : List (Scalar × α)) :
    sortEntries (entries.map (Prod.map id g)) =
      (sortEntries entries).map (List.map (Prod.map id g)) := by
  have hfold (done : List (Scalar × α)) :
      insertEntries (entries.map (Prod.map id g)) (done.map (Prod.map id g)) =
        (insertEntries entries done).map (List.map (Prod.map id g)) := by
    induction entries generalizing done with
    | nil => rfl
    | cons e rest ih =>
      rw [List.map_cons, insertEntries_cons, insertEntries_cons]
      show insertEntry e.1 (g e.2) (done.map (Prod.map id g)) >>= _ = _
      rw [insertEntry_map]
      cases insertEntry e.1 e.2 done with
      | error why => rfl
      | ok placed => exact ih placed
  exact hfold []

end Sorting

/-! ### Texts as keys -/

section Texts
variable {α β : Type} {entries out : List (Scalar × α)}

/-- Entries whose keys are texts. -/
def HaveTexts (entries : List (Scalar × α)) : Prop := ∀ e ∈ entries, ∃ s, e.1 = .text s

/-- Whether the key of one entry comes before that of another. -/
def Before (e f : Scalar × α) : Prop := Scalar.keyBefore e.1 f.1 = .ok true

theorem keyBefore_text (s t : String) :
    Scalar.keyBefore (.text s) (.text t) = .ok (decide (s < t)) := rfl

theorem keyBefore_text_iff {s t : String} :
    Scalar.keyBefore (.text s) (.text t) = .ok true ↔ s < t := by
  rw [keyBefore_text, Except.ok.injEq, decide_eq_true_eq]

theorem HaveTexts.keysOf (h : HaveTexts entries) : KeysOf .text entries := by
  intro e he
  obtain ⟨s, hs⟩ := h e he
  rw [hs]
  rfl

/-- An entry under a new text finds its place among others. -/
theorem insertEntry_sorted {k : String} {value : α} (texts : HaveTexts entries)
    (new : ∀ e ∈ entries, e.1 ≠ .text k) (sorted : entries.Pairwise Before)
    (h : insertEntry (.text k) value entries = .ok out) : out.Pairwise Before := by
  induction entries generalizing out with
  | nil => exact Except.ok.inj h ▸ List.pairwise_singleton ..
  | cons e rest ih =>
    obtain ⟨key, v⟩ := e
    obtain ⟨⟨s, hs⟩, htexts⟩ := List.forall_mem_cons.mp texts
    obtain ⟨hnew, hothers⟩ := List.forall_mem_cons.mp new
    obtain ⟨hfirst, hrest⟩ := List.pairwise_cons.mp sorted
    obtain rfl : key = .text s := hs
    obtain ⟨before, hbefore, h⟩ := Checked.bind_ok.mp h
    cases before with
    | true =>
      obtain rfl := Except.ok.inj h
      refine List.pairwise_cons.mpr ⟨fun f hf => ?_, sorted⟩
      rcases List.mem_cons.mp hf with rfl | hf
      · exact hbefore
      · obtain ⟨t, ht⟩ := htexts f hf
        have hst : Scalar.keyBefore (.text s) f.1 = .ok true := hfirst f hf
        show Scalar.keyBefore (.text k) f.1 = .ok true
        rw [ht, keyBefore_text_iff] at hst ⊢
        exact String.lt_trans (keyBefore_text_iff.mp hbefore) hst
    | false =>
      obtain ⟨more, hmore, h⟩ := Checked.bind_ok.mp h
      obtain rfl := Except.ok.inj h
      refine List.pairwise_cons.mpr ⟨fun f hf => ?_, ih htexts hothers hrest hmore⟩
      rcases List.mem_cons.mp ((insertEntry_perm hmore).mem_iff.mp hf) with rfl | hf
      · rw [keyBefore_text, Except.ok.injEq, decide_eq_false_iff_not] at hbefore
        refine keyBefore_text_iff.mpr
          ((Std.lt_trichotomy k s).resolve_left hbefore |>.resolve_left ?_)
        rintro rfl
        exact hnew rfl
      · exact hfirst f hf

/-- Entries under different texts are put in the one order that these have. -/
theorem sortEntries_sorted (texts : HaveTexts entries) (distinct : (entries.map (·.1)).Nodup)
    (h : sortEntries entries = .ok out) : out.Pairwise Before := by
  have hfold (todo done : List (Scalar × α)) (texts : HaveTexts (todo ++ done))
      (distinct : ((todo ++ done).map (·.1)).Nodup) (sorted : done.Pairwise Before)
      (h : insertEntries todo done = .ok out) : out.Pairwise Before := by
    induction todo generalizing done with
    | nil => exact Except.ok.inj h ▸ sorted
    | cons e todo ih =>
      obtain ⟨key, value⟩ := e
      obtain ⟨⟨k, hk⟩, hothers⟩ := List.forall_mem_cons.mp texts
      obtain rfl : key = .text k := hk
      have hnew (f : Scalar × α) (hf : f ∈ done) : f.1 ≠ .text k := fun heq =>
        (List.nodup_cons.mp distinct).1
          (List.mem_map.mpr ⟨f, List.mem_append_right todo hf, heq⟩)
      obtain ⟨placed, hplaced, h⟩ := Checked.bind_ok.mp h
      have hall : (todo ++ placed).Perm ((.text k, value) :: (todo ++ done)) :=
        ((insertEntry_perm hplaced).append_left todo).trans List.perm_middle
      exact ih placed (fun f hf => texts f (hall.mem_iff.mp hf))
        ((hall.map _).nodup_iff.mpr distinct)
        (insertEntry_sorted (fun f hf => hothers f (List.mem_append_right todo hf)) hnew sorted
          hplaced) h
  refine hfold entries [] ?_ ?_ .nil h
  · rwa [List.append_nil]
  · rwa [List.append_nil]

theorem sortEntries_texts (texts : HaveTexts entries) (distinct : (entries.map (·.1)).Nodup) :
    ∃ out, sortEntries entries = .ok out ∧ out.Perm entries ∧ out.Pairwise Before := by
  obtain ⟨out, hout⟩ := sortEntries_ok_iff.mpr (.inr ⟨.text, texts.keysOf⟩)
  exact ⟨out, hout, sortEntries_perm hout, sortEntries_sorted texts distinct hout⟩

/-- Keys that are texts have one order. -/
theorem keys_eq_of_before {xs : List (Scalar × α)} {ys : List (Scalar × β)} (texts : HaveTexts xs)
    (hx : xs.Pairwise Before) (hy : ys.Pairwise Before) (distinct : (xs.map (·.1)).Nodup)
    (distinct' : (ys.map (·.1)).Nodup) (keys : ∀ k, k ∈ xs.map (·.1) ↔ k ∈ ys.map (·.1)) :
    xs.map (·.1) = ys.map (·.1) := by
  have hperm : (xs.map (·.1)).Perm (ys.map (·.1)) :=
    (List.perm_ext_iff_of_nodup distinct distinct').mpr keys
  have hordered {γ : Type} {zs : List (Scalar × γ)} (hz : zs.Pairwise Before) :
      (zs.map (·.1)).Pairwise fun a b => Scalar.keyBefore a b = .ok true := List.pairwise_map.mpr hz
  refine hperm.eq_of_pairwise (fun a b ha hb hab hba => ?_) (hordered hx) (hordered hy)
  have htext {k : Scalar} (hk : k ∈ xs.map (·.1)) : ∃ s, k = .text s := by
    obtain ⟨e, he, rfl⟩ := List.mem_map.mp hk
    exact texts e he
  obtain ⟨s, rfl⟩ := htext ha
  obtain ⟨t, rfl⟩ := htext ((keys b).mpr hb)
  rw [keyBefore_text_iff] at hab hba
  exact absurd (String.lt_trans hab hba) (String.lt_irrefl s)

end Texts

/-! ### Values as texts, item by item -/

namespace Value

theorem jsonItems_eq (style : JsonStyle) (items : List Value) :
    jsonItems style items = items.mapM (json style) := by
  induction items with
  | nil => rfl
  | cons v items ih =>
    rw [List.mapM_cons, ← ih]
    rfl

theorem jsonEntries_eq (style : JsonStyle) (entries : List (Scalar × Value)) :
    jsonEntries style entries = entries.map (Prod.map id (json style)) := by
  induction entries with
  | nil => rfl
  | cons e entries ih => exact congrArg (_ :: ·) ih

/-- The text of an entry whose value may have none. -/
def entryTexts (e : Scalar × Checked String) : Checked (String × String) := do
  return (← e.1.jsonKey, ← e.2)

/-- The text of a mapping in the canonical style. -/
theorem json_map_eq (entries : List (Scalar × Value)) :
    (map entries).json .canonical =
      (sortEntries (entries.map (Prod.map id (json .canonical))) >>= fun sorted =>
        sorted.mapM entryTexts >>= fun texts => pure (braced texts)) := by
  rw [json, jsonEntries_eq]
  rfl

theorem json_list_eq (items : List Value) :
    (list items).json .canonical = (items.mapM (json .canonical)).map fun texts =>
      "[" ++ ", ".intercalate texts ++ "]" := by
  rw [json, jsonItems_eq]

end Value
end TipJar
