import TipJar.Config.Parser
import TipJar.Proofs.Keys
import TipJar.Yaml.Reader

/-! What a configuration text can hold.

A text holds nothing, truth values, numbers, texts and dates, and lists and mappings of
these; the keys of its mappings have no parts. Whatever its reader gives is such a
value. It has a text that stands for it exactly if the keys of every mapping are all
texts, all numbers, or nothing alone, and otherwise the kinds of its keys do not match. -/
namespace TipJar

/-- The scalars that a configuration text can hold. -/
def Scalar.IsYaml : Scalar → Prop
  | null | bool _ | int _ | float _ | text _ | moment _ | date _ => True
  | _ => False

/-- The values that a configuration text can hold. -/
inductive Value.IsYaml : Value → Prop
  | scalar {s : Scalar} (simple : s.IsYaml) : IsYaml (.scalar s)
  | list {items : List Value} (each : ∀ v ∈ items, IsYaml v) : IsYaml (.list items)
  | map {entries : List (Scalar × Value)} (keys : ∀ e ∈ entries, e.1.IsYaml)
      (each : ∀ e ∈ entries, IsYaml e.2) : IsYaml (.map entries)

theorem Value.isYaml_record {fields : List (String × Value)} (each : ∀ f ∈ fields, f.2.IsYaml) :
    (record fields).IsYaml := by
  refine .map (fun e he => ?_) fun e he => ?_
  · obtain ⟨f, -, rfl⟩ := List.mem_map.mp he
    exact trivial
  · obtain ⟨f, hf, rfl⟩ := List.mem_map.mp he
    exact each f hf

/-! ### What the reader gives -/

namespace Yaml

/-- Entries that a mapping of a configuration text can have. -/
def AreYaml (entries : List (Scalar × Value)) : Prop := ∀ e ∈ entries, e.1.IsYaml ∧ e.2.IsYaml

theorem AreYaml.append {xs ys : List (Scalar × Value)} (hx : AreYaml xs) (hy : AreYaml ys) :
    AreYaml (xs ++ ys) := by
  intro e he
  obtain he | he := List.mem_append.mp he
  · exact hx e he
  · exact hy e he

theorem stampScalar_isYaml {stamp : Stamp} {s : Scalar} (h : stamp.scalar = .ok s) : s.IsYaml := by
  unfold Stamp.scalar at h
  split at h
  · obtain ⟨_, -, h⟩ := Checked.bind_ok.mp h
    exact Except.ok.inj h ▸ trivial
  · obtain ⟨offset, -, h⟩ := Checked.bind_ok.mp h
    obtain ⟨d, -, h⟩ := Checked.bind_ok.mp h
    dsimp only at h
    split at h
    · cases h
    split at h
    · cases h
    split at h
    · cases h
    obtain ⟨m, -, h⟩ := Checked.bind_ok.mp h
    exact Except.ok.inj h ▸ trivial

theorem kindScalar_isYaml {k : Kind} {text : String} {s : Scalar} (h : k.scalar text = .ok s) :
    s.IsYaml := by
  unfold Kind.scalar at h
  split at h
  · exact Except.ok.inj h ▸ trivial
  · dsimp only at h
    split at h
    · exact Except.ok.inj h ▸ trivial
    split at h
    · exact Except.ok.inj h ▸ trivial
    · cases h
  · obtain ⟨_, -, h⟩ := Checked.map_ok.mp h
    exact h ▸ trivial
  · obtain ⟨_, -, h⟩ := Checked.map_ok.mp h
    exact h ▸ trivial
  · split at h
    · exact stampScalar_isYaml h
    · cases h
  · exact Except.ok.inj h ▸ trivial
  all_goals cases h

theorem keyScalar_isYaml {n : Node} {s : Scalar} (h : n.keyScalar = .ok s) : s.IsYaml := by
  unfold Node.keyScalar at h
  split at h
  · split at h
    · exact Except.ok.inj h ▸ trivial
    · exact kindScalar_isYaml h
  · cases h

theorem setEntry_isYaml {entries : List (Scalar × Value)} {key : Scalar} {v : Value}
    (h : AreYaml entries) (hk : key.IsYaml) (hv : v.IsYaml) : AreYaml (setEntry entries key v) := by
  unfold setEntry
  split
  · intro e he
    obtain ⟨f, hf, rfl⟩ := List.mem_map.mp he
    dsimp only
    split
    · exact ⟨(h f hf).1, hv⟩
    · exact h f hf
  · refine h.append fun e he => ?_
    obtain rfl := List.mem_singleton.mp he
    exact ⟨hk, hv⟩

theorem mapOf_isYaml {entries : List (Scalar × Value)} (h : AreYaml entries) :
    (mapOf entries).IsYaml := by
  have hfold (todo done : List (Scalar × Value)) (htodo : AreYaml todo) (hdone : AreYaml done) :
      AreYaml (todo.foldl (fun done e => setEntry done e.1 e.2) done) := by
    induction todo generalizing done with
    | nil => exact hdone
    | cons e todo ih =>
      obtain ⟨he, htodo⟩ := List.forall_mem_cons.mp htodo
      exact ih _ htodo (setEntry_isYaml hdone he.1 he.2)
  have hall := hfold entries [] h nofun
  exact .map (fun e he => (hall e he).1) fun e he => (hall e he).2

mutual

theorem value_isYaml : ∀ {n : Node} {v : Value}, n.value = .ok v → v.IsYaml
  | .scalar .., v, h => by
    obtain ⟨s, hs, rfl⟩ := Checked.map_ok.mp h
    exact .scalar (kindScalar_isYaml hs)
  | .sequence tag items, v, h => by
    unfold Node.value at h
    split at h
    · obtain ⟨vs, hvs, rfl⟩ := Checked.map_ok.mp h
      exact .list (itemValues_isYaml hvs)
    · cases h
  | .mapping tag entries, v, h => by
    unfold Node.value at h
    split at h
    · obtain ⟨⟨taken, own⟩, hentries, rfl⟩ := Checked.map_ok.mp h
      obtain ⟨htaken, hown⟩ := entryValues_isYaml hentries
      exact mapOf_isYaml (htaken.append hown)
    · cases h

theorem itemValues_isYaml : ∀ {items : List Node} {vs : List Value},
    itemValues items = .ok vs → ∀ v ∈ vs, v.IsYaml
  | [], vs, h => Except.ok.inj h ▸ nofun
  | n :: rest, vs, h => by
    obtain ⟨v, hv, h⟩ := Checked.bind_ok.mp h
    obtain ⟨more, hmore, h⟩ := Checked.bind_ok.mp h
    obtain rfl := Except.ok.inj h
    exact List.forall_mem_cons.mpr ⟨value_isYaml hv, itemValues_isYaml hmore⟩

theorem entryValues_isYaml : ∀ {entries : List (Node × Node)}
    {taken own : List (Scalar × Value)}, entryValues entries = .ok (taken, own) →
      AreYaml taken ∧ AreYaml own
  | [], taken, own, h => by
    obtain ⟨rfl, rfl⟩ := Prod.mk.inj (Except.ok.inj h)
    exact ⟨nofun, nofun⟩
  | (k, n) :: rest, taken, own, h => by
    unfold entryValues at h
    split at h
    · obtain ⟨more, hmore, h⟩ := Checked.bind_ok.mp h
      obtain ⟨⟨others, own'⟩, hothers, h⟩ := Checked.bind_ok.mp h
      obtain ⟨rfl, rfl⟩ := Prod.mk.inj (Except.ok.inj h)
      obtain ⟨hall, hown⟩ := entryValues_isYaml hothers
      exact ⟨(takenOver_isYaml hmore).append hall, hown⟩
    · obtain ⟨key, hkey, h⟩ := Checked.bind_ok.mp h
      obtain ⟨v, hv, h⟩ := Checked.bind_ok.mp h
      obtain ⟨⟨others, own'⟩, hothers, h⟩ := Checked.bind_ok.mp h
      obtain ⟨rfl, rfl⟩ := Prod.mk.inj (Except.ok.inj h)
      obtain ⟨hall, hown⟩ := entryValues_isYaml hothers
      exact ⟨hall, List.forall_mem_cons.mpr ⟨⟨keyScalar_isYaml hkey, value_isYaml hv⟩, hown⟩⟩

theorem takenOver_isYaml : ∀ {n : Node} {entries : List (Scalar × Value)},
    n.takenOver = .ok entries → AreYaml entries
  | .scalar .., _, h => nomatch h
  | .mapping _ nodes, entries, h => by
    obtain ⟨⟨taken, own⟩, hnodes, rfl⟩ := Checked.map_ok.mp h
    obtain ⟨htaken, hown⟩ := entryValues_isYaml hnodes
    exact htaken.append hown
  | .sequence _ items, _, h => itemsTakenOver_isYaml h

theorem itemsTakenOver_isYaml : ∀ {items : List Node} {entries : List (Scalar × Value)},
    itemsTakenOver items = .ok entries → AreYaml entries
  | [], _, h => Except.ok.inj h ▸ nofun
  | .mapping _ nodes :: rest, _, h => by
    obtain ⟨⟨taken, own⟩, hnodes, h⟩ := Checked.bind_ok.mp h
    obtain ⟨others, hothers, h⟩ := Checked.bind_ok.mp h
    obtain rfl := Except.ok.inj h
    obtain ⟨htaken, hown⟩ := entryValues_isYaml hnodes
    exact ((itemsTakenOver_isYaml hothers).append htaken).append hown
  | .scalar .. :: _, _, h => nomatch h
  | .sequence .. :: _, _, h => nomatch h

end

/-- Whatever a text is read as, it can hold. -/
theorem read_isYaml {text : String} {v : Value} (h : read text = .ok v) : v.IsYaml := by
  unfold read at h
  split at h
  · cases h
  · obtain ⟨n, -, h⟩ := Checked.bind_ok.mp h
    cases n with
    | some n => exact value_isYaml h
    | none => exact Except.ok.inj h ▸ .scalar trivial

end Yaml

/-! ### Texts that stand for values -/

/-- The scalars that count as numbers. -/
def Scalar.IsNumber : Scalar → Prop
  | bool _ | int _ | float _ => True
  | _ => False

/-- Whether keys can stand in one mapping: texts, or numbers, or nothing alone. -/
def KeysFit (keys : List Scalar) : Prop :=
  (∀ k ∈ keys, ∃ s, k = .text s) ∨ (∀ k ∈ keys, k.IsNumber) ∨ keys = [.null]

/-- Whether the keys of all mappings in a value can stand together. -/
inductive Value.Writable : Value → Prop
  | scalar (s : Scalar) : Writable (.scalar s)
  | list {items : List Value} (each : ∀ v ∈ items, Writable v) : Writable (.list items)
  | map {entries : List (Scalar × Value)} (keys : KeysFit (entries.map (·.1)))
      (each : ∀ e ∈ entries, Writable e.2) : Writable (.map entries)

section Keys
variable {α : Type} {key : Scalar} {entries : List (Scalar × α)}

theorem jsonKey_ok_iff (h : key.IsYaml) :
    (∃ t, key.jsonKey = .ok t) ↔ (∃ s, key = .text s) ∨ key.IsNumber ∨ key = .null := by
  cases key with
  | null => exact iff_of_true ⟨_, rfl⟩ (.inr (.inr rfl))
  | bool | int | float => exact iff_of_true ⟨_, rfl⟩ (.inr (.inl trivial))
  | text s => exact iff_of_true ⟨_, rfl⟩ (.inl ⟨s, rfl⟩)
  | moment | date => exact iff_of_false nofun nofun
  | _ => cases h

theorem jsonKey_fails : Checked.FailsOnly key.jsonKey Fault.IsMismatch := by
  cases key <;> first | exact Checked.failsOnly_ok _ | exact Checked.failsOnly_error ⟨_, rfl⟩

/-- Keys can stand together exactly if they can be put in order and each of them can be a key. -/
theorem keysFit_iff (yaml : ∀ e ∈ entries, e.1.IsYaml) :
    KeysFit (entries.map (·.1)) ↔
      Orderable entries ∧ ∀ e ∈ entries, ∃ t, e.1.jsonKey = .ok t := by
  unfold KeysFit
  simp only [List.forall_mem_map]
  constructor
  · rintro (htexts | hnumbers | hnull)
    · exact ⟨.inr ⟨.text, HaveTexts.keysOf htexts⟩,
        fun e he => (jsonKey_ok_iff (yaml e he)).mpr (.inl (htexts e he))⟩
    · refine ⟨.inr ⟨.number, fun e he => ?_⟩,
        fun e he => (jsonKey_ok_iff (yaml e he)).mpr (.inr (.inl (hnumbers e he)))⟩
      have hnumber := hnumbers e he
      generalize e.1 = k at hnumber
      cases k <;> first | rfl | cases hnumber
    · obtain ⟨e, rfl, he⟩ := List.map_eq_singleton_iff.mp hnull
      refine ⟨.inl (Nat.le_refl 1), List.forall_mem_cons.mpr ⟨?_, nofun⟩⟩
      rw [he]
      exact ⟨_, rfl⟩
  · rintro ⟨hsingle | ⟨kind, halike⟩, hkeys⟩
    · match entries, hsingle with
      | [], _ => exact .inl nofun
      | [e], _ =>
        obtain ⟨he, -⟩ := List.forall_mem_cons.mp hkeys
        rcases (jsonKey_ok_iff (yaml e List.mem_cons_self)).mp he with htext | hnumber | hnull
        · exact .inl (List.forall_mem_cons.mpr ⟨htext, nofun⟩)
        · exact .inr (.inl (List.forall_mem_cons.mpr ⟨hnumber, nofun⟩))
        · exact .inr (.inr (congrArg (fun k => [k]) hnull))
    · have hkind {k : Scalar} (hk : k.IsNumber) : k.keyKind? = some .number := by
        cases k <;> first | rfl | cases hk
      have heach {e : Scalar × α} (he : e ∈ entries) : kind = .text ∧ (∃ s, e.1 = .text s) ∨
          kind = .number ∧ e.1.IsNumber := by
        have halike := halike e he
        rcases (jsonKey_ok_iff (yaml e he)).mp (hkeys e he) with ⟨s, htext⟩ | hnumber | hnull
        · rw [htext] at halike
          exact .inl ⟨(Option.some.inj halike).symm, s, htext⟩
        · exact .inr ⟨Option.some.inj (halike.symm.trans (hkind hnumber)), hnumber⟩
        · rw [hnull] at halike
          cases halike
      by_cases hnumber : kind = .number
      · subst hnumber
        exact .inr (.inl fun e he => ((heach he).resolve_left nofun).2)
      · exact .inl fun e he => ((heach he).resolve_right fun h => hnumber h.1).2

end Keys

namespace Value
variable {v : Value}

theorem entryTexts_ok_iff {e : Scalar × Checked String} :
    (∃ t, entryTexts e = .ok t) ↔ (∃ t, e.1.jsonKey = .ok t) ∧ ∃ t, e.2 = .ok t := by
  unfold entryTexts
  simp only [Checked.bind_ok]
  constructor
  · rintro ⟨_, key, hkey, value, hvalue, -⟩
    exact ⟨⟨key, hkey⟩, value, hvalue⟩
  · rintro ⟨⟨key, hkey⟩, value, hvalue⟩
    exact ⟨_, key, hkey, value, hvalue, rfl⟩

/-- A value of a configuration text has a text that stands for it exactly if its keys can stand
together. -/
theorem IsYaml.json_ok_iff (h : v.IsYaml) : (∃ t, v.json .canonical = .ok t) ↔ v.Writable := by
  induction h with
  | @scalar s simple =>
    refine iff_of_true ?_ (.scalar s)
    cases s <;> first | exact ⟨_, rfl⟩ | cases simple
  | @list items each ih =>
    rw [json_list_eq]
    simp only [Checked.map_ok]
    constructor
    · rintro ⟨_, texts, htexts, -⟩
      have heach := Checked.mapM_ok_iff.mp ⟨texts, htexts⟩
      exact .list fun v hv => (ih v hv).mp (heach v hv)
    · rintro ⟨⟩
      next heach =>
      obtain ⟨texts, htexts⟩ := Checked.mapM_ok_iff.mpr fun v hv => (ih v hv).mpr (heach v hv)
      exact ⟨_, texts, htexts, rfl⟩
  | @map entries keys each ih =>
    have heach {sorted : List (Scalar × Checked String)}
        (hsorted : sortEntries (entries.map (Prod.map id (json .canonical))) = .ok sorted) :
        (∃ texts, sorted.mapM entryTexts = .ok texts) ↔
          ∀ e ∈ entries, (∃ t, e.1.jsonKey = .ok t) ∧ e.2.Writable := by
      have hmem {e : Scalar × Checked String} := (sortEntries_perm hsorted).mem_iff (a := e)
      simp only [Checked.mapM_ok_iff, entryTexts_ok_iff, hmem, List.forall_mem_map]
      exact forall₂_congr fun e he => and_congr Iff.rfl (ih e he)
    rw [json_map_eq]
    simp only [Checked.bind_ok]
    constructor
    · rintro ⟨_, sorted, hsorted, texts, htexts, -⟩
      have hall := (heach hsorted).mp ⟨texts, htexts⟩
      have horder := (orderable_map _).mp (sortEntries_ok_iff.mp ⟨sorted, hsorted⟩)
      exact .map ((keysFit_iff keys).mpr ⟨horder, fun e he => (hall e he).1⟩)
        fun e he => (hall e he).2
    · rintro ⟨⟩
      next hfit hwritable =>
      obtain ⟨horder, hjson⟩ := (keysFit_iff keys).mp hfit
      obtain ⟨sorted, hsorted⟩ := sortEntries_ok_iff.mpr ((orderable_map _).mpr horder)
      obtain ⟨texts, htexts⟩ := (heach hsorted).mpr fun e he => ⟨hjson e he, hwritable e he⟩
      exact ⟨_, sorted, hsorted, texts, htexts, rfl⟩

/-- Otherwise the kinds of its keys do not match. -/
theorem IsYaml.json_fails (h : v.IsYaml) :
    Checked.FailsOnly (v.json .canonical) Fault.IsMismatch := by
  induction h with
  | @scalar s simple =>
    cases s <;> first | exact Checked.failsOnly_ok _ | cases simple
  | @list items each ih =>
    rw [json_list_eq]
    exact (Checked.failsOnly_mapM ih).map
  | @map entries keys each ih =>
    rw [json_map_eq]
    refine insertEntries_fails.bind fun sorted hsorted => ?_
    refine (Checked.failsOnly_mapM fun e he => ?_).bind fun _ _ => Checked.failsOnly_ok _
    obtain ⟨f, hf, rfl⟩ := List.mem_map.mp ((sortEntries_perm hsorted).mem_iff.mp he)
    exact jsonKey_fails.bind fun _ _ => (ih f hf).bind fun _ _ => Checked.failsOnly_ok _

end Value
end TipJar
