import Mathlib.Data.List.Forall2
import TipJar.Proofs.Delimiting
import TipJar.Proofs.Keys
import TipJar.Proofs.Readings

/-! The checksum of a configuration.

The checksum is the digest of a text that stands for the configuration. For the values
that JSON has a form for, that text is there, and two of them have the same text exactly
if they are the same value, whatever the order in which mappings were written: a text
says itself where it ends, so it can have come about in one way only, and its keys
stand in one order only. Equal checksums of different configurations would therefore be
a collision of the digest. -/
namespace TipJar
open Text

namespace Value

/-! ### Values that JSON has a form for -/

/-- Nothing, truth values, whole numbers and texts, and what can be built of them with lists and
with mappings under different texts. -/
inductive IsJson : Value → Prop
  | null : IsJson (.scalar .null)
  | bool (b : Bool) : IsJson (.scalar (.bool b))
  | int (i : Int) : IsJson (.scalar (.int i))
  | text (s : String) : IsJson (.scalar (.text s))
  | list {items : List Value} (each : ∀ v ∈ items, IsJson v) : IsJson (.list items)
  | map {entries : List (Scalar × Value)} (texts : ∀ e ∈ entries, ∃ k, e.1 = .text k)
      (distinct : (entries.map (·.1)).Nodup) (each : ∀ e ∈ entries, IsJson e.2) :
      IsJson (.map entries)

/-- The same value up to the order of keys, at every level: the same scalar, the same values in a
row, or the same keys with the same value under each of them. -/
inductive SameJson : Value → Value → Prop
  | scalar (s : Scalar) : SameJson (.scalar s) (.scalar s)
  | list {xs ys : List Value} (length : xs.length = ys.length)
      (each : ∀ i (hx : i < xs.length) (hy : i < ys.length), SameJson xs[i] ys[i]) :
      SameJson (.list xs) (.list ys)
  | map {xs ys : List (Scalar × Value)} (keys : ∀ k, k ∈ xs.map (·.1) ↔ k ∈ ys.map (·.1))
      (each : ∀ k v w, (k, v) ∈ xs → (k, w) ∈ ys → SameJson v w) : SameJson (.map xs) (.map ys)

theorem isJson_record {fields : List (String × Value)} (distinct : (fields.map (·.1)).Nodup)
    (each : ∀ f ∈ fields, f.2.IsJson) : (record fields).IsJson := by
  refine .map (fun e he => ?_) ?_ fun e he => ?_
  · obtain ⟨f, -, rfl⟩ := List.mem_map.mp he
    exact ⟨f.1, rfl⟩
  · rw [List.map_map]
    have hkeys := distinct.map fun _ _ h => Scalar.text.inj h
    rwa [List.map_map] at hkeys
  · obtain ⟨f, hf, rfl⟩ := List.mem_map.mp he
    exact each f hf

theorem eq_of_mem_of_distinct {entries : List (Scalar × Value)} {k : Scalar} {v w : Value}
    (distinct : (entries.map (·.1)).Nodup) (hv : (k, v) ∈ entries) (hw : (k, w) ∈ entries) :
    v = w :=
  (Prod.mk.inj (List.inj_on_of_nodup_map distinct hv hw rfl)).2

/-- Every value is the same as itself. -/
theorem IsJson.same_self {v : Value} (h : v.IsJson) : v.SameJson v := by
  induction h with
  | null | bool | int | text => exact .scalar _
  | list _ ih => exact .list rfl fun i hx _ => ih _ (List.getElem_mem hx)
  | map _ distinct _ ih =>
    refine .map (fun _ => Iff.rfl) fun k v w hv hw => ?_
    obtain rfl := eq_of_mem_of_distinct distinct hv hw
    exact ih _ hv

/-- To write a mapping in another order is to write the same value. -/
theorem IsJson.same_of_perm {xs ys : List (Scalar × Value)} (h : (Value.map xs).IsJson)
    (order : xs.Perm ys) : (Value.map xs).SameJson (.map ys) := by
  cases h with
  | map _ distinct each =>
    refine .map (fun k => (order.map _).mem_iff) fun k v w hv hw => ?_
    obtain rfl := eq_of_mem_of_distinct distinct hv (order.mem_iff.mpr hw)
    exact (each _ hv).same_self

end Value

/-! ### The text of a value -/

namespace Value
variable {v w : Value}

/-- The text that stands for a value, as far as there is one. -/
def canonical (v : Value) : String := (v.json .canonical).toOption.getD ""

theorem canonical_eq {t : String} (h : v.json .canonical = .ok t) : v.canonical = t := by
  unfold canonical
  rw [h]
  rfl

/-- What stands for an entry under a text. -/
def entryText (e : Scalar × Value) : String :=
  escaped ((scalar e.1).text?.getD "") ++ ": " ++ e.2.canonical

theorem toList_entryText (k : String) (v : Value) :
    (entryText (.text k, v)).toList =
      (escaped k).toList ++ ':' :: ' ' :: v.canonical.toList := by
  unfold entryText
  rw [String.toList_append, String.toList_append, List.append_assoc]
  rfl

theorem json_list {items : List Value}
    (each : ∀ v ∈ items, v.json .canonical = .ok v.canonical) :
    (list items).json .canonical =
      .ok ("[" ++ ", ".intercalate (items.map canonical) ++ "]") := by
  rw [json_list_eq, Checked.mapM_eq_ok each]
  rfl

theorem json_map {entries out : List (Scalar × Value)} (sorted : sortEntries entries = .ok out)
    (texts : HaveTexts out) (each : ∀ e ∈ out, e.2.json .canonical = .ok e.2.canonical) :
    (map entries).json .canonical =
      .ok ("\x7b" ++ ", ".intercalate (out.map entryText) ++ "\x7d") := by
  have hparts : (out.map (Prod.map id (json .canonical))).mapM entryTexts =
      .ok (out.map fun e => (escaped ((scalar e.1).text?.getD ""), e.2.canonical)) := by
    rw [List.mapM_map]
    refine Checked.mapM_eq_ok fun e he => ?_
    obtain ⟨s, hs⟩ := texts e he
    show entryTexts (e.1, e.2.json .canonical) = _
    rw [each e he, hs]
    rfl
  rw [json_map_eq, sortEntries_map, sorted]
  show ((out.map (Prod.map id (json .canonical))).mapM entryTexts >>= _) = _
  rw [hparts]
  show Except.ok (braced _) = _
  unfold braced
  rw [List.map_map]
  rfl

/-- Every value that JSON has a form for has a text. -/
theorem IsJson.json_eq (h : v.IsJson) : v.json .canonical = .ok v.canonical := by
  induction h with
  | null | bool | int | text => rfl
  | list _ ih => rw [canonical_eq (json_list ih), json_list ih]
  | map texts distinct _ ih =>
    obtain ⟨out, hout, hperm, -⟩ := sortEntries_texts texts distinct
    have htext := json_map hout (fun e he => texts e (hperm.mem_iff.mp he))
      fun e he => ih e (hperm.mem_iff.mp he)
    rw [canonical_eq htext, htext]

theorem toList_canonical_list {items : List Value} (h : (list items).IsJson) :
    (list items).canonical.toList = '[' :: sequence ']' (items.map (·.canonical.toList)) := by
  cases h with
  | list each =>
    rw [canonical_eq (json_list fun v hv => (each v hv).json_eq), String.toList_append,
      String.toList_append, String.toList_intercalate, List.map_map]
    rfl

theorem toList_canonical_map {entries : List (Scalar × Value)} (h : (map entries).IsJson) :
    ∃ out : List (Scalar × Value), out.Perm entries ∧ out.Pairwise Before ∧
      (map entries).canonical.toList =
        '\x7b' :: sequence '\x7d' (out.map fun e => (entryText e).toList) := by
  cases h with
  | map texts distinct each =>
    obtain ⟨out, hout, hperm, hsorted⟩ := sortEntries_texts texts distinct
    have htext := json_map hout (fun e he => texts e (hperm.mem_iff.mp he))
      fun e he => (each e (hperm.mem_iff.mp he)).json_eq
    refine ⟨out, hperm, hsorted, ?_⟩
    rw [canonical_eq htext, String.toList_append, String.toList_append,
      String.toList_intercalate, List.map_map]
    rfl

/-! ### One value for a text -/

/-- The kind of value that a text begins with. -/
def markOf (c : Char) : Char :=
  if c = '-' ∨ c.isDigit then '0' else if c = 'f' then 't' else c

/-- What marks the kinds that JSON has a form for. -/
def mark : Value → Char
  | scalar .null => 'n'
  | scalar (.bool _) => 't'
  | scalar (.int _) => '0'
  | scalar _ => '"'
  | list _ => '['
  | tuple _ => '('
  | map _ => '\x7b'

/-- The first character of a text tells the kind of its value. -/
theorem IsJson.mark_eq (h : v.IsJson) :
    ∃ c cs, v.canonical.toList = c :: cs ∧ markOf c = v.mark := by
  cases h with
  | null => exact ⟨'n', ['u', 'l', 'l'], by decide, by decide⟩
  | bool b =>
    cases b with
    | true => exact ⟨'t', ['r', 'u', 'e'], by decide, by decide⟩
    | false => exact ⟨'f', ['a', 'l', 's', 'e'], by decide, by decide⟩
  | int i =>
    show ∃ c cs, (integerText i).toList = c :: cs ∧ markOf c = '0'
    rw [toList_integerText]
    split
    · exact ⟨'-', _, rfl, by decide⟩
    · obtain ⟨d, ds, hd⟩ :=
        List.exists_cons_of_ne_nil (l := digitsOf i.natAbs) Nat.toDigits_ne_nil
      have hdigit : d.isDigit = true := isDigit_digitsOf (n := i.natAbs) (hd ▸ List.mem_cons_self)
      exact ⟨d, ds, hd, if_pos (.inr hdigit)⟩
  | text s => exact ⟨_, _, toList_escaped s, rfl⟩
  | list each => exact ⟨_, _, toList_canonical_list (.list each), rfl⟩
  | map texts distinct each =>
    obtain ⟨_, _, _, h⟩ := toList_canonical_map (.map texts distinct each)
    exact ⟨_, _, h, rfl⟩

/-- No value begins as a list ends. -/
theorem IsJson.append_ne (h : v.IsJson) (rest rest' : List Char) :
    v.canonical.toList ++ rest ≠ ']' :: rest' := by
  obtain ⟨c, cs, hc, hmark⟩ := h.mark_eq
  intro heq
  rw [hc] at heq
  obtain ⟨rfl, -⟩ := List.cons.inj heq
  cases h <;> simp [mark, markOf] at hmark

theorem mark_eq_of_append (hv : v.IsJson) (hw : w.IsJson) {rest rest' : List Char}
    (h : v.canonical.toList ++ rest = w.canonical.toList ++ rest') : v.mark = w.mark := by
  obtain ⟨c, cs, hc, hmark⟩ := hv.mark_eq
  obtain ⟨d, ds, hd, hmark'⟩ := hw.mark_eq
  rw [hc, hd] at h
  rw [← hmark, ← hmark', (List.cons.inj h).1]

/-- An entry says where it ends if its value does. -/
theorem entry_cancel {Same : Value → Value → Prop} {e f : Scalar × Value} (he : ∃ k, e.1 = .text k)
    (hf : ∃ k, f.1 = .text k) {rest rest' : List Char}
    (values : ∀ r r', e.2.canonical.toList ++ r = f.2.canonical.toList ++ r' →
      r = rest → r' = rest' → Same e.2 f.2 ∧ r = r')
    (h : (entryText e).toList ++ rest = (entryText f).toList ++ rest') :
    (e.1 = f.1 ∧ Same e.2 f.2) ∧ rest = rest' := by
  obtain ⟨⟨_, x⟩, k, rfl⟩ := e, he
  obtain ⟨⟨_, y⟩, l, rfl⟩ := f, hf
  rw [toList_entryText, toList_entryText, List.append_assoc, List.append_assoc] at h
  obtain ⟨rfl, hvalues⟩ := escaped_cancel h
  obtain ⟨hsame, hrest⟩ := values _ _ (List.cons.inj (List.cons.inj hvalues).2).2 rfl rfl
  exact ⟨⟨rfl, hsame⟩, hrest⟩

theorem SameJson.of_ordered {xs ys out out' : List (Scalar × Value)} (order : out.Perm xs)
    (order' : out'.Perm ys) (distinct : (ys.map (·.1)).Nodup)
    (same : List.Forall₂ (fun e f => e.1 = f.1 ∧ SameJson e.2 f.2) out out') :
    SameJson (.map xs) (.map ys) := by
  obtain ⟨hlength, hget⟩ := List.forall₂_iff_get.mp same
  have hkeys : out.map (·.1) = out'.map (·.1) := by
    refine List.ext_getElem (by simpa using hlength) fun i hi hi' => ?_
    rw [List.getElem_map, List.getElem_map]
    exact (hget i (by simpa using hi) (by simpa using hi')).1
  refine .map (fun k => ?_) fun k v w hv hw => ?_
  · rw [← (order.map _).mem_iff, ← (order'.map _).mem_iff, hkeys]
  · obtain ⟨i, hi, hentry⟩ := List.getElem_of_mem (order.mem_iff.mpr hv)
    obtain ⟨hkey, hvalue⟩ := hget i hi (hlength ▸ hi)
    rw [List.get_eq_getElem, hentry] at hkey hvalue
    have hother : (k, (out'.get ⟨i, hlength ▸ hi⟩).2) ∈ ys := by
      rw [show k = _ from hkey]
      exact order'.mem_iff.mp (List.get_mem ..)
    rw [eq_of_mem_of_distinct distinct hw hother]
    exact hvalue

/-- A text of a value says where it ends, and is the text of one value only. -/
theorem IsJson.same_of_append (hv : v.IsJson) (hw : w.IsJson) {rest rest' : List Char}
    (ends : Ends rest) (ends' : Ends rest')
    (h : v.canonical.toList ++ rest = w.canonical.toList ++ rest') :
    v.SameJson w ∧ rest = rest' := by
  have hmark := mark_eq_of_append hv hw h
  induction hv generalizing w rest rest' with
  | null =>
    cases hw with
    | null => exact ⟨.scalar _, List.append_cancel_left h⟩
    | _ => simp [mark] at hmark
  | bool b =>
    cases hw with
    | bool b' =>
      cases b <;> cases b'
      · exact ⟨.scalar _, List.append_cancel_left h⟩
      · exact absurd (List.cons.inj h).1 (by decide)
      · exact absurd (List.cons.inj h).1 (by decide)
      · exact ⟨.scalar _, List.append_cancel_left h⟩
    | _ => simp [mark] at hmark
  | int i =>
    cases hw with
    | int j =>
      obtain ⟨rfl, hrest⟩ := integerText_cancel ends ends' h
      exact ⟨.scalar _, hrest⟩
    | _ => simp [mark] at hmark
  | text s =>
    cases hw with
    | text t =>
      obtain ⟨rfl, hrest⟩ := escaped_cancel h
      exact ⟨.scalar _, hrest⟩
    | _ => simp [mark] at hmark
  | @list items each ih =>
    cases hw with
    | @list others each' =>
      rw [toList_canonical_list (.list each), toList_canonical_list (.list each')] at h
      obtain ⟨hsame, hrest⟩ := sequence_cancel (by decide) (by decide)
        (fun x hx y hy r r' hr hr' hxy => ih x hx (each' y hy) hr hr' hxy
          (mark_eq_of_append (each x hx) (each' y hy) hxy))
        (fun x hx => (each x hx).append_ne) (fun y hy => (each' y hy).append_ne)
        (List.cons.inj h).2
      refine ⟨.list hsame.length_eq fun i hx hy => ?_, hrest⟩
      exact (List.forall₂_iff_get.mp hsame).2 i hx hy
    | _ => simp [mark] at hmark
  | @map entries texts distinct each ih =>
    cases hw with
    | @map others texts' distinct' each' =>
      obtain ⟨out, hperm, -, hout⟩ := toList_canonical_map (.map texts distinct each)
      obtain ⟨out', hperm', -, hout'⟩ := toList_canonical_map (.map texts' distinct' each')
      rw [hout, hout'] at h
      have hkeys {e : Scalar × Value} (he : e ∈ out) := texts e (hperm.mem_iff.mp he)
      have hkeys' {e : Scalar × Value} (he : e ∈ out') := texts' e (hperm'.mem_iff.mp he)
      have hopen {e : Scalar × Value} (he : ∃ k, e.1 = .text k) (r r' : List Char) :
          (entryText e).toList ++ r ≠ '\x7d' :: r' := by
        obtain ⟨⟨_, x⟩, k, rfl⟩ := e, he
        rw [toList_entryText, toList_escaped]
        intro heq
        exact absurd (List.cons.inj heq).1 (by decide)
      have heach (e : Scalar × Value) (he : e ∈ out) (f : Scalar × Value) (hf : f ∈ out')
          (r r' : List Char) (hr : Ends r) (hr' : Ends r')
          (hef : (entryText e).toList ++ r = (entryText f).toList ++ r') :
          (e.1 = f.1 ∧ e.2.SameJson f.2) ∧ r = r' := by
        have hx := each e (hperm.mem_iff.mp he)
        have hy := each' f (hperm'.mem_iff.mp hf)
        refine entry_cancel (hkeys he) (hkeys' hf) (fun _ _ hvalues hrest hrest' => ?_) hef
        subst hrest hrest'
        exact ih e (hperm.mem_iff.mp he) hy hr hr' hvalues (mark_eq_of_append hx hy hvalues)
      obtain ⟨hsame, hrest⟩ := sequence_cancel (by decide) (by decide) heach
        (fun e he => hopen (hkeys he)) (fun e he => hopen (hkeys' he)) (List.cons.inj h).2
      exact ⟨.of_ordered hperm hperm' distinct' hsame, hrest⟩
    | _ => simp [mark] at hmark

/-- What is made of two rows of entries under the same keys. -/
theorem map_eq_of_keys {γ : Type} {f : Scalar × Value → γ} {xs ys : List (Scalar × Value)}
    (keys : xs.map (·.1) = ys.map (·.1))
    (each : ∀ k v w, (k, v) ∈ xs → (k, w) ∈ ys → f (k, v) = f (k, w)) : xs.map f = ys.map f := by
  induction xs generalizing ys with
  | nil =>
    cases ys with
    | nil => rfl
    | cons => cases keys
  | cons e xs ih =>
    cases ys with
    | nil => cases keys
    | cons e' ys =>
      obtain ⟨k, v⟩ := e
      obtain ⟨k', w⟩ := e'
      obtain ⟨rfl, hkeys⟩ := List.cons.inj keys
      rw [List.map_cons, List.map_cons, each k v w List.mem_cons_self List.mem_cons_self,
        ih hkeys fun k v w hv hw =>
          each k v w (List.mem_cons_of_mem _ hv) (List.mem_cons_of_mem _ hw)]

/-- The order of keys does not show in the text. -/
theorem SameJson.canonical_eq (h : v.SameJson w) (hv : v.IsJson) (hw : w.IsJson) :
    v.canonical = w.canonical := by
  induction h with
  | scalar s => rfl
  | @list xs ys length each ih =>
    cases hv with
    | list hxs =>
      cases hw with
      | list hys =>
        refine String.toList_inj.mp ?_
        rw [toList_canonical_list (.list hxs), toList_canonical_list (.list hys)]
        congr 2
        refine List.ext_getElem (by simpa using length) fun i hi hi' => ?_
        rw [List.length_map] at hi hi'
        rw [List.getElem_map, List.getElem_map,
          ih i hi hi' (hxs _ (List.getElem_mem hi)) (hys _ (List.getElem_mem hi'))]
  | @map xs ys keys each ih =>
    cases hv with
    | map texts distinct hxs =>
      cases hw with
      | map texts' distinct' hys =>
        obtain ⟨out, hperm, hsorted, hout⟩ := toList_canonical_map (.map texts distinct hxs)
        obtain ⟨out', hperm', hsorted', hout'⟩ := toList_canonical_map (.map texts' distinct' hys)
        have hkeys : out.map (·.1) = out'.map (·.1) := by
          refine keys_eq_of_before (fun e he => texts e (hperm.mem_iff.mp he)) hsorted
            hsorted' ((hperm.map _).nodup_iff.mpr distinct) ((hperm'.map _).nodup_iff.mpr distinct')
            fun k => ?_
          rw [(hperm.map _).mem_iff, (hperm'.map _).mem_iff, keys]
        have hentries : out.map (fun e => (entryText e).toList) =
            out'.map fun e => (entryText e).toList := by
          refine map_eq_of_keys hkeys fun k x y hx hy => ?_
          have hxs' := hperm.mem_iff.mp hx
          have hys' := hperm'.mem_iff.mp hy
          unfold entryText
          rw [ih k x y hxs' hys' (hxs _ hxs') (hys _ hys')]
        rw [← String.toList_inj, hout, hout', hentries]

end Value

namespace Config
variable {v w : Value}

theorem canonicalText_eq (h : v.IsJson) : canonicalText v = .ok v.canonical := h.json_eq

theorem checksumOf_eq (h : v.IsJson) : checksumOf v = .ok (Sha256.digest v.canonical) := by
  unfold checksumOf
  rw [canonicalText_eq h]
  rfl

/-- Two values have the same text exactly if they are the same up to the order of keys. -/
theorem canonical_eq_iff (hv : v.IsJson) (hw : w.IsJson) :
    v.canonical = w.canonical ↔ v.SameJson w := by
  have ends : Ends [] := nofun
  constructor
  · intro h
    exact (hv.same_of_append hw ends ends (congrArg (·.toList ++ []) h)).1
  · exact fun h => h.canonical_eq hv hw

/-- Every value that JSON has a form for has a text, and two of them have the same text exactly if
they are the same value up to the order of keys. The checksum is the digest of that text, so it is
the same for two values if they are the same, or else the digests of their texts collide. -/
theorem checksum_identifies (hv : v.IsJson) (hw : w.IsJson) :
    ∃ s t, canonicalText v = .ok s ∧ canonicalText w = .ok t ∧ (s = t ↔ v.SameJson w) ∧
      checksumOf v = .ok (Sha256.digest s) ∧ checksumOf w = .ok (Sha256.digest t) ∧
      (checksumOf v = checksumOf w ↔
        v.SameJson w ∨ s ≠ t ∧ Sha256.digest s = Sha256.digest t) ∧
      ∀ c, parse v = .ok c → c.checksum = Sha256.digest s := by
  have hsame := canonical_eq_iff hv hw
  refine ⟨_, _, canonicalText_eq hv, canonicalText_eq hw, hsame, checksumOf_eq hv,
    checksumOf_eq hw, ?_, fun c hc => ?_⟩
  · rw [checksumOf_eq hv, checksumOf_eq hw, Except.ok.injEq]
    constructor
    · intro h
      by_cases htexts : v.canonical = w.canonical
      · exact .inl (hsame.mp htexts)
      · exact .inr ⟨htexts, h⟩
    · rintro (h | ⟨-, h⟩)
      · exact congrArg Sha256.digest (hsame.mpr h)
      · exact h
  · have hchecksum := (parse_ok.mp hc).checksum
    rw [checksumOf_eq hv] at hchecksum
    exact (Except.ok.inj hchecksum).symm

/-- Limits of a ledger, one way to write them. -/
def limits : Value := .record
  [("level", .text "INFO"), ("limits", .record [("hours", .int 168), ("tip", .null)])]

/-- The same limits with the keys in another order at both levels. -/
def limitsReordered : Value := .record
  [("limits", .record [("tip", .null), ("hours", .int 168)]), ("level", .text "INFO")]

theorem limits_identified : limits.SameJson limitsReordered ∧
    checksumOf limits = checksumOf limitsReordered := by
  have hinner : (Value.record [("hours", .int 168), ("tip", .null)]).IsJson := by
    refine Value.isJson_record (by decide) ?_
    simp only [List.forall_mem_cons]
    exact ⟨.int _, .null, nofun⟩
  have hinner' : (Value.record [("tip", .null), ("hours", .int 168)]).IsJson := by
    refine Value.isJson_record (by decide) ?_
    simp only [List.forall_mem_cons]
    exact ⟨.null, .int _, nofun⟩
  have hjson : limits.IsJson := by
    refine Value.isJson_record (by decide) ?_
    simp only [List.forall_mem_cons]
    exact ⟨.text _, hinner, nofun⟩
  have hjson' : limitsReordered.IsJson := by
    refine Value.isJson_record (by decide) ?_
    simp only [List.forall_mem_cons]
    exact ⟨hinner', .text _, nofun⟩
  obtain ⟨s, t, hs, ht, hsame, -, -, hequal, -⟩ := checksum_identifies hjson hjson'
  have htexts : s = t := by
    have hoptions : (canonicalText limits).toOption = (canonicalText limitsReordered).toOption := by
      decide +kernel
    rw [hs, ht] at hoptions
    exact Option.some.inj hoptions
  exact ⟨hsame.mp htexts, hequal.mpr (.inl (hsame.mp htexts))⟩

end Config
end TipJar
