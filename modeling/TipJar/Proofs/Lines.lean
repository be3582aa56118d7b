import Mathlib.Data.List.Forall2
import TipJar.Log.Line
import TipJar.Proofs.Decoding
import TipJar.Proofs.Keys

/-! What a log line says.

Names of accounts, words of users and answers of the platform get into log lines, and
whoever reads the lines must not be misled by them. A line is read back as an object whose
entries are those of its fields, so nothing that stands in a text ends it. Which fields it
has depends on names only: the line's own come first, then the identifiers in force, and
what an event adds takes neither their places nor the names that a record keeps to itself. -/
namespace TipJar
open Text

/-! ### Values -/

namespace Value

/-- What a value is in a log line: amounts are numbers of units, identifiers and moments are
texts. Items go with what stands for them by position, so that one induction goes through nested
lists. -/
inductive LoggedAs : Value → Json → Prop
  | null : LoggedAs (.scalar .null) .null
  | bool (b : Bool) : LoggedAs (.scalar (.bool b)) (.bool b)
  | int (i : Int) : LoggedAs (.scalar (.int i)) (.int i)
  | text (s : String) : LoggedAs (.scalar (.text s)) (.text s)
  | amount (a : Amount) : LoggedAs (.scalar (.amount a)) (.int a.units)
  | uuid (u : Uuid) : LoggedAs (.scalar (.uuid u)) (.text u.text)
  | moment (m : Moment) : LoggedAs (.scalar (.moment m)) (.text m.isoText)
  | list {items : List Value} {told : List Json} (length : items.length = told.length)
      (each : ∀ i (hi : i < items.length) (ht : i < told.length), LoggedAs items[i] told[i]) :
      LoggedAs (.list items) (.list told)

/-- A value is one thing in a log line. -/
theorem LoggedAs.unique {v : Value} {j k : Json} (hj : v.LoggedAs j) (hk : v.LoggedAs k) :
    j = k := by
  induction hj generalizing k with
  | null | bool | int | text | amount | uuid | moment =>
    cases hk
    rfl
  | list length _ ih =>
    cases hk with
    | list length' each' =>
      refine congrArg Json.list (List.ext_getElem (length.symm.trans length') fun i hi hi' => ?_)
      have hitem := length.symm ▸ hi
      exact ih i hitem hi (each' i hitem hi')

/-- The text of a value in a log line, as far as there is one. -/
def logText (v : Value) : String := (v.json .log).toOption.getD ""

/-- Whether a value has a text in log lines from which something is read back. -/
structure IsWritten (v : Value) (j : Json) : Prop where
  json : v.json .log = .ok v.logText
  written : Json.IsWritten Json.readValue? v.logText.toList j

theorem isWritten_of {v : Value} {j : Json} {t : String} (json : v.json .log = .ok t)
    (written : Json.IsWritten Json.readValue? t.toList j) : v.IsWritten j := by
  have htext : v.logText = t := by
    unfold logText
    rw [json]
    rfl
  exact ⟨htext ▸ json, htext ▸ written⟩

theorem json_log_list {items : List Value} (each : ∀ v ∈ items, v.json .log = .ok v.logText) :
    (list items).json .log = .ok ("[" ++ ", ".intercalate (items.map logText) ++ "]") := by
  rw [json, jsonItems_eq, Checked.mapM_eq_ok each]
  rfl

/-- A list is written if its items are. -/
theorem isWritten_list {items : List Value} {told : List Json}
    (each : List.Forall₂ IsWritten items told) : (list items).IsWritten (.list told) := by
  have hitems : ∀ v ∈ items, v.json .log = .ok v.logText := by
    induction each with
    | nil => nofun
    | cons first _ ih => exact List.forall_mem_cons.mpr ⟨first.json, ih⟩
  refine isWritten_of (json_log_list hitems) ?_
  have htext : ("[" ++ ", ".intercalate (items.map logText) ++ "]").toList =
      '[' :: sequence ']' (items.map (·.logText.toList)) := by
    rw [String.toList_append, String.toList_append, String.toList_intercalate, List.map_map]
    rfl
  rw [htext]
  exact Json.isWritten_list (List.forall₂_map_left_iff.mpr (each.imp fun _ _ h => h.written))

/-- Whatever a log line may hold is written so that it can be read back. -/
theorem LoggedAs.isWritten {v : Value} {j : Json} (h : v.LoggedAs j) : v.IsWritten j := by
  induction h with
  | null => exact isWritten_of rfl Json.isWritten_null
  | bool b =>
    cases b with
    | true => exact isWritten_of rfl Json.isWritten_true
    | false => exact isWritten_of rfl Json.isWritten_false
  | int i => exact isWritten_of rfl (Json.isWritten_integer i)
  | text s => exact isWritten_of rfl (Json.isWritten_escaped s)
  | amount a =>
    refine isWritten_of rfl ?_
    rw [← integerText_natCast]
    exact Json.isWritten_integer a.units
  | uuid u => exact isWritten_of rfl (Json.isWritten_escaped u.text)
  | moment m => exact isWritten_of rfl (Json.isWritten_escaped m.isoText)
  | list length each ih =>
    exact isWritten_list (List.forall₂_iff_get.mpr ⟨length, fun i hi ht => ih i hi ht⟩)

end Value

namespace Log

/-! ### Objects -/

/-- What stands for a field in a line. -/
def fieldText (f : String × Value) : String := escaped f.1 ++ ": " ++ f.2.logText

theorem toList_fieldText (f : String × Value) :
    (fieldText f).toList = (escaped f.1).toList ++ ':' :: ' ' :: f.2.logText.toList := by
  unfold fieldText
  rw [String.toList_append, String.toList_append, List.append_assoc]
  rfl

theorem lineText_eq {fields : List (String × Value)}
    (each : ∀ f ∈ fields, f.2.json .log = .ok f.2.logText) :
    lineText fields = .ok ("\x7b" ++ ", ".intercalate (fields.map fieldText) ++ "\x7d") := by
  have hparts : ((fields.map fun f => (Scalar.text f.1, f.2)).map
      (Prod.map id (Value.json .log))).mapM Value.entryTexts =
        .ok (fields.map fun f => (escaped f.1, f.2.logText)) := by
    rw [List.map_map, List.mapM_map]
    refine Checked.mapM_eq_ok fun f hf => ?_
    show Value.entryTexts (.text f.1, f.2.json .log) = _
    rw [each f hf]
    rfl
  have hjson : lineText fields = (((fields.map fun f => (Scalar.text f.1, f.2)).map
      (Prod.map id (Value.json .log))).mapM Value.entryTexts >>= fun texts =>
        pure (braced texts)) := by
    unfold lineText Value.record
    rw [Value.json, Value.jsonEntries_eq]
    rfl
  rw [hjson, hparts]
  show Except.ok (braced _) = _
  unfold braced
  rw [List.map_map]
  rfl

/-- A line is read back as an object with its fields. -/
theorem lineText_read {fields : List (String × Value)} {entries : List (String × Json)}
    (each : List.Forall₂ (fun f e => f.1 = e.1 ∧ f.2.LoggedAs e.2) fields entries) :
    ∃ line, lineText fields = .ok line ∧ (∀ c ∈ line.toList, IsPrintable c) ∧
      Json.read? line = some (.object entries) := by
  have hfields : ∀ f ∈ fields, f.2.json .log = .ok f.2.logText := by
    induction each with
    | nil => nofun
    | cons first _ ih => exact List.forall_mem_cons.mpr ⟨first.2.isWritten.json, ih⟩
  have htext : ("\x7b" ++ ", ".intercalate (fields.map fieldText) ++ "\x7d").toList =
      '\x7b' :: sequence '\x7d' (fields.map fun f => (fieldText f).toList) := by
    rw [String.toList_append, String.toList_append, String.toList_intercalate, List.map_map]
    rfl
  have hwritten : Json.IsWritten Json.readValue?
      ("\x7b" ++ ", ".intercalate (fields.map fieldText) ++ "\x7d").toList (.object entries) := by
    rw [htext]
    refine Json.isWritten_object (List.forall₂_map_left_iff.mpr (each.imp fun f e h => ?_))
    rw [toList_fieldText, h.1]
    exact h.2.isWritten.written.entry e.1
  exact ⟨_, lineText_eq hfields, hwritten.printable, Json.read?_of_isWritten hwritten⟩

/-! ### The fields of a line -/

section Fields
variable {base fields : List (String × Value)} {name : String} {value : Value}

theorem any_name : base.any (·.1 == name) = true ↔ name ∈ base.map (·.1) := by simp

theorem setField_new (new : name ∉ base.map (·.1)) :
    setField base name value = base ++ [(name, value)] := if_neg (mt any_name.mp new)

theorem addField_new (new : name ∉ base.map (·.1)) :
    addField base name value = base ++ [(name, value)] := if_neg (mt any_name.mp new)

theorem addField_there (there : name ∈ base.map (·.1)) : addField base name value = base :=
  if_pos (any_name.mpr there)

theorem nodup_addField (distinct : (base.map (·.1)).Nodup) :
    ((addField base name value).map (·.1)).Nodup := by
  by_cases hthere : name ∈ base.map (·.1)
  · rw [addField_there hthere]
    exact distinct
  · rw [addField_new hthere, List.map_append, List.nodup_append]
    refine ⟨distinct, List.nodup_singleton _, fun a ha b hb h => hthere ?_⟩
    rw [h, List.mem_singleton.mp hb] at ha
    exact ha

/-- Fields that are new come last. -/
theorem foldl_setField {given : List (String × String)} (distinct : (given.map (·.1)).Nodup)
    (new : ∀ g ∈ given, g.1 ∉ base.map (·.1)) :
    given.foldl (fun fields (name, value) => setField fields name (.text value)) base =
      base ++ given.map fun g => (g.1, .text g.2) := by
  induction given generalizing base with
  | nil => exact (List.append_nil base).symm
  | cons g rest ih =>
    obtain ⟨name, value⟩ := g
    obtain ⟨hnew, hrest⟩ := List.nodup_cons.mp distinct
    obtain ⟨hfirst, hlater⟩ := List.forall_mem_cons.mp new
    rw [List.foldl_cons]
    dsimp only
    rw [setField_new hfirst, ih hrest, List.append_assoc]
    · rfl
    · intro h hh
      rw [List.map_append, List.mem_append, not_or]
      refine ⟨hlater h hh, fun hsame => hnew ?_⟩
      rw [← List.mem_singleton.mp hsame]
      exact List.mem_map_of_mem hh

/-- Of fields that are added, those take their place whose names are free. -/
theorem mem_foldl_addField (distinct : (fields.map (·.1)).Nodup) :
    (name, value) ∈ fields.foldl (fun fields (name, value) => addField fields name value) base ↔
      (name, value) ∈ base ∨ (name, value) ∈ fields ∧ name ∉ base.map (·.1) := by
  induction fields generalizing base with
  | nil => simp
  | cons g rest ih =>
    -- the name of the first is taken for what follows, but there it does not come again
    obtain ⟨first, v⟩ := g
    obtain ⟨hnew, hrest⟩ := List.nodup_cons.mp distinct
    rw [List.foldl_cons, ih hrest]
    dsimp only
    by_cases hthere : first ∈ base.map (·.1)
    · rw [addField_there hthere, List.mem_cons, Prod.mk.injEq]
      have hother : name ∉ base.map (·.1) → name ≠ first := fun hfree h => hfree (h ▸ hthere)
      tauto
    · have hother : (name, value) ∈ rest → name ≠ first := by
        intro h heq
        have hin : name ∈ rest.map (·.1) := List.mem_map_of_mem h
        exact hnew (heq ▸ hin)
      have hfree : name = first → name ∉ base.map (·.1) := fun heq => heq ▸ hthere
      rw [addField_new hthere]
      simp only [List.map_append, List.map_cons, List.map_nil, List.mem_append, List.mem_cons,
        List.not_mem_nil, or_false, Prod.mk.injEq, not_or]
      tauto

theorem nodup_foldl_addField (distinct : (base.map (·.1)).Nodup) :
    ((fields.foldl (fun fields (name, value) => addField fields name value) base).map
      (·.1)).Nodup := by
  induction fields generalizing base with
  | nil => exact distinct
  | cons g rest ih => exact ih (nodup_addField distinct)

end Fields

/-- The identifiers in force, each under its name. -/
theorem mem_toList {c : Context} {name s : String} :
    (name, s) ∈ c.toList ↔ ∃ f, f.name = name ∧ c f = some s := by
  unfold Context.toList
  simp only [List.mem_filterMap, Option.map_eq_some_iff, Prod.mk.injEq]
  constructor
  · rintro ⟨f, -, t, hf, hname, rfl⟩
    exact ⟨f, hname, hf⟩
  · rintro ⟨f, hname, hf⟩
    exact ⟨f, f.mem_every, s, hf, hname, rfl⟩

theorem nodup_toList (c : Context) : (c.toList.map (·.1)).Nodup := by
  unfold Context.toList
  rw [List.map_filterMap]
  refine List.Nodup.filterMap (fun f g name hf hg => ?_) (by decide)
  simp only [Option.mem_def, Option.map_map, Option.map_eq_some_iff] at hf hg
  obtain ⟨_, -, hf⟩ := hf
  obtain ⟨_, -, hg⟩ := hg
  exact Field.name_inj.mp (hf.trans hg.symm)

/-- The names that a line uses itself. -/
def headNames : List String := ["ts", "level", "logger", "message"]

theorem Field.name_not_head (f : Field) : f.name ∉ headNames := by
  cases f <;> decide

/-- Whether a line has no field of a name before those of the event are added. -/
def IsFree (c : Context) (name : String) : Prop :=
  name ∉ headNames ∧ ∀ f, f.name = name → c f = none

/-- What a line holds: the time, what the event is, the identifiers in force, and what the event
adds under names that belong to nothing else. -/
inductive Event.Holds (e : Event) (c : Context) (time : Moment) : String → Value → Prop
  | time : Holds e c time "ts" (.text time.isoText)
  | level : Holds e c time "level" (.text e.level)
  | logger : Holds e c time "logger" (.text e.logger)
  | message : Holds e c time "message" (.text e.message)
  | field {f : Field} {s : String} (bound : c f = some s) : Holds e c time f.name (.text s)
  | extra {name : String} {v : Value} (given : (name, v) ∈ e.fields) (own : name ∉ ownNames)
      (free : IsFree c name) : Holds e c time name v

section Line
variable {e : Event} {c : Context} {time : Moment}

/-- The fields before those of the event are added. -/
def Event.opening (e : Event) (c : Context) : List (String × Value) :=
  [("level", .text e.level), ("logger", .text e.logger), ("message", .text e.message)] ++
    c.toList.map fun (name, s) => (name, .text s)

theorem Event.line_eq (plain : e.failure = none) :
    e.line c = (e.fields.filter fun (name, _) => name != "ts" && !ownNames.contains name).foldl
      (fun fields (name, value) => addField fields name value) (e.opening c) := by
  unfold Event.line opening
  rw [plain]
  dsimp only
  rw [foldl_setField (nodup_toList c)]
  intro g hg
  obtain ⟨f, hname, -⟩ := mem_toList.mp hg
  have hhead := f.name_not_head
  rw [hname] at hhead
  exact fun hmem => hhead (List.mem_cons_of_mem _ hmem)

theorem Event.keys_opening (e : Event) (c : Context) :
    (e.opening c).map (·.1) = ["level", "logger", "message"] ++ c.toList.map (·.1) := by
  unfold opening
  rw [List.map_append, List.map_map]
  rfl

theorem Event.nodup_opening (e : Event) (c : Context) : ((e.opening c).map (·.1)).Nodup := by
  rw [keys_opening, List.nodup_append]
  refine ⟨by decide, nodup_toList c, fun a ha b hb h => ?_⟩
  obtain ⟨⟨name, s⟩, hg, rfl⟩ := List.mem_map.mp hb
  obtain ⟨f, hname, -⟩ := mem_toList.mp hg
  rw [h, ← hname] at ha
  exact f.name_not_head (List.mem_cons_of_mem _ ha)

/-- A name is free if it is not that of the time nor one that comes before what the event adds. -/
theorem isFree_iff (e : Event) {name : String} :
    IsFree c name ↔ name ≠ "ts" ∧ name ∉ (e.opening c).map (·.1) := by
  have hbound : name ∈ c.toList.map (·.1) ↔ ∃ f, f.name = name ∧ ∃ s, c f = some s := by
    constructor
    · intro h
      obtain ⟨⟨_, s⟩, hg, rfl⟩ := List.mem_map.mp h
      obtain ⟨f, hname, hf⟩ := mem_toList.mp hg
      exact ⟨f, hname, s, hf⟩
    · rintro ⟨f, hname, s, hf⟩
      exact List.mem_map_of_mem (mem_toList.mpr ⟨f, hname, hf⟩)
  have hnone : (∀ f, f.name = name → c f = none) ↔ ¬∃ f, f.name = name ∧ ∃ s, c f = some s := by
    simp only [not_exists, not_and, Option.eq_none_iff_forall_ne_some]
  rw [e.keys_opening, List.mem_append, hbound, IsFree, hnone]
  simp only [headNames, List.mem_cons, not_or]
  tauto

theorem Event.mem_opening {name : String} {v : Value} :
    (name, v) ∈ e.opening c ↔ (name, v) = ("level", .text e.level) ∨
      (name, v) = ("logger", .text e.logger) ∨ (name, v) = ("message", .text e.message) ∨
      ∃ f s, c f = some s ∧ (name, v) = (Field.name f, .text s) := by
  unfold opening
  simp only [List.mem_append, List.mem_cons, List.not_mem_nil, or_false, List.mem_map, or_assoc]
  refine or_congr_right (or_congr_right (or_congr_right ⟨?_, ?_⟩))
  · intro ⟨⟨key, s⟩, hg, heq⟩
    obtain ⟨f, hname, hf⟩ := mem_toList.mp hg
    exact ⟨f, s, hf, hname ▸ heq.symm⟩
  · intro ⟨f, s, hf, heq⟩
    exact ⟨(f.name, s), mem_toList.mpr ⟨f, rfl, hf⟩, heq.symm⟩

/-- A field of the event is looked at unless its name belongs to the record. -/
theorem Event.mem_own {name : String} {v : Value} :
    (name, v) ∈ e.fields.filter (fun (name, _) => name != "ts" && !ownNames.contains name) ↔
      (name, v) ∈ e.fields ∧ name ≠ "ts" ∧ name ∉ ownNames := by
  simp [List.mem_filter]

theorem Event.nodup_own (distinct : (e.fields.map (·.1)).Nodup) :
    ((e.fields.filter fun (name, _) => name != "ts" && !ownNames.contains name).map
      (·.1)).Nodup := (List.filter_sublist.map _).nodup distinct

/-- What a line holds is all there is in it. -/
theorem Event.mem_stamped (plain : e.failure = none) (distinct : (e.fields.map (·.1)).Nodup)
    {name : String} {v : Value} :
    (name, v) ∈ stamped time (e.line c) ↔ e.Holds c time name v := by
  unfold stamped
  rw [List.mem_cons, e.line_eq plain, mem_foldl_addField (nodup_own distinct), mem_opening, mem_own]
  constructor
  · intro h
    rcases h with h | (h | h | h | ⟨f, s, hf, h⟩) | ⟨⟨hgiven, hts, hother⟩, hnew⟩
    · cases h
      exact .time
    · cases h
      exact .level
    · cases h
      exact .logger
    · cases h
      exact .message
    · cases h
      exact .field hf
    · exact .extra hgiven hother ((isFree_iff e).mpr ⟨hts, hnew⟩)
  · intro h
    cases h with
    | time => exact .inl rfl
    | level => exact .inr (.inl (.inl rfl))
    | logger => exact .inr (.inl (.inr (.inl rfl)))
    | message => exact .inr (.inl (.inr (.inr (.inl rfl))))
    | field bound => exact .inr (.inl (.inr (.inr (.inr ⟨_, _, bound, rfl⟩))))
    | extra given own free =>
      obtain ⟨hts, hnew⟩ := (isFree_iff e).mp free
      exact .inr (.inr ⟨⟨given, hts, own⟩, hnew⟩)

/-- Nothing that a line holds is the time but the time. -/
theorem Event.nodup_stamped (plain : e.failure = none)
    (distinct : (e.fields.map (·.1)).Nodup) :
    ((stamped time (e.line c)).map (·.1)).Nodup := by
  refine List.nodup_cons.mpr ⟨fun hts => ?_, ?_⟩
  · obtain ⟨⟨name, v⟩, hmem, hname : name = "ts"⟩ := List.mem_map.mp hts
    rw [e.line_eq plain, mem_foldl_addField (nodup_own distinct), mem_opening, mem_own] at hmem
    rcases hmem with (h | h | h | ⟨f, s, -, h⟩) | ⟨⟨-, hother, -⟩, -⟩
    · obtain ⟨rfl, -⟩ := Prod.mk.inj h
      exact absurd hname (by decide)
    · obtain ⟨rfl, -⟩ := Prod.mk.inj h
      exact absurd hname (by decide)
    · obtain ⟨rfl, -⟩ := Prod.mk.inj h
      exact absurd hname (by decide)
    · obtain ⟨rfl, -⟩ := Prod.mk.inj h
      exact f.name_not_head (hname ▸ List.mem_cons_self)
    · exact hother hname
  · rw [e.line_eq plain]
    exact nodup_foldl_addField (e.nodup_opening c)

/-- All that a line holds can be written, if what the event adds can be. -/
theorem Event.Holds.loggable {name : String} {v : Value}
    (loggable : ∀ f ∈ e.fields, ∃ j, f.2.LoggedAs j) (h : e.Holds c time name v) :
    ∃ j, v.LoggedAs j := by
  cases h with
  | time | level | logger | message | field => exact ⟨_, .text _⟩
  | extra given => exact loggable _ given

end Line

/-- One value for each field. -/
theorem exists_entries {fields : List (String × Value)} (each : ∀ f ∈ fields, ∃ j, f.2.LoggedAs j) :
    ∃ entries : List (String × Json),
      List.Forall₂ (fun f e => f.1 = e.1 ∧ f.2.LoggedAs e.2) fields entries := by
  induction fields with
  | nil => exact ⟨[], .nil⟩
  | cons f rest ih =>
    obtain ⟨⟨j, hj⟩, hrest⟩ := List.forall_mem_cons.mp each
    obtain ⟨entries, hentries⟩ := ih hrest
    exact ⟨(f.1, j) :: entries, .cons ⟨rfl, hj⟩ hentries⟩

section Entries
variable {fields : List (String × Value)} {entries : List (String × Json)}
  (same : List.Forall₂ (fun f e => f.1 = e.1 ∧ f.2.LoggedAs e.2) fields entries)
include same

theorem keys_entries : entries.map (·.1) = fields.map (·.1) := by
  induction same with
  | nil => rfl
  | cons first _ ih => rw [List.map_cons, List.map_cons, ih, first.1]

theorem mem_entries {name : String} {j : Json} :
    (name, j) ∈ entries ↔ ∃ v, (name, v) ∈ fields ∧ v.LoggedAs j := by
  induction same with
  | nil => simp
  | @cons f e _ _ first _ ih =>
    obtain ⟨key, v⟩ := f
    obtain ⟨_, k⟩ := e
    obtain ⟨rfl, hv⟩ : key = _ ∧ v.LoggedAs k := first
    simp only [List.mem_cons, ih, Prod.mk.injEq, or_and_right, exists_or]
    refine or_congr_left ⟨?_, ?_⟩
    · intro ⟨hname, hj⟩
      exact ⟨v, ⟨hname, rfl⟩, hj ▸ hv⟩
    · intro ⟨_, ⟨hname, hw⟩, hj⟩
      exact ⟨hname, hj.unique (hw ▸ hv)⟩

end Entries

/-- A line tells all about its event and nothing else. Whatever the texts are, it is printable ASCII
throughout, so it is one line, and JSON: an object that has no key twice, with the time, what the
event is, the identifiers in force and each field that the event adds under a name that belongs to
nothing else. -/
theorem Event.format_tells_all (e : Event) (c : Context) (time : Moment) (plain : e.failure = none)
    (distinct : (e.fields.map (·.1)).Nodup) (loggable : ∀ f ∈ e.fields, ∃ j, f.2.LoggedAs j) :
    ∃ line, e.format c time = .ok line ∧ (∀ ch ∈ line.toList, IsPrintable ch) ∧
      ∃ entries, Json.read? line = some (.object entries) ∧ (entries.map (·.1)).Nodup ∧
        ∀ name j, (name, j) ∈ entries ↔ ∃ v, e.Holds c time name v ∧ v.LoggedAs j := by
  have heach : ∀ f ∈ stamped time (e.line c), ∃ j, f.2.LoggedAs j :=
    fun _ hf => ((Event.mem_stamped plain distinct).mp hf).loggable loggable
  obtain ⟨entries, hentries⟩ := exists_entries heach
  obtain ⟨line, hline, hprintable, hread⟩ := lineText_read hentries
  refine ⟨line, hline, hprintable, entries, hread, ?_, fun name j => ?_⟩
  · rw [keys_entries hentries]
    exact Event.nodup_stamped plain distinct
  · rw [mem_entries hentries]
    exact exists_congr fun v => and_congr_left' (Event.mem_stamped plain distinct)

namespace Sample

/-- An event whose texts end a line and begin another, with fields under names that are in use. -/
def forging : Event where
  level := "WARNING"
  logger := "tip_kernel.settlement"
  message := "unknown token: \"\x7d\r\n\x7b\"level\": \"CRITICAL\", \"message\": \"😀\\"
  fields := [("level", .text "CRITICAL"), ("account_id", .text "mallory"),
    ("taskName", .text "none"), ("token", .text "\u00e9\u2028\x00"), ("tip", .uuid ⟨7, by decide⟩),
    ("shares", .list [.amount ⟨3⟩, .list [.text "\"", .null]])]
  failure := none

/-- The account for which it happens. -/
def acting : Context := Context.empty.put .account (some "alice")

end Sample

open Sample in
/-- Texts that look like another line stay texts, and no field takes the place of the level or of
the account. -/
theorem Sample.forging_told :
    ∃ line entries, forging.format acting ⟨0, by decide, some 0⟩ = .ok line ∧
      (∀ ch ∈ line.toList, IsPrintable ch) ∧ Json.read? line = some (.object entries) ∧
      (entries.map (·.1)).Nodup ∧ ("level", .text "WARNING") ∈ entries ∧
      ("message", .text forging.message) ∈ entries ∧ ("account_id", .text "alice") ∈ entries ∧
      ("shares", .list [.int 3, .list [.text "\"", .null]]) ∈ entries ∧
      ∀ j, ("taskName", j) ∉ entries := by
  have hinner : Value.LoggedAs (.list [.text "\"", .null]) (.list [.text "\"", .null]) :=
    .list rfl fun i hi _ => match i, hi with
      | 0, _ => .text _
      | 1, _ => .null
  have hshares : Value.LoggedAs (.list [.amount ⟨3⟩, .list [.text "\"", .null]])
      (.list [.int 3, .list [.text "\"", .null]]) :=
    .list rfl fun i hi _ => match i, hi with
      | 0, _ => .amount ⟨3⟩
      | 1, _ => hinner
  have hloggable : ∀ f ∈ forging.fields, ∃ j, f.2.LoggedAs j := by
    simp only [forging, List.forall_mem_cons]
    exact ⟨⟨_, .text _⟩, ⟨_, .text _⟩, ⟨_, .text _⟩, ⟨_, .text _⟩, ⟨_, .uuid _⟩, ⟨_, hshares⟩,
      nofun⟩
  have hfree : IsFree acting "shares" :=
    ⟨by decide, fun f hf => absurd hf (by cases f <;> decide)⟩
  have htask {name : String} {v : Value}
      (h : forging.Holds acting ⟨0, by decide, some 0⟩ name v) : name ≠ "taskName" := by
    cases h with
    | time | level | logger | message => decide
    | @field f => cases f <;> decide
    | extra _ own => exact fun hname => own (hname ▸ by decide)
  obtain ⟨line, hline, hprintable, entries, hread, hnodup, hentries⟩ :=
    Event.format_tells_all forging acting ⟨0, by decide, some 0⟩ rfl (by decide) hloggable
  refine ⟨line, entries, hline, hprintable, hread, hnodup, ?_, ?_, ?_, ?_, fun j hj => ?_⟩
  · exact (hentries _ _).mpr ⟨_, .level, .text _⟩
  · exact (hentries _ _).mpr ⟨_, .message, .text _⟩
  · exact (hentries _ _).mpr ⟨_, .field (f := .account) rfl, .text _⟩
  · exact (hentries _ _).mpr ⟨_, .extra (by simp [forging]) (by decide) hfree, hshares⟩
  · obtain ⟨v, hv, -⟩ := (hentries _ _).mp hj
    exact htask hv rfl

end Log
end TipJar
