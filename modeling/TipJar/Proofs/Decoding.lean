import Mathlib.Data.List.Forall2
import TipJar.Proofs.Delimiting

/-! Reading JSON.

A reader says what a text says: which value, and what follows it. It takes nothing that is
not JSON, so numbers have no needless zeros, a control character does not stand in a text
and units that are no character are none. Of numbers it takes whole ones only. An object
keeps its entries as they stand, so that a key that stands there twice can be seen. -/
namespace TipJar

/-! ### Printable ASCII -/

namespace Text

theorem printable_hexDigits {width n : Nat} {c : Char} (h : c ∈ hexDigits width n) :
    IsPrintable c := by
  have hdigits : ∀ d < 16, 32 ≤ d.digitChar.toNat ∧ d.digitChar.toNat ≤ 126 := by decide
  induction width generalizing n with
  | zero => cases h
  | succ width ih =>
    rcases List.mem_append.mp h with hfirst | hlast
    · exact ih hfirst
    · rw [List.mem_singleton.mp hlast]
      exact hdigits _ (Nat.mod_lt n (by decide))

theorem printable_unitEscape {n : Nat} {c : Char} (h : c ∈ unitEscape n) : IsPrintable c := by
  rcases List.mem_cons.mp h with rfl | h
  · decide
  rcases List.mem_cons.mp h with rfl | h
  · decide
  · exact printable_hexDigits h

theorem printable_shortEscape {c d : Char} (h : shortEscape? d = some c) : IsPrintable d := by
  unfold shortEscape? at h
  split at h <;> first | decide | cases h

/-- Every character is escaped to printable ones. -/
theorem printable_escapeChar {c d : Char} (h : d ∈ escapeChar c) : IsPrintable d := by
  generalize hds : escapeChar c = ds at h
  cases hds ▸ escapedAs_escapeChar c with
  | short stands =>
    rcases List.mem_pair.mp h with rfl | rfl
    · decide
    · exact printable_shortEscape stands
  | itself printable =>
    rw [List.mem_singleton.mp h]
    exact printable
  | unit => exact printable_unitEscape h
  | units =>
    rcases List.mem_append.mp h with h | h
    · exact printable_unitEscape h
    · exact printable_unitEscape h

theorem printable_escaped {s : String} {c : Char} (h : c ∈ (escaped s).toList) :
    IsPrintable c := by
  rw [toList_escaped, List.mem_cons, List.mem_append, List.mem_singleton] at h
  rcases h with rfl | h | rfl
  · decide
  · obtain ⟨d, -, hd⟩ := List.mem_flatMap.mp h
    exact printable_escapeChar hd
  · decide

theorem printable_digit {c : Char} (h : c.isDigit = true) : IsPrintable c := by
  simp only [Char.isDigit, Bool.and_eq_true, decide_eq_true_eq] at h
  have hlow : 48 ≤ c.toNat := h.1
  have hhigh : c.toNat ≤ 57 := h.2
  exact ⟨by omega, by omega⟩

theorem printable_integerText {i : Int} {c : Char} (h : c ∈ (integerText i).toList) :
    IsPrintable c := by
  rw [toList_integerText] at h
  rcases List.mem_append.mp h with hsign | hdigits
  · split at hsign
    · rw [List.mem_singleton.mp hsign]
      decide
    · cases hsign
  · exact printable_digit (isDigit_digitsOf hdigits)

theorem integerText_natCast (n : Nat) : integerText n = toString n := by
  unfold integerText
  rw [if_neg (by omega)]
  rfl

theorem printable_sequence {close : Char} {parts : List (List Char)} (hclose : IsPrintable close)
    (each : ∀ cs ∈ parts, ∀ c ∈ cs, IsPrintable c) {c : Char} (h : c ∈ sequence close parts) :
    IsPrintable c := by
  cases parts with
  | nil => exact List.mem_singleton.mp h ▸ hclose
  | cons first parts =>
    rw [sequence_cons, List.mem_append, List.mem_append, List.mem_singleton] at h
    rcases h with hfirst | hothers | rfl
    · exact each first List.mem_cons_self c hfirst
    · obtain ⟨cs, hcs, hc⟩ := List.mem_flatMap.mp hothers
      rcases List.mem_append.mp hc with hcomma | hc
      · rcases List.mem_pair.mp hcomma with rfl | rfl
        · decide
        · decide
      · exact each cs (List.mem_cons_of_mem _ hcs) c hc
    · exact hclose

end Text

/-! ### The reader -/

/-- What a JSON text says. -/
inductive Json
  | null
  | bool (b : Bool)
  | int (i : Int)
  | text (s : String)
  | list (items : List Json)
  /-- The entries in the order in which they stand, also those under the same key. -/
  | object (entries : List (String × Json))

namespace Json
open Text

section Reader
variable {α : Type}

def isSpace (c : Char) : Bool := c == ' ' || c == '\t' || c == '\n' || c == '\r'

/-- What follows the blanks. -/
def skip (cs : List Char) : List Char := cs.dropWhile isSpace

/-- The characters up to the closing quote, as far as the steps go, and what follows the quote. -/
def readChars? : Nat → List Char → Option (List Char × List Char)
  | _, '"' :: rest => some ([], rest)
  | 0, _ => none
  | steps + 1, cs => do
    let (c, rest) ← unescape? cs
    (readChars? steps rest).map fun (more, rest) => (c :: more, rest)

/-- The text whose opening quote has been read. -/
def readText? (cs : List Char) : Option (String × List Char) :=
  (readChars? cs.length cs).map fun (chars, rest) => (String.ofList chars, rest)

/-- The number that the digits in front write. -/
def readDigits? (cs : List Char) : Option (Nat × List Char) :=
  match Decimal.takeDigits cs with
  | ([], _) => none
  | (0 :: _ :: _, _) => none
  | (digits, rest) => some (valueOf digits, rest)

/-- The whole number in front. -/
def readInt? : List Char → Option (Int × List Char)
  | '-' :: cs => (readDigits? cs).map fun (n, rest) => (-(n : Int), rest)
  | cs => (readDigits? cs).map fun (n, rest) => ((n : Int), rest)

/-- The parts up to the closing bracket, at least one and as many as the steps allow. -/
def readParts? (close : Char) (part : List Char → Option (α × List Char)) :
    Nat → List Char → Option (List α × List Char)
  | 0, _ => none
  | steps + 1, cs => do
    let (a, rest) ← part cs
    match skip rest with
    | [] => none
    | c :: rest =>
      if c = close then some ([a], rest)
      else if c = ',' then
        (readParts? close part steps (skip rest)).map fun (more, rest) => (a :: more, rest)
      else none

/-- The parts of the sequence whose opening bracket has been read. -/
def readSequence? (close : Char) (part : List Char → Option (α × List Char)) (cs : List Char) :
    Option (List α × List Char) :=
  match skip cs with
  | [] => none
  | c :: rest => if c = close then some ([], rest) else readParts? close part cs.length (c :: rest)

/-- A key, a colon and a value. -/
def readMember? (value : List Char → Option (α × List Char)) :
    List Char → Option ((String × α) × List Char)
  | '"' :: cs => do
    let (key, rest) ← readText? cs
    match skip rest with
    | ':' :: rest => (value (skip rest)).map fun (a, rest) => ((key, a), rest)
    | _ => none
  | _ => none

/-- The value in front, as far as it is not nested too deep. -/
def readValue? : Nat → List Char → Option (Json × List Char)
  | 0, _ => none
  | depth + 1, cs =>
    match cs with
    | 'n' :: 'u' :: 'l' :: 'l' :: rest => some (.null, rest)
    | 't' :: 'r' :: 'u' :: 'e' :: rest => some (.bool true, rest)
    | 'f' :: 'a' :: 'l' :: 's' :: 'e' :: rest => some (.bool false, rest)
    | '"' :: rest => (readText? rest).map fun (s, rest) => (.text s, rest)
    | '[' :: rest =>
      (readSequence? ']' (readValue? depth) rest).map fun (items, rest) => (.list items, rest)
    | '\x7b' :: rest =>
      (readSequence? '\x7d' (readMember? (readValue? depth)) rest).map fun (entries, rest) =>
        (.object entries, rest)
    | cs => (readInt? cs).map fun (i, rest) => (.int i, rest)

end Reader

/-- What a text says: one value and nothing else. -/
def read? (s : String) : Option Json :=
  match readValue? s.length (skip s.toList) with
  | some (v, rest) => if skip rest = [] then some v else none
  | none => none

/-! ### Reading back what stands in front -/

/-- Whether characters begin as something does that a bracket may enclose. -/
def Opens (cs : List Char) : Prop :=
  ∃ c ds, cs = c :: ds ∧ isSpace c = false ∧ c ≠ ']' ∧ c ≠ '\x7d'

/-- Whether a reader takes characters for something, whatever follows that does not go on a
number. -/
structure IsRead {α : Type} (reader : List Char → Option (α × List Char)) (cs : List Char) (a : α) :
    Prop where
  opens : Opens cs
  reads : ∀ rest, Ends rest → reader (cs ++ rest) = some (a, rest)

theorem skip_cons {c : Char} (h : isSpace c = false) (rest : List Char) :
    skip (c :: rest) = c :: rest := by
  rw [skip, List.dropWhile_cons_of_neg (by simp [h])]

theorem Opens.skip_append {cs : List Char} (h : Opens cs) (rest : List Char) :
    skip (cs ++ rest) = cs ++ rest := by
  obtain ⟨c, ds, rfl, hspace, -⟩ := h
  exact skip_cons hspace _

theorem Opens.length_pos {cs : List Char} (h : Opens cs) : 0 < cs.length := by
  obtain ⟨c, ds, rfl, -⟩ := h
  exact Nat.succ_pos _

/-! ### Texts and numbers -/

theorem readChars?_append (cs rest : List Char) {steps : Nat} (hsteps : cs.length ≤ steps) :
    readChars? steps (cs.flatMap escapeChar ++ '"' :: rest) = some (cs, rest) := by
  induction cs generalizing steps with
  | nil => cases steps <;> rfl
  | cons c cs ih =>
    obtain ⟨steps, rfl⟩ : ∃ n, steps = n + 1 := Nat.exists_eq_add_one.mpr (by simp at hsteps; omega)
    rw [List.flatMap_cons, List.append_assoc]
    unfold readChars?
    split
    · next h => exact absurd h (escapeChar_append_ne _ _ _)
    · next h _ => cases h
    · next h _ =>
      cases h
      rw [unescape?_escapeChar]
      show (readChars? steps _).map _ = _
      rw [ih (by simpa using hsteps)]
      rfl

theorem length_escapeChar_pos (c : Char) : 0 < (escapeChar c).length := by
  refine List.length_pos_iff.mpr fun h => ?_
  have hread := unescape?_escapeChar c []
  rw [h] at hread
  cases hread

theorem length_le_escapes (cs : List Char) : cs.length ≤ (cs.flatMap escapeChar).length := by
  induction cs with
  | nil => exact Nat.le_refl 0
  | cons c cs ih =>
    have hpos := length_escapeChar_pos c
    rw [List.flatMap_cons, List.length_append, List.length_cons]
    omega

theorem readText?_append (s : String) (rest : List Char) :
    readText? (s.toList.flatMap escapeChar ++ '"' :: rest) = some (s, rest) := by
  unfold readText?
  rw [readChars?_append]
  · simp
  · have := length_le_escapes s.toList
    rw [List.length_append]
    omega

/-- A positive number is written without a zero in front. -/
theorem exists_digitsOf {n : Nat} (h : 0 < n) :
    ∃ d ds, (digitsOf n).map (·.toNat - 48) = d :: ds ∧ d ≠ 0 := by
  induction n using Nat.strongRecOn with
  | ind n ih =>
    by_cases hsmall : n < 10
    · have hdigit : ∀ d < 10, 0 < d → d.digitChar.toNat - 48 ≠ 0 := by decide
      rw [digitsOf_of_lt hsmall]
      exact ⟨_, [], rfl, hdigit n hsmall h⟩
    · obtain ⟨d, ds, hhead, hne⟩ := ih (n / 10) (by omega) (by omega)
      rw [digitsOf_of_le (by omega), List.map_append, hhead]
      exact ⟨d, _, rfl, hne⟩

theorem readDigits?_append (n : Nat) {rest : List Char} (ends : Ends rest) :
    readDigits? (digitsOf n ++ rest) = some (n, rest) := by
  have htaken := Decimal.takeDigits_append rest (fun _ hc => isDigit_digitsOf (n := n) hc) ends
  have hvalue := valueOf_digitsOf n
  unfold readDigits?
  rw [htaken]
  rcases Nat.eq_zero_or_pos n with rfl | hpos
  · rfl
  · obtain ⟨d, ds, hdigits, hne⟩ := exists_digitsOf hpos
    rw [hdigits] at hvalue ⊢
    split
    · next h => cases h
    · next h => cases h; exact absurd rfl hne
    · next h => cases h; rw [hvalue]

theorem readInt?_append (i : Int) {rest : List Char} (ends : Ends rest) :
    readInt? ((integerText i).toList ++ rest) = some (i, rest) := by
  rw [toList_integerText]
  split
  · show (readDigits? (digitsOf i.natAbs ++ rest)).map _ = _
    rw [readDigits?_append _ ends]
    exact congrArg (fun j => some (j, rest)) (by omega)
  · rw [List.nil_append]
    unfold readInt?
    split
    · next h => exact absurd h (digitsOf_append_ne _ _ _)
    · rw [readDigits?_append _ ends]
      exact congrArg (fun j => some (j, rest)) (by omega)

/-! ### Sequences -/

theorem sequence_one (close : Char) (part : List Char) :
    sequence close [part] = part ++ [close] := by
  rw [sequence_cons]
  rfl

theorem sequence_cons_cons (close : Char) (part next : List Char) (parts : List (List Char)) :
    sequence close (part :: next :: parts) =
      part ++ ',' :: ' ' :: sequence close (next :: parts) := by
  rw [sequence_cons, sequence_cons, List.flatMap_cons]
  simp

section Sequences
variable {α : Type} {part : List Char → Option (α × List Char)} {close : Char}
  {parts : List (List Char)} {as : List α}

theorem readParts?_last (hclose : isSpace close = false) {cs rest : List Char} {a : α}
    (h : part cs = some (a, close :: rest)) (steps : Nat) :
    readParts? close part (steps + 1) cs = some ([a], rest) := by
  rw [readParts?, h]
  show (match skip (close :: rest) with | [] => none | c :: rest => _) = _
  rw [skip_cons hclose]
  exact if_pos rfl

theorem readParts?_more (hcomma : close ≠ ',') {cs rest : List Char} {a : α}
    (h : part cs = some (a, ',' :: rest)) (steps : Nat) :
    readParts? close part (steps + 1) cs =
      (readParts? close part steps (skip rest)).map fun (more, rest) => (a :: more, rest) := by
  rw [readParts?, h]
  show (match skip (',' :: rest) with | [] => none | c :: rest => _) = _
  rw [skip_cons rfl]
  exact (if_neg hcomma.symm).trans (if_pos rfl)

/-- The parts of a sequence, each of which is read back in front of any rest. -/
theorem readParts?_append (bracket : close = ']' ∨ close = '\x7d') {cs : List Char} {a : α}
    (first : IsRead part cs a) (others : List.Forall₂ (IsRead part) parts as) (rest : List Char)
    {steps : Nat} (hsteps : parts.length < steps) :
    readParts? close part steps (sequence close (cs :: parts) ++ rest) = some (a :: as, rest) := by
  have hspace : isSpace close = false := by rcases bracket with rfl | rfl <;> rfl
  have hdigit : close.isDigit = false := by rcases bracket with rfl | rfl <;> rfl
  have hcomma : close ≠ ',' := by rcases bracket with rfl | rfl <;> decide
  obtain ⟨steps, rfl⟩ := Nat.exists_eq_add_one.mpr (Nat.zero_lt_of_lt hsteps)
  induction others generalizing cs a steps with
  | nil =>
    rw [sequence_one, List.append_assoc]
    exact readParts?_last hspace (first.reads _ (ends_cons hdigit rest)) steps
  | @cons next _ parts _ hnext _ ih =>
    have hread := first.reads (',' :: ' ' :: (sequence close (next :: parts) ++ rest))
      (ends_cons (by decide) _)
    have hopens : skip (' ' :: (sequence close (next :: parts) ++ rest)) =
        sequence close (next :: parts) ++ rest := by
      rw [sequence_cons, List.append_assoc]
      exact hnext.opens.skip_append _
    rw [sequence_cons_cons, List.append_assoc, List.cons_append, List.cons_append,
      readParts?_more hcomma hread, hopens]
    have hless := Nat.lt_of_succ_lt_succ hsteps
    obtain ⟨steps, rfl⟩ := Nat.exists_eq_add_one.mpr (Nat.zero_lt_of_lt hless)
    rw [ih hnext steps hless]
    rfl

theorem length_lt_sequence (each : ∀ cs ∈ parts, Opens cs) :
    parts.length < (sequence close parts).length := by
  induction parts with
  | nil => exact Nat.zero_lt_one
  | cons cs parts ih =>
    obtain ⟨hfirst, hothers⟩ := List.forall_mem_cons.mp each
    have hpos := hfirst.length_pos
    have hrest := ih hothers
    cases parts with
    | nil =>
      rw [sequence_one, List.length_append]
      exact Nat.lt_add_of_pos_left hpos
    | cons next parts =>
      rw [sequence_cons_cons, List.length_append]
      simp only [List.length_cons] at hrest ⊢
      omega

/-- No part is longer than the sequence. -/
theorem length_le_sequence {cs : List Char} (h : cs ∈ parts) :
    cs.length ≤ (sequence close parts).length := by
  induction parts with
  | nil => cases h
  | cons first parts ih =>
    have hlength : first.length ≤ (sequence close (first :: parts)).length := by
      rw [sequence_cons, List.length_append]
      exact Nat.le_add_right _ _
    rcases List.mem_cons.mp h with rfl | hlater
    · exact hlength
    · cases parts with
      | nil => cases hlater
      | cons next parts =>
        have hrest := ih hlater
        rw [sequence_cons_cons, List.length_append]
        simp only [List.length_cons] at hrest ⊢
        omega

/-- A sequence is read back in front of any rest, if its parts are. -/
theorem readSequence?_append (bracket : close = ']' ∨ close = '\x7d')
    (each : List.Forall₂ (IsRead part) parts as) (rest : List Char) :
    readSequence? close part (sequence close parts ++ rest) = some (as, rest) := by
  have hopen : ∀ cs ∈ parts, Opens cs := by
    induction each with
    | nil => nofun
    | cons first _ ih => exact List.forall_mem_cons.mpr ⟨first.opens, ih⟩
  have hsteps : parts.length < (sequence close parts ++ rest).length := by
    rw [List.length_append]
    exact Nat.lt_add_right _ (length_lt_sequence hopen)
  unfold readSequence?
  cases each with
  | nil =>
    have hspace : isSpace close = false := by rcases bracket with rfl | rfl <;> rfl
    show (match skip (close :: rest) with | [] => none | c :: rest => _) = _
    rw [skip_cons hspace]
    exact if_pos rfl
  | @cons cs a parts as first others =>
    have hskip := first.opens.skip_append (parts.flatMap ([',', ' '] ++ ·) ++ [close] ++ rest)
    have hread := readParts?_append bracket first others rest (Nat.lt_of_succ_lt hsteps)
    obtain ⟨c, ds, rfl, -, hlist, hobject⟩ := first.opens
    have hne : c ≠ close := by
      rcases bracket with rfl | rfl
      · exact hlist
      · exact hobject
    rw [sequence_cons, List.append_assoc] at hread ⊢
    rw [hskip]
    exact (if_neg hne).trans hread

end Sequences

/-! ### Values -/

section Values
variable {depth : Nat}

theorem isRead_null : IsRead (readValue? (depth + 1)) ['n', 'u', 'l', 'l'] .null :=
  ⟨⟨_, _, rfl, rfl, by decide, by decide⟩, fun _ _ => rfl⟩

theorem isRead_true : IsRead (readValue? (depth + 1)) ['t', 'r', 'u', 'e'] (.bool true) :=
  ⟨⟨_, _, rfl, rfl, by decide, by decide⟩, fun _ _ => rfl⟩

theorem isRead_false : IsRead (readValue? (depth + 1)) ['f', 'a', 'l', 's', 'e'] (.bool false) :=
  ⟨⟨_, _, rfl, rfl, by decide, by decide⟩, fun _ _ => rfl⟩

theorem isRead_escaped (s : String) :
    IsRead (readValue? (depth + 1)) (escaped s).toList (.text s) := by
  rw [toList_escaped]
  refine ⟨⟨_, _, rfl, rfl, by decide, by decide⟩, fun rest _ => ?_⟩
  show (readText? (s.toList.flatMap escapeChar ++ ['"'] ++ rest)).map _ = _
  rw [List.append_assoc]
  exact congrArg _ (readText?_append s rest)

/-- A whole number begins with its sign or a digit. -/
theorem exists_integerText (i : Int) :
    ∃ c ds, (integerText i).toList = c :: ds ∧ (c = '-' ∨ c.isDigit = true) := by
  rw [toList_integerText]
  split
  · exact ⟨_, _, rfl, .inl rfl⟩
  · obtain ⟨c, ds, hdigits⟩ := List.exists_cons_of_ne_nil (Nat.toDigits_ne_nil (n := i.natAbs))
    have hmem : c ∈ digitsOf i.natAbs := by
      rw [digitsOf, hdigits]
      exact List.mem_cons_self
    exact ⟨c, ds, hdigits, .inr (isDigit_digitsOf hmem)⟩

theorem ne_of_number {c d : Char} (h : c = '-' ∨ c.isDigit = true)
    (other : d ≠ '-' ∧ d.isDigit = false) : c ≠ d := by
  intro heq
  rw [heq] at h
  rcases h with h | h
  · exact other.1 h
  · rw [other.2] at h
    cases h

theorem readValue?_number {c : Char} (h : c = '-' ∨ c.isDigit = true) (cs : List Char) :
    readValue? (depth + 1) (c :: cs) =
      (readInt? (c :: cs)).map fun (i, rest) => (.int i, rest) := by
  unfold readValue?
  split
  · next heq => exact absurd (List.cons.inj heq).1 (ne_of_number h (by decide))
  · next heq => exact absurd (List.cons.inj heq).1 (ne_of_number h (by decide))
  · next heq => exact absurd (List.cons.inj heq).1 (ne_of_number h (by decide))
  · next heq => exact absurd (List.cons.inj heq).1 (ne_of_number h (by decide))
  · next heq => exact absurd (List.cons.inj heq).1 (ne_of_number h (by decide))
  · next heq => exact absurd (List.cons.inj heq).1 (ne_of_number h (by decide))
  · rfl

theorem isRead_integer (i : Int) :
    IsRead (readValue? (depth + 1)) (integerText i).toList (.int i) := by
  obtain ⟨c, ds, htext, hc⟩ := exists_integerText i
  have hspace : isSpace c = false := by
    simp only [isSpace, Bool.or_eq_false_iff, beq_eq_false_iff_ne]
    exact ⟨⟨⟨ne_of_number hc (by decide), ne_of_number hc (by decide)⟩,
      ne_of_number hc (by decide)⟩, ne_of_number hc (by decide)⟩
  refine ⟨⟨c, ds, htext, hspace, ne_of_number hc (by decide), ne_of_number hc (by decide)⟩,
    fun rest ends => ?_⟩
  have hread := readInt?_append i ends
  rw [htext, List.cons_append] at hread ⊢
  rw [readValue?_number hc, hread]
  rfl

theorem isRead_list {parts : List (List Char)} {items : List Json}
    (each : List.Forall₂ (IsRead (readValue? depth)) parts items) :
    IsRead (readValue? (depth + 1)) ('[' :: sequence ']' parts) (.list items) := by
  refine ⟨⟨_, _, rfl, rfl, by decide, by decide⟩, fun rest _ => ?_⟩
  show (readSequence? ']' _ (sequence ']' parts ++ rest)).map _ = _
  rw [readSequence?_append (.inl rfl) each]
  rfl

theorem isRead_object {parts : List (List Char)} {entries : List (String × Json)}
    (each : List.Forall₂ (IsRead (readMember? (readValue? depth))) parts entries) :
    IsRead (readValue? (depth + 1)) ('\x7b' :: sequence '\x7d' parts) (.object entries) := by
  refine ⟨⟨_, _, rfl, rfl, by decide, by decide⟩, fun rest _ => ?_⟩
  show (readSequence? '\x7d' _ (sequence '\x7d' parts ++ rest)).map _ = _
  rw [readSequence?_append (.inr rfl) each]
  rfl

theorem isRead_entry {cs : List Char} {v : Json} (key : String)
    (h : IsRead (readValue? depth) cs v) :
    IsRead (readMember? (readValue? depth)) ((escaped key).toList ++ ':' :: ' ' :: cs)
      (key, v) := by
  rw [toList_escaped]
  refine ⟨⟨_, _, rfl, rfl, by decide, by decide⟩, fun rest ends => ?_⟩
  show (readText? (key.toList.flatMap escapeChar ++ ['"'] ++ ':' :: ' ' :: cs ++ rest)).bind _ = _
  simp only [List.append_assoc, List.cons_append]
  rw [readText?_append, Option.bind_some]
  show (match skip (':' :: ' ' :: (cs ++ rest)) with | ':' :: rest => _ | _ => none) = _
  rw [skip_cons rfl]
  show (readValue? depth (skip (cs ++ rest))).map _ = _
  rw [h.opens.skip_append, h.reads rest ends]
  rfl

end Values

/-! ### Writing -/

/-- Whether something is written in printable characters that a reader reads back, if it goes as
deep as there are characters. -/
structure IsWritten {α : Type} (reader : Nat → List Char → Option (α × List Char)) (cs : List Char)
    (a : α) : Prop where
  printable : ∀ c ∈ cs, IsPrintable c
  reads : ∀ depth, cs.length ≤ depth → IsRead (reader depth) cs a

section Writing
variable {α : Type} {reader : Nat → List Char → Option (α × List Char)} {cs : List Char} {a : α}
  {close : Char} {parts : List (List Char)} {as : List α}

theorem isWritten_of (printable : ∀ c ∈ cs, IsPrintable c) (nonempty : cs ≠ [])
    (reads : ∀ depth, cs.length ≤ depth + 1 → IsRead (reader (depth + 1)) cs a) :
    IsWritten reader cs a := by
  refine ⟨printable, fun depth hdepth => ?_⟩
  have hpos := List.length_pos_iff.mpr nonempty
  obtain ⟨depth, rfl⟩ := Nat.exists_eq_add_one.mpr (Nat.lt_of_lt_of_le hpos hdepth)
  exact reads depth hdepth

theorem isWritten_null : IsWritten readValue? ['n', 'u', 'l', 'l'] .null :=
  isWritten_of (by simp [IsPrintable]) (List.cons_ne_nil _ _) fun _ _ => isRead_null

theorem isWritten_true : IsWritten readValue? ['t', 'r', 'u', 'e'] (.bool true) :=
  isWritten_of (by simp [IsPrintable]) (List.cons_ne_nil _ _) fun _ _ => isRead_true

theorem isWritten_false : IsWritten readValue? ['f', 'a', 'l', 's', 'e'] (.bool false) :=
  isWritten_of (by simp [IsPrintable]) (List.cons_ne_nil _ _) fun _ _ => isRead_false

theorem isWritten_escaped (s : String) : IsWritten readValue? (escaped s).toList (.text s) := by
  refine isWritten_of (fun _ => printable_escaped) ?_ fun _ _ => isRead_escaped s
  rw [toList_escaped]
  exact List.cons_ne_nil _ _

theorem isWritten_integer (i : Int) : IsWritten readValue? (integerText i).toList (.int i) := by
  refine isWritten_of (fun _ => printable_integerText) ?_ fun _ _ => isRead_integer i
  obtain ⟨c, ds, htext, -⟩ := exists_integerText i
  rw [htext]
  exact List.cons_ne_nil _ _

theorem IsWritten.entry {v : Json} (key : String) (h : IsWritten readValue? cs v) :
    IsWritten (fun depth => readMember? (readValue? depth))
      ((escaped key).toList ++ ':' :: ' ' :: cs) (key, v) := by
  constructor
  · intro c hc
    rcases List.mem_append.mp hc with hkey | hc
    · exact printable_escaped hkey
    rcases List.mem_cons.mp hc with rfl | hc
    · decide
    rcases List.mem_cons.mp hc with rfl | hvalue
    · decide
    · exact h.printable c hvalue
  · intro depth hdepth
    refine isRead_entry key (h.reads depth ?_)
    simp only [List.length_append, List.length_cons] at hdepth
    omega

/-- The parts of a sequence are read back by a reader that goes as deep as it is long. -/
theorem isRead_parts (each : List.Forall₂ (IsWritten reader) parts as) {depth : Nat}
    (hdepth : (sequence close parts).length ≤ depth) :
    List.Forall₂ (IsRead (reader depth)) parts as := by
  obtain ⟨hlength, hget⟩ := List.forall₂_iff_get.mp each
  refine List.forall₂_iff_get.mpr ⟨hlength, fun i hi ha => (hget i hi ha).reads depth ?_⟩
  exact Nat.le_trans (length_le_sequence (parts.get_mem ⟨i, hi⟩)) hdepth

theorem printable_parts (each : List.Forall₂ (IsWritten reader) parts as)
    (hclose : IsPrintable close) : ∀ c ∈ sequence close parts, IsPrintable c := by
  have hparts : ∀ cs ∈ parts, ∀ c ∈ cs, IsPrintable c := by
    induction each with
    | nil => nofun
    | cons first _ ih => exact List.forall_mem_cons.mpr ⟨first.printable, ih⟩
  exact fun c => Text.printable_sequence hclose hparts

theorem isWritten_list {items : List Json}
    (each : List.Forall₂ (IsWritten readValue?) parts items) :
    IsWritten readValue? ('[' :: sequence ']' parts) (.list items) := by
  refine isWritten_of ?_ (List.cons_ne_nil _ _) fun depth hdepth => ?_
  · exact List.forall_mem_cons.mpr ⟨by decide, printable_parts each (by decide)⟩
  · exact isRead_list (isRead_parts each (Nat.le_of_succ_le_succ hdepth))

theorem isWritten_object {entries : List (String × Json)}
    (each : List.Forall₂ (IsWritten fun depth => readMember? (readValue? depth)) parts entries) :
    IsWritten readValue? ('\x7b' :: sequence '\x7d' parts) (.object entries) := by
  refine isWritten_of ?_ (List.cons_ne_nil _ _) fun depth hdepth => ?_
  · exact List.forall_mem_cons.mpr ⟨by decide, printable_parts each (by decide)⟩
  · exact isRead_object (isRead_parts each (Nat.le_of_succ_le_succ hdepth))

end Writing

/-- What is written is read back when it is all there is. -/
theorem read?_of_isWritten {s : String} {v : Json} (h : IsWritten readValue? s.toList v) :
    read? s = some v := by
  have hall := h.reads s.length (String.length_toList ▸ Nat.le_refl _)
  have hread := hall.reads [] nofun
  have hskip := hall.opens.skip_append []
  rw [List.append_nil] at hread hskip
  unfold read?
  rw [hskip, hread]
  rfl

end Json
end TipJar
