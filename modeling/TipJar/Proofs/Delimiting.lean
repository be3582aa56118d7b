import TipJar.Proofs.Digits
import TipJar.Text.Escaped

/-! Texts that say themselves where they end.

A text in quotes ends at the first quote that is not escaped, a number before the
first character that is no digit, and a sequence at its closing bracket. So if two
such texts are begun alike, whatever follows them, they are the same text, and so is
what follows. For characters this is shown by reading an escape back, and for all else
it follows from the parts. -/
namespace TipJar.Text

/-! ### Units of sixteen bits -/

/-- The number that hexadecimal digits write. -/
def hexNumber? (cs : List Char) : Option Nat :=
  cs.foldlM (fun acc c => (hexValue? c).map (acc * 16 + ·)) 0

theorem hexValue?_hexChar (n : Nat) : hexValue? (hexChar n) = some (n % 16) := by
  have hdigits : ∀ d < 16, hexValue? d.digitChar = some d := by decide
  exact hdigits _ (Nat.mod_lt _ (by decide))

/-- Digits write a number back, as far as there are any. -/
theorem hexNumber?_hexDigits (width n : Nat) :
    hexNumber? (hexDigits width n) = some (n % 16 ^ width) := by
  induction width generalizing n with
  | zero => exact congrArg some (Nat.mod_one n).symm
  | succ width ih =>
    have hlast : n / 16 % 16 ^ width * 16 + n % 16 = n % 16 ^ (width + 1) := by
      rw [Nat.pow_succ', Nat.mod_mul, Nat.mul_comm, Nat.add_comm]
    unfold hexNumber? at ih ⊢
    rw [hexDigits, List.foldlM_append, ih]
    simp [hexValue?_hexChar, hlast]

/-- The unit that stands in front, and what follows it. -/
def takeUnit? : List Char → Option (Nat × List Char)
  | '\\' :: 'u' :: rest => (hexNumber? (rest.take 4)).map (·, rest.drop 4)
  | _ => none

theorem takeUnit?_unitEscape {n : Nat} (small : n < 0x10000) (rest : List Char) :
    takeUnit? (unitEscape n ++ rest) = some (n, rest) := by
  have hlength : (hexDigits 4 n).length = 4 := length_hexDigits 4 n
  show (hexNumber? ((hexDigits 4 n ++ rest).take 4)).map (·, (hexDigits 4 n ++ rest).drop 4) = _
  rw [List.take_left' hlength, List.drop_left' hlength, hexNumber?_hexDigits,
    show n % 16 ^ 4 = n from Nat.mod_eq_of_lt small]
  rfl

/-! ### Characters -/

/-- The character of a short escape. -/
def shortEscape? : Char → Option Char
  | '"' => some '"'
  | '\\' => some '\\'
  | 'n' => some '\n'
  | 'r' => some '\r'
  | 't' => some '\t'
  | 'b' => some (Char.ofNat 8)
  | 'f' => some (Char.ofNat 12)
  | _ => none

/-- The printable characters of ASCII. -/
def IsPrintable (c : Char) : Prop := 32 ≤ c.toNat ∧ c.toNat ≤ 126

instance (c : Char) : Decidable (IsPrintable c) := inferInstanceAs (Decidable (_ ∧ _))

/-- The four ways to escape a character. -/
inductive EscapedAs (c : Char) : List Char → Prop
  | short {d : Char} (stands : shortEscape? d = some c) : EscapedAs c ['\\', d]
  | itself (printable : IsPrintable c) (quote : c ≠ '"') (backslash : c ≠ '\\') : EscapedAs c [c]
  | unit (small : c.toNat < 0x10000) (whole : c.toNat < 0xd800 ∨ 0xe000 ≤ c.toNat) :
      EscapedAs c (unitEscape c.toNat)
  | units {high low : Nat} (hhigh : high < 0x400) (hlow : low < 0x400)
      (parts : c.toNat = 0x10000 + high * 0x400 + low) :
      EscapedAs c (unitEscape (0xd800 + high) ++ unitEscape (0xdc00 + low))

theorem escapedAs_escapeChar (c : Char) : EscapedAs c (escapeChar c) := by
  have hvalid : c.toNat < 0xd800 ∨ 0xdfff < c.toNat ∧ c.toNat < 0x110000 := c.valid
  have hnumber {n : Nat} (h : (c.toNat == n) = true) : Char.ofNat n = c :=
    eq_of_beq h ▸ Char.ofNat_toNat c
  unfold escapeChar
  split
  · next h =>
    rw [eq_of_beq h]
    exact .short rfl
  split
  · next h =>
    rw [eq_of_beq h]
    exact .short rfl
  split
  · next h =>
    rw [eq_of_beq h]
    exact .short rfl
  split
  · next h =>
    rw [eq_of_beq h]
    exact .short rfl
  split
  · next h =>
    rw [eq_of_beq h]
    exact .short rfl
  split
  · next h => exact .short (congrArg some (hnumber h))
  split
  · next h => exact .short (congrArg some (hnumber h))
  split
  · next quote backslash _ _ _ _ _ h =>
    rw [Bool.and_eq_true, decide_eq_true_eq, decide_eq_true_eq] at h
    exact .itself h (mt beq_iff_eq.mpr quote) (mt beq_iff_eq.mpr backslash)
  split
  · next h => exact .unit h (by omega)
  · next h => exact .units (by omega) (by omega) (by omega)

/-- The first character that an escaped text stands for, and what follows. Two units make one
character if the first of them opens a pair and the second closes it, and neither is one by itself.
A control character does not stand for itself. -/
def unescape? (cs : List Char) : Option (Char × List Char) :=
  match cs with
  | '\\' :: 'u' :: _ => do
    let (unit, rest) ← takeUnit? cs
    if 0xd800 ≤ unit ∧ unit < 0xdc00 then
      let (low, rest) ← takeUnit? rest
      if 0xdc00 ≤ low ∧ low < 0xe000 then
        some (Char.ofNat (0x10000 + (unit - 0xd800) * 0x400 + (low - 0xdc00)), rest)
      else none
    else if 0xdc00 ≤ unit ∧ unit < 0xe000 then none
    else some (Char.ofNat unit, rest)
  | '\\' :: c :: rest => (shortEscape? c).map (·, rest)
  | c :: rest => if c.toNat < 32 then none else some (c, rest)
  | [] => none

theorem unescape?_short {c d : Char} (stands : shortEscape? d = some c) (rest : List Char) :
    unescape? ('\\' :: d :: rest) = some (c, rest) := by
  have hother : d ≠ 'u' := fun h => by
    rw [h] at stands
    cases stands
  unfold unescape?
  split
  · next h => exact absurd (List.cons.inj (List.cons.inj h).2).1 hother
  · next h =>
    obtain ⟨-, h⟩ := List.cons.inj h
    obtain ⟨rfl, rfl⟩ := List.cons.inj h
    rw [stands]
    rfl
  · next hnever h =>
    obtain ⟨rfl, rfl⟩ := List.cons.inj h
    exact (hnever _ _ rfl rfl).elim
  · next h => cases h

theorem unescape?_itself {c : Char} (h : c ≠ '\\') (raw : 32 ≤ c.toNat) (rest : List Char) :
    unescape? (c :: rest) = some (c, rest) := by
  unfold unescape?
  split
  · next heq => exact absurd (List.cons.inj heq).1 h
  · next heq => exact absurd (List.cons.inj heq).1 h
  · next heq =>
    obtain ⟨rfl, rfl⟩ := List.cons.inj heq
    rw [if_neg (Nat.not_lt.mpr raw)]
  · next heq => cases heq

theorem unescape?_unit {n : Nat} (small : n < 0x10000) (whole : n < 0xd800 ∨ 0xe000 ≤ n)
    (rest : List Char) : unescape? (unitEscape n ++ rest) = some (Char.ofNat n, rest) := by
  show (do let (unit, rest) ← takeUnit? (unitEscape n ++ rest); _) = _
  rw [takeUnit?_unitEscape small]
  show (if 0xd800 ≤ n ∧ n < 0xdc00 then _ else if 0xdc00 ≤ n ∧ n < 0xe000 then none else
    some (Char.ofNat n, rest)) = _
  rw [if_neg (by omega), if_neg (by omega)]

theorem unescape?_units {high low : Nat} (hhigh : high < 0x400) (hlow : low < 0x400)
    (rest : List Char) :
    unescape? (unitEscape (0xd800 + high) ++ unitEscape (0xdc00 + low) ++ rest) =
      some (Char.ofNat (0x10000 + high * 0x400 + low), rest) := by
  rw [List.append_assoc]
  show (do let (unit, rest) ← takeUnit? (unitEscape (0xd800 + high) ++ _); _) = _
  rw [takeUnit?_unitEscape (by omega)]
  show (if 0xd800 ≤ 0xd800 + high ∧ 0xd800 + high < 0xdc00 then
    (do let (low, rest) ← takeUnit? (unitEscape (0xdc00 + low) ++ rest); _) else _) = _
  rw [if_pos (by omega), takeUnit?_unitEscape (by omega)]
  show (if 0xdc00 ≤ 0xdc00 + low ∧ 0xdc00 + low < 0xe000 then
    some (Char.ofNat (0x10000 + (0xd800 + high - 0xd800) * 0x400 + (0xdc00 + low - 0xdc00)), rest)
      else none) = _
  rw [if_pos (by omega), Nat.add_sub_cancel_left, Nat.add_sub_cancel_left]

/-- Every character is read back from its escape, whatever follows. -/
theorem unescape?_escapeChar (c : Char) (rest : List Char) :
    unescape? (escapeChar c ++ rest) = some (c, rest) := by
  generalize hcs : escapeChar c = cs
  cases hcs ▸ escapedAs_escapeChar c with
  | short stands => exact unescape?_short stands rest
  | itself printable _ backslash => exact unescape?_itself backslash printable.1 rest
  | unit small whole => rw [unescape?_unit small whole, Char.ofNat_toNat]
  | units hhigh hlow parts => rw [unescape?_units hhigh hlow, ← parts, Char.ofNat_toNat]

/-- No escape begins as a text ends. -/
theorem escapeChar_append_ne (c : Char) (cs rest : List Char) :
    escapeChar c ++ cs ≠ '"' :: rest := by
  intro h
  generalize hds : escapeChar c = ds at h
  cases hds ▸ escapedAs_escapeChar c with
  | short | unit => cases h
  | itself _ quote => exact quote (List.cons.inj h).1
  | units =>
    rw [List.append_assoc] at h
    cases h

/-! ### Texts in quotes -/

/-- Escaped characters that are followed by a quote. -/
theorem escapes_cancel {cs ds rest rest' : List Char}
    (h : cs.flatMap escapeChar ++ '"' :: rest = ds.flatMap escapeChar ++ '"' :: rest') :
    cs = ds ∧ rest = rest' := by
  induction cs generalizing ds with
  | nil =>
    cases ds with
    | nil => exact ⟨rfl, (List.cons.inj h).2⟩
    | cons d ds =>
      rw [List.flatMap_cons, List.append_assoc] at h
      exact (escapeChar_append_ne _ _ _ h.symm).elim
  | cons c cs ih =>
    cases ds with
    | nil =>
      rw [List.flatMap_cons, List.append_assoc] at h
      exact (escapeChar_append_ne _ _ _ h).elim
    | cons d ds =>
      have hread := congrArg unescape? h
      rw [List.flatMap_cons, List.flatMap_cons, List.append_assoc, List.append_assoc,
        unescape?_escapeChar, unescape?_escapeChar] at hread
      obtain ⟨rfl, htail⟩ := Prod.mk.inj (Option.some.inj hread)
      obtain ⟨rfl, hrest⟩ := ih htail
      exact ⟨rfl, hrest⟩

theorem toList_escaped (s : String) :
    (escaped s).toList = '"' :: (s.toList.flatMap escapeChar ++ ['"']) := String.toList_ofList

/-- A text in quotes says where it ends. -/
theorem escaped_cancel {s t : String} {rest rest' : List Char}
    (h : (escaped s).toList ++ rest = (escaped t).toList ++ rest') : s = t ∧ rest = rest' := by
  rw [toList_escaped, toList_escaped, List.cons_append, List.cons_append, List.append_assoc,
    List.append_assoc] at h
  obtain ⟨hchars, hrest⟩ := escapes_cancel (List.cons.inj h).2
  exact ⟨String.toList_inj.mp hchars, hrest⟩

/-! ### Whole numbers -/

/-- What may follow a number: nothing that goes on with its digits. -/
def Ends (rest : List Char) : Prop := ∀ c ∈ rest.head?, c.isDigit = false

theorem ends_cons {c : Char} (h : c.isDigit = false) (rest : List Char) : Ends (c :: rest) := by
  intro d hd
  rwa [← Option.some.inj hd]

theorem valueOf_digitsOf (n : Nat) : valueOf ((digitsOf n).map (·.toNat - 48)) = n := by
  rw [valueOf_digits]
  exact Nat.ofDigitChars_toDigits (by decide) (by decide)

theorem digitsOf_cancel {m n : Nat} {rest rest' : List Char} (ends : Ends rest)
    (ends' : Ends rest') (h : digitsOf m ++ rest = digitsOf n ++ rest') : m = n ∧ rest = rest' := by
  have hm := Decimal.takeDigits_append rest (fun _ hc => isDigit_digitsOf (n := m) hc) ends
  have hn := Decimal.takeDigits_append rest' (fun _ hc => isDigit_digitsOf (n := n) hc) ends'
  rw [h, hn] at hm
  obtain ⟨hvalues, hrest⟩ := Prod.mk.inj hm
  refine ⟨?_, hrest.symm⟩
  rw [← valueOf_digitsOf m, ← hvalues, valueOf_digitsOf]

theorem toList_integerText (i : Int) :
    (integerText i).toList = (if i < 0 then ['-'] else []) ++ digitsOf i.natAbs := by
  unfold integerText
  split <;> simp

/-- The digits of a number do not begin with a sign. -/
theorem digitsOf_append_ne (n : Nat) (cs rest : List Char) : digitsOf n ++ cs ≠ '-' :: rest := by
  intro h
  obtain ⟨d, ds, hd⟩ :=
    List.exists_cons_of_ne_nil (l := digitsOf n) Nat.toDigits_ne_nil
  have hdigit : d.isDigit = true := isDigit_digitsOf (n := n) (hd ▸ List.mem_cons_self)
  rw [hd] at h
  obtain ⟨rfl, -⟩ := List.cons.inj h
  cases hdigit

/-- A whole number ends where its digits do. -/
theorem integerText_cancel {i j : Int} {rest rest' : List Char} (ends : Ends rest)
    (ends' : Ends rest') (h : (integerText i).toList ++ rest = (integerText j).toList ++ rest') :
    i = j ∧ rest = rest' := by
  rw [toList_integerText, toList_integerText] at h
  by_cases hi : i < 0 <;> by_cases hj : j < 0
  · rw [if_pos hi, if_pos hj] at h
    obtain ⟨hsize, hrest⟩ := digitsOf_cancel ends ends' (List.cons.inj h).2
    exact ⟨by omega, hrest⟩
  · rw [if_pos hi, if_neg hj] at h
    exact (digitsOf_append_ne _ _ _ h.symm).elim
  · rw [if_neg hi, if_pos hj] at h
    exact (digitsOf_append_ne _ _ _ h).elim
  · rw [if_neg hi, if_neg hj] at h
    obtain ⟨hsize, hrest⟩ := digitsOf_cancel ends ends' h
    exact ⟨by omega, hrest⟩

/-! ### Sequences -/

/-- The parts of a sequence with what separates them, up to the closing bracket. -/
def sequence (close : Char) (parts : List (List Char)) : List Char :=
  [',', ' '].intercalate parts ++ [close]

theorem sequence_cons (close : Char) (part : List Char) (parts : List (List Char)) :
    sequence close (part :: parts) =
      part ++ (parts.flatMap ([',', ' '] ++ ·) ++ [close]) := by
  unfold sequence
  rw [← List.append_assoc]
  congr 1
  induction parts generalizing part with
  | nil => simp
  | cons next parts ih => rw [List.intercalate_cons_cons, ih, List.flatMap_cons]; simp

section Sequences
variable {α β : Type} {f : α → List Char} {g : β → List Char} {Same : α → β → Prop} {close : Char}
  {xs : List α} {ys : List β} {rest rest' : List Char}

/-- Parts that say where they end, each behind a comma. -/
theorem parts_cancel (other : close ≠ ',') (digitless : close.isDigit = false)
    (each : ∀ x ∈ xs, ∀ y ∈ ys, ∀ r r', Ends r → Ends r' → f x ++ r = g y ++ r' →
      Same x y ∧ r = r')
    (h : (xs.map f).flatMap ([',', ' '] ++ ·) ++ close :: rest =
      (ys.map g).flatMap ([',', ' '] ++ ·) ++ close :: rest') :
    List.Forall₂ Same xs ys ∧ rest = rest' := by
  have ends (zs : List (List Char)) (r : List Char) :
      Ends (zs.flatMap ([',', ' '] ++ ·) ++ close :: r) := by
    cases zs with
    | nil => exact ends_cons digitless r
    | cons => exact ends_cons (by decide) _
  induction xs generalizing ys with
  | nil =>
    cases ys with
    | nil => exact ⟨.nil, (List.cons.inj h).2⟩
    | cons => exact absurd (List.cons.inj h).1 other
  | cons x xs ih =>
    cases ys with
    | nil => exact absurd (List.cons.inj h).1.symm other
    | cons y ys =>
      rw [List.map_cons, List.map_cons, List.flatMap_cons, List.flatMap_cons, List.append_assoc,
        List.append_assoc, List.append_assoc, List.append_assoc] at h
      obtain ⟨hxy, htail⟩ := each x List.mem_cons_self y List.mem_cons_self _ _ (ends _ _)
        (ends _ _) (List.append_cancel_left h)
      obtain ⟨hxs, hrest⟩ := ih (fun x hx y hy => each x (List.mem_cons_of_mem _ hx) y
        (List.mem_cons_of_mem _ hy)) htail
      exact ⟨.cons hxy hxs, hrest⟩

/-- A sequence ends at its bracket, if its parts say where they end and none begins with a
bracket. -/
theorem sequence_cancel (other : close ≠ ',') (digitless : close.isDigit = false)
    (each : ∀ x ∈ xs, ∀ y ∈ ys, ∀ r r', Ends r → Ends r' → f x ++ r = g y ++ r' →
      Same x y ∧ r = r')
    (hf : ∀ x ∈ xs, ∀ r r', f x ++ r ≠ close :: r') (hg : ∀ y ∈ ys, ∀ r r', g y ++ r ≠ close :: r')
    (h : sequence close (xs.map f) ++ rest = sequence close (ys.map g) ++ rest') :
    List.Forall₂ Same xs ys ∧ rest = rest' := by
  cases xs with
  | nil =>
    cases ys with
    | nil => exact ⟨.nil, (List.cons.inj h).2⟩
    | cons y ys =>
      rw [List.map_cons, sequence_cons, List.append_assoc] at h
      exact absurd h.symm (hg y List.mem_cons_self _ _)
  | cons x xs =>
    cases ys with
    | nil =>
      rw [List.map_cons, sequence_cons, List.append_assoc] at h
      exact absurd h (hf x List.mem_cons_self _ _)
    | cons y ys =>
      refine parts_cancel other digitless each ?_
      rw [List.map_cons, List.map_cons, sequence_cons, sequence_cons] at h
      simp only [List.append_assoc, List.singleton_append] at h
      rw [List.map_cons, List.map_cons, List.flatMap_cons, List.flatMap_cons]
      simp only [List.append_assoc, h]

end Sequences

end TipJar.Text
