import Mathlib.Data.Int.Log
import Mathlib.Data.List.TakeWhile
import Mathlib.Data.Rat.Floor
import SlopSync.F32

/-! # The number parsers of the C library

`strtoul` and `strtof` in the "C" locale.  A `char` is the character of its number.  Either function returns the value and
what it leaves of the string, which is all of it when there is no number at its front.

* `strtoul_digits`, `strtof_number` — what they make of a string that is a number. -/

namespace SlopSync

/-! ## Rounding -/

namespace F32

/-- To the nearest integer, a tie to the even one. -/
def roundEven (q : ℚ) : ℤ :=
  let k := ⌊q⌋
  if q - k < 1 / 2 ∨ q - k = 1 / 2 ∧ k % 2 = 0 then k else k + 1

/-- The unit in the last place of the binary32 numbers around `q` is `2 ^ ulpExponent q`. -/
def ulpExponent (q : ℚ) : ℤ := max (Int.log 2 |q|) (-126) - 23

/-- The nearest binary32, an infinity where there is none. -/
def nearest (q : ℚ) : F32 :=
  let r := roundEven (q / 2 ^ ulpExponent q) * (2 : ℚ) ^ ulpExponent q
  if r ≤ -2 ^ 128 then negInf else if 2 ^ 128 ≤ r then posInf else fin r

def finite : F32 → Bool
  | fin _ => true
  | _ => false

end F32

/-! ## Characters -/

def isSpace (c : Char) : Bool := c.toNat == 32 || (9 ≤ c.toNat && c.toNat ≤ 13)

/-- The value of a digit of a base up to 16; 16 where there is none. -/
def digitValue (c : Char) : Nat :=
  if '0' ≤ c ∧ c ≤ '9' then c.toNat - 48
  else if 'a' ≤ c ∧ c ≤ 'f' then c.toNat - 87
  else if 'A' ≤ c ∧ c ≤ 'F' then c.toNat - 55
  else 16

def isDigit (base : Nat) (c : Char) : Bool := digitValue c < base

def digitsValue (base : Nat) (ds : List Char) : Nat := ds.foldl (fun n c => n * base + digitValue c) 0

/-- A string ends at the first NUL. -/
def cString (s : List Char) : List Char := s.takeWhile (· ≠ '\x00')

/-- Whether there is a minus sign, and what follows the sign. -/
def sign : List Char → Bool × List Char
  | '-' :: s => (true, s)
  | '+' :: s => (false, s)
  | s => (false, s)

/-! ## `strtoul` -/

/-- A `0x` that a hexadecimal digit follows is passed over. -/
def hexPrefix : List Char → List Char
  | '0' :: x :: d :: s => if (x = 'x' ∨ x = 'X') ∧ isDigit 16 d = true then d :: s else '0' :: x :: d :: s
  | s => s

/-- An `unsigned long` has `bits` bits.  A number that is too large is the largest one, and one with a minus sign is negated
as an `unsigned long`. -/
def strtoul (bits base : Nat) (s : List Char) : Nat × List Char :=
  let (negative, t) := sign (s.dropWhile isSpace)
  let t := if base = 16 then hexPrefix t else t
  let ds := t.takeWhile (isDigit base)
  if ds = [] then (0, s)
  else
    let n := digitsValue base ds
    (if 2 ^ bits ≤ n then 2 ^ bits - 1 else if negative then (2 ^ bits - n) % 2 ^ bits else n,
      t.dropWhile (isDigit base))

/-! ## `strtof` -/

inductive FloatLiteral
  | number (q : ℚ)
  | infinity
  | notNumber
  deriving DecidableEq, Repr

/-- Digits with a point among them: their value without the point, and how many stand behind it. -/
def mantissa (base : Nat) (s : List Char) : Option (Nat × Nat × List Char) :=
  let whole := s.takeWhile (isDigit base)
  let (fraction, s) : List Char × List Char := match s.dropWhile (isDigit base) with
    | '.' :: t => (t.takeWhile (isDigit base), t.dropWhile (isDigit base))
    | t => ([], t)
  if whole = [] ∧ fraction = [] then none
  else some (digitsValue base (whole ++ fraction), fraction.length, s)

/-- An exponent behind the letter `mark`, when digits follow it. -/
def exponent (mark : Char) (s : List Char) : ℤ × List Char :=
  match s with
  | [] => (0, [])
  | c :: t =>
    let (negative, u) := sign t
    let ds := u.takeWhile (isDigit 10)
    if c.toLower ≠ mark ∨ ds = [] then (0, s)
    else (if negative then -digitsValue 10 ds else digitsValue 10 ds, u.dropWhile (isDigit 10))

def decimalLiteral (s : List Char) : Option (FloatLiteral × List Char) :=
  (mantissa 10 s).map fun (n, places, s) =>
    let (e, s) := exponent 'e' s
    (.number (n * (10 : ℚ) ^ (e - places)), s)

def hexLiteral (s : List Char) : Option (FloatLiteral × List Char) :=
  (mantissa 16 s).map fun (n, places, s) =>
    let (e, s) := exponent 'p' s
    (.number (n * (2 : ℚ) ^ (e - 4 * places)), s)

/-- What may follow `nan`: letters, digits and underscores in parentheses. -/
def afterNan : List Char → List Char
  | '(' :: s =>
    match s.dropWhile (fun c => c.isAlphanum || c == '_') with
    | ')' :: t => t
    | _ => '(' :: s
  | s => s

/-- The longest literal at the front. -/
def floatLiteral (s : List Char) : Option (FloatLiteral × List Char) :=
  if (s.take 8).map Char.toLower = "infinity".toList then some (.infinity, s.drop 8)
  else if (s.take 3).map Char.toLower = "inf".toList then some (.infinity, s.drop 3)
  else if (s.take 3).map Char.toLower = "nan".toList then some (.notNumber, afterNan (s.drop 3))
  else if (s.take 2).map Char.toLower = "0x".toList then (hexLiteral (s.drop 2)).or (decimalLiteral s)
  else decimalLiteral s

def signed (negative : Bool) : FloatLiteral → F32
  | .number q => .nearest (if negative then -q else q)
  | .infinity => if negative then .negInf else .posInf
  | .notNumber => .nan

def strtof (s : List Char) : F32 × List Char :=
  let (negative, t) := sign (s.dropWhile isSpace)
  match floatLiteral t with
  | none => (.fin 0, s)
  | some (l, t) => (signed negative l, t)

/-! ## Numbers -/

/-- The integers that stand alone, in decimal with a sign or in hexadecimal. -/
inductive IsInteger : List Char → ℤ → Prop
  | decimal {ds : List Char} (h : ds ≠ []) (hds : ∀ c ∈ ds, isDigit 10 c = true) : IsInteger ds (digitsValue 10 ds)
  | plus {ds : List Char} (h : ds ≠ []) (hds : ∀ c ∈ ds, isDigit 10 c = true) : IsInteger ('+' :: ds) (digitsValue 10 ds)
  | minus {ds : List Char} (h : ds ≠ []) (hds : ∀ c ∈ ds, isDigit 10 c = true) : IsInteger ('-' :: ds) (-digitsValue 10 ds)
  | hex {ds : List Char} {x : Char} (hx : x = 'x' ∨ x = 'X') (h : ds ≠ []) (hds : ∀ c ∈ ds, isDigit 16 c = true) :
    IsInteger ('0' :: x :: ds) (digitsValue 16 ds)

/-- A number that stands alone: all of the string is one literal, and no infinity or NaN. -/
def IsNumber (s : List Char) (q : ℚ) : Prop :=
  (∀ c ∈ s, c ≠ '\x00' ∧ isSpace c = false) ∧
    ∃ r, floatLiteral (sign s).2 = some (.number r, []) ∧ q = if (sign s).1 = true then -r else r

section

variable {base : Nat} {c : Char} {s ds : List Char} {q : ℚ}

theorem le_of_isDigit (hbase : base ≤ 16) (h : isDigit base c = true) : 48 ≤ c.toNat := by
  have hlt : digitValue c < 16 := Nat.lt_of_lt_of_le (of_decide_eq_true h) hbase
  unfold digitValue at hlt
  split at hlt
  · rename_i hc
    exact hc.1
  · split at hlt
    · rename_i hc
      exact Nat.le_trans (by decide) (show 'a'.toNat ≤ c.toNat from hc.1)
    · split at hlt
      · rename_i hc
        exact Nat.le_trans (by decide) (show 'A'.toNat ≤ c.toNat from hc.1)
      · exact absurd hlt (by decide)

/-- A digit is no blank, no NUL and no sign. -/
theorem ne_of_isDigit (hbase : base ≤ 16) (h : isDigit base c = true) :
    isSpace c = false ∧ c ≠ '\x00' ∧ c ≠ '-' ∧ c ≠ '+' := by
  have hle := le_of_isDigit hbase h
  refine ⟨?_, ?_, ?_, ?_⟩
  · simp only [isSpace, Bool.or_eq_false_iff, beq_eq_false_iff_ne, Bool.and_eq_false_iff, decide_eq_false_iff_not]
    omega
  all_goals
    rintro rfl
    exact absurd hle (by decide)

theorem cString_eq (h : ∀ c ∈ s, c ≠ '\x00') : cString s = s :=
  List.takeWhile_eq_self_iff.mpr fun c hc => by simpa using h c hc

theorem dropSpace_eq (h : ∀ c ∈ s, isSpace c = false) : s.dropWhile isSpace = s := by
  cases s with
  | nil => rfl
  | cons c s => exact List.dropWhile_cons_of_neg (by simpa using h c List.mem_cons_self)

theorem sign_digits (hbase : base ≤ 16) (hds : ∀ c ∈ ds, isDigit base c = true) : sign ds = (false, ds) := by
  cases ds with
  | nil => rfl
  | cons c ds =>
    obtain ⟨-, -, hminus, hplus⟩ := ne_of_isDigit hbase (hds c List.mem_cons_self)
    unfold sign
    split
    · rename_i heq
      exact absurd (List.cons.inj heq).1 hminus
    · rename_i heq
      exact absurd (List.cons.inj heq).1 hplus
    · rfl

/-- What `strtoul` makes of digits, behind the sign and the prefix. -/
theorem strtoul_digits {bits : Nat} {negative : Bool} {t : List Char} (hspace : s.dropWhile isSpace = s)
    (hsign : sign s = (negative, t)) (hnoHex : (if base = 16 then hexPrefix t else t) = ds) (h : ds ≠ [])
    (hds : ∀ c ∈ ds, isDigit base c = true) :
    strtoul bits base s = (if 2 ^ bits ≤ digitsValue base ds then 2 ^ bits - 1
      else if negative then (2 ^ bits - digitsValue base ds) % 2 ^ bits else digitsValue base ds, []) := by
  have htake : ds.takeWhile (isDigit base) = ds := List.takeWhile_eq_self_iff.mpr hds
  have hdrop : ds.dropWhile (isDigit base) = [] := List.dropWhile_eq_nil_iff.mpr hds
  unfold strtoul
  rw [hspace, hsign]
  dsimp only
  rw [hnoHex, htake, hdrop, if_neg h]

/-- `strtof` rounds a number to the nearest. -/
theorem strtof_number (h : IsNumber s q) : strtof (cString s) = (.nearest q, []) := by
  obtain ⟨hchars, r, hliteral, rfl⟩ := h
  rw [cString_eq fun c hc => (hchars c hc).1, strtof, dropSpace_eq fun c hc => (hchars c hc).2]
  dsimp only
  rw [hliteral]
  rfl

end

end SlopSync
