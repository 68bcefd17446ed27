import QuantaSwap.Lib.Json
import QuantaSwap.Lib.Decimal

/-!
# The text of a JSON value, written and read

`stringify` writes what `JSON.stringify` does and `parse` reads what `JSON.parse`
does. A value of integers up to 2⁵³ whose objects name no property twice reads
back as itself.
-/

set_option autoImplicit false

namespace Lib.Js

open Lib.Text

/-! ## Writing -/

def hexDigit (n : Nat) : Char := Nat.digitChar n

/-- One character inside a string. -/
def escapeChar (c : Char) : List Char :=
  if c = '"' then ['\\', '"']
  else if c = '\\' then ['\\', '\\']
  else if c = '\x08' then ['\\', 'b']
  else if c = '\x0c' then ['\\', 'f']
  else if c = '\n' then ['\\', 'n']
  else if c = '\r' then ['\\', 'r']
  else if c = '\t' then ['\\', 't']
  else if c.toNat < 32 then ['\\', 'u', '0', '0', hexDigit (c.toNat / 16), hexDigit (c.toNat % 16)]
  else [c]

def quoted (s : String) : List Char := '"' :: (s.toList.flatMap escapeChar ++ ['"'])

/-- The digits of an integer below 10²¹. -/
def integer (z : Int) : List Char :=
  if z < 0 then '-' :: Nat.toDigits 10 z.natAbs else Nat.toDigits 10 z.natAbs

/-- An infinity has no text of its own. -/
def numeral : Num → List Char
  | .int z => integer z
  | .negZero => ['0']
  | .other => ['n', 'u', 'l', 'l']

mutual

/-- `JSON.stringify(v)` -/
def stringify : Json → List Char
  | .null => ['n', 'u', 'l', 'l']
  | .bool true => ['t', 'r', 'u', 'e']
  | .bool false => ['f', 'a', 'l', 's', 'e']
  | .num n => numeral n
  | .str s => quoted s
  | .arr [] => ['[', ']']
  | .arr (v :: vs) => '[' :: (stringify v ++ elements vs)
  | .obj [] => ['{', '}']
  | .obj ((key, v) :: fields) => '{' :: (quoted key ++ ':' :: (stringify v ++ members fields))

/-- The elements after the first one, and the end of the array. -/
def elements : List Json → List Char
  | [] => [']']
  | v :: vs => ',' :: (stringify v ++ elements vs)

/-- The properties after the first one, and the end of the object. -/
def members : List (String × Json) → List Char
  | [] => ['}']
  | (key, v) :: fields => ',' :: (quoted key ++ ':' :: (stringify v ++ members fields))

end

/-! ## Reading -/

def isSpace (c : Char) : Bool := c == ' ' || c == '\t' || c == '\n' || c == '\r'

def skipSpace (cs : List Char) : List Char := cs.dropWhile isSpace

def hexValue (c : Char) : Option Nat :=
  if isDigit c then some (c.toNat - 48)
  else if 'a' ≤ c ∧ c ≤ 'f' then some (c.toNat - 87)
  else if 'A' ≤ c ∧ c ≤ 'F' then some (c.toNat - 55)
  else none

/-- A string is made of characters and of escaped code units. -/
inductive Piece where
  | char (c : Char)
  | unit (n : Nat)

def codeUnit (a b c d : Char) : Option Piece := do
  let a ← hexValue a
  let b ← hexValue b
  let c ← hexValue c
  let d ← hexValue d
  return .unit (((a * 16 + b) * 16 + c) * 16 + d)

def simpleEscape : Char → Option Piece
  | '"' => some (.char '"')
  | '\\' => some (.char '\\')
  | '/' => some (.char '/')
  | 'b' => some (.char '\x08')
  | 'f' => some (.char '\x0c')
  | 'n' => some (.char '\n')
  | 'r' => some (.char '\r')
  | 't' => some (.char '\t')
  | _ => none

/-- The rest of a string, up to its closing quote. -/
def stringBody : List Char → Option (List Piece × List Char)
  | [] => none
  | '"' :: rest => some ([], rest)
  | '\\' :: 'u' :: a :: b :: c :: d :: rest => do
    let piece ← codeUnit a b c d
    let (pieces, rest) ← stringBody rest
    return (piece :: pieces, rest)
  | '\\' :: c :: rest => do
    let piece ← simpleEscape c
    let (pieces, rest) ← stringBody rest
    return (piece :: pieces, rest)
  | c :: rest =>
    if c.toNat < 32 then none
    else do
      let (pieces, rest) ← stringBody rest
      return (.char c :: pieces, rest)

def isHighSurrogate (n : Nat) : Bool := 0xD800 ≤ n && n ≤ 0xDBFF

def isLowSurrogate (n : Nat) : Bool := 0xDC00 ≤ n && n ≤ 0xDFFF

/-- Two code units may make one character. A lone surrogate is no character; it is
written as U+FFFD wherever it leaves the program. -/
def characters : List Piece → List Char
  | [] => []
  | .char c :: rest => c :: characters rest
  | .unit high :: .unit low :: rest =>
    if isHighSurrogate high ∧ isLowSurrogate low then
      Char.ofNat (0x10000 + (high - 0xD800) * 0x400 + (low - 0xDC00)) :: characters rest
    else if isHighSurrogate high ∨ isLowSurrogate high then
      '\uFFFD' :: characters (.unit low :: rest)
    else Char.ofNat high :: characters (.unit low :: rest)
  | .unit n :: rest =>
    (if isHighSurrogate n ∨ isLowSurrogate n then '\uFFFD' else Char.ofNat n) :: characters rest

/-- `n / d` to the nearest integer, ties to even. -/
def halfEven (n d : Nat) : Nat :=
  let q := n / d
  let r := n % d
  if d < 2 * r ∨ (d = 2 * r ∧ q % 2 = 1) then q + 1 else q

/-- The double nearest to the positive number `n / d`, as far as it is an integer. -/
def nearest (n d : Nat) : Option Nat :=
  if n < d then
    -- The doubles next to one and to zero are 1 - 2⁻⁵³ and 2⁻¹⁰⁷⁴.
    if 2 ^ 54 * (d - n) ≤ d then some 1
    else if n * 2 ^ 1075 ≤ d then some 0
    else none
  else
    let top := (n / d).log2
    if 1024 ≤ top then none
    else if 52 ≤ top then
      let m := halfEven n (d * 2 ^ (top - 52)) * 2 ^ (top - 52)
      if 2 ^ 1024 ≤ m then none else some m
    else
      let m := halfEven (n * 2 ^ (52 - top)) d
      if m % 2 ^ (52 - top) = 0 then some (m / 2 ^ (52 - top)) else none

/-- The number of a sign, its digits before and behind the point, and its exponent. -/
def numberOf (negative : Bool) (whole fraction : List Char) (exponent : Int) : Num :=
  let m := Nat.ofDigitChars 10 (whole ++ fraction) 0
  let scale := exponent - fraction.length
  let value := if m = 0 then some 0
    else if 0 ≤ scale then nearest (m * 10 ^ scale.toNat) 1
    else nearest m (10 ^ scale.natAbs)
  match value with
  | none => .other
  | some 0 => if negative then .negZero else .int 0
  | some n => .int (if negative then -n else n)

/-- Digits, at least one. -/
def digits (cs : List Char) : Option (List Char × List Char) :=
  match cs.takeWhile isDigit with
  | [] => none
  | ds => some (ds, cs.dropWhile isDigit)

/-- A whole part has no leading zero. -/
def whole : List Char → Option (List Char × List Char)
  | '0' :: rest => some (['0'], rest)
  | cs => digits cs

def fraction : List Char → Option (List Char × List Char)
  | '.' :: rest => digits rest
  | cs => some ([], cs)

def signedDigits (sign : Int) (cs : List Char) : Option (Int × List Char) := do
  let (ds, rest) ← digits cs
  return (sign * Nat.ofDigitChars 10 ds 0, rest)

def exponentOf : List Char → Option (Int × List Char)
  | '+' :: rest => signedDigits 1 rest
  | '-' :: rest => signedDigits (-1) rest
  | cs => signedDigits 1 cs

def exponent : List Char → Option (Int × List Char)
  | 'e' :: rest => exponentOf rest
  | 'E' :: rest => exponentOf rest
  | cs => some (0, cs)

def unsigned (negative : Bool) (cs : List Char) : Option (Num × List Char) := do
  let (w, cs) ← whole cs
  let (f, cs) ← fraction cs
  let (e, cs) ← exponent cs
  return (numberOf negative w f e, cs)

def number : List Char → Option (Num × List Char)
  | '-' :: rest => unsigned true rest
  | cs => unsigned false cs

/-- `object[key] = v` of an own property. -/
def setField (fields : List (String × Json)) (key : String) (v : Json) : List (String × Json) :=
  if key ∈ fields.map Prod.fst then fields.map fun f => if f.1 = key then (key, v) else f
  else fields ++ [(key, v)]

def keyOf (cs : List Char) : Option (String × List Char) :=
  match skipSpace cs with
  | '"' :: rest => do
    let (pieces, rest) ← stringBody rest
    match skipSpace rest with
    | ':' :: rest => some (String.ofList (characters pieces), rest)
    | _ => none
  | _ => none

mutual

/-- A value at the start of `cs`, and what follows it. `fuel` bounds the nesting and the
number of elements. -/
def value : Nat → List Char → Option (Json × List Char)
  | 0, _ => none
  | fuel + 1, cs =>
    match skipSpace cs with
    | 'n' :: 'u' :: 'l' :: 'l' :: rest => some (.null, rest)
    | 't' :: 'r' :: 'u' :: 'e' :: rest => some (.bool true, rest)
    | 'f' :: 'a' :: 'l' :: 's' :: 'e' :: rest => some (.bool false, rest)
    | '"' :: rest => do
      let (pieces, rest) ← stringBody rest
      return (.str (String.ofList (characters pieces)), rest)
    | '[' :: rest =>
      match skipSpace rest with
      | ']' :: rest => some (.arr [], rest)
      | _ => do
        let (v, rest) ← value fuel rest
        elementsTail fuel [v] rest
    | '{' :: rest =>
      match skipSpace rest with
      | '}' :: rest => some (.obj [], rest)
      | _ => do
        let (key, rest) ← keyOf rest
        let (v, rest) ← value fuel rest
        membersTail fuel [(key, v)] rest
    | rest => do
      let (n, rest) ← number rest
      return (.num n, rest)

def elementsTail : Nat → List Json → List Char → Option (Json × List Char)
  | 0, _, _ => none
  | fuel + 1, vs, cs =>
    match skipSpace cs with
    | ']' :: rest => some (.arr vs, rest)
    | ',' :: rest => do
      let (v, rest) ← value fuel rest
      elementsTail fuel (vs ++ [v]) rest
    | _ => none

/-- A property that comes twice keeps its first place and its last value. -/
def membersTail : Nat → List (String × Json) → List Char → Option (Json × List Char)
  | 0, _, _ => none
  | fuel + 1, fields, cs =>
    match skipSpace cs with
    | '}' :: rest => some (.obj fields, rest)
    | ',' :: rest => do
      let (key, rest) ← keyOf rest
      let (v, rest) ← value fuel rest
      membersTail fuel (setField fields key v) rest
    | _ => none

end

/-- `JSON.parse(text)`, `none` when it throws. -/
def parse (text : List Char) : Option Json := do
  let (v, rest) ← value (text.length + 1) text
  if skipSpace rest = [] then some v else none

/-! ## What was written reads back -/

theorem skipSpace_cons {c : Char} (h : isSpace c = false) (cs : List Char) :
    skipSpace (c :: cs) = c :: cs :=
  List.dropWhile_cons_of_neg (by simp [h])

/-! ### Strings -/

theorem hexValue_hexDigit : ∀ n, n < 16 → hexValue (hexDigit n) = some n := by decide

theorem characters_char (c : Char) (ps : List Piece) :
    characters (.char c :: ps) = c :: characters ps := by
  rw [characters]

theorem characters_unit {n : Nat} (h : n < 32) (ps : List Piece) :
    characters (.unit n :: ps) = Char.ofNat n :: characters ps := by
  have hhigh : isHighSurrogate n = false := by
    simp only [isHighSurrogate, Bool.and_eq_false_iff, decide_eq_false_iff_not]
    omega
  have hlow : isLowSurrogate n = false := by
    simp only [isLowSurrogate, Bool.and_eq_false_iff, decide_eq_false_iff_not]
    omega
  cases ps with
  | nil => simp [characters, hhigh, hlow]
  | cons p ps => cases p <;> simp [characters, hhigh, hlow]

theorem stringBody_char {c : Char} (h : c.toNat ≥ 32) (hquote : c ≠ '"') (hslash : c ≠ '\\')
    (cs : List Char) :
    stringBody (c :: cs) = (stringBody cs).map fun r => (.char c :: r.1, r.2) := by
  rw [stringBody.eq_def]
  split
  · rename_i heq; cases heq
  · rename_i heq; exact absurd (List.cons.inj heq).1 hquote
  · rename_i heq; exact absurd (List.cons.inj heq).1 hslash
  · rename_i heq; exact absurd (List.cons.inj heq).1 hslash
  · rename_i heq
    obtain ⟨rfl, rfl⟩ := List.cons.inj heq
    rw [if_neg (by omega)]
    cases stringBody cs <;> rfl

theorem stringBody_escapeChar (c : Char) :
    ∃ p : Piece, (∀ cs, stringBody (escapeChar c ++ cs) =
      (stringBody cs).map fun r => (p :: r.1, r.2)) ∧
      ∀ ps, characters (p :: ps) = c :: characters ps := by
  have hsimple (d : Char) (e : Char) (hu : e ≠ 'u') (h : simpleEscape e = some (.char d))
    (cs : List Char) :
      stringBody ('\\' :: e :: cs) = (stringBody cs).map fun r => (.char d :: r.1, r.2) := by
    rw [stringBody.eq_def]
    split
    · rename_i heq; cases heq
    · rename_i heq; exact absurd (List.cons.inj heq).1 (by decide)
    · rename_i heq; exact absurd (List.cons.inj (List.cons.inj heq).2).1 hu
    · rename_i heq
      obtain ⟨rfl, rfl⟩ := List.cons.inj (List.cons.inj heq).2
      rw [h]
      cases stringBody cs <;> rfl
    · rename_i hne heq
      obtain ⟨rfl, rfl⟩ := List.cons.inj heq
      exact absurd rfl (hne _ _ rfl)
  unfold escapeChar
  split
  · rename_i hc; subst hc; exact ⟨.char '"', hsimple _ _ (by decide) rfl, characters_char _⟩
  split
  · rename_i hc; subst hc; exact ⟨.char '\\', hsimple _ _ (by decide) rfl, characters_char _⟩
  split
  · rename_i hc; subst hc; exact ⟨.char '\x08', hsimple _ _ (by decide) rfl, characters_char _⟩
  split
  · rename_i hc; subst hc; exact ⟨.char '\x0c', hsimple _ _ (by decide) rfl, characters_char _⟩
  split
  · rename_i hc; subst hc; exact ⟨.char '\n', hsimple _ _ (by decide) rfl, characters_char _⟩
  split
  · rename_i hc; subst hc; exact ⟨.char '\r', hsimple _ _ (by decide) rfl, characters_char _⟩
  split
  · rename_i hc; subst hc; exact ⟨.char '\t', hsimple _ _ (by decide) rfl, characters_char _⟩
  split
  · rename_i hlt
    refine ⟨.unit c.toNat, fun cs => ?_, fun ps => ?_⟩
    · have hunit : codeUnit '0' '0' (hexDigit (c.toNat / 16)) (hexDigit (c.toNat % 16)) =
          some (.unit c.toNat) := by
        simp only [codeUnit, hexValue_hexDigit _ (show c.toNat / 16 < 16 by omega),
          hexValue_hexDigit _ (Nat.mod_lt _ (by omega : 0 < 16)),
            show hexValue '0' = some 0 from rfl,
          Option.bind_eq_bind, Option.bind_some, Option.pure_def, Option.some.injEq,
            Piece.unit.injEq]
        omega
      simp only [List.cons_append, List.nil_append, stringBody, hunit, Option.bind_eq_bind,
        Option.bind_some]
      cases stringBody cs <;> rfl
    · rw [characters_unit hlt, Char.ofNat_toNat]
  · rename_i hquote hslash _ _ _ _ _ hge
    exact ⟨.char c, stringBody_char (by omega) hquote hslash, characters_char c⟩

theorem stringBody_escaped (s : List Char) (rest : List Char) :
    ∃ ps, stringBody (s.flatMap escapeChar ++ '"' :: rest) = some (ps, rest) ∧
    characters ps = s := by
  induction s with
  | nil => exact ⟨[], by simp [stringBody], by simp [characters]⟩
  | cons c s ih =>
    obtain ⟨ps, hread, hchars⟩ := ih
    obtain ⟨p, hp, hpc⟩ := stringBody_escapeChar c
    refine ⟨p :: ps, ?_, by rw [hpc, hchars]⟩
    rw [List.flatMap_cons, List.append_assoc, hp, hread, Option.map_some]

/-! ### Numbers -/

theorem halfEven_one (n : Nat) : halfEven n 1 = n := by
  simp [halfEven, Nat.mod_one]

theorem nearest_one {n : Nat} (hpos : 0 < n) (h : n ≤ 2 ^ 53) : nearest n 1 = some n := by
  rcases Nat.lt_or_eq_of_le h with hlt | rfl
  · have hlog : n.log2 < 53 := (Nat.log2_lt (by omega)).mpr hlt
    unfold nearest
    rw [if_neg (by omega), Nat.div_one]
    dsimp only
    rw [if_neg (by omega)]
    split
    · have htop : n.log2 - 52 = 0 := by omega
      rw [htop, Nat.pow_zero, Nat.mul_one, Nat.mul_one, halfEven_one, if_neg]
      apply Nat.not_le_of_lt
      calc n < 2 ^ 53 := hlt
        _ ≤ 2 ^ 1024 := Nat.pow_le_pow_right (by decide) (by decide)
    · rw [halfEven_one, if_pos (Nat.mul_mod_left _ _), Nat.mul_div_cancel _ (Nat.two_pow_pos _)]
  · decide +kernel

/-- What may follow a number. -/
def Stops (rest : List Char) : Prop :=
  ∀ c ∈ rest.head?, isDigit c = false ∧ c ≠ '.' ∧ c ≠ 'e' ∧ c ≠ 'E'

theorem takeWhile_toDigits (n : Nat) {rest : List Char} (h : Stops rest) :
    (Nat.toDigits 10 n ++ rest).takeWhile isDigit = Nat.toDigits 10 n ∧
      (Nat.toDigits 10 n ++ rest).dropWhile isDigit = rest := by
  have hall : ∀ c ∈ Nat.toDigits 10 n, isDigit c = true := fun c hc =>
    (Lib.Decimal.isDigit_iff c).mpr (Nat.isDigit_of_mem_toDigits (by decide) (by decide) hc)
  rw [List.takeWhile_append_of_pos hall, List.dropWhile_append_of_pos hall]
  cases rest with
  | nil => simp
  | cons c rest =>
    have hc := (h c (by simp)).1
    simp [hc]

theorem digits_toDigits (n : Nat) {rest : List Char} (h : Stops rest) :
    digits (Nat.toDigits 10 n ++ rest) = some (Nat.toDigits 10 n, rest) := by
  obtain ⟨htake, hdrop⟩ := takeWhile_toDigits n h
  unfold digits
  rw [htake, hdrop]
  cases hds : Nat.toDigits 10 n with
  | nil => exact absurd hds Nat.toDigits_ne_nil
  | cons d ds => rfl

theorem exists_toDigits_cons (n : Nat) : ∃ d ds, Nat.toDigits 10 n = d :: ds ∧ isDigit d = true ∧
    (0 < n → d ≠ '0') := by
  induction n using Nat.strongRecOn with
  | ind n ih =>
    rw [Nat.toDigits_eq_if (by decide)]
    split
    · rename_i hlt
      have hfacts : ∀ k, k < 10 → isDigit k.digitChar = true ∧ (0 < k → k.digitChar ≠ '0') := by
        decide
      exact ⟨_, [], rfl, hfacts n hlt⟩
    · obtain ⟨d, ds, hds, hdigit, hne⟩ := ih (n / 10) (by omega)
      exact ⟨d, ds ++ [(n % 10).digitChar], by rw [hds, List.cons_append], hdigit,
        fun _ => hne (by omega)⟩

theorem whole_toDigits (n : Nat) {rest : List Char} (h : Stops rest) :
    whole (Nat.toDigits 10 n ++ rest) = some (Nat.toDigits 10 n, rest) := by
  obtain ⟨d, ds, hds, -, hne⟩ := exists_toDigits_cons n
  rcases Nat.eq_zero_or_pos n with rfl | hpos
  · rfl
  · have hd := hne hpos
    have hdigits := digits_toDigits n h
    rw [hds, List.cons_append] at hdigits ⊢
    rw [whole.eq_def]
    split
    · rename_i heq; exact absurd (List.cons.inj heq).1 hd
    · exact hdigits

theorem fraction_of_stops {rest : List Char} (h : Stops rest) :
    fraction rest = some ([], rest) := by
  rw [fraction.eq_def]
  split
  · rename_i rest
    exact absurd rfl (h '.' (by simp)).2.1
  · rfl

theorem exponent_of_stops {rest : List Char} (h : Stops rest) : exponent rest = some (0, rest) := by
  rw [exponent.eq_def]
  split
  · exact absurd rfl (h 'e' (by simp)).2.2.1
  · exact absurd rfl (h 'E' (by simp)).2.2.2
  · rfl

theorem numberOf_toDigits {negative : Bool} {n : Nat} (h : n ≤ 2 ^ 53)
    (hneg : negative = true → 0 < n) :
    numberOf negative (Nat.toDigits 10 n) [] 0 = .int (if negative then -n else n) := by
  simp only [numberOf, List.append_nil, Nat.ofDigitChars_ten_toDigits, List.length_nil,
    Int.natCast_zero,
    Int.sub_zero, Int.le_refl, if_true, Int.toNat_zero, Nat.pow_zero, Nat.mul_one]
  rcases Nat.eq_zero_or_pos n with rfl | hpos
  · cases negative with
    | false => rfl
    | true => exact absurd (hneg rfl) (Nat.lt_irrefl 0)
  · rw [if_neg (by omega), nearest_one hpos h]
    cases n with
    | zero => omega
    | succ n => rfl

theorem unsigned_toDigits {negative : Bool} {n : Nat} (h : n ≤ 2 ^ 53)
    (hneg : negative = true → 0 < n)
    {rest : List Char} (hrest : Stops rest) :
    unsigned negative (Nat.toDigits 10 n ++ rest) = some (.int (if negative then -n else n),
      rest) := by
  simp only [unsigned, whole_toDigits n hrest, fraction_of_stops hrest, exponent_of_stops hrest,
    Option.bind_eq_bind, Option.bind_some, numberOf_toDigits h hneg, Option.pure_def]

theorem number_integer {z : Int} (h : z.natAbs ≤ 2 ^ 53) {rest : List Char} (hrest : Stops rest) :
    number (integer z ++ rest) = some (.int z, rest) := by
  unfold integer
  split
  · rename_i hlt
    rw [List.cons_append, number, unsigned_toDigits h (fun _ => by omega) hrest]
    simp only [if_true, Option.some.injEq, Prod.mk.injEq, and_true, Num.int.injEq]
    omega
  · rename_i hge
    obtain ⟨d, ds, hds, hdigit, -⟩ := exists_toDigits_cons z.natAbs
    have hread : unsigned false (Nat.toDigits 10 z.natAbs ++ rest) = _ :=
      unsigned_toDigits h (fun hf => Bool.noConfusion hf) hrest
    rw [hds, List.cons_append] at hread ⊢
    rw [number.eq_def]
    split
    · rename_i heq
      rw [(List.cons.inj heq).1] at hdigit
      exact absurd hdigit (by decide)
    · rw [hread]
      simp only [Bool.false_eq_true, if_false, Option.some.injEq, Prod.mk.injEq, and_true,
        Num.int.injEq]
      omega

/-! ### Values -/

mutual

/-- Every number is an integer up to 2⁵³ and no object names a property twice. -/
def Plain : Json → Prop
  | .null => True
  | .bool _ => True
  | .str _ => True
  | .num (.int z) => z.natAbs ≤ 2 ^ 53
  | .num .negZero => False
  | .num .other => False
  | .arr vs => PlainElements vs
  | .obj fields => (fields.map Prod.fst).Nodup ∧ PlainMembers fields

def PlainElements : List Json → Prop
  | [] => True
  | v :: vs => Plain v ∧ PlainElements vs

def PlainMembers : List (String × Json) → Prop
  | [] => True
  | (_, v) :: fields => Plain v ∧ PlainMembers fields

end

theorem setField_of_notMem {fields : List (String × Json)} {key : String}
    (h : key ∉ fields.map Prod.fst)
    (v : Json) : setField fields key v = fields ++ [(key, v)] := if_neg h

theorem keyOf_quoted (key : String) (rest : List Char) :
    keyOf (quoted key ++ ':' :: rest) = some (key, rest) := by
  obtain ⟨ps, hread, hchars⟩ := stringBody_escaped key.toList (':' :: rest)
  unfold keyOf quoted
  rw [List.cons_append, skipSpace_cons (by decide), List.append_assoc]
  simp only [List.singleton_append, hread, Option.bind_eq_bind, Option.bind_some,
    skipSpace_cons (show isSpace ':' = false by decide), hchars, String.ofList_toList]

theorem stops_elements (vs : List Json) (rest : List Char) : Stops (elements vs ++ rest) := by
  intro c hc
  cases vs <;> (simp only [elements, List.cons_append, List.head?_cons, Option.mem_def,
    Option.some.injEq] at hc; subst hc; decide)

theorem stops_members (fields : List (String × Json)) (rest : List Char) :
    Stops (members fields ++ rest) := by
  intro c hc
  rcases fields with _ | ⟨⟨key, v⟩, fields⟩ <;>
    (simp only [members, List.cons_append, List.head?_cons, Option.mem_def, Option.some.injEq]
      at hc; subst hc; decide)

/-- The first character of a value. -/
def startsValue (c : Char) : Bool :=
  isDigit c || c == '-' || c == '"' || c == '[' || c == '{' || c == 'n' || c == 't' || c == 'f'

theorem exists_stringify_cons (v : Json) :
    ∃ c cs, stringify v = c :: cs ∧ startsValue c = true := by
  match v with
  | .null | .bool true | .bool false | .str _ | .arr [] | .arr (_ :: _) | .obj [] |
    .obj ((_, _) :: _) =>
    exact ⟨_, _, by rw [stringify]; try rw [quoted], by decide⟩
  | .num n =>
    cases n with
    | negZero => exact ⟨'0', [], by rw [stringify, numeral], by decide⟩
    | other => exact ⟨'n', _, by rw [stringify, numeral], by decide⟩
    | int z =>
      rw [stringify, numeral, integer]
      split
      · exact ⟨'-', _, rfl, by decide⟩
      · obtain ⟨d, ds, hds, hdigit, -⟩ := exists_toDigits_cons z.natAbs
        exact ⟨d, ds, hds, by simp [startsValue, hdigit]⟩

theorem isSpace_of_startsValue {c : Char} (h : startsValue c = true) :
    isSpace c = false ∧ c ≠ ']' := by
  simp only [startsValue, Bool.or_eq_true, beq_iff_eq] at h
  rcases h with ((((((h | rfl) | rfl) | rfl) | rfl) | rfl) | rfl) | rfl
  · constructor
    · simp only [isSpace, Bool.or_eq_false_iff, beq_eq_false_iff_ne]
      refine ⟨⟨⟨?_, ?_⟩, ?_⟩, ?_⟩ <;> (rintro rfl; revert h; decide)
    · rintro rfl
      revert h
      decide
  all_goals decide

theorem value_numeral {z : Int} (h : z.natAbs ≤ 2 ^ 53) (fuel : Nat) {rest : List Char}
    (hrest : Stops rest) : value (fuel + 1) (integer z ++ rest) = some (.num (.int z), rest) := by
  have hread := number_integer h hrest
  have hhead : ∃ c cs, integer z ++ rest = c :: cs ∧ (isDigit c = true ∨ c = '-') := by
    unfold integer
    split
    · exact ⟨'-', _, rfl, Or.inr rfl⟩
    · obtain ⟨d, ds, hds, hdigit, -⟩ := exists_toDigits_cons z.natAbs
      exact ⟨d, ds ++ rest, by rw [hds, List.cons_append], Or.inl hdigit⟩
  obtain ⟨c, cs, hcs, hc⟩ := hhead
  rw [hcs] at hread ⊢
  have hspace : isSpace c = false := by
    apply (isSpace_of_startsValue ?_).1
    rcases hc with hc | rfl
    · simp [startsValue, hc]
    · decide
  have hne (d : Char) (hd : isDigit d = false) (hm : d ≠ '-') : c ≠ d := by
    rintro rfl
    rcases hc with hc | rfl
    · rw [hc] at hd
      cases hd
    · exact hm rfl
  rw [value, skipSpace_cons hspace]
  split
  · rename_i heq; exact absurd (List.cons.inj heq).1 (hne _ (by decide) (by decide))
  · rename_i heq; exact absurd (List.cons.inj heq).1 (hne _ (by decide) (by decide))
  · rename_i heq; exact absurd (List.cons.inj heq).1 (hne _ (by decide) (by decide))
  · rename_i heq; exact absurd (List.cons.inj heq).1 (hne _ (by decide) (by decide))
  · rename_i heq; exact absurd (List.cons.inj heq).1 (hne _ (by decide) (by decide))
  · rename_i heq; exact absurd (List.cons.inj heq).1 (hne _ (by decide) (by decide))
  · simp only [hread, Option.bind_eq_bind, Option.bind_some, Option.pure_def]

theorem value_array {fuel : Nat} {cs cs' : List Char} {c : Char} (h : skipSpace cs = c :: cs')
    (hc : c ≠ ']') :
    value (fuel + 1) ('[' :: cs) = (value fuel cs).bind fun r => elementsTail fuel [r.1] r.2 := by
  rw [value, skipSpace_cons (by decide)]
  show (match skipSpace cs with
    | ']' :: rest => some (Json.arr [], rest)
    | _ => (value fuel cs).bind fun r => elementsTail fuel [r.1] r.2) = _
  rw [h]
  split
  · rename_i heq; exact absurd (List.cons.inj heq).1 hc
  · rfl

theorem value_object {fuel : Nat} {cs cs' : List Char} {c : Char} (h : skipSpace cs = c :: cs')
    (hc : c ≠ '}') :
    value (fuel + 1) ('{' :: cs) =
      (keyOf cs).bind fun k => (value fuel k.2).bind fun r =>
        membersTail fuel [(k.1, r.1)] r.2 := by
  rw [value, skipSpace_cons (by decide)]
  show (match skipSpace cs with
    | '}' :: rest => some (Json.obj [], rest)
    | _ => (keyOf cs).bind fun k => (value fuel k.2).bind fun r =>
      membersTail fuel [(k.1, r.1)] r.2) = _
  rw [h]
  split
  · rename_i heq; exact absurd (List.cons.inj heq).1 hc
  · rfl

theorem elementsTail_comma (fuel : Nat) (vs : List Json) (cs : List Char) :
    elementsTail (fuel + 1) vs (',' :: cs) =
      (value fuel cs).bind fun r => elementsTail fuel (vs ++ [r.1]) r.2 := by
  rw [elementsTail, skipSpace_cons (by decide)]
  rfl

theorem membersTail_comma (fuel : Nat) (fields : List (String × Json)) (cs : List Char) :
    membersTail (fuel + 1) fields (',' :: cs) =
      (keyOf cs).bind fun k => (value fuel k.2).bind fun r =>
        membersTail fuel (setField fields k.1 r.1) r.2 := by
  rw [membersTail, skipSpace_cons (by decide)]
  rfl

mutual

theorem value_stringify :
    ∀ (v : Json), Plain v → ∀ (fuel : Nat) (rest : List Char), (stringify v).length ≤ fuel →
    Stops rest → value (fuel + 1) (stringify v ++ rest) = some (v, rest)
  | .null, _, fuel, rest, _, _ => by
    simp only [stringify, List.cons_append, List.nil_append, value,
      skipSpace_cons (show isSpace 'n' = false by decide)]
  | .bool true, _, fuel, rest, _, _ => by
    simp only [stringify, List.cons_append, List.nil_append, value,
      skipSpace_cons (show isSpace 't' = false by decide)]
  | .bool false, _, fuel, rest, _, _ => by
    simp only [stringify, List.cons_append, List.nil_append, value,
      skipSpace_cons (show isSpace 'f' = false by decide)]
  | .str s, _, fuel, rest, _, _ => by
    obtain ⟨ps, hread, hchars⟩ := stringBody_escaped s.toList rest
    simp only [stringify, quoted, List.cons_append, List.append_assoc, List.nil_append, value,
      skipSpace_cons (show isSpace '"' = false by decide), hread, Option.bind_eq_bind,
        Option.bind_some,
      hchars, String.ofList_toList, Option.pure_def]
  | .num (.int z), h, fuel, rest, _, hrest => by
    rw [Plain] at h
    rw [stringify, numeral]
    exact value_numeral h fuel hrest
  | .num .negZero, h, _, _, _, _ => by rw [Plain] at h; exact h.elim
  | .num .other, h, _, _, _, _ => by rw [Plain] at h; exact h.elim
  | .arr [], _, fuel, rest, _, _ => by
    simp only [stringify, List.cons_append, List.nil_append, value,
      skipSpace_cons (show isSpace '[' = false by decide),
      skipSpace_cons (show isSpace ']' = false by decide)]
  | .arr (v :: vs), h, fuel, rest, hlen, _ => by
    rw [Plain, PlainElements] at h
    rw [stringify] at hlen ⊢
    simp only [List.length_cons, List.length_append] at hlen
    obtain ⟨n, rfl⟩ : ∃ n, fuel = n + 1 := ⟨fuel - 1, by omega⟩
    have hv := value_stringify v h.1 n (elements vs ++ rest) (by omega) (stops_elements vs rest)
    have hvs := elementsTail_elements vs h.2 n [v] rest (by omega)
    obtain ⟨c, cs, hcs, hc⟩ := exists_stringify_cons v
    obtain ⟨hspace, hclose⟩ := isSpace_of_startsValue hc
    have hopen : skipSpace (stringify v ++ (elements vs ++ rest)) =
      c :: (cs ++ (elements vs ++ rest)) := by
      rw [hcs, List.cons_append, skipSpace_cons hspace]
    rw [List.cons_append, List.append_assoc, value_array hopen hclose, hv, Option.bind_some]
    exact hvs
  | .obj [], _, fuel, rest, _, _ => by
    simp only [stringify, List.cons_append, List.nil_append, value,
      skipSpace_cons (show isSpace '{' = false by decide),
      skipSpace_cons (show isSpace '}' = false by decide)]
  | .obj ((key, v) :: fields), h, fuel, rest, hlen, _ => by
    rw [Plain, PlainMembers] at h
    rw [stringify] at hlen ⊢
    simp only [List.length_cons, List.length_append] at hlen
    obtain ⟨n, rfl⟩ : ∃ n, fuel = n + 1 := ⟨fuel - 1, by omega⟩
    have hv := value_stringify v h.2.1 n (members fields ++ rest) (by omega)
      (stops_members fields rest)
    have hfields :=
      membersTail_members fields h.2.2 n [(key, v)] rest (by simpa using h.1) (by omega)
    have hkey := keyOf_quoted key (stringify v ++ (members fields ++ rest))
    have hopen : ∃ cs, skipSpace (quoted key ++ ':' :: (stringify v ++ (members fields ++ rest))) =
      '"' :: cs :=
      ⟨_, by rw [quoted, List.cons_append, skipSpace_cons (by decide)]⟩
    obtain ⟨cs, hcs⟩ := hopen
    rw [List.cons_append, List.append_assoc, List.cons_append, List.append_assoc,
      value_object hcs (by decide), hkey, Option.bind_some, hv, Option.bind_some]
    exact hfields

theorem elementsTail_elements :
    ∀ (vs : List Json), PlainElements vs → ∀ (fuel : Nat) (done : List Json)
    (rest : List Char), (elements vs).length ≤ fuel + 1 →
    elementsTail (fuel + 1) done (elements vs ++ rest) = some (.arr (done ++ vs), rest)
  | [], _, fuel, done, rest, _ => by
    simp only [elements, List.cons_append, List.nil_append, elementsTail,
      skipSpace_cons (show isSpace ']' = false by decide),
      List.append_nil]
  | v :: vs, h, fuel, done, rest, hlen => by
    rw [PlainElements] at h
    rw [elements] at hlen ⊢
    simp only [List.length_cons, List.length_append] at hlen
    have hend : 0 < (elements vs).length := by cases vs <;> simp [elements]
    obtain ⟨n, rfl⟩ : ∃ n, fuel = n + 1 := ⟨fuel - 1, by omega⟩
    have hv := value_stringify v h.1 n (elements vs ++ rest) (by omega) (stops_elements vs rest)
    have hvs := elementsTail_elements vs h.2 n (done ++ [v]) rest (by omega)
    rw [List.cons_append, List.append_assoc, elementsTail_comma, hv, Option.bind_some]
    simpa using hvs

theorem membersTail_members : ∀ (fields : List (String × Json)), PlainMembers fields →
    ∀ (fuel : Nat)
    (done : List (String × Json)) (rest : List Char), ((done ++ fields).map Prod.fst).Nodup →
    (members fields).length ≤ fuel + 1 →
    membersTail (fuel + 1) done (members fields ++ rest) = some (.obj (done ++ fields), rest)
  | [], _, fuel, done, rest, _, _ => by
    simp only [members, List.cons_append, List.nil_append, membersTail,
      skipSpace_cons (show isSpace '}' = false by decide),
      List.append_nil]
  | (key, v) :: fields, h, fuel, done, rest, hnodup, hlen => by
    rw [PlainMembers] at h
    rw [members] at hlen ⊢
    simp only [List.length_cons, List.length_append] at hlen
    have hend : 0 < (members fields).length :=
      by rcases fields with _ | ⟨⟨_, _⟩, _⟩ <;> simp [members]
    obtain ⟨n, rfl⟩ : ∃ n, fuel = n + 1 := ⟨fuel - 1, by omega⟩
    have hnew : key ∉ done.map Prod.fst := by
      rw [List.map_append, List.map_cons] at hnodup
      exact fun hmem => (List.nodup_append.mp hnodup).2.2 _ hmem _ List.mem_cons_self rfl
    have hv := value_stringify v h.1 n (members fields ++ rest) (by omega)
      (stops_members fields rest)
    have hfields :=
      membersTail_members fields h.2 n (done ++ [(key, v)]) rest (by simpa using hnodup) (by omega)
    have hkey := keyOf_quoted key (stringify v ++ (members fields ++ rest))
    rw [List.cons_append, List.append_assoc, List.cons_append, List.append_assoc,
      membersTail_comma, hkey,
      Option.bind_some, hv, Option.bind_some, setField_of_notMem hnew]
    simpa using hfields

end

/-- What was written reads back. -/
theorem parse_stringify {v : Json} (h : Plain v) : parse (stringify v) = some v := by
  have hread := value_stringify v h _ [] (Nat.le_refl _) (by intro c hc; simp at hc)
  rw [List.append_nil] at hread
  unfold parse
  rw [hread, Option.bind_eq_bind, Option.bind_some]
  exact if_pos rfl

/-! ### The value a text stands for -/

mutual

/-- The value with its negative zeros as `JSON.stringify` writes them. -/
def settle : Json → Json
  | .null => .null
  | .bool b => .bool b
  | .str s => .str s
  | .num (.int z) => .num (.int z)
  | .num .negZero => .num (.int 0)
  | .num .other => .num .other
  | .arr vs => .arr (settleElements vs)
  | .obj fields => .obj (settleMembers fields)

def settleElements : List Json → List Json
  | [] => []
  | v :: vs => settle v :: settleElements vs

def settleMembers : List (String × Json) → List (String × Json)
  | [] => []
  | (key, v) :: fields => (key, settle v) :: settleMembers fields

end

theorem names_settleMembers (fields : List (String × Json)) :
    (settleMembers fields).map Prod.fst = fields.map Prod.fst := by
  induction fields with
  | nil => rw [settleMembers]
  | cons f fields ih =>
    obtain ⟨key, v⟩ := f
    rw [settleMembers, List.map_cons, List.map_cons, ih]

mutual

@[simp] theorem stringify_settle : ∀ v : Json, stringify (settle v) = stringify v
  | .null => by rw [settle]
  | .bool _ => by rw [settle]
  | .str _ => by rw [settle]
  | .num (.int _) => by rw [settle]
  | .num .negZero => by rw [settle]; rfl
  | .num .other => by rw [settle]
  | .arr [] => by rw [settle, settleElements]
  | .arr (v :: vs) => by
    rw [settle, settleElements, stringify, stringify, stringify_settle v, elements_settle vs]
  | .obj [] => by rw [settle, settleMembers]
  | .obj ((key, v) :: fields) => by
    rw [settle, settleMembers, stringify, stringify, stringify_settle v, members_settle fields]

theorem elements_settle : ∀ vs : List Json, elements (settleElements vs) = elements vs
  | [] => by rw [settleElements]
  | v :: vs => by rw [settleElements, elements, elements, stringify_settle v, elements_settle vs]

theorem members_settle : ∀ fields :
    List (String × Json), members (settleMembers fields) = members fields
  | [] => by rw [settleMembers]
  | (key, v) :: fields => by
    rw [settleMembers, members, members, stringify_settle v, members_settle fields]

end

/-! ### One line -/

theorem toNat_of_mem_escapeChar {c d : Char} (h : d ∈ escapeChar c) : 32 ≤ d.toNat := by
  have hhex : ∀ n, n < 16 → 32 ≤ (hexDigit n).toNat := by decide
  unfold escapeChar at h
  repeat' split at h
  all_goals simp only [List.mem_cons, List.not_mem_nil, or_false] at h
  case isFalse.isFalse.isFalse.isFalse.isFalse.isFalse.isFalse.isTrue =>
    rcases h with rfl | rfl | rfl | rfl | rfl | rfl
    · decide
    · decide
    · decide
    · decide
    · exact hhex _ (by omega)
    · exact hhex _ (Nat.mod_lt _ (by decide))
  case isFalse.isFalse.isFalse.isFalse.isFalse.isFalse.isFalse.isFalse =>
    subst h
    omega
  all_goals rcases h with rfl | rfl <;> decide

/-- A text of one line: no control character. -/
def Inline (cs : List Char) : Prop := ∀ c ∈ cs, 32 ≤ c.toNat

theorem inline_cons {c : Char} {cs : List Char} : Inline (c :: cs) ↔ 32 ≤ c.toNat ∧ Inline cs := by
  simp [Inline]

theorem inline_append {cs ds : List Char} : Inline (cs ++ ds) ↔ Inline cs ∧ Inline ds := by
  simp [Inline, or_imp, forall_and]

theorem inline_quoted (s : String) : Inline (quoted s) := by
  unfold quoted
  refine inline_cons.mpr ⟨by decide, inline_append.mpr ⟨?_, by simp [Inline]⟩⟩
  intro d hd
  obtain ⟨c, -, hc⟩ := List.mem_flatMap.mp hd
  exact toNat_of_mem_escapeChar hc

theorem inline_toDigits (n : Nat) : Inline (Nat.toDigits 10 n) := by
  intro c hc
  have hdigit : c.isDigit = true := Nat.isDigit_of_mem_toDigits (by decide) (by decide) hc
  have : 48 ≤ c.toNat := by
    simp only [Char.isDigit, Bool.and_eq_true, decide_eq_true_eq] at hdigit
    exact UInt32.le_iff_toNat_le.mp hdigit.1
  omega

theorem inline_numeral (n : Num) : Inline (numeral n) := by
  cases n with
  | int z =>
    rw [numeral, integer]
    split
    · exact inline_cons.mpr ⟨by decide, inline_toDigits _⟩
    · exact inline_toDigits _
  | negZero => simp [numeral, Inline]
  | other => simp [numeral, Inline]

mutual

theorem inline_stringify : ∀ v : Json, Inline (stringify v)
  | .null => by simp [stringify, Inline]
  | .bool true => by simp [stringify, Inline]
  | .bool false => by simp [stringify, Inline]
  | .num n => by rw [stringify]; exact inline_numeral n
  | .str s => by rw [stringify]; exact inline_quoted s
  | .arr [] => by simp [stringify, Inline]
  | .arr (v :: vs) => by
    rw [stringify]
    exact inline_cons.mpr ⟨by decide, inline_append.mpr ⟨inline_stringify v, inline_elements vs⟩⟩
  | .obj [] => by simp [stringify, Inline]
  | .obj ((key, v) :: fields) => by
    rw [stringify]
    refine inline_cons.mpr ⟨by decide,
      inline_append.mpr ⟨inline_quoted key, inline_cons.mpr ⟨by decide, ?_⟩⟩⟩
    exact inline_append.mpr ⟨inline_stringify v, inline_members fields⟩

theorem inline_elements : ∀ vs : List Json, Inline (elements vs)
  | [] => by simp [elements, Inline]
  | v :: vs => by
    rw [elements]
    exact inline_cons.mpr ⟨by decide, inline_append.mpr ⟨inline_stringify v, inline_elements vs⟩⟩

theorem inline_members : ∀ fields : List (String × Json), Inline (members fields)
  | [] => by simp [members, Inline]
  | (key, v) :: fields => by
    rw [members]
    refine inline_cons.mpr ⟨by decide,
      inline_append.mpr ⟨inline_quoted key, inline_cons.mpr ⟨by decide, ?_⟩⟩⟩
    exact inline_append.mpr ⟨inline_stringify v, inline_members fields⟩

end

theorem newline_notMem_stringify (v : Json) : '\n' ∉ stringify v := fun h =>
  absurd (inline_stringify v _ h) (by decide)

end Lib.Js
