import Mathlib.Data.Fin.Basic
import QuantaSwap.Lib.Decimal
import QuantaSwap.Lib.Hex

/-!
# Literals of IP addresses

A literal is the way one address is written: digits of either case, with or without leading zeros,
one run of zero groups left out, the last two groups as a dotted quad. `isIPv4` and `isIPv6` read
text; what they accept are the texts of the literals.
-/

set_option autoImplicit false

namespace Lib.Ip

open Lib.Text

/-! ## Literals -/

structure Quad where
  a : Fin 256
  b : Fin 256
  c : Fin 256
  d : Fin 256
  deriving DecidableEq

/-- One to four hex digits. -/
structure Group where
  digits : List Char
  length : 1 ≤ digits.length ∧ digits.length ≤ 4
  hex : ∀ c ∈ digits, isHex c = true
  deriving DecidableEq

def Group.value (g : Group) : Nat := Hex.value g.digits

namespace Quad

variable (q : Quad)

def octets : List (List Char) := [q.a, q.b, q.c, q.d].map fun o => o.val.repr.toList

def text : List Char := ['.'].intercalate q.octets

def words : List Nat := [q.a.val * 256 + q.b.val, q.c.val * 256 + q.d.val]

end Quad

/-- Groups with a colon between them, the last two of them perhaps as a quad. -/
structure Part where
  groups : List Group
  quad : Option Quad
  deriving DecidableEq

namespace Part

variable (p : Part)

def tokens : List (List Char) := p.groups.map Group.digits ++ (p.quad.map Quad.text).toList

def text : List Char := [':'].intercalate p.tokens

def words : List Nat := p.groups.map Group.value ++ (p.quad.map Quad.words).getD []

end Part

inductive Literal
  | v4 (q : Quad)
  | full (p : Part) (h : p.words.length = 8)
  | short (head : List Group) (tail : Part) (h : head.length + tail.words.length ≤ 7)
  deriving DecidableEq

namespace Literal

def text : Literal → List Char
  | v4 q => q.text
  | full p _ => p.text
  | short head tail _ => (Part.mk head none).text ++ ':' :: ':' :: tail.text

/-- The eight groups that a literal of version 6 stands for. -/
def words : Literal → List Nat
  | v4 _ => []
  | full p _ => p.words
  | short head tail _ =>
    head.map Group.value ++ List.replicate (8 - head.length - tail.words.length) 0 ++ tail.words

end Literal

/-! ## Reading a literal -/

def isOctet (cs : List Char) : Bool := Decimal.canonical cs && Nat.ofDigitChars 10 cs 0 ≤ 255

def isIPv4 (cs : List Char) : Bool := (cs.splitOn '.').length == 4 && (cs.splitOn '.').all isOctet

def isGroup (cs : List Char) : Bool := 1 ≤ cs.length && cs.length ≤ 4 && cs.all isHex

/-- `split("::")` -/
def splitPair : List Char → List (List Char)
  | [] => [[]]
  | [c] => [[c]]
  | c :: d :: cs =>
    if c = ':' ∧ d = ':' then [] :: splitPair cs else (splitPair (d :: cs)).modifyHead (c :: ·)

def tokensOf (cs : List Char) : List (List Char) := if cs = [] then [] else cs.splitOn ':'

/-- How many groups the tokens stand for; a quad can only be the last. -/
def countWords : List (List Char) → Option Nat
  | [] => some 0
  | [t] => if isGroup t then some 1 else if isIPv4 t then some 2 else none
  | t :: ts => if isGroup t then (countWords ts).map (· + 1) else none

def isIPv6 (cs : List Char) : Bool :=
  match splitPair cs with
  | [whole] => countWords (tokensOf whole) == some 8
  | [head, tail] =>
    (tokensOf head).all isGroup &&
      (countWords (tokensOf tail)).any fun n => (tokensOf head).length + n ≤ 7
  | _ => false

/-! ## Characters -/

theorem isDigit_ne {c : Char} (h : isDigit c = true) : c ≠ '.' ∧ c ≠ ':' := by
  constructor <;> (rintro rfl; revert h; decide)

theorem isHex_ne {c : Char} (h : isHex c = true) : c ≠ '.' ∧ c ≠ ':' := by
  constructor <;> (rintro rfl; revert h; decide)

theorem octet_digits (n : Nat) : ∀ c ∈ n.repr.toList, isDigit c = true :=
  Decimal.canonical_digits _ (Decimal.canonical_repr n)

/-! ## Quads -/

namespace Quad

variable (q : Quad)

theorem octet_mem {o : List Char} (h : o ∈ q.octets) : ∃ n : Fin 256, o = n.val.repr.toList := by
  obtain ⟨n, -, rfl⟩ := List.mem_map.mp h
  exact ⟨n, rfl⟩

theorem splitOn_text : q.text.splitOn '.' = q.octets := by
  refine List.splitOn_intercalate '.' ?_ (List.cons_ne_nil _ _)
  intro o ho hdot
  obtain ⟨n, rfl⟩ := q.octet_mem ho
  exact (isDigit_ne (octet_digits n.val _ hdot)).1 rfl

theorem isOctet_repr (n : Fin 256) : isOctet n.val.repr.toList = true := by
  unfold isOctet
  rw [Decimal.canonical_repr]
  have hvalue : Nat.ofDigitChars 10 n.val.repr.toList 0 = n.val := Decimal.value_repr n.val
  rw [hvalue, Bool.true_and, decide_eq_true_eq]
  omega

theorem isIPv4_text : isIPv4 q.text = true := by
  unfold isIPv4
  rw [splitOn_text, Bool.and_eq_true, List.all_eq_true]
  refine ⟨rfl, ?_⟩
  intro o ho
  obtain ⟨n, rfl⟩ := q.octet_mem ho
  exact isOctet_repr n

theorem text_chars {c : Char} (h : c ∈ q.text) : isDigit c = true ∨ c = '.' := by
  unfold text octets at h
  simp only [List.map_cons, List.map_nil, List.intercalate, List.intersperse_cons_cons,
    List.intersperse_singleton, List.flatten_cons, List.flatten_nil, List.mem_append,
      List.mem_singleton,
    List.not_mem_nil, or_false] at h
  rcases h with h | h | h | h | h | h | h
  all_goals first
    | exact Or.inl (octet_digits _ _ h)
    | exact Or.inr h

theorem dot_mem : '.' ∈ q.text := by
  unfold text octets
  simp [List.intercalate]

theorem text_ne_nil : q.text ≠ [] := List.ne_nil_of_mem q.dot_mem

theorem text_injective {q q' : Quad} (h : q.text = q'.text) : q = q' := by
  have hoctets : q.octets = q'.octets := by
    rw [← splitOn_text, ← splitOn_text, h]
  unfold octets at hoctets
  simp only [List.map_cons, List.map_nil, List.cons.injEq, and_true, String.toList_inj] at hoctets
  obtain ⟨ha, hb, hc, hd⟩ := hoctets
  cases q
  cases q'
  simp only [Quad.mk.injEq]
  exact ⟨Fin.ext (Decimal.repr_injective ha), Fin.ext (Decimal.repr_injective hb),
    Fin.ext (Decimal.repr_injective hc), Fin.ext (Decimal.repr_injective hd)⟩

end Quad

/-! ## Parts -/

namespace Part

variable (p : Part)

theorem token_chars {t : List Char} (h : t ∈ p.tokens) : t ≠ [] ∧ ':' ∉ t := by
  unfold tokens at h
  rcases List.mem_append.mp h with h | h
  · obtain ⟨g, -, rfl⟩ := List.mem_map.mp h
    refine ⟨?_, fun hmem => (isHex_ne (g.hex _ hmem)).2 rfl⟩
    intro hnil
    have hlength := g.length.1
    rw [hnil] at hlength
    cases hlength
  · obtain ⟨q, -, rfl⟩ := Option.map_eq_some_iff.mp (Option.mem_toList.mp h)
    refine ⟨q.text_ne_nil, ?_⟩
    intro hmem
    rcases q.text_chars hmem with hdigit | hdot
    · exact (isDigit_ne hdigit).2 rfl
    · cases hdot

theorem text_eq_nil : p.text = [] ↔ p.tokens = [] := by
  unfold text
  constructor
  · intro h
    cases htokens : p.tokens with
    | nil => rfl
    | cons t ts =>
      have ht : t ≠ [] := (p.token_chars (t := t) (by rw [htokens]; exact List.mem_cons_self)).1
      rw [htokens] at h
      cases ts with
      | nil => exact absurd (by simpa [List.intercalate] using h) ht
      | cons t' ts => simp [List.intercalate, ht] at h
  · intro h
    rw [h]
    rfl

theorem tokensOf_text : tokensOf p.text = p.tokens := by
  unfold tokensOf
  split
  · rename_i hnil
    exact ((p.text_eq_nil).mp hnil).symm
  · rename_i hnil
    exact List.splitOn_intercalate ':' (fun t ht => (p.token_chars ht).2)
      fun htokens => hnil ((p.text_eq_nil).mpr htokens)

end Part

theorem isGroup_digits (g : Group) : isGroup g.digits = true := by
  unfold isGroup
  rw [Bool.and_eq_true, Bool.and_eq_true, decide_eq_true_eq, decide_eq_true_eq, List.all_eq_true]
  exact ⟨g.length, g.hex⟩

theorem not_isGroup_quad (q : Quad) : isGroup q.text = false := by
  rw [Bool.eq_false_iff]
  intro h
  unfold isGroup at h
  rw [Bool.and_eq_true, List.all_eq_true] at h
  exact (isHex_ne (h.2 _ q.dot_mem)).1 rfl

theorem countWords_cons {g : Group} {ts : List (List Char)} :
    countWords (g.digits :: ts) = (countWords ts).map (· + 1) := by
  cases ts with
  | nil => simp [countWords, isGroup_digits]
  | cons t ts =>
    rw [countWords, if_pos (isGroup_digits g)]
    nofun

theorem countWords_tokens (p : Part) : countWords p.tokens = some p.words.length := by
  obtain ⟨groups, quad⟩ := p
  unfold Part.tokens Part.words
  induction groups with
  | nil =>
    cases quad with
    | none => rfl
    | some q =>
      show countWords [q.text] = some 2
      rw [countWords, not_isGroup_quad, if_neg Bool.false_ne_true, if_pos q.isIPv4_text]
  | cons g groups ih =>
    rw [List.map_cons, List.cons_append, countWords_cons, ih, List.map_cons, List.cons_append,
      List.length_cons]
    rfl

/-! ## Splitting at a double colon -/

theorem splitPair_ne_nil (cs : List Char) : splitPair cs ≠ [] := by
  fun_induction splitPair cs with
  | case1 => nofun
  | case2 => nofun
  | case3 => nofun
  | case4 c d cs _ ih =>
    cases h : splitPair (d :: cs) with
    | nil => exact absurd h ih
    | cons part parts => nofun

theorem splitPair_cons {c : Char} (hc : c ≠ ':') (cs : List Char) :
    splitPair (c :: cs) = (splitPair cs).modifyHead (c :: ·) := by
  cases cs with
  | nil => rfl
  | cons d cs => rw [splitPair, if_neg fun h => hc h.1]

theorem splitPair_colon {c : Char} (hc : c ≠ ':') (cs : List Char) :
    splitPair (':' :: c :: cs) = (splitPair (c :: cs)).modifyHead (':' :: ·) := by
  rw [splitPair, if_neg fun h => hc h.2]

theorem modifyHead_append (u w : List Char) (parts : List (List Char)) :
    (parts.modifyHead (w ++ ·)).modifyHead (u ++ ·) = parts.modifyHead (u ++ w ++ ·) := by
  cases parts <;> simp

theorem splitPair_word {w : List Char} (hw : ':' ∉ w) (cs : List Char) :
    splitPair (w ++ cs) = (splitPair cs).modifyHead (w ++ ·) := by
  induction w with
  | nil =>
    cases h : splitPair cs with
    | nil => exact absurd h (splitPair_ne_nil cs)
    | cons part parts => simp [h]
  | cons c w ih =>
    have hc : c ≠ ':' := fun h => hw (h ▸ List.mem_cons_self)
    rw [List.cons_append, splitPair_cons hc, ih fun h => hw (List.mem_cons_of_mem _ h)]
    exact modifyHead_append [c] w _

theorem splitPair_intercalate {ts : List (List Char)} (h : ∀ t ∈ ts, t ≠ [] ∧ ':' ∉ t)
    (cs : List Char) :
    splitPair ([':'].intercalate ts ++ cs) =
      (splitPair cs).modifyHead ([':'].intercalate ts ++ ·) := by
  induction ts with
  | nil => exact splitPair_word (w := []) List.not_mem_nil cs
  | cons t ts ih =>
    have ht := h t List.mem_cons_self
    have ih := ih fun t' ht' => h t' (List.mem_cons_of_mem _ ht')
    cases ts with
    | nil =>
      have htext : [':'].intercalate [t] = t := by simp [List.intercalate]
      rw [htext]
      exact splitPair_word ht.2 cs
    | cons t' ts =>
      obtain ⟨hne, hcolon⟩ := h t' (List.mem_cons_of_mem _ List.mem_cons_self)
      rw [List.intercalate_cons_cons, List.append_assoc, List.append_assoc, splitPair_word ht.2]
      cases t' with
      | nil => exact absurd rfl hne
      | cons c w =>
        have hc : c ≠ ':' := fun heq => hcolon (heq ▸ List.mem_cons_self)
        have hrest : ∃ rest, [':'].intercalate ((c :: w) :: ts) = c :: rest := by
          cases ts with
          | nil => exact ⟨w, by simp [List.intercalate]⟩
          | cons t'' ts => exact ⟨_, by rw [List.intercalate_cons_cons, List.cons_append]; rfl⟩
        obtain ⟨rest, hrest⟩ := hrest
        rw [hrest] at ih ⊢
        rw [List.cons_append] at ih ⊢
        show ((splitPair (':' :: c :: (rest ++ cs))).modifyHead (t ++ ·)) = _
        rw [splitPair_colon hc, ih]
        have hcolon := modifyHead_append [':'] (c :: rest) (splitPair cs)
        refine (congrArg (List.modifyHead (t ++ ·)) hcolon).trans ?_
        rw [modifyHead_append]
        simp [List.append_assoc]

theorem splitPair_part (p : Part) (cs : List Char) :
    splitPair (p.text ++ cs) = (splitPair cs).modifyHead (p.text ++ ·) :=
  splitPair_intercalate (fun _ ht => p.token_chars ht) cs

theorem splitPair_text (p : Part) : splitPair p.text = [p.text] := by
  have h := splitPair_part p []
  simpa [splitPair] using h

theorem splitPair_short (p p' : Part) :
    splitPair (p.text ++ ':' :: ':' :: p'.text) = [p.text, p'.text] := by
  rw [splitPair_part, splitPair, if_pos ⟨rfl, rfl⟩, splitPair_text]
  simp

theorem isIPv6_text : ∀ l : Literal, (∀ q, l ≠ .v4 q) → isIPv6 l.text = true
  | .v4 q, h => absurd rfl (h q)
  | .full p hp, _ => by
    unfold isIPv6 Literal.text
    rw [splitPair_text]
    dsimp only
    rw [p.tokensOf_text, countWords_tokens, hp]
    rfl
  | .short head tail hcount, _ => by
    unfold isIPv6 Literal.text
    rw [splitPair_short]
    dsimp only
    rw [Part.tokensOf_text, Part.tokensOf_text, countWords_tokens]
    have htokens : (Part.mk head none).tokens = head.map Group.digits := by
      simp [Part.tokens]
    rw [htokens, Bool.and_eq_true, List.all_eq_true, List.length_map]
    refine ⟨?_, decide_eq_true hcount⟩
    intro t ht
    obtain ⟨g, -, rfl⟩ := List.mem_map.mp ht
    exact isGroup_digits g

/-! ## What is read is a literal -/

theorem exists_octet {o : List Char} (h : isOctet o = true) :
    ∃ n : Fin 256, n.val.repr.toList = o := by
  unfold isOctet at h
  rw [Bool.and_eq_true, decide_eq_true_eq] at h
  refine ⟨⟨Nat.ofDigitChars 10 o 0, by omega⟩, ?_⟩
  rw [Nat.toList_repr, Decimal.toDigits_ofDigitChars o h.1]

theorem exists_quad {cs : List Char} (h : isIPv4 cs = true) : ∃ q : Quad, q.text = cs := by
  unfold isIPv4 at h
  rw [Bool.and_eq_true, beq_iff_eq, List.all_eq_true] at h
  obtain ⟨hlength, hoctets⟩ := h
  match hsplit : cs.splitOn '.', hlength with
  | [o₁, o₂, o₃, o₄], _ =>
    rw [hsplit] at hoctets
    obtain ⟨a, ha⟩ := exists_octet (hoctets o₁ (by simp))
    obtain ⟨b, hb⟩ := exists_octet (hoctets o₂ (by simp))
    obtain ⟨c, hc⟩ := exists_octet (hoctets o₃ (by simp))
    obtain ⟨d, hd⟩ := exists_octet (hoctets o₄ (by simp))
    refine ⟨⟨a, b, c, d⟩, ?_⟩
    rw [← @List.intercalate_splitOn _ cs _ _ '.', hsplit, ← ha, ← hb, ← hc, ← hd]
    rfl

theorem exists_group {t : List Char} (h : isGroup t = true) : ∃ g : Group, g.digits = t := by
  unfold isGroup at h
  rw [Bool.and_eq_true, Bool.and_eq_true, decide_eq_true_eq, decide_eq_true_eq,
    List.all_eq_true] at h
  exact ⟨⟨t, h.1, h.2⟩, rfl⟩

theorem exists_part {ts : List (List Char)} {n : Nat} (h : countWords ts = some n) :
    ∃ p : Part, p.tokens = ts := by
  induction ts generalizing n with
  | nil => exact ⟨⟨[], none⟩, rfl⟩
  | cons t ts ih =>
    by_cases ht : isGroup t = true
    · obtain ⟨g, rfl⟩ := exists_group ht
      rw [countWords_cons] at h
      obtain ⟨m, hm, -⟩ := Option.map_eq_some_iff.mp h
      obtain ⟨⟨groups, quad⟩, rfl⟩ := ih hm
      exact ⟨⟨g :: groups, quad⟩, rfl⟩
    · cases ts with
      | cons t' ts =>
        rw [countWords, if_neg ht] at h
        · cases h
        · nofun
      | nil =>
        rw [countWords, if_neg ht] at h
        split at h
        · rename_i hquad
          obtain ⟨q, rfl⟩ := exists_quad hquad
          exact ⟨⟨[], some q⟩, rfl⟩
        · cases h

theorem intercalate_tokensOf (cs : List Char) : [':'].intercalate (tokensOf cs) = cs := by
  unfold tokensOf
  split
  · rename_i hnil
    rw [hnil]
    rfl
  · exact List.intercalate_splitOn ':'

theorem intercalate_splitPair (cs : List Char) : [':', ':'].intercalate (splitPair cs) = cs := by
  fun_induction splitPair cs with
  | case1 => rfl
  | case2 => simp [List.intercalate]
  | case3 c d cs h ih =>
    obtain ⟨rfl, rfl⟩ := h
    cases hparts : splitPair cs with
    | nil => exact absurd hparts (splitPair_ne_nil cs)
    | cons part parts =>
      rw [hparts] at ih
      rw [List.intercalate_cons_cons, ih]
      rfl
  | case4 c d cs h ih =>
    cases hparts : splitPair (d :: cs) with
    | nil => exact absurd hparts (splitPair_ne_nil _)
    | cons part parts =>
      rw [hparts] at ih
      rw [← ih]
      cases parts with
      | nil => simp [List.intercalate]
      | cons part' parts =>
        rw [List.modifyHead_cons, List.intercalate_cons_cons, List.intercalate_cons_cons]
        rfl

theorem exists_groups {ts : List (List Char)} (h : ts.all isGroup = true) :
    ∃ head : List Group, head.map Group.digits = ts := by
  induction ts with
  | nil => exact ⟨[], rfl⟩
  | cons t ts ih =>
    rw [List.all_cons, Bool.and_eq_true] at h
    obtain ⟨g, rfl⟩ := exists_group h.1
    obtain ⟨head, rfl⟩ := ih h.2
    exact ⟨g :: head, rfl⟩

/-- Every text that reads as an address is the text of a literal. -/
theorem exists_literal {cs : List Char} (h : isIPv4 cs = true ∨ isIPv6 cs = true) :
    ∃ l : Literal, l.text = cs := by
  rcases h with h | h
  · obtain ⟨q, hq⟩ := exists_quad h
    exact ⟨.v4 q, hq⟩
  · have hjoin := intercalate_splitPair cs
    unfold isIPv6 at h
    split at h
    · rename_i whole hparts
      have hcount := beq_iff_eq.mp h
      obtain ⟨p, hp⟩ := exists_part hcount
      have hwords : p.words.length = 8 := by
        have := countWords_tokens p
        rw [hp, hcount] at this
        exact (Option.some.inj this).symm
      refine ⟨.full p hwords, ?_⟩
      rw [hparts] at hjoin
      show [':'].intercalate p.tokens = cs
      rw [hp, intercalate_tokensOf, ← hjoin]
      simp [List.intercalate]
    · rename_i head tail hparts
      rw [Bool.and_eq_true] at h
      obtain ⟨n, hcount, hle⟩ := (Option.any_eq_true _ _).mp h.2
      rw [decide_eq_true_eq] at hle
      obtain ⟨gs, hgs⟩ := exists_groups h.1
      obtain ⟨p, hp⟩ := exists_part hcount
      have hwords : gs.length + p.words.length ≤ 7 := by
        have := countWords_tokens p
        rw [hp, hcount] at this
        rw [← Option.some.inj this]
        rw [← hgs, List.length_map] at hle
        exact hle
      refine ⟨.short gs p hwords, ?_⟩
      rw [hparts] at hjoin
      have htokens : (Part.mk gs none).tokens = gs.map Group.digits := by
        simp [Part.tokens]
      show [':'].intercalate (Part.mk gs none).tokens ++ ':' :: ':' :: [':'].intercalate p.tokens =
        cs
      rw [htokens, hgs, hp, intercalate_tokensOf, intercalate_tokensOf, ← hjoin,
        List.intercalate_cons_cons]
      simp [List.intercalate]
    · cases h

/-! ## One text, one literal -/

theorem colon_mem {l : Literal} (h : ∀ q, l ≠ .v4 q) : ':' ∈ l.text := by
  cases l with
  | v4 q => exact absurd rfl (h q)
  | short head tail hcount =>
    exact List.mem_append_right _ List.mem_cons_self
  | full p hp =>
    have hmany : 2 ≤ p.tokens.length := by
      obtain ⟨groups, quad⟩ := p
      unfold Part.words at hp
      unfold Part.tokens
      cases quad <;> simp [Quad.words] at hp ⊢ <;> omega
    show ':' ∈ [':'].intercalate p.tokens
    match p.tokens, hmany with
    | t :: t' :: ts, _ =>
      rw [List.intercalate_cons_cons]
      simp

theorem isIPv4_colon {cs : List Char} (h : ':' ∈ cs) : isIPv4 cs = false := by
  rw [Bool.eq_false_iff]
  intro hread
  obtain ⟨q, rfl⟩ := exists_quad hread
  rcases q.text_chars h with hdigit | hdot
  · exact (isDigit_ne hdigit).2 rfl
  · cases hdot

theorem Group.ext_digits {g g' : Group} (h : g.digits = g'.digits) : g = g' := by
  cases g
  cases g'
  simpa using h

theorem Part.tokens_injective {p p' : Part} (h : p.tokens = p'.tokens) : p = p' := by
  obtain ⟨groups, quad⟩ := p
  obtain ⟨groups', quad'⟩ := p'
  unfold Part.tokens at h
  dsimp only at h
  -- A quad is not a group, so it can only be the last token.
  have hquad : ∀ {gs : List Group} {q : Quad} {ts : List (List Char)} {quad : Option Quad},
      [q.text] = gs.map Group.digits ++ ts → ts = (quad.map Quad.text).toList → gs = [] := by
    intro gs q ts quad hlist _
    cases gs with
    | nil => rfl
    | cons g gs =>
      rw [List.map_cons, List.cons_append, List.cons.injEq] at hlist
      have hgroup := isGroup_digits g
      rw [← hlist.1, not_isGroup_quad] at hgroup
      cases hgroup
  induction groups generalizing groups' with
  | nil =>
    rw [List.map_nil, List.nil_append] at h
    cases quad with
    | none =>
      cases groups' with
      | nil =>
        cases quad' with
        | none => rfl
        | some q' => cases h
      | cons g' groups' => cases h
    | some q =>
      have hnil : groups' = [] := hquad h rfl
      subst hnil
      cases quad' with
      | none => cases h
      | some q' =>
        have htext : q.text = q'.text := by simpa using h
        rw [Quad.text_injective htext]
  | cons g groups ih =>
    cases groups' with
    | nil =>
      cases quad' with
      | none => cases h
      | some q' =>
        have hnil : g :: groups = [] := hquad h.symm rfl
        cases hnil
    | cons g' groups' =>
      rw [List.map_cons, List.map_cons, List.cons_append, List.cons_append, List.cons.injEq] at h
      have hrest := ih groups' h.2
      rw [Group.ext_digits h.1]
      simp only [Part.mk.injEq] at hrest ⊢
      exact ⟨by rw [hrest.1], hrest.2⟩

theorem Part.text_injective {p p' : Part} (h : p.text = p'.text) : p = p' :=
  Part.tokens_injective (by rw [← Part.tokensOf_text, ← Part.tokensOf_text, h])

theorem Literal.text_injective {l l' : Literal} (h : l.text = l'.text) : l = l' := by
  -- Every v6 text has a colon, and only a short one splits at a double colon.
  have hmixed : ∀ {q : Quad} {l : Literal}, q.text = l.text → (∀ q, l ≠ .v4 q) → False := by
    intro q l htext hl
    have hread := isIPv4_colon (colon_mem hl)
    rw [← htext, q.isIPv4_text] at hread
    cases hread
  cases l with
  | v4 q =>
    cases l' with
    | v4 q' => rw [Quad.text_injective h]
    | full p' hp' => exact (hmixed (l := .full p' hp') h nofun).elim
    | short head' tail' hcount' => exact (hmixed (l := .short head' tail' hcount') h nofun).elim
  | full p hp =>
    cases l' with
    | v4 q' => exact (hmixed (l := .full p hp) h.symm nofun).elim
    | full p' hp' =>
      have := Part.text_injective h
      subst this
      rfl
    | short head' tail' hcount' =>
      have hparts := congrArg splitPair h
      rw [Literal.text, Literal.text, splitPair_text, splitPair_short] at hparts
      simp at hparts
  | short head tail hcount =>
    cases l' with
    | v4 q' => exact (hmixed (l := .short head tail hcount) h.symm nofun).elim
    | full p' hp' =>
      have hparts := congrArg splitPair h
      rw [Literal.text, Literal.text, splitPair_text, splitPair_short] at hparts
      simp at hparts
    | short head' tail' hcount' =>
      have hparts := congrArg splitPair h
      rw [Literal.text, Literal.text, splitPair_short, splitPair_short] at hparts
      simp only [List.cons.injEq, and_true] at hparts
      have hhead := Part.text_injective hparts.1
      have htail := Part.text_injective hparts.2
      simp only [Part.mk.injEq, and_true] at hhead
      subst hhead
      subst htail
      rfl

end Lib.Ip
