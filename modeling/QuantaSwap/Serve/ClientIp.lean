import Mathlib.Data.List.TakeWhile
import QuantaSwap.Lib.Ip

/-!
# The key of a source

`server/src/client-ip.ts`: the address that a request comes from, and the key under which the
budgets of its source are counted. `isIP` is that of Node but for an address with a zone id, such as
`fe80::1%eth0`, for which Node answers 6 and it answers 0.
-/

set_option autoImplicit false

namespace QuantaSwap.Serve

open Lib Lib.Text Lib.Ip

inductive ProxyTrust
  | none
  | loopback
  | all
  deriving DecidableEq

inductive HeaderValue
  | one (value : String)
  | many (values : List String)

structure ForwardHeaders where
  cfConnectingIp : Option HeaderValue
  xForwardedFor : Option HeaderValue

def isIP (s : String) : Nat :=
  if isIPv4 s.toList then 4 else if isIPv6 s.toList then 6 else 0

/-- White space and line ends of JavaScript. -/
def isBlank (c : Char) : Bool :=
  c ∈ ['\t', '\n', '\x0b', '\x0c', '\r', ' ', '\u00a0', '\u1680', '\u2028', '\u2029', '\u202f',
    '\u205f', '\u3000', '\ufeff'] || ('\u2000' ≤ c && c ≤ '\u200a')

def trim (s : String) : String :=
  String.ofList ((s.toList.dropWhile isBlank).reverse.dropWhile isBlank).reverse

/-- `"::ffff:"` -/
def MAPPED : List Char := [':', ':', 'f', 'f', 'f', 'f', ':']

def normalizedIp (raw : Option String) : Option String :=
  match raw with
  | none => none
  | some raw =>
    let value := trim raw
    if MAPPED.isPrefixOf value.toList && isIP (dropLead MAPPED value) == 4 then
      some (dropLead MAPPED value)
    else if isIP value = 0 then none
    else some value

def firstHeader : Option HeaderValue → Option String
  | none => none
  | some (.one value) => some value
  | some (.many values) => values.head?

def isLoopback (address : Option String) : Bool :=
  match normalizedIp address with
  | none => false
  | some ip => ip == "::1" || "127.".toList.isPrefixOf ip.toList

/-- `Number(octet)` of a string of digits; no other string gives a number here. -/
def octetNumber (octet : List Char) : Option Nat :=
  if octet.all isDigit then some (Nat.ofDigitChars 10 octet 0) else none

def toHex (n : Nat) : List Char := Nat.toDigits 16 n

/-- The groups of one token, `none` where its dotted quad is not valid. -/
def tokenGroups (token : List Char) : Option (List (List Char)) :=
  if '.' ∈ token then
    match (token.splitOn '.').map octetNumber with
    | [some a, some b, some c, some d] =>
      if a ≤ 255 ∧ b ≤ 255 ∧ c ≤ 255 ∧ d ≤ 255 then
        some [toHex (a <<< 8 ||| b), toHex (c <<< 8 ||| d)]
      else none
    | _ => none
  else some [toHex (Hex.value (token.takeWhile isHex))]

/-- A quad that is not valid leaves nothing of its part. -/
def parsePart (part : List Char) : List (List Char) :=
  if part = [] then []
  else
    match (part.splitOn ':').mapM tokenGroups with
    | none => []
    | some groups => groups.flatten

def ipv6Groups (value : List Char) : Option (List (List Char)) :=
  match splitPair value with
  | [whole] =>
    let head := parsePart whole
    if head.length = 8 then some head else none
  | [first, second] =>
    let head := parsePart first
    let tail := parsePart second
    let gap := 8 - head.length - tail.length
    if gap < 1 then none else some (head ++ List.replicate gap ['0'] ++ tail)
  | _ => none

def clientSourceKey (ip : String) : String :=
  let value := (normalizedIp (some ip)).getD ip
  if isIP value ≠ 6 then value
  else
    match ipv6Groups value.toList with
    | none => value
    | some groups =>
      String.ofList ([':'].intercalate (groups.take 4) ++ [':', ':', '/', '6', '4'])

/-- What stands before the first comma. -/
def firstPiece (s : String) : String := String.ofList (s.toList.takeWhile (· ≠ ','))

def trusted (remoteAddress : Option String) (proxyTrust : ProxyTrust) : Bool :=
  proxyTrust = .all || (proxyTrust = .loopback && isLoopback remoteAddress)

def resolveClientIp (remoteAddress : Option String) (headers : ForwardHeaders)
    (proxyTrust : ProxyTrust) : String :=
  let direct :=
    match normalizedIp remoteAddress with
    | none => "unknown"
    | some direct => clientSourceKey direct
  if trusted remoteAddress proxyTrust then
    match normalizedIp (firstHeader headers.cfConnectingIp) with
    | some cloudflare => clientSourceKey cloudflare
    | none =>
      match normalizedIp ((firstHeader headers.xForwardedFor).map firstPiece) with
      | some forwardedIp => clientSourceKey forwardedIp
      | none => direct
  else direct

/-! ## The addresses that literals denote -/

inductive Address
  | v4 (q : Quad)
  | v6 (groups : List Nat)
  deriving DecidableEq

def quadOf (x y : Nat) : Quad :=
  ⟨Fin.ofNat 256 (x / 256), Fin.ofNat 256 (x % 256), Fin.ofNat 256 (y / 256),
    Fin.ofNat 256 (y % 256)⟩

namespace Address

/-- An IPv4-mapped address is one of version 4. -/
def ofGroups : List Nat → Address
  | [0, 0, 0, 0, 0, 0xffff, x, y] => v4 (quadOf x y)
  | groups => v6 groups

/-- One address of version 4, or two of version 6 with one /64. -/
def SameSource : Address → Address → Prop
  | v4 q, v4 q' => q = q'
  | v6 groups, v6 groups' => groups.take 4 = groups'.take 4
  | _, _ => False

/-- The first 64 bits of an address of version 6 are zero. -/
def Zero64 : Address → Prop
  | v4 _ => False
  | v6 groups => groups.take 4 = [0, 0, 0, 0]

def key : Address → List Char
  | v4 q => q.text
  | v6 groups => [':'].intercalate ((groups.take 4).map toHex) ++ [':', ':', '/', '6', '4']

end Address

def address : Literal → Address
  | .v4 q => .v4 q
  | l => .ofGroups l.words

def ffff : Group := ⟨['f', 'f', 'f', 'f'], ⟨by simp, by simp⟩, List.all_eq_true.mp rfl⟩

/-- The one spelling of a mapped address that the code knows: `::ffff:` and a dotted quad. -/
def mappedLiteral (q : Quad) : Literal := .short [] ⟨[ffff], some q⟩ (show 3 ≤ 7 by decide)

/-- A mapped address in any other spelling. -/
def Hidden (l : Literal) : Prop :=
  ∃ q, address l = .v4 q ∧ l ≠ .v4 q ∧ l ≠ mappedLiteral q

/-! ## The text of a literal -/

theorem mem_intercalate {sep : List Char} {ts : List (List Char)} {c : Char}
    (h : c ∈ sep.intercalate ts) : c ∈ sep ∨ ∃ t ∈ ts, c ∈ t := by
  induction ts with
  | nil => cases h
  | cons t ts ih =>
    cases ts with
    | nil =>
      right
      exact ⟨t, List.mem_cons_self, by simpa [List.intercalate] using h⟩
    | cons t' ts =>
      rw [List.intercalate_cons_cons, List.append_assoc, List.mem_append, List.mem_append] at h
      rcases h with h | h | h
      · exact Or.inr ⟨t, List.mem_cons_self, h⟩
      · exact Or.inl h
      · exact (ih h).imp id fun ⟨u, hu, hc⟩ => ⟨u, List.mem_cons_of_mem _ hu, hc⟩

theorem part_chars {p : Ip.Part} {c : Char} (h : c ∈ p.text) :
    isHex c = true ∨ c = '.' ∨ c = ':' := by
  rcases mem_intercalate h with h | ⟨t, ht, hc⟩
  · exact Or.inr (Or.inr (List.mem_singleton.mp h))
  · rcases List.mem_append.mp ht with ht | ht
    · obtain ⟨g, -, rfl⟩ := List.mem_map.mp ht
      exact Or.inl (g.hex _ hc)
    · obtain ⟨q, -, rfl⟩ := Option.map_eq_some_iff.mp (Option.mem_toList.mp ht)
      rcases q.text_chars hc with hdigit | hdot
      · left
        unfold isHex isLowerHex
        rw [hdigit]
        rfl
      · exact Or.inr (Or.inl hdot)

theorem text_chars {l : Literal} {c : Char} (h : c ∈ l.text) :
    isHex c = true ∨ c = '.' ∨ c = ':' := by
  cases l with
  | v4 q =>
    rcases q.text_chars h with hdigit | hdot
    · left
      unfold isHex isLowerHex
      rw [hdigit]
      rfl
    · exact Or.inr (Or.inl hdot)
  | full p hp => exact part_chars h
  | short head tail hcount =>
    rcases List.mem_append.mp h with h | h
    · exact part_chars h
    · simp only [List.mem_cons] at h
      rcases h with h | h | h
      · exact Or.inr (Or.inr h)
      · exact Or.inr (Or.inr h)
      · exact part_chars h

theorem char_code {c : Char} (h : isHex c = true ∨ c = '.' ∨ c = ':') :
    46 ≤ c.toNat ∧ c.toNat ≤ 102 := by
  rcases h with h | rfl | rfl
  · have hc : ((48 ≤ c.toNat ∧ c.toNat ≤ 57) ∨ (97 ≤ c.toNat ∧ c.toNat ≤ 102)) ∨
        (65 ≤ c.toNat ∧ c.toNat ≤ 70) := by
      simpa [isHex, isLowerHex, isDigit, Char.le_def, UInt32.le_iff_toNat_le] using h
    omega
  · decide
  · decide

theorem not_isBlank {c : Char} (h : isHex c = true ∨ c = '.' ∨ c = ':') : isBlank c = false := by
  obtain ⟨hlow, hhigh⟩ := char_code h
  rw [Bool.eq_false_iff]
  intro hblank
  unfold isBlank at hblank
  rw [Bool.or_eq_true, Bool.and_eq_true, decide_eq_true_eq, decide_eq_true_eq] at hblank
  rcases hblank with hmem | ⟨hle, -⟩
  · have hall : ['\t', '\n', '\x0b', '\x0c', '\r', ' ', '\u00a0', '\u1680', '\u2028', '\u2029',
        '\u202f', '\u205f', '\u3000', '\ufeff'].all
          (fun d => d.toNat < 46 || 102 < d.toNat) = true := rfl
    have hc := List.all_eq_true.mp hall c hmem
    rw [Bool.or_eq_true, decide_eq_true_eq, decide_eq_true_eq] at hc
    omega
  · have hcode : 8192 ≤ c.toNat := by
      simpa [Char.le_def, UInt32.le_iff_toNat_le] using hle
    omega

theorem trim_ofList {cs : List Char} (h : ∀ c ∈ cs, isBlank c = false) :
    trim (String.ofList cs) = String.ofList cs := by
  have hdrop : ∀ cs : List Char, (∀ c ∈ cs, isBlank c = false) → cs.dropWhile isBlank = cs := by
    intro cs hcs
    cases cs with
    | nil => rfl
    | cons c cs => exact List.dropWhile_cons_of_neg (by simp [hcs c List.mem_cons_self])
  unfold trim
  rw [String.toList_ofList, hdrop cs h, hdrop _ (fun c hc => h c (List.mem_reverse.mp hc)),
    List.reverse_reverse]

/-! ## What Node makes of a literal -/

theorem isIP_v4 (q : Quad) : isIP (String.ofList q.text) = 4 := by
  unfold isIP
  rw [String.toList_ofList, q.isIPv4_text]
  rfl

theorem isIP_v6 {l : Literal} (h : ∀ q, l ≠ .v4 q) : isIP (String.ofList l.text) = 6 := by
  unfold isIP
  rw [String.toList_ofList, isIPv4_colon (colon_mem h), isIPv6_text l h]
  rfl

theorem normalizedIp_text (l : Literal) :
    normalizedIp (some (String.ofList l.text)) =
      if MAPPED.isPrefixOf l.text && isIPv4 (l.text.drop 7) then
        some (String.ofList (l.text.drop 7))
      else some (String.ofList l.text) := by
  have htrim : trim (String.ofList l.text) = String.ofList l.text :=
    trim_ofList fun c hc => not_isBlank (text_chars hc)
  have hvalid : isIP (String.ofList l.text) ≠ 0 := by
    cases l with
    | v4 q => rw [Literal.text, isIP_v4]; decide
    | full p hp => rw [isIP_v6 (l := .full p hp) (by simp)]; decide
    | short head tail h => rw [isIP_v6 (l := .short head tail h) (by simp)]; decide
  have hfour : ∀ s : String, (isIP s == 4) = isIPv4 s.toList := by
    intro s
    unfold isIP
    by_cases h4 : isIPv4 s.toList = true
    · simp [h4]
    · by_cases h6 : isIPv6 s.toList = true
      · simp [h4, h6]
      · simp [h4, h6]
  have hdrop : dropLead MAPPED (String.ofList l.text) = String.ofList (l.text.drop 7) := by
    unfold dropLead
    rw [String.toList_ofList]
    rfl
  unfold normalizedIp
  dsimp only
  rw [htrim, hfour, hdrop, String.toList_ofList, String.toList_ofList, if_neg hvalid]

/-! ## The groups of a literal -/

theorem octetNumber_repr (n : Fin 256) : octetNumber n.val.repr.toList = some n.val := by
  have hall : n.val.repr.toList.all isDigit = true :=
    List.all_eq_true.mpr (octet_digits n.val)
  have hvalue : Nat.ofDigitChars 10 n.val.repr.toList 0 = n.val := Decimal.value_repr n.val
  rw [octetNumber, if_pos hall, hvalue]

theorem shift_or (a b : Fin 256) : a.val <<< 8 ||| b.val = a.val * 256 + b.val := by
  have hb : b.val < 2 ^ 8 := b.isLt
  rw [← Nat.shiftLeft_add_eq_or_of_lt hb, Nat.shiftLeft_eq]

theorem tokenGroups_quad (q : Quad) : tokenGroups q.text = some (q.words.map toHex) := by
  have hsplit : (q.text.splitOn '.').map octetNumber =
      [some q.a.val, some q.b.val, some q.c.val, some q.d.val] := by
    rw [q.splitOn_text]
    unfold Quad.octets
    simp only [List.map_cons, List.map_nil, octetNumber_repr]
  unfold tokenGroups
  rw [if_pos q.dot_mem, hsplit]
  dsimp only
  rw [if_pos (by omega), shift_or, shift_or]
  rfl

theorem tokenGroups_group (g : Group) : tokenGroups g.digits = some [toHex g.value] := by
  have hdot : '.' ∉ g.digits := fun h => (isHex_ne (g.hex _ h)).1 rfl
  have hall : g.digits.takeWhile isHex = g.digits := by
    rw [List.takeWhile_eq_self_iff]
    exact g.hex
  rw [tokenGroups, if_neg hdot, hall]
  rfl

theorem parsePart_text (p : Ip.Part) : parsePart p.text = p.words.map toHex := by
  have hgroups : ∀ ts : List (List Char), ts = p.tokens →
      ts.mapM tokenGroups = some (p.groups.map (fun g => [toHex g.value]) ++
        (p.quad.map fun q => q.words.map toHex).toList) := by
    rintro ts rfl
    obtain ⟨groups, quad⟩ := p
    unfold Part.tokens
    dsimp only
    induction groups with
    | nil =>
      cases quad with
      | none => rfl
      | some q => simp [tokenGroups_quad]
    | cons g groups ih =>
      rw [List.map_cons, List.cons_append, List.mapM_cons, tokenGroups_group, ih]
      rfl
  have hflat : (p.groups.map (fun g => [toHex g.value]) ++
      (p.quad.map fun q => q.words.map toHex).toList).flatten = p.words.map toHex := by
    obtain ⟨groups, quad⟩ := p
    unfold Part.words
    rw [List.flatten_append, List.map_append, List.map_map]
    congr 1
    · clear hgroups
      induction groups with
      | nil => rfl
      | cons g groups ih => simpa using ih
    · cases quad <;> simp
  have htokens := p.tokensOf_text
  unfold tokensOf at htokens
  unfold parsePart
  split
  · rename_i hnil
    rw [if_pos hnil] at htokens
    have hmap := hgroups [] htokens
    rw [← hflat]
    rw [List.mapM_nil] at hmap
    have hempty := Option.some.inj hmap
    rw [← hempty]
    rfl
  · rename_i hnil
    rw [if_neg hnil] at htokens
    rw [hgroups _ htokens]
    exact hflat

theorem ipv6Groups_text : ∀ l : Literal, (∀ q, l ≠ .v4 q) →
    ipv6Groups l.text = some (l.words.map toHex)
  | .v4 q, h => absurd rfl (h q)
  | .full p hp, _ => by
    unfold ipv6Groups Literal.text
    rw [splitPair_text]
    dsimp only
    rw [parsePart_text, List.length_map, if_pos hp]
    rfl
  | .short head tail hcount, _ => by
    have hhead : (⟨head, none⟩ : Ip.Part).words = head.map Group.value := List.append_nil _
    unfold ipv6Groups Literal.text
    rw [splitPair_short]
    dsimp only
    rw [parsePart_text, parsePart_text, hhead, List.length_map, List.length_map, List.length_map,
      if_neg (by omega)]
    simp only [Literal.words, List.map_append, List.map_replicate]
    rfl

theorem length_words : ∀ l : Literal, (∀ q, l ≠ .v4 q) → l.words.length = 8
  | .v4 q, h => absurd rfl (h q)
  | .full _ hp, _ => hp
  | .short head tail hcount, _ => by
    simp only [Literal.words, List.length_append, List.length_map, List.length_replicate]
    omega

theorem quadOf_words (q : Quad) :
    quadOf (q.a.val * 256 + q.b.val) (q.c.val * 256 + q.d.val) = q := by
  have hdiv : ∀ x y : Fin 256, Fin.ofNat 256 ((x.val * 256 + y.val) / 256) = x := by
    intro x y
    apply Fin.ext
    rw [Fin.val_ofNat]
    omega
  have hmod : ∀ x y : Fin 256, Fin.ofNat 256 ((x.val * 256 + y.val) % 256) = y := by
    intro x y
    apply Fin.ext
    rw [Fin.val_ofNat]
    omega
  unfold quadOf
  rw [hdiv, hmod, hdiv, hmod]

theorem address_mapped (q : Quad) : address (mappedLiteral q) = .v4 q := by
  show Address.ofGroups [0, 0, 0, 0, 0, 0xffff, q.a.val * 256 + q.b.val,
    q.c.val * 256 + q.d.val] = _
  rw [Address.ofGroups, quadOf_words]

theorem address_v6 {l : Literal} (h : ∀ q, l ≠ .v4 q) :
    address l = .v6 l.words ∨
      ∃ q, address l = .v4 q ∧ l.words.take 4 = [0, 0, 0, 0] := by
  have haddress : address l = .ofGroups l.words := by
    cases l with
    | v4 q => exact absurd rfl (h q)
    | full p hp => rfl
    | short head tail hcount => rfl
  rw [haddress]
  unfold Address.ofGroups
  split
  · rename_i hwords
    right
    rw [hwords]
    exact ⟨_, rfl, rfl⟩
  · exact Or.inl rfl

theorem text_mapped (q : Quad) : (mappedLiteral q).text = MAPPED ++ q.text := by
  have htail : (⟨[ffff], some q⟩ : Ip.Part).text = ['f', 'f', 'f', 'f'] ++ [':'] ++ q.text := by
    show [':'].intercalate [ffff.digits, q.text] = _
    rw [List.intercalate_cons_cons, List.intercalate_singleton]
    rfl
  show (⟨[], none⟩ : Ip.Part).text ++ ':' :: ':' :: (⟨[ffff], some q⟩ : Ip.Part).text = _
  rw [htail]
  rfl

theorem mapped_iff {l : Literal} :
    (MAPPED.isPrefixOf l.text && isIPv4 (l.text.drop 7)) = true ↔ ∃ q, l = mappedLiteral q := by
  rw [Bool.and_eq_true, List.isPrefixOf_iff_prefix]
  constructor
  · rintro ⟨⟨rest, hrest⟩, hquad⟩
    have hdrop : l.text.drop 7 = rest := by
      rw [← hrest]
      rfl
    obtain ⟨q, hq⟩ := exists_quad hquad
    refine ⟨q, Literal.text_injective ?_⟩
    rw [text_mapped, hq, hdrop, hrest]
  · rintro ⟨q, rfl⟩
    rw [text_mapped]
    exact ⟨List.prefix_append _ _, q.isIPv4_text⟩

theorem clientSourceKey_v4 (q : Quad) :
    clientSourceKey (String.ofList q.text) = String.ofList q.text := by
  have hnot : (MAPPED.isPrefixOf q.text && isIPv4 (q.text.drop 7)) = false := by
    rw [Bool.eq_false_iff]
    intro h
    obtain ⟨q', hq'⟩ := mapped_iff (l := .v4 q).mp h
    cases hq'
  have hnormal := normalizedIp_text (.v4 q)
  rw [Literal.text, hnot, if_neg Bool.false_ne_true] at hnormal
  unfold clientSourceKey
  rw [hnormal, Option.getD_some]
  dsimp only
  rw [isIP_v4]
  rfl

theorem clientSourceKey_v6 {l : Literal} (h : ∀ q, l ≠ .v4 q) (hm : ∀ q, l ≠ mappedLiteral q) :
    clientSourceKey (String.ofList l.text) = String.ofList (Address.v6 l.words).key := by
  have hnot : (MAPPED.isPrefixOf l.text && isIPv4 (l.text.drop 7)) = false := by
    rw [Bool.eq_false_iff]
    intro hread
    obtain ⟨q, hq⟩ := mapped_iff.mp hread
    exact hm q hq
  have hnormal := normalizedIp_text l
  rw [hnot, if_neg Bool.false_ne_true] at hnormal
  unfold clientSourceKey
  rw [hnormal, Option.getD_some]
  dsimp only
  rw [isIP_v6 h, if_neg (fun hne => hne rfl), String.toList_ofList, ipv6Groups_text l h]
  dsimp only
  rw [← List.map_take]
  rfl

theorem clientSourceKey_mapped (q : Quad) :
    clientSourceKey (String.ofList (mappedLiteral q).text) = String.ofList q.text := by
  have hread := mapped_iff.mpr ⟨q, (rfl : mappedLiteral q = mappedLiteral q)⟩
  have hnormal := normalizedIp_text (mappedLiteral q)
  rw [if_pos hread] at hnormal
  unfold clientSourceKey
  rw [hnormal, Option.getD_some]
  dsimp only
  have hdrop : (mappedLiteral q).text.drop 7 = q.text := by
    rw [text_mapped]
    rfl
  rw [hdrop, isIP_v4]
  rfl

/-! ## Keys and addresses -/

theorem toHex_chars {n : Nat} {c : Char} (h : c ∈ toHex n) : c ≠ ':' :=
  (isHex_ne (isHex_of_isLowerHex c ((Hex.toDigits_spec n).2 c h))).2

theorem toHex_injective {m n : Nat} (h : toHex m = toHex n) : m = n := by
  rw [← (Hex.toDigits_spec m).1, ← (Hex.toDigits_spec n).1]
  exact congrArg Hex.value h

/-- The key tells the sources apart. -/
theorem key_eq_iff {a a' : Address} (ha : ∀ g, a = .v6 g → g.length = 8)
    (ha' : ∀ g, a' = .v6 g → g.length = 8) : a.key = a'.key ↔ a.SameSource a' := by
  -- Only the key of a v6 prefix has a colon.
  have hmixed : ∀ {q : Quad} {g : List Nat}, q.text ≠ (Address.v6 g).key := by
    intro q g h
    have hcolon : ':' ∈ q.text := by
      rw [h]
      unfold Address.key
      simp
    rcases q.text_chars hcolon with hdigit | hdot
    · exact (isDigit_ne hdigit).2 rfl
    · cases hdot
  cases a with
  | v4 q =>
    cases a' with
    | v4 q' => exact ⟨Quad.text_injective, fun h => congrArg Quad.text h⟩
    | v6 g' => exact ⟨fun h => hmixed h, fun h => h.elim⟩
  | v6 g =>
    cases a' with
    | v4 q' => exact ⟨fun h => hmixed h.symm, fun h => h.elim⟩
    | v6 g' =>
      constructor
      · intro h
        have hjoined : [':'].intercalate ((g.take 4).map toHex) =
            [':'].intercalate ((g'.take 4).map toHex) := List.append_cancel_right h
        -- Groups hold no colon, so splitting the key gives them back.
        have hsplit : ∀ {g : List Nat}, g.length = 8 →
            ([':'].intercalate ((g.take 4).map toHex)).splitOn ':' = (g.take 4).map toHex := by
          intro g hg
          refine List.splitOn_intercalate ':' ?_ ?_
          · intro t ht hmem
            obtain ⟨n, -, rfl⟩ := List.mem_map.mp ht
            exact toHex_chars hmem rfl
          · intro hnil
            have := congrArg List.length hnil
            simp [hg] at this
        have hmap := congrArg (List.splitOn ':') hjoined
        rw [hsplit (ha g rfl), hsplit (ha' g' rfl)] at hmap
        exact (List.map_injective_iff.mpr fun m n => toHex_injective) hmap
      · intro h
        show [':'].intercalate ((g.take 4).map toHex) ++ _ =
          [':'].intercalate ((g'.take 4).map toHex) ++ _
        rw [show g.take 4 = g'.take 4 from h]

theorem clientSourceKey_shown {l : Literal} (h : ¬ Hidden l) :
    clientSourceKey (String.ofList l.text) = String.ofList (address l).key := by
  by_cases hv4 : ∃ q, l = .v4 q
  · obtain ⟨q, rfl⟩ := hv4
    exact clientSourceKey_v4 q
  · by_cases hmapped : ∃ q, l = mappedLiteral q
    · obtain ⟨q, rfl⟩ := hmapped
      rw [address_mapped]
      exact clientSourceKey_mapped q
    · have hl : ∀ q, l ≠ .v4 q := fun q hq => hv4 ⟨q, hq⟩
      have hm : ∀ q, l ≠ mappedLiteral q := fun q hq => hmapped ⟨q, hq⟩
      rw [clientSourceKey_v6 hl hm]
      rcases address_v6 hl with haddress | ⟨q, haddress, -⟩
      · rw [haddress]
      · exact absurd ⟨q, haddress, hl q, hm q⟩ h

theorem clientSourceKey_hidden {l : Literal} (h : Hidden l) :
    clientSourceKey (String.ofList l.text) =
      String.ofList (Address.v6 (List.replicate 8 0)).key := by
  obtain ⟨q, haddress, hv4, hmapped⟩ := h
  have hl : ∀ q', l ≠ .v4 q' := by
    rintro q' rfl
    cases haddress
    exact hv4 rfl
  have hm : ∀ q', l ≠ mappedLiteral q' := by
    rintro q' rfl
    rw [address_mapped] at haddress
    cases haddress
    exact hmapped rfl
  rw [clientSourceKey_v6 hl hm]
  rcases address_v6 hl with hwords | ⟨q', -, hwords⟩
  · rw [hwords] at haddress
    cases haddress
  · show String.ofList ([':'].intercalate ((l.words.take 4).map toHex) ++ _) = _
    rw [hwords]
    rfl

theorem length_address {l : Literal} : ∀ g, address l = .v6 g → g.length = 8 := by
  intro g hg
  cases l with
  | v4 q => cases hg
  | full p hp =>
    rcases address_v6 (l := .full p hp) nofun with hwords | ⟨q, hwords, -⟩
    · rw [hwords] at hg
      cases hg
      exact hp
    · rw [hwords] at hg
      cases hg
  | short head tail hcount =>
    rcases address_v6 (l := .short head tail hcount) nofun with hwords | ⟨q, hwords, -⟩
    · rw [hwords] at hg
      cases hg
      exact length_words (.short head tail hcount) nofun
    · rw [hwords] at hg
      cases hg

/-! ## Requests -/

/-- The first address that a request shows to be read is the literal, perhaps with blanks round
it. -/
def Reads (remoteAddress : Option String) (headers : ForwardHeaders) (proxyTrust : ProxyTrust)
    (l : Literal) : Prop :=
  let cloudflare := firstHeader headers.cfConnectingIp
  let forwarded := (firstHeader headers.xForwardedFor).map firstPiece
  let shows (s : Option String) : Prop := s.map trim = some (String.ofList l.text)
  (trusted remoteAddress proxyTrust = true ∧ shows cloudflare) ∨
    (trusted remoteAddress proxyTrust = true ∧ normalizedIp cloudflare = none ∧ shows forwarded) ∨
    ((trusted remoteAddress proxyTrust = true → normalizedIp cloudflare = none ∧
      normalizedIp forwarded = none) ∧
      shows remoteAddress)

theorem normalizedIp_of_trim {raw : Option String} {l : Literal}
    (h : raw.map trim = some (String.ofList l.text)) :
    ∃ ip, normalizedIp raw = some ip ∧
      clientSourceKey ip = clientSourceKey (String.ofList l.text) := by
  obtain ⟨raw, rfl, htrim⟩ := Option.map_eq_some_iff.mp h
  have hself : trim (String.ofList l.text) = String.ofList l.text :=
    trim_ofList fun c hc => not_isBlank (text_chars hc)
  have hsame : normalizedIp (some raw) = normalizedIp (some (String.ofList l.text)) := by
    unfold normalizedIp
    dsimp only
    rw [htrim, hself]
  rw [hsame, normalizedIp_text]
  split
  · rename_i hread
    obtain ⟨q, rfl⟩ := mapped_iff.mp hread
    have hdrop : (mappedLiteral q).text.drop 7 = q.text := by
      rw [text_mapped]
      rfl
    refine ⟨_, rfl, ?_⟩
    rw [hdrop, clientSourceKey_v4, clientSourceKey_mapped]
  · exact ⟨_, rfl, rfl⟩

theorem resolveClientIp_reads {remoteAddress : Option String} {headers : ForwardHeaders}
    {proxyTrust : ProxyTrust} {l : Literal} (h : Reads remoteAddress headers proxyTrust l) :
    resolveClientIp remoteAddress headers proxyTrust =
      clientSourceKey (String.ofList l.text) := by
  unfold resolveClientIp
  dsimp only
  rcases h with ⟨htrusted, hshows⟩ | ⟨htrusted, hcloudflare, hshows⟩ | ⟨hothers, hshows⟩
  · obtain ⟨ip, hip, hkey⟩ := normalizedIp_of_trim hshows
    rw [if_pos htrusted, hip]
    exact hkey
  · obtain ⟨ip, hip, hkey⟩ := normalizedIp_of_trim hshows
    rw [if_pos htrusted, hcloudflare, hip]
    exact hkey
  · obtain ⟨ip, hip, hkey⟩ := normalizedIp_of_trim hshows
    by_cases htrusted : trusted remoteAddress proxyTrust = true
    · obtain ⟨hcloudflare, hforwarded⟩ := hothers htrusted
      rw [if_pos htrusted, hcloudflare, hforwarded, hip]
      exact hkey
    · rw [if_neg htrusted, hip]
      exact hkey

/-! ## The partition -/

/-- The keys that a literal is counted under, by itself or as the source of a request. -/
def KeyOf (l : Literal) (k : String) : Prop :=
  k = clientSourceKey (String.ofList l.text) ∨
    ∃ remoteAddress headers proxyTrust, Reads remoteAddress headers proxyTrust l ∧
      k = resolveClientIp remoteAddress headers proxyTrust

/-- One address has one key, and one key one source. -/
def Partitioned (l l' : Literal) : Prop :=
  ∀ k k', KeyOf l k → KeyOf l' k' →
    (address l = address l' → k = k') ∧ (k = k' → (address l).SameSource (address l'))

/-- Beside a mapped address in a spelling that is not known there stands no literal of another class
with its address or in the zero /64, and no other such address. -/
def Distinct (l l' : Literal) : Prop :=
  (Hidden l → Hidden l' → address l = address l') ∧
    (Hidden l → ¬ Hidden l' → address l ≠ address l' ∧ ¬ (address l').Zero64) ∧
    (Hidden l' → ¬ Hidden l → address l ≠ address l' ∧ ¬ (address l).Zero64)

theorem keyOf_eq {l : Literal} {k : String} (h : KeyOf l k) :
    k = clientSourceKey (String.ofList l.text) := by
  rcases h with h | ⟨remoteAddress, headers, proxyTrust, hreads, rfl⟩
  · exact h
  · exact resolveClientIp_reads hreads

theorem partitioned_iff {l l' : Literal} :
    Partitioned l l' ↔
      (address l = address l' →
          clientSourceKey (String.ofList l.text) = clientSourceKey (String.ofList l'.text)) ∧
        (clientSourceKey (String.ofList l.text) = clientSourceKey (String.ofList l'.text) →
          (address l).SameSource (address l')) := by
  constructor
  · intro h
    exact h _ _ (Or.inl rfl) (Or.inl rfl)
  · intro h k k' hk hk'
    rw [keyOf_eq hk, keyOf_eq hk']
    exact h

theorem key_zero_iff {a : Address} (h : ∀ g, a = .v6 g → g.length = 8) :
    a.key = (Address.v6 (List.replicate 8 0)).key ↔ a.Zero64 := by
  have hzero : ∀ g, Address.v6 (List.replicate 8 0) = .v6 g → g.length = 8 := by
    rintro g hg
    cases hg
    rfl
  rw [key_eq_iff h hzero]
  cases a with
  | v4 q => exact Iff.rfl
  | v6 g => exact Iff.rfl

theorem SameSource.symm {a a' : Address} (h : a.SameSource a') : a'.SameSource a := by
  cases a <;> cases a' <;> first | exact Eq.symm h | exact h.elim

theorem SameSource.refl (a : Address) : a.SameSource a := by
  cases a <;> exact rfl

theorem hidden_beside {l l' : Literal} (h : Hidden l) (h' : ¬ Hidden l') :
    (address l = address l' →
          clientSourceKey (String.ofList l.text) = clientSourceKey (String.ofList l'.text)) ∧
        (clientSourceKey (String.ofList l.text) = clientSourceKey (String.ofList l'.text) →
          (address l).SameSource (address l')) ↔
      address l ≠ address l' ∧ ¬ (address l').Zero64 := by
  obtain ⟨q, hq, -, -⟩ := id h
  rw [clientSourceKey_hidden h, clientSourceKey_shown h', String.ofList_inj,
    eq_comm (b := (address l').key), key_zero_iff length_address]
  constructor
  · rintro ⟨hsame, hsource⟩
    constructor
    · intro heq
      have hzero := hsame heq
      rw [← heq, hq] at hzero
      exact hzero
    · intro hzero
      have hsource := hsource hzero
      rw [hq] at hsource
      cases hl' : address l' with
      | v4 q' =>
        rw [hl'] at hzero
        exact hzero
      | v6 g =>
        rw [hl'] at hsource
        exact hsource
  · rintro ⟨hne, hzero⟩
    exact ⟨fun heq => absurd heq hne, fun hz => absurd hz hzero⟩

/-- The keys of two literals part their sources exactly when no mapped address in a spelling that is
not known stands beside what shares its address or its key. -/
theorem source_keys_partition (l l' : Literal) : Partitioned l l' ↔ Distinct l l' := by
  rw [partitioned_iff]
  unfold Distinct
  by_cases h : Hidden l
  · by_cases h' : Hidden l'
    · obtain ⟨q, hq, -, -⟩ := id h
      obtain ⟨q', hq', -, -⟩ := id h'
      rw [clientSourceKey_hidden h, clientSourceKey_hidden h', hq, hq']
      constructor
      · intro hkeys
        exact ⟨fun _ _ => congrArg Address.v4 (hkeys.2 rfl), fun _ hn => absurd h' hn,
          fun _ hn => absurd h hn⟩
      · intro hdistinct
        refine ⟨fun _ => rfl, fun _ => ?_⟩
        have heq := hdistinct.1 h h'
        cases heq
        exact rfl
    -- A hidden literal has the key of the zero prefix, and meets a shown one only there.
    · rw [hidden_beside h h']
      constructor
      · intro hapart
        exact ⟨fun _ hn => absurd hn h', fun _ _ => hapart, fun hn => absurd hn h'⟩
      · rintro ⟨-, hapart, -⟩
        exact hapart h h'
  · by_cases h' : Hidden l'
    · have hbeside := hidden_beside h' h
      constructor
      · rintro ⟨hsame, hsource⟩
        have hapart := hbeside.mp ⟨fun heq => (hsame heq.symm).symm,
          fun hkey => SameSource.symm (hsource hkey.symm)⟩
        exact ⟨fun hn => absurd hn h, fun hn => absurd hn h,
          fun _ _ => ⟨Ne.symm hapart.1, hapart.2⟩⟩
      · rintro ⟨-, -, hapart⟩
        obtain ⟨hne, hzero⟩ := hapart h' h
        obtain ⟨hsame, hsource⟩ := hbeside.mpr ⟨Ne.symm hne, hzero⟩
        exact ⟨fun heq => absurd heq hne, fun hkey => SameSource.symm (hsource hkey.symm)⟩
    · rw [clientSourceKey_shown h, clientSourceKey_shown h', String.ofList_inj,
        key_eq_iff length_address length_address]
      constructor
      · intro _
        exact ⟨fun hn => absurd hn h, fun hn => absurd hn h, fun hn => absurd hn h'⟩
      · intro _
        refine ⟨?_, id⟩
        intro heq
        rw [heq]
        exact SameSource.refl _

/-! ## Two spellings of one address -/

def sampleQuad : Quad := ⟨203, 0, 113, 5⟩

/-- `::FFFF:203.0.113.5` -/
def upperMapped : Literal :=
  .short [] ⟨[⟨['F', 'F', 'F', 'F'], ⟨by simp, by simp⟩, List.all_eq_true.mp rfl⟩], some sampleQuad⟩
    (show 3 ≤ 7 by decide)

/-- The address in capitals has the key of `::/64`, and not the one of the address itself. -/
theorem upper_mapped_key :
    address upperMapped = address (.v4 sampleQuad) ∧
      clientSourceKey (String.ofList upperMapped.text) = "0:0:0:0::/64" ∧
      clientSourceKey (String.ofList (Literal.v4 sampleQuad).text) = "203.0.113.5" ∧
      ¬ Partitioned upperMapped (.v4 sampleQuad) := by
  have hhidden : Hidden upperMapped := ⟨sampleQuad, rfl, nofun, by decide⟩
  have hupper := clientSourceKey_hidden hhidden
  have hplain := clientSourceKey_v4 sampleQuad
  have hzero : String.ofList (Address.v6 (List.replicate 8 0)).key = "0:0:0:0::/64" := by
    apply String.toList_inj.mp
    rw [String.toList_ofList]
    rfl
  have htext : String.ofList sampleQuad.text = "203.0.113.5" := by
    apply String.toList_inj.mp
    rw [String.toList_ofList]
    rfl
  refine ⟨rfl, hupper.trans hzero, hplain.trans htext, ?_⟩
  intro h
  have hkeys := (partitioned_iff.mp h).1 rfl
  rw [Literal.text, hupper, hplain, hzero, htext] at hkeys
  exact absurd hkeys (by decide)

end QuantaSwap.Serve
