import QuantaSwap.Qrvm.Codec

/-!
# What the codec reads and writes

A return value decodes if and only if it spells the canonical encoding of what is read
from it, and calldata tells the arguments of one method apart.
-/

set_option autoImplicit false

namespace QuantaSwap.Qrvm

open Lib.Js Lib.Text Lib.Checks Lib.Hex Book

/-! ## The canonical encodings -/

/-- `0x` and the same digits, up to their case. -/
def SameHex (s t : String) : Prop :=
  ∃ a b, s.toList = '0' :: 'x' :: a ∧ t.toList = '0' :: 'x' :: b ∧ lower a = lower b

/-- What a swap record of the contract can hold. -/
structure QrvmSwap.WellFormed (r : QrvmSwap) : Prop where
  initiator : fixed ['0', 'x'] 128 isLowerHex r.initiator = true
  recipient : fixed ['0', 'x'] 128 isLowerHex r.recipient = true
  token : fixed ['0', 'x'] 128 isLowerHex r.token = true
  amount : r.amount < 2 ^ 256
  timeout : r.timeout ≤ maxSafeInteger
  preimage : fixed ['0', 'x'] 64 isLowerHex r.preimage = true

/-- The seven words of a record: addresses fill theirs, integers are padded on the
left and the preimage on the right. -/
def QrvmSwap.words (r : QrvmSwap) : List Word :=
  [r.initiator.toList.drop 2, r.recipient.toList.drop 2, r.token.toList.drop 2, padded 128 r.amount,
    padded 128 r.timeout, padded 128 r.status.val, (r.preimage.toList.drop 2).rightpad 128 '0']

def encoded (words : List Word) : String := String.ofList ('0' :: 'x' :: words.flatten)

/-! ## Words of a text -/

section Words

variable {words : List Word} {k n : Nat}

theorem lower_hex {digits : List Char} (h : ∀ c ∈ digits, isHex c = true) :
    ∀ c ∈ lower digits, isLowerHex c = true := by
  intro c hc
  obtain ⟨d, hd, rfl⟩ := List.mem_map.mp hc
  exact isHex_iff_toLower.mp (h d hd)

theorem lower_of_lowerHex {digits : List Char} (h : ∀ c ∈ digits, isLowerHex c = true) :
    lower digits = digits := by
  conv_rhs => rw [← List.map_id digits]
  exact List.map_congr_left fun c hc => toLower_of_isLowerHex (h c hc)

theorem flatten_pieces (digits : List Char) (k n : Nat) :
    ((List.range n).map fun i => (digits.drop (i * k)).take k).flatten = digits.take (n * k) := by
  induction n with
  | zero => simp
  | succ n ih =>
    rw [List.range_succ, List.map_append, List.flatten_append, ih, Nat.succ_mul, List.take_add]
    simp

theorem piece_flatten (h : ∀ w ∈ words, w.length = k) {i : Nat} (hi : i < words.length) :
    (words.flatten.drop (i * k)).take k = words[i] := by
  induction words generalizing i with
  | nil => simp at hi
  | cons w words ih =>
    have hw : w.length = k := h w List.mem_cons_self
    cases i with
    | zero => simp [← hw]
    | succ i =>
      rw [List.flatten_cons, Nat.succ_mul, Nat.add_comm, ← hw, List.drop_length_add_append, hw]
      exact ih (fun w' hw' => h w' (List.mem_cons_of_mem _ hw')) (by simpa using hi)

/-- 64 bytes in lowercase digits. -/
structure IsWord (w : Word) : Prop where
  length : w.length = 128
  digits : ∀ c ∈ w, isLowerHex c = true

theorem wordAt_eq {text : String} {body : List Char} (h : text.toList = '0' :: 'x' :: body)
    (i : Nat) :
    wordAt text i = ((lower body).drop (i * 128)).take 128 := by
  unfold wordAt lower
  rw [h, List.map_take, List.map_drop]
  rfl

theorem isWord_wordAt {text : String} (h : fixed ['0', 'x'] (n * 128) isHex text = true) {i : Nat}
    (hi : i < n) :
    IsWord (wordAt text i) := by
  obtain ⟨body, htext, hlength, hhex⟩ := fixed_iff.mp h
  rw [wordAt_eq (show text.toList = '0' :: 'x' :: body from htext)]
  constructor
  · rw [List.length_take, List.length_drop, lower, List.length_map, hlength]
    omega
  · intro c hc
    exact lower_hex hhex c (List.mem_of_mem_drop (List.mem_of_mem_take hc))

theorem sameHex_encoded_iff (h : ∀ w ∈ words, IsWord w) {text : String} :
    SameHex text (encoded words) ↔
      fixed ['0', 'x'] (words.length * 128) isHex text = true ∧
      (List.range words.length).map (wordAt text) = words := by
  have hdigits : ∀ c ∈ words.flatten, isLowerHex c = true := by
    intro c hc
    obtain ⟨w, hw, hcw⟩ := List.mem_flatten.mp hc
    exact (h w hw).digits c hcw
  have hlength : words.flatten.length = words.length * 128 := by
    rw [List.length_flatten, List.map_congr_left (fun w hw => (h w hw).length), List.map_const',
      List.sum_replicate_nat]
  have hencoded : (encoded words).toList = '0' :: 'x' :: words.flatten := String.toList_ofList
  constructor
  · rintro ⟨a, b, htext, hb, hab⟩
    rw [hencoded, List.cons.injEq, List.cons.injEq] at hb
    obtain ⟨-, -, rfl⟩ := hb
    rw [lower_of_lowerHex hdigits] at hab
    have halength : a.length = words.length * 128 := by
      rw [← hlength, ← hab, lower, List.length_map]
    refine ⟨fixed_iff.mpr ⟨a, htext, halength, ?_⟩, ?_⟩
    · intro c hc
      have hmem : c.toLower ∈ words.flatten := hab ▸ List.mem_map_of_mem hc
      exact isHex_iff_toLower.mpr (hdigits _ hmem)
    · apply List.ext_getElem
      · simp
      · intro i hi hi'
        rw [List.getElem_map, List.getElem_range, wordAt_eq htext, hab]
        exact piece_flatten (fun w hw => (h w hw).length) hi'
  · rintro ⟨hfixed, hwords⟩
    obtain ⟨body, htext, hbody, hhex⟩ := fixed_iff.mp hfixed
    refine ⟨body, words.flatten, htext, hencoded, ?_⟩
    have hpieces := flatten_pieces (lower body) 128 words.length
    rw [List.take_of_length_le (by rw [lower, List.length_map, hbody])] at hpieces
    rw [lower_of_lowerHex hdigits, ← hpieces]
    conv_rhs => rw [← hwords]
    exact congrArg List.flatten (List.map_congr_left fun i _ => (wordAt_eq htext i).symm)

end Words

/-! ## Integers -/

section Uints

variable {name : String} {w : Word} {raw : Option Json} {count v : Nat} {vs : List Nat}

theorem pow_256 : 2 ^ 256 = 16 ^ 64 := by decide

theorem isWord_padded {v : Nat} (h : v < 2 ^ 256) : IsWord (padded 128 v) := by
  constructor
  · apply length_padded (by decide)
    rw [pow_256] at h
    exact Nat.lt_trans h (Nat.pow_lt_pow_right (by decide) (by decide))
  · exact padded_lower 128 v

theorem uint256At_eq_ok (h : IsWord w) :
    uint256At name w = .ok v ↔ v < 2 ^ 256 ∧ w = padded 128 v := by
  unfold uint256At
  simp only [bind_eq_ok, refuse_eq_ok, pure_eq_ok, exists_const, Decidable.not_not]
  constructor
  · rintro ⟨hzeros, rfl⟩
    have hw : w = List.replicate 64 '0' ++ w.drop 64 := by
      rw [← hzeros, List.take_append_drop]
    have hlow : ∀ c ∈ w.drop 64, isLowerHex c = true :=
      fun c hc => h.digits c (List.mem_of_mem_drop hc)
    have hlt : Lib.Hex.value w < 2 ^ 256 := by
      rw [hw, value_replicate_zero_append, pow_256]
      have := value_lt hlow
      rwa [List.length_drop, h.length] at this
    exact ⟨hlt, (padded_value (by decide) h.length h.digits).symm⟩
  · rintro ⟨hlt, rfl⟩
    rw [pow_256] at hlt
    refine ⟨?_, value_padded 128 v⟩
    rw [show padded 128 v = padded (64 + 64) v from rfl, padded_add (by decide) hlt]
    exact List.take_left' List.length_replicate

theorem hexText_eq_some {n : Nat} {text : String} :
    hexText n raw = some text ↔ raw = some (.str text) ∧ fixed ['0', 'x'] n isHex text = true := by
  unfold hexText
  rw [Option.filter_eq_some_iff]
  constructor
  · rintro ⟨hraw, hfixed⟩
    unfold asString at hraw
    split at hraw
    · cases hraw
      exact ⟨rfl, hfixed⟩
    · cases hraw
  · rintro ⟨rfl, hfixed⟩
    exact ⟨rfl, hfixed⟩

theorem isWord_integers (h : ∀ v ∈ vs, v < 2 ^ 256) : ∀ w ∈ vs.map (padded 128), IsWord w := by
  intro w hw
  obtain ⟨v, hv, rfl⟩ := List.mem_map.mp hw
  exact isWord_padded (h v hv)

theorem decodeQrvmUints_eq_ok : decodeQrvmUintsWith name raw count = .ok vs ↔
    vs.length = count ∧ (∀ v ∈ vs, v < 2 ^ 256) ∧
      ∃ text, raw = some (.str text) ∧ SameHex text (encoded (vs.map (padded 128))) := by
  unfold decodeQrvmUintsWith
  simp only [bind_eq_ok, orThrow_eq_ok, hexText_eq_some, mapM_eq_ok]
  constructor
  · rintro ⟨text, ⟨hraw, hfixed⟩, hvs⟩
    have hlength : count = vs.length := by simpa using congrArg List.length hvs
    have hread (i : Nat) (hi : i < vs.length) :
      vs[i] < 2 ^ 256 ∧ wordAt text i = padded 128 vs[i] := by
      have hok := List.getElem_of_eq hvs (i := i) (by simpa [hlength] using hi)
      rw [List.getElem_map, List.getElem_map, List.getElem_range] at hok
      exact (uint256At_eq_ok (isWord_wordAt hfixed (hlength ▸ hi))).mp hok
    have hlt : ∀ v ∈ vs, v < 2 ^ 256 := by
      intro v hv
      obtain ⟨i, hi, rfl⟩ := List.getElem_of_mem hv
      exact (hread i hi).1
    refine ⟨hlength.symm, hlt, text, hraw, ?_⟩
    rw [sameHex_encoded_iff (isWord_integers hlt), List.length_map, ← hlength]
    refine ⟨hfixed, List.ext_getElem (by simpa using hlength) ?_⟩
    intro i hi hi'
    rw [List.getElem_map, List.getElem_map, List.getElem_range]
    exact (hread i (by simpa using hi')).2
  · rintro ⟨rfl, hlt, text, hraw, hsame⟩
    rw [sameHex_encoded_iff (isWord_integers hlt), List.length_map] at hsame
    obtain ⟨hfixed, hwords⟩ := hsame
    refine ⟨text, ⟨hraw, hfixed⟩, List.ext_getElem (by simp) ?_⟩
    intro i hi hi'
    have hi : i < vs.length := by simpa using hi'
    have hword : wordAt text i = padded 128 vs[i] := by
      have := List.getElem_of_eq hwords (i := i) (by simpa using hi)
      simpa using this
    rw [List.getElem_map, List.getElem_map, List.getElem_range, hword]
    have hv := hlt vs[i] (List.getElem_mem hi)
    exact (uint256At_eq_ok (isWord_padded hv)).mpr ⟨hv, rfl⟩

end Uints

/-! ## Swap records -/

section Swap

variable {name : String} {raw : Option Json} {r r' : QrvmSwap}

theorem isWord_drop {s : String} (h : fixed ['0', 'x'] 128 isLowerHex s = true) :
    IsWord (s.toList.drop 2) := by
  obtain ⟨body, hs, hlength, hdigits⟩ := fixed_iff.mp h
  rw [hs]
  exact ⟨hlength, hdigits⟩

theorem isWord_rightpad {s : String} (h : fixed ['0', 'x'] 64 isLowerHex s = true) :
    IsWord ((s.toList.drop 2).rightpad 128 '0') := by
  obtain ⟨body, hs, hlength, hdigits⟩ := fixed_iff.mp h
  rw [hs]
  change IsWord (body.rightpad 128 '0')
  unfold List.rightpad
  rw [hlength]
  constructor
  · rw [List.length_append, hlength, List.length_replicate]
  · intro c hc
    rcases List.mem_append.mp hc with hc | hc
    · exact hdigits c hc
    · rw [(List.mem_replicate.mp hc).2]
      rfl

theorem length_words (r : QrvmSwap) : r.words.length = 7 := rfl

theorem isWord_words (h : r.WellFormed) : ∀ w ∈ r.words, IsWord w := by
  have htimeout : r.timeout < 2 ^ 256 := Nat.lt_of_le_of_lt h.timeout (by decide)
  have hstatus : r.status.val < 2 ^ 256 := Nat.lt_of_lt_of_le r.status.isLt (by decide)
  intro w hw
  simp only [QrvmSwap.words, List.mem_cons, List.not_mem_nil, or_false] at hw
  rcases hw with rfl | rfl | rfl | rfl | rfl | rfl | rfl
  · exact isWord_drop h.initiator
  · exact isWord_drop h.recipient
  · exact isWord_drop h.token
  · exact isWord_padded h.amount
  · exact isWord_padded htimeout
  · exact isWord_padded hstatus
  · exact isWord_rightpad h.preimage

theorem swapStatus_eq_some {n : Nat} {status : Fin 4} :
    swapStatus (roundDouble n) = some status ↔ n = status.val := by
  constructor
  · intro h
    have hlt : n < 2 ^ 53 := by
      by_contra hge
      have hround := le_roundDouble (z := n) (by omega)
      unfold swapStatus at h
      split at h
      · omega
      · omega
      · omega
      · omega
      · cases h
    rw [roundDouble_of_lt (by omega) (by omega)] at h
    unfold swapStatus at h
    split at h <;> simp_all <;> omega
  · rintro rfl
    revert status
    decide

theorem prefixedWord_drop {s : String} {n : Nat} (h : fixed ['0', 'x'] n isLowerHex s = true) :
    prefixedWord (s.toList.drop 2) = s := by
  obtain ⟨body, hs, -, -⟩ := fixed_iff.mp h
  apply String.toList_inj.mp
  rw [prefixedWord, hs, String.toList_ofList]
  rfl

theorem prefixedWord_toList (w : Word) : (prefixedWord w).toList.drop 2 = w := by
  rw [prefixedWord, String.toList_ofList]
  rfl

theorem fixed_prefixedWord {w : Word} {n : Nat} (hlength : w.length = n)
    (h : ∀ c ∈ w, isLowerHex c = true) :
    fixed ['0', 'x'] n isLowerHex (prefixedWord w) = true :=
  fixed_iff.mpr ⟨w, String.toList_ofList, hlength, h⟩

theorem rightpad_take {w : Word} (h : IsWord w) (hzeros : w.drop 64 = List.replicate 64 '0') :
    (w.take 64).rightpad 128 '0' = w := by
  have hlength : (w.take 64).length = 64 := by
    rw [List.length_take, h.length]
    rfl
  rw [List.rightpad, hlength, ← hzeros, List.take_append_drop]

theorem drop_rightpad {digits : List Char} (h : digits.length = 64) :
    (digits.rightpad 128 '0').take 64 = digits ∧
    (digits.rightpad 128 '0').drop 64 = List.replicate 64 '0' := by
  unfold List.rightpad
  rw [h]
  exact ⟨List.take_left' h, List.drop_left' h⟩

/-- Exactly the texts of the seven words of a record decode, to this record. -/
theorem decodeQrvmSwap_eq_ok : decodeQrvmSwapWith name raw = .ok r ↔
    r.WellFormed ∧ ∃ text, raw = some (.str text) ∧ SameHex text (encoded r.words) := by
  unfold decodeQrvmSwapWith
  simp only [bind_eq_ok, orThrow_eq_ok, hexText_eq_some, refuse_eq_ok, pure_eq_ok,
    exists_const, not_lt,
    Decidable.not_not, swapStatus_eq_some]
  constructor
  · rintro ⟨text, ⟨hraw, hfixed⟩, amount, hamount, timeout, htimeout, status, hstatus, hsafe,
      numeric, rfl, hzeros, rfl⟩
    rw [show 896 = 7 * 128 from rfl] at hfixed
    have hword (i : Nat) (hi : i < 7) : IsWord (wordAt text i) := isWord_wordAt hfixed hi
    obtain ⟨hamountLt, hamountWord⟩ := (uint256At_eq_ok (hword 3 (by decide))).mp hamount
    obtain ⟨-, htimeoutWord⟩ := (uint256At_eq_ok (hword 4 (by decide))).mp htimeout
    obtain ⟨-, hstatusWord⟩ := (uint256At_eq_ok (hword 5 (by decide))).mp hstatus
    have hpreimage := hword 6 (by decide)
    -- The timeout is read as a double, and is exact up to the largest safe integer.
    have hnumber : (roundDouble timeout).toNat = timeout := by
      unfold maxSafeInteger at hsafe
      rw [roundDouble_of_lt (by omega) (by omega), Int.toNat_natCast]
    rw [hnumber]
    have hwell : QrvmSwap.WellFormed ⟨prefixedWord (wordAt text 0), prefixedWord (wordAt text 1),
        prefixedWord (wordAt text 2), amount, timeout, numeric,
          prefixedWord ((wordAt text 6).take 64)⟩ := by
      constructor
      · exact fixed_prefixedWord (hword 0 (by decide)).length (hword 0 (by decide)).digits
      · exact fixed_prefixedWord (hword 1 (by decide)).length (hword 1 (by decide)).digits
      · exact fixed_prefixedWord (hword 2 (by decide)).length (hword 2 (by decide)).digits
      · exact hamountLt
      · exact hsafe
      · refine fixed_prefixedWord ?_ fun c hc => hpreimage.digits c (List.mem_of_mem_take hc)
        rw [List.length_take, hpreimage.length]
        rfl
    refine ⟨hwell, text, hraw, (sameHex_encoded_iff (isWord_words hwell)).mpr ?_⟩
    rw [length_words]
    refine ⟨hfixed, ?_⟩
    unfold QrvmSwap.words
    simp only [prefixedWord_toList, rightpad_take hpreimage hzeros, ← hamountWord, ← htimeoutWord,
      ← hstatusWord]
    rfl
  · rintro ⟨h, text, hraw, hsame⟩
    obtain ⟨hfixed, hwords⟩ := (sameHex_encoded_iff (isWord_words h)).mp hsame
    rw [length_words] at hfixed
    change [wordAt text 0, wordAt text 1, wordAt text 2, wordAt text 3, wordAt text 4,
      wordAt text 5, wordAt text 6] =
      r.words at hwords
    unfold QrvmSwap.words at hwords
    simp only [List.cons.injEq, and_true] at hwords
    obtain ⟨h0, h1, h2, h3, h4, h5, h6⟩ := hwords
    have htimeout : r.timeout < 2 ^ 256 := Nat.lt_of_le_of_lt h.timeout (by decide)
    have hstatus : r.status.val < 2 ^ 256 := Nat.lt_of_lt_of_le r.status.isLt (by decide)
    have hnumber : (roundDouble r.timeout).toNat = r.timeout := by
      have hsafe := h.timeout
      unfold maxSafeInteger at hsafe
      rw [roundDouble_of_lt (by omega) (by omega), Int.toNat_natCast]
    obtain ⟨body, hbody, hlength, -⟩ := fixed_iff.mp h.preimage
    have hdrop : (r.preimage.toList.drop 2).length = 64 := by
      rw [hbody]
      exact hlength
    obtain ⟨htake, hzeros⟩ := drop_rightpad hdrop
    refine ⟨text, ⟨hraw, hfixed⟩, r.amount, ?_, r.timeout, ?_, r.status.val, ?_, h.timeout,
      r.status, rfl, ?_, ?_⟩
    · rw [h3]
      exact (uint256At_eq_ok (isWord_padded h.amount)).mpr ⟨h.amount, rfl⟩
    · rw [h4]
      exact (uint256At_eq_ok (isWord_padded htimeout)).mpr ⟨htimeout, rfl⟩
    · rw [h5]
      exact (uint256At_eq_ok (isWord_padded hstatus)).mpr ⟨hstatus, rfl⟩
    · rw [h6, hzeros]
    · rw [h0, h1, h2, h6, htake, hnumber, prefixedWord_drop h.initiator,
        prefixedWord_drop h.recipient,
        prefixedWord_drop h.token, prefixedWord_drop h.preimage]

end Swap

/-! ## Arguments -/

/-- What an argument stands for: bytes, of a hash or of an account, or an integer. -/
inductive Meaning where
  | bytes (b : List UInt8)
  | integer (z : Int)
  deriving DecidableEq

def meaning : WordType → Argument → Option Meaning
  | .bytes32, .str s => some (.bytes (hexBytes (s.toList.drop 2)))
  | .address, .str s =>
    some (.bytes (if s = qrvmZeroAddress then List.replicate 64 0 else hexBytes (s.toList.drop 1)))
  | .uint256, v => (bigInt v).map .integer
  | _, _ => none

def meanings (method : QrvmHtlcMethod) (values : List Argument) : List (Option Meaning) :=
  List.zipWith meaning method.types values

/-- What a word says to the contract. -/
def readWord : WordType → Word → Meaning
  | .bytes32, w => .bytes (hexBytes (w.take 64))
  | .address, w => .bytes (hexBytes w)
  | .uint256, w => .integer (Lib.Hex.value w)

section Arguments

variable {E : Crypto} {canonical : String → Except JsError String} {type : WordType} {v : Argument}
  {w : Word}

/-- A copy's check passes only accounts of 64 bytes, and it changes no digit. -/
def PassesAccounts (canonical : String → Except JsError String) : Prop :=
  ∀ s account, canonical s = .ok account →
    fixed ['Q'] 128 isHex s = true ∧ lower (account.toList.drop 1) = lower (s.toList.drop 1)

theorem hexDigit_toLower {c : Char} (h : isHex c = true) :
    Book.hexDigit c.toLower = Book.hexDigit c := by
  have hdigit (c : Char) : Book.hexDigit c = UInt8.ofNat (digitValue c) := by
    unfold Book.hexDigit digitValue
    split <;> rfl
  rw [hdigit, hdigit, digitValue_toLower h]

theorem hexBytes_lower {digits : List Char} (h : ∀ c ∈ digits, isHex c = true) :
    hexBytes (lower digits) = hexBytes digits := by
  induction digits using hexBytes.induct with
  | case1 high low rest ih =>
    have hrest : ∀ c ∈ rest, isHex c = true :=
      fun c hc => h c (List.mem_cons_of_mem _ (List.mem_cons_of_mem _ hc))
    have hhigh := hexDigit_toLower (h high (by simp))
    have hlow := hexDigit_toLower (h low (by simp))
    unfold lower at ih ⊢
    rw [List.map_cons, List.map_cons, hexBytes, hexBytes, hhigh, hlow, ih hrest]
  | case2 digits hshort =>
    rcases digits with - | ⟨c, - | ⟨c', rest⟩⟩
    · rfl
    · rfl
    · exact absurd rfl (hshort c c' rest)

theorem hexBytes_zeros (n : Nat) : hexBytes (List.replicate (2 * n) '0') = List.replicate n 0 := by
  induction n with
  | zero => rfl
  | succ n ih =>
    rw [Nat.mul_succ, List.replicate_succ, List.replicate_succ, hexBytes, ih, List.replicate_succ]
    rfl

theorem bytes32Word_spec (h : bytes32Word v = .ok w) :
    IsWord w ∧ meaning .bytes32 v = some (readWord .bytes32 w) := by
  unfold bytes32Word at h
  split at h
  · rename_i s
    split at h
    · rename_i hfixed
      cases h
      obtain ⟨body, hs, hlength, hhex⟩ := fixed_iff.mp hfixed
      have hdrop : s.toList.drop 2 = body := by
        rw [hs]
        rfl
      have hlower : (lower body).length = 64 := by rw [lower, List.length_map, hlength]
      simp only [meaning, readWord]
      rw [hdrop, (drop_rightpad hlower).1, hexBytes_lower hhex]
      refine ⟨⟨?_, ?_⟩, rfl⟩
      · rw [List.rightpad, List.length_append, List.length_replicate, hlower]
      · intro c hc
        rcases List.mem_append.mp hc with hc | hc
        · exact lower_hex hhex c hc
        · rw [(List.mem_replicate.mp hc).2]
          rfl
    · cases h
  · cases h

theorem addressWord_spec (hcanonical : PassesAccounts canonical)
    (h : qrvmAddressWord canonical v = .ok w) :
    IsWord w ∧ meaning .address v = some (readWord .address w) := by
  unfold qrvmAddressWord at h
  split at h
  · rename_i s
    simp only [meaning, readWord]
    split at h
    · rename_i hzero
      cases h
      rw [if_pos hzero, show List.replicate 128 '0' = List.replicate (2 * 64) '0' from rfl,
        hexBytes_zeros]
      refine ⟨⟨List.length_replicate, ?_⟩, rfl⟩
      intro c hc
      rw [(List.mem_replicate.mp hc).2]
      rfl
    · rename_i hzero
      simp only [bind_eq_ok, pure_eq_ok] at h
      obtain ⟨account, haccount, rfl⟩ := h
      obtain ⟨hfixed, hlower⟩ := hcanonical s account haccount
      obtain ⟨body, hs, hlength, hhex⟩ := fixed_iff.mp hfixed
      have hdrop : s.toList.drop 1 = body := by
        rw [hs]
        rfl
      rw [if_neg hzero, hlower, hdrop, hexBytes_lower hhex]
      refine ⟨⟨?_, lower_hex hhex⟩, rfl⟩
      rw [lower, List.length_map, hlength]
  · cases h

theorem uint256Word_spec (h : uint256Word v = .ok w) :
    IsWord w ∧ meaning .uint256 v = some (readWord .uint256 w) := by
  simp only [uint256Word, bind_eq_ok, orThrow_eq_ok, refuse_eq_ok, pure_eq_ok, exists_const,
    not_or] at h
  obtain ⟨number, hnumber, ⟨hnonneg, hlt⟩, rfl⟩ := h
  simp only [meaning, readWord]
  rw [hnumber, value_padded, Int.toNat_of_nonneg (Int.not_lt.mp hnonneg)]
  exact ⟨isWord_padded (by omega), rfl⟩

theorem word_spec (hcanonical : PassesAccounts canonical) (h : word canonical type v = .ok w) :
    IsWord w ∧ meaning type v = some (readWord type w) := by
  cases type with
  | bytes32 => exact bytes32Word_spec h
  | address => exact addressWord_spec hcanonical h
  | uint256 => exact uint256Word_spec h

theorem words_spec (hcanonical : PassesAccounts canonical) {types : List WordType}
    {values : List Argument}
    {words : List Word} (hlength : values.length = types.length)
    (h : (types.zip values).mapM (fun (type, v) => word canonical type v) = .ok words) :
    words.length = types.length ∧ (∀ w ∈ words, IsWord w) ∧
      List.zipWith meaning types values = (List.zipWith readWord types words).map some := by
  induction types generalizing values words with
  | nil =>
    rw [List.zip_nil_left, List.mapM_nil, pure_eq_ok] at h
    subst h
    exact ⟨rfl, (fun _ hw => by cases hw), rfl⟩
  | cons type types ih =>
    cases values with
    | nil => cases hlength
    | cons value values =>
      rw [List.zip_cons_cons, List.mapM_cons] at h
      simp only [bind_eq_ok, pure_eq_ok] at h
      obtain ⟨w, hw, words, hwords, rfl⟩ := h
      obtain ⟨hword, hmeaning⟩ := word_spec hcanonical hw
      obtain ⟨hlen, hall, hread⟩ := ih (by simpa using hlength) hwords
      refine ⟨by rw [List.length_cons, List.length_cons, hlen], ?_, ?_⟩
      · intro w' hw'
        rcases List.mem_cons.mp hw' with rfl | hw'
        · exact hword
        · exact hall w' hw'
      · rw [List.zipWith_cons_cons, List.zipWith_cons_cons, List.map_cons, hmeaning, hread]

theorem flatten_injective {ws ws' : List Word} (hlength : ws.length = ws'.length)
    (h : ∀ w ∈ ws, IsWord w)
    (h' : ∀ w ∈ ws', IsWord w) (heq : ws.flatten = ws'.flatten) : ws = ws' := by
  refine List.ext_getElem hlength fun i hi hi' => ?_
  rw [← piece_flatten (fun w hw => (h w hw).length) hi, heq,
    piece_flatten (fun w hw => (h' w hw).length) hi']

/-- Calldata tells what the arguments of a method stand for. -/
theorem encode_injective (hcanonical : PassesAccounts canonical) {id : String → String}
    {method : QrvmHtlcMethod}
    {values values' : List Argument} {data : String}
    (h : encodeQrvmHtlcWith canonical id method values = .ok data)
    (h' : encodeQrvmHtlcWith canonical id method values' = .ok data) :
    meanings method values = meanings method values' ∧ none ∉ meanings method values := by
  simp only [encodeQrvmHtlcWith, bind_eq_ok, refuse_eq_ok, pure_eq_ok, exists_const,
    Decidable.not_not] at h h'
  obtain ⟨hlength, words, hwords, rfl⟩ := h
  obtain ⟨hlength', words', hwords', heq⟩ := h'
  obtain ⟨hlen, hall, hread⟩ := words_spec hcanonical hlength hwords
  obtain ⟨hlen', hall', hread'⟩ := words_spec hcanonical hlength' hwords'
  have hflat : words'.flatten = words.flatten := by
    have := congrArg String.toList heq
    simpa only [String.toList_append, String.toList_ofList, List.append_cancel_left_eq] using this
  have hsame := flatten_injective (hlen'.trans hlen.symm) hall' hall hflat
  unfold meanings
  rw [hread, hread', hsame]
  refine ⟨rfl, ?_⟩
  intro hmem
  obtain ⟨m, -, hm⟩ := List.mem_map.mp hmem
  cases hm

end Arguments

/-! ## The two copies -/

section Copies

variable (E : Crypto) (id : String → String)

theorem toLower_toUpper {c : Char} (ha : 'a' ≤ c ∧ c ≤ 'f') : c.toUpper.toLower = c := by
  have hcode : ∀ k, k < 128 → 97 ≤ k ∧ k ≤ 102 → (Char.ofNat k).toUpper.toLower = Char.ofNat k := by
    decide
  have hc : 97 ≤ c.toNat ∧ c.toNat ≤ 102 := by simpa [Char.le_def, UInt32.le_iff_toNat_le] using ha
  have := hcode c.toNat (by omega) hc
  rwa [Char.ofNat_toNat] at this

theorem lower_checksummedHex {digits : List Char} (h : ∀ c ∈ digits, isLowerHex c = true) :
    lower (checksummedHex E digits) = digits := by
  unfold checksummedHex lower
  refine List.ext_getElem (by simp) fun i hi hi' => ?_
  have hc := h digits[i] (List.getElem_mem hi')
  rw [List.getElem_map, List.getElem_mapIdx]
  split
  · rename_i ha
    extract_lets byte nibble
    by_cases hnibble : 8 ≤ nibble
    · rw [if_pos hnibble]
      exact toLower_toUpper ha
    · rw [if_neg hnibble]
      exact toLower_of_isLowerHex hc
  · exact toLower_of_isLowerHex hc

theorem checksummedAccount_spec {s : String} (h : isQip55QrlAddress E (some (.str s)) = true) :
    fixed ['Q'] 128 isHex s = true ∧
    lower ((checksummedAccount E s).toList.drop 1) = lower (s.toList.drop 1) := by
  unfold isQip55QrlAddress at h
  simp only [asString, Bool.and_eq_true] at h
  obtain ⟨body, hs, -, hhex⟩ := fixed_iff.mp h.1
  refine ⟨h.1, ?_⟩
  rw [checksummedAccount, String.toList_ofList, List.drop_succ_cons, List.drop_zero]
  refine lower_checksummedHex E (lower_hex ?_)
  rw [hs]
  exact hhex

theorem Maker.canonical_eq_ok {s account : String} :
    Maker.canonicalQip55QrlAddress E s = .ok account ↔
    isQip55QrlAddress E (some (.str s)) = true ∧ account = checksummedAccount E s := by
  unfold Maker.canonicalQip55QrlAddress
  split
  · rename_i h
    rw [Except.ok.injEq, eq_comm]
    exact (and_iff_right h).symm
  · rename_i h
    split <;> simp [h]

theorem Browser.canonical_eq_ok {s account : String} :
    Browser.canonicalQip55QrlAddress E s = .ok account ↔
    isQip55QrlAddress E (some (.str s)) = true ∧ account = checksummedAccount E s := by
  unfold Browser.canonicalQip55QrlAddress
  split
  · rename_i h
    rw [Except.ok.injEq, eq_comm]
    exact (and_iff_right h).symm
  · rename_i h
    simp [h]

theorem Maker.passesAccounts : PassesAccounts (Maker.canonicalQip55QrlAddress E) := by
  intro s account h
  obtain ⟨hvalid, rfl⟩ := (Maker.canonical_eq_ok E).mp h
  exact checksummedAccount_spec E hvalid

theorem word_congr {canonical canonical' : String → Except JsError String}
    (h : ∀ s a, canonical s = .ok a ↔ canonical' s = .ok a) (type : WordType) (v : Argument)
    (w : Word) :
    word canonical type v = .ok w ↔ word canonical' type v = .ok w := by
  cases type with
  | bytes32 => exact Iff.rfl
  | uint256 => exact Iff.rfl
  | address =>
    change qrvmAddressWord canonical v = .ok w ↔ qrvmAddressWord canonical' v = .ok w
    unfold qrvmAddressWord
    split
    · split
      · exact Iff.rfl
      · simp only [bind_eq_ok, h]
    · exact Iff.rfl

theorem mapM_congr {α β : Type} {f g : α → Except JsError β} (h : ∀ a b, f a = .ok b ↔ g a = .ok b)
    (l : List α)
    (bs : List β) : l.mapM f = .ok bs ↔ l.mapM g = .ok bs := by
  induction l generalizing bs with
  | nil => exact Iff.rfl
  | cons a l ih =>
    rw [List.mapM_cons, List.mapM_cons]
    simp only [bind_eq_ok, h, ih]

theorem encode_copies (method : QrvmHtlcMethod) (values : List Argument) (data : String) :
    Browser.encodeQrvmHtlc E id method values = .ok data ↔
    Maker.encodeQrvmHtlc E id method values = .ok data := by
  unfold Browser.encodeQrvmHtlc Maker.encodeQrvmHtlc encodeQrvmHtlcWith
  have hcanonical (s a : String) :
      Browser.canonicalQip55QrlAddress E s = .ok a ↔
        Maker.canonicalQip55QrlAddress E s = .ok a := by
    rw [Browser.canonical_eq_ok, Maker.canonical_eq_ok]
  have hwords := mapM_congr (fun (p : WordType × Argument) => word_congr hcanonical p.1 p.2)
  simp only [bind_eq_ok, hwords]

theorem SameHex.trans_symm {s t u : String} (h : SameHex s u) (h' : SameHex t u) : SameHex s t := by
  obtain ⟨a, c, hs, hu, hac⟩ := h
  obtain ⟨b, c', ht, hu', hbc⟩ := h'
  rw [hu, List.cons.injEq, List.cons.injEq] at hu'
  obtain ⟨-, -, rfl⟩ := hu'
  exact ⟨a, b, hs, ht, hac.trans hbc.symm⟩

/-- Return values decode exactly from their canonical encoding, calldata tells arguments apart
by what they stand for, and the two copies agree. -/
theorem codec_exact :
    (∀ r : QrvmSwap, r.WellFormed → Maker.decodeQrvmSwap (some (.str (encoded r.words))) = .ok r) ∧
    (∀ raw r, Maker.decodeQrvmSwap raw = .ok r ↔
      r.WellFormed ∧ ∃ text, raw = some (.str text) ∧ SameHex text (encoded r.words)) ∧
    (∀ raw count vs, Maker.decodeQrvmUints raw count = .ok vs ↔ vs.length = count ∧
      (∀ v ∈ vs, v < 2 ^ 256) ∧
      ∃ text, raw = some (.str text) ∧ SameHex text (encoded (vs.map (padded 128)))) ∧
    (∀ text text' r, Maker.decodeQrvmSwap (some (.str text)) = .ok r →
      Maker.decodeQrvmSwap (some (.str text')) = .ok r →
      SameHex text text') ∧
    (∀ text text' count count' vs, Maker.decodeQrvmUints (some (.str text)) count = .ok vs →
      Maker.decodeQrvmUints (some (.str text')) count' = .ok vs → SameHex text text') ∧
    (∀ method values values' data, Maker.encodeQrvmHtlc E id method values = .ok data →
      Maker.encodeQrvmHtlc E id method values' = .ok data →
      meanings method values = meanings method values' ∧ none ∉ meanings method values) ∧
    (∀ type v v' w, word (Maker.canonicalQip55QrlAddress E) type v = .ok w →
      word (Maker.canonicalQip55QrlAddress E) type v' = .ok w → meaning type v = meaning type v' ∧
      (meaning type v).isSome) ∧
    (∀ method values data, Browser.encodeQrvmHtlc E id method values = .ok data ↔
      Maker.encodeQrvmHtlc E id method values = .ok data) ∧
    (∀ raw count vs, Browser.decodeQrvmUints raw count = .ok vs ↔
      Maker.decodeQrvmUints raw count = .ok vs) ∧
    ∀ raw r, Browser.decodeQrvmSwap raw = .ok r ↔ Maker.decodeQrvmSwap raw = .ok r := by
  refine ⟨?_, fun raw r => decodeQrvmSwap_eq_ok, fun raw count vs => decodeQrvmUints_eq_ok, ?_, ?_,
    fun method values values' data => encode_injective (Maker.passesAccounts E), ?_,
      encode_copies E id, ?_, ?_⟩
  · intro r h
    exact decodeQrvmSwap_eq_ok.mpr ⟨h, _, rfl, _, _, String.toList_ofList,
      String.toList_ofList, rfl⟩
  · intro text text' r h h'
    obtain ⟨-, _, hraw, hsame⟩ := decodeQrvmSwap_eq_ok.mp h
    obtain ⟨-, _, hraw', hsame'⟩ := decodeQrvmSwap_eq_ok.mp h'
    cases hraw
    cases hraw'
    exact hsame.trans_symm hsame'
  · intro text text' count count' vs h h'
    obtain ⟨-, -, _, hraw, hsame⟩ := decodeQrvmUints_eq_ok.mp h
    obtain ⟨-, -, _, hraw', hsame'⟩ := decodeQrvmUints_eq_ok.mp h'
    cases hraw
    cases hraw'
    exact hsame.trans_symm hsame'
  · intro type v v' w h h'
    obtain ⟨-, hmeaning⟩ := word_spec (Maker.passesAccounts E) h
    obtain ⟨-, hmeaning'⟩ := word_spec (Maker.passesAccounts E) h'
    rw [hmeaning, hmeaning']
    exact ⟨rfl, rfl⟩
  · intro raw count vs
    exact decodeQrvmUints_eq_ok.trans decodeQrvmUints_eq_ok.symm
  · intro raw r
    exact decodeQrvmSwap_eq_ok.trans decodeQrvmSwap_eq_ok.symm

end Copies

section Sample

def sampleHash : String := prefixedWord (List.replicate 64 'A')

/-- An open lock of the native coin that times out at 1000000. -/
def sampleRecord : QrvmSwap where
  initiator := prefixedWord (List.replicate 128 'b')
  recipient := prefixedWord (List.replicate 128 'c')
  token := prefixedWord (List.replicate 128 '0')
  amount := 1000000000000000000
  timeout := 1000000
  status := 1
  preimage := prefixedWord (List.replicate 64 '0')

theorem sampleRecord_wellFormed : sampleRecord.WellFormed := by
  constructor <;> decide +kernel

def noCrypto : Crypto where
  sha256 _ := hexOf zeroBytes32
  shake256 _ := []
  verifyMessageForSigner _ _ _ _ _ := false

/-- The calldata of a timeout that is given as a number. -/
def sampleCalldata : String :=
  ((Maker.encodeQrvmHtlc noCrypto (fun _ => "0x01234567") .lockNativeOpen
    [.str sampleHash, .num (.int 255)]).toOption).getD ""

/-- The record, and a timeout as a number and as hex digits. -/
theorem codec_exact_sample :
    Maker.decodeQrvmSwap (some (.str (encoded sampleRecord.words))) = .ok sampleRecord ∧
    meanings .lockNativeOpen [.str sampleHash, .num (.int 255)] =
      meanings .lockNativeOpen [.str sampleHash, .str "0xFf"] := by
  obtain ⟨hdecode, -, -, -, -, hencode, -⟩ := codec_exact noCrypto (fun _ => "0x01234567")
  refine ⟨hdecode sampleRecord sampleRecord_wellFormed, ?_⟩
  exact (hencode .lockNativeOpen [.str sampleHash, .num (.int 255)]
    [.str sampleHash, .str "0xFf"] sampleCalldata rfl rfl).1

end Sample

end QuantaSwap.Qrvm
