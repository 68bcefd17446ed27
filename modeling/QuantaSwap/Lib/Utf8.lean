import Mathlib.Algebra.GroupWithZero.Nat
import Mathlib.Data.List.Basic

/-!
# UTF-8 files of lines

`decode` is the decoder that never fails: what is no character becomes U+FFFD.
A file of whole lines that was cut at any byte reads as its first lines and a
last one without an end.
-/

set_option autoImplicit false

namespace Lib.Utf8

abbrev Bytes := List UInt8

/-- `Buffer.from(s, "utf8")` -/
def encode (s : List Char) : Bytes := s.flatMap String.utf8EncodeChar

/-- `Buffer.byteLength(s, "utf8")` -/
def byteLength (s : List Char) : Nat := (s.map Char.utf8Size).sum

/-- The least and the greatest second byte after the first byte `b`. -/
def secondByte (b : UInt8) : UInt8 × UInt8 :=
  if b = 0xE0 then (0xA0, 0xBF)
  else if b = 0xED then (0x80, 0x9F)
  else if b = 0xF0 then (0x90, 0xBF)
  else if b = 0xF4 then (0x80, 0x8F)
  else (0x80, 0xBF)

def isTail (b : UInt8) : Bool := 0x80 ≤ b && b ≤ 0xBF

/-- How many bytes after the first one belong to the same U+FFFD: the start of a
character that was cut short. -/
def badTail (first : UInt8) (rest : Bytes) : Nat :=
  let tails := if 0xC2 ≤ first ∧ first ≤ 0xDF then 1
    else if 0xE0 ≤ first ∧ first ≤ 0xEF then 2
    else if 0xF0 ≤ first ∧ first ≤ 0xF4 then 3
    else 0
  match rest with
  | [] => 0
  | second :: more =>
    if 0 < tails ∧ (secondByte first).1 ≤ second ∧ second ≤ (secondByte first).2 then
      1 + ((more.take (tails - 1)).takeWhile isTail).length
    else 0

/-- `bytes.toString("utf8")` -/
def decode : Bytes → List Char
  | [] => []
  | b :: bs =>
    match (b :: bs).toByteArray.utf8DecodeChar? 0 with
    | some c => c :: decode (bs.drop (c.utf8Size - 1))
    | none => '\uFFFD' :: decode (bs.drop (badTail b bs))
  termination_by bs => bs.length
  decreasing_by all_goals simp only [List.length_drop, List.length_cons]; omega

@[simp] theorem encode_nil : encode [] = [] := rfl

@[simp] theorem encode_cons (c : Char) (s : List Char) :
    encode (c :: s) = String.utf8EncodeChar c ++ encode s := rfl

@[simp] theorem encode_append (s t : List Char) : encode (s ++ t) = encode s ++ encode t :=
  List.flatMap_append

@[simp] theorem decode_nil : decode [] = [] := by simp [decode]

theorem decode_char_append (c : Char) (bs : Bytes) :
    decode (String.utf8EncodeChar c ++ bs) = c :: decode bs := by
  have hread : (String.utf8EncodeChar c ++ bs).toByteArray.utf8DecodeChar? 0 = some c := by
    rw [List.toByteArray_append]
    exact ByteArray.utf8DecodeChar?_utf8EncodeChar_append
  have hlen : (String.utf8EncodeChar c).length = c.utf8Size := String.length_utf8EncodeChar c
  cases henc : String.utf8EncodeChar c with
  | nil =>
    rw [henc, List.length_nil] at hlen
    have := c.utf8Size_pos
    omega
  | cons b rest =>
    rw [henc] at hread hlen
    rw [List.cons_append] at hread ⊢
    have hdrop : c.utf8Size - 1 = rest.length := by
      rw [← hlen, List.length_cons, Nat.add_sub_cancel]
    rw [decode, hread]
    dsimp only
    rw [hdrop, List.drop_left]

theorem decode_encode_append (s : List Char) (bs : Bytes) :
    decode (encode s ++ bs) = s ++ decode bs := by
  induction s with
  | nil => rfl
  | cons c s ih => rw [encode_cons, List.append_assoc, decode_char_append, ih, List.cons_append]

theorem decode_encode (s : List Char) : decode (encode s) = s := by
  simpa using decode_encode_append s []

/-! ## Line ends -/

theorem eq_of_ofNat_eq_ten {n : Nat} (h : (10 : UInt8) = UInt8.ofNat n) : n % 256 = 10 := by
  have := congrArg UInt8.toNat h
  rw [UInt8.toNat_ofNat'] at this
  exact this.symm

theorem mem_utf8EncodeChar {c : Char} (h : 10 ∈ String.utf8EncodeChar c) : c = '\n' := by
  have hval : c.val.toNat = 10 := by
    unfold String.utf8EncodeChar at h
    dsimp only at h
    -- Only the one-byte form has a byte below 128.
    split at h
    · have := eq_of_ofNat_eq_ten (List.mem_singleton.mp h)
      omega
    · split at h
      · simp only [List.mem_cons, List.not_mem_nil, or_false] at h
        rcases h with h | h <;> have := eq_of_ofNat_eq_ten h <;> omega
      · split at h
        · simp only [List.mem_cons, List.not_mem_nil, or_false] at h
          rcases h with h | h | h <;> have := eq_of_ofNat_eq_ten h <;> omega
        · simp only [List.mem_cons, List.not_mem_nil, or_false] at h
          rcases h with h | h | h | h <;> have := eq_of_ofNat_eq_ten h <;> omega
  exact Char.ext (UInt32.toNat_inj.mp hval)

theorem mem_encode {s : List Char} (h : 10 ∈ encode s) : '\n' ∈ s := by
  obtain ⟨c, hc, hmem⟩ := List.mem_flatMap.mp h
  rwa [← mem_utf8EncodeChar hmem]

theorem mem_decode {bs : Bytes} (h : '\n' ∈ decode bs) : 10 ∈ bs := by
  induction bs using decode.induct with
  | case1 => simp at h
  | case2 b bs c hread ih =>
    rw [decode, hread, List.mem_cons] at h
    rcases h with rfl | h
    · obtain ⟨more, henc⟩ := ByteArray.exists_of_utf8DecodeChar?_eq_some hread
      have hbytes : b :: bs = 10 :: more.data.toList := by
        have := congrArg (fun a => a.data.toList) henc
        simpa [String.utf8EncodeChar] using this
      rw [List.cons.injEq] at hbytes
      exact hbytes.1 ▸ List.mem_cons_self
    · exact List.mem_cons_of_mem _ (List.mem_of_mem_drop (ih h))
  | case3 b bs hread ih =>
    rw [decode, hread, List.mem_cons] at h
    rcases h with h | h
    · exact absurd h (by decide)
    · exact List.mem_cons_of_mem _ (List.mem_of_mem_drop (ih h))

/-! ## Files of lines -/

/-- Lines, each with its end. -/
def unlines (ls : List (List Char)) : List Char := ls.flatMap fun l => l ++ ['\n']

@[simp] theorem unlines_nil : unlines [] = [] := rfl

@[simp] theorem unlines_cons (l : List Char) (ls : List (List Char)) :
    unlines (l :: ls) = l ++ '\n' :: unlines ls := by
  simp [unlines]

@[simp] theorem unlines_append (ls ms : List (List Char)) :
    unlines (ls ++ ms) = unlines ls ++ unlines ms :=
  List.flatMap_append

theorem splitOn_unlines_append {ls : List (List Char)} (h : ∀ l ∈ ls, '\n' ∉ l) {t : List Char}
    (ht : '\n' ∉ t) : (unlines ls ++ t).splitOn '\n' = ls ++ [t] := by
  induction ls with
  | nil => exact List.splitOn_eq_singleton ht
  | cons l ls ih =>
    have hl : '\n' ∉ l := h l List.mem_cons_self
    rw [unlines_cons, List.append_assoc, List.cons_append, List.splitOn_append_cons_self,
      List.splitOn_eq_singleton hl, ih fun m hm => h m (List.mem_cons_of_mem _ hm)]
    rfl

/-- Where the lines were cut: after some of them, inside the next one. -/
theorem exists_of_prefix_unlines {ls : List (List Char)} (h : ∀ l ∈ ls, '\n' ∉ l) {bs : Bytes}
    (hbs : bs <+: encode (unlines ls)) :
    ∃ n tail, n ≤ ls.length ∧ bs = encode (unlines (ls.take n)) ++ tail ∧ 10 ∉ tail := by
  induction ls generalizing bs with
  | nil =>
    have : bs = [] := List.prefix_nil.mp hbs
    exact ⟨0, [], Nat.le_refl _, by simpa using this, List.not_mem_nil⟩
  | cons l ls ih =>
    rw [unlines_cons, encode_append] at hbs
    rcases Nat.lt_or_ge (encode l).length bs.length with hlt | hle
    · -- The line's end is there: go on behind it.
      obtain ⟨more, rfl⟩ : encode l <+: bs :=
        List.prefix_of_prefix_length_le (List.prefix_append _ _) hbs (Nat.le_of_lt hlt)
      have hmore := (List.prefix_append_right_inj _).mp hbs
      rw [encode_cons, show String.utf8EncodeChar '\n' = [10] from rfl,
        List.singleton_append] at hmore
      cases more with
      | nil => simp at hlt
      | cons b more =>
        obtain ⟨rfl, hrest⟩ := List.cons_prefix_cons.mp hmore
        obtain ⟨n, tail, hn, rfl, htail⟩ := ih (fun m hm => h m (List.mem_cons_of_mem _ hm)) hrest
        refine ⟨n + 1, tail, Nat.succ_le_succ hn, ?_, htail⟩
        rw [List.take_succ_cons, unlines_cons, encode_append, encode_cons, List.append_assoc]
        rfl
    · have hcut : bs <+: encode l :=
        List.prefix_of_prefix_length_le hbs (List.prefix_append _ _) hle
      refine ⟨0, bs, Nat.zero_le _, rfl, ?_⟩
      intro hmem
      exact h l List.mem_cons_self (mem_encode (hcut.subset hmem))

theorem not_mem_decode {bs : Bytes} (h : 10 ∉ bs) : '\n' ∉ decode bs :=
  fun hmem => h (mem_decode hmem)

end Lib.Utf8
