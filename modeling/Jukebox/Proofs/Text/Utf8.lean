import Mathlib.Tactic
import Jukebox.Text.Utf8
/-!
# Texts and their bytes

The bytes of a text are well-formed, so they are read back as that text, strictly by `ofBytes?` and
leniently by `lossy`. Hence a path that was made of a text is shown as that text. Texts are in the
order of their bytes.
-/
namespace Jukebox.Text

/-- The bytes of a text are those of its characters. -/
theorem bytesOf_eq (s : String) : bytesOf s = s.toList.flatMap String.utf8EncodeChar := by
  have encoded : s.toByteArray = s.toList.utf8Encode := by
    rw [← String.toByteArray_ofList, String.ofList_toList]
  rw [bytesOf, String.toUTF8, encoded, List.utf8Encode]
  simp

theorem ofBytes?_bytesOf (s : String) : ofBytes? (bytesOf s) = some s := by
  have whole : (⟨(bytesOf s).toArray⟩ : ByteArray) = s.toByteArray := by
    simp [bytesOf, String.toUTF8]
  rw [ofBytes?, whole, String.fromUTF8?, dif_pos s.isValidUTF8]
  rfl

/-- A byte in the range that a started sequence expects extends it, or ends it with a character. -/
theorem decodeFrom_some {s : Started} {b : Nat} (rest : List UInt8) (byte : b < 256)
    (low : s.low ≤ b) (high : b ≤ s.high) :
    decodeFrom (some s) (UInt8.ofNat b :: rest) =
      if s.missing ≤ 1 then Char.ofNat (s.code * 64 + (b - 0x80)) :: decodeFrom none rest
      else decodeFrom (some ⟨s.missing - 1, 0x80, 0xBF, s.code * 64 + (b - 0x80)⟩) rest := by
  have value : (UInt8.ofNat b).toNat = b := by
    rw [UInt8.toNat_ofNat', Nat.mod_eq_of_lt byte]
  rw [decodeFrom, value, feed, if_pos ⟨low, high⟩]
  by_cases last : s.missing ≤ 1
  · rw [if_pos last, if_pos last]
    rfl
  · rw [if_neg last, if_neg last]
    rfl

/-- A byte that starts a sequence. -/
theorem decodeFrom_none {s : Started} {b : Nat} (rest : List UInt8) (byte : b < 256)
    (starts : lead b = .starts s) :
    decodeFrom none (UInt8.ofNat b :: rest) = decodeFrom (some s) rest := by
  have value : (UInt8.ofNat b).toNat = b := by
    rw [UInt8.toNat_ofNat', Nat.mod_eq_of_lt byte]
  rw [decodeFrom, value, feed, begin, starts]
  rfl

/-- The first of three bytes fixes the range of the second one. At either end of its own range
that is smaller than usual, and the code of a character keeps to it. -/
theorem lead_three {n : Nat} (least : 2048 ≤ n) (greatest : n ≤ 65535)
    (valid : n < 0xD800 ∨ 0xDFFF < n) :
    ∃ low high, lead (n / 4096 % 16 + 224) = .starts ⟨2, low, high, n / 4096⟩ ∧
      low ≤ n / 64 % 64 + 128 ∧ n / 64 % 64 + 128 ≤ high := by
  have first : n / 4096 % 16 = n / 4096 := Nat.mod_eq_of_lt (by omega)
  rw [first]
  rcases Nat.lt_trichotomy (n / 4096) 13 with below | at_end | above
  · by_cases start : n / 4096 = 0
    · exact ⟨0xA0, 0xBF, by rw [start]; rfl, by omega, by omega⟩
    · refine ⟨0x80, 0xBF, ?_, by omega, by omega⟩
      simp only [lead]
      rw [if_neg (by omega), if_neg (by omega), if_neg (by omega), if_neg (by omega),
        if_neg (by omega), if_pos (by omega), Nat.add_sub_cancel]
  · exact ⟨0x80, 0x9F, by rw [at_end]; rfl, by omega, by omega⟩
  · refine ⟨0x80, 0xBF, ?_, by omega, by omega⟩
    simp only [lead]
    rw [if_neg (by omega), if_neg (by omega), if_neg (by omega), if_neg (by omega),
      if_neg (by omega), if_pos (by omega), Nat.add_sub_cancel]

theorem lead_four {n : Nat} (least : 65536 ≤ n) (greatest : n < 0x110000) :
    ∃ low high, lead (n / 262144 % 8 + 240) = .starts ⟨3, low, high, n / 262144⟩ ∧
      low ≤ n / 4096 % 64 + 128 ∧ n / 4096 % 64 + 128 ≤ high := by
  have first : n / 262144 % 8 = n / 262144 := Nat.mod_eq_of_lt (by omega)
  rw [first]
  rcases Nat.lt_trichotomy (n / 262144) 4 with below | at_end | above
  · by_cases start : n / 262144 = 0
    · exact ⟨0x90, 0xBF, by rw [start]; rfl, by omega, by omega⟩
    · refine ⟨0x80, 0xBF, ?_, by omega, by omega⟩
      simp only [lead]
      rw [if_neg (by omega), if_neg (by omega), if_neg (by omega), if_neg (by omega),
        if_neg (by omega), if_neg (by omega), if_neg (by omega), if_pos (by omega),
        Nat.add_sub_cancel]
  · exact ⟨0x80, 0x8F, by rw [at_end]; rfl, by omega, by omega⟩
  · omega

/-- The lenient reader takes the bytes of one character at a time. -/
theorem decodeFrom_utf8EncodeChar (c : Char) (rest : List UInt8) :
    decodeFrom none (String.utf8EncodeChar c ++ rest) = c :: decodeFrom none rest := by
  have valid : c.val.toNat < 0xD800 ∨ (0xDFFF < c.val.toNat ∧ c.val.toNat < 0x110000) := c.valid
  have code : Char.ofNat c.val.toNat = c := Char.ofNat_toNat c
  unfold String.utf8EncodeChar
  dsimp only
  generalize c.val.toNat = n at valid code ⊢
  by_cases one : n ≤ 127
  · have value : (UInt8.ofNat n).toNat = n := by
      rw [UInt8.toNat_ofNat', Nat.mod_eq_of_lt (by omega)]
    rw [if_pos one, List.singleton_append, decodeFrom, value, feed, begin, lead, if_pos (by omega),
      code]
    rfl
  rw [if_neg one]
  by_cases two : n ≤ 2047
  · have starts : lead (n / 64 % 32 + 192) = .starts ⟨1, 0x80, 0xBF, n / 64⟩ := by
      simp only [lead]
      rw [if_neg (by omega), if_neg (by omega), if_pos (by omega),
        Nat.mod_eq_of_lt (show n / 64 < 32 by omega), Nat.add_sub_cancel]
    have whole : n / 64 * 64 + (n % 64 + 128 - 0x80) = n := by omega
    rw [if_pos two, List.cons_append, decodeFrom_none _ (by omega) starts, List.singleton_append,
      decodeFrom_some _ (by omega) (by simp) (by simp; omega), if_pos (by simp), whole, code]
  rw [if_neg two]
  by_cases three : n ≤ 65535
  · obtain ⟨low, high, starts, above, below⟩ := lead_three (show 2048 ≤ n by omega) three (by omega)
    have whole : (n / 4096 * 64 + (n / 64 % 64 + 128 - 0x80)) * 64 + (n % 64 + 128 - 0x80) = n := by
      omega
    rw [if_pos three, List.cons_append, decodeFrom_none _ (by omega) starts, List.cons_append,
      decodeFrom_some _ (by omega) above below, if_neg (by simp), List.singleton_append,
      decodeFrom_some _ (by omega) (by simp) (by simp; omega), if_pos (by simp), whole, code]
  · obtain ⟨low, high, starts, above, below⟩ := lead_four (show 65536 ≤ n by omega) (by omega)
    have whole : ((n / 262144 * 64 + (n / 4096 % 64 + 128 - 0x80)) * 64 +
        (n / 64 % 64 + 128 - 0x80)) * 64 + (n % 64 + 128 - 0x80) = n := by omega
    rw [if_neg three, List.cons_append, decodeFrom_none _ (by omega) starts, List.cons_append,
      decodeFrom_some _ (by omega) above below, if_neg (by simp), List.cons_append,
      decodeFrom_some _ (by omega) (by simp) (by simp; omega), if_neg (by simp),
      List.singleton_append, decodeFrom_some _ (by omega) (by simp) (by simp; omega),
      if_pos (by simp), whole, code]

theorem lossy_bytesOf (s : String) : lossy (bytesOf s) = s := by
  have read (cs : List Char) : decodeFrom none (cs.flatMap String.utf8EncodeChar) = cs := by
    induction cs with
    | nil => rfl
    | cons c cs ih => rw [List.flatMap_cons, decodeFrom_utf8EncodeChar, ih]
  rw [lossy, bytesOf_eq, read, String.ofList_toList]

/-- Of two lists of bytes the one with the smaller byte at the front is smaller, and if that is the
same byte, the rest decides. -/
theorem cons_lt_cons {x y : Nat} {xs ys : List UInt8} (byte : y < 256) (least : x ≤ y)
    (rest : x = y → xs < ys) : UInt8.ofNat x :: xs < UInt8.ofNat y :: ys := by
  have small : (UInt8.ofNat x).toNat = x := by rw [UInt8.toNat_ofNat', Nat.mod_eq_of_lt (by omega)]
  have large : (UInt8.ofNat y).toNat = y := by rw [UInt8.toNat_ofNat', Nat.mod_eq_of_lt byte]
  rw [List.cons_lt_cons_iff, UInt8.lt_iff_toNat_lt, small, large]
  rcases Nat.lt_or_eq_of_le least with less | same
  · exact Or.inl less
  · exact Or.inr ⟨congrArg UInt8.ofNat same, rest same⟩

/-- A smaller character has smaller bytes, whatever follows. If both have as many bytes, these are
the digits of their codes, and if not, the first byte tells. -/
theorem utf8EncodeChar_lt {c d : Char} (less : c < d) (xs ys : List UInt8) :
    String.utf8EncodeChar c ++ xs < String.utf8EncodeChar d ++ ys := by
  have bound : d.val.toNat < 0x110000 := by
    rcases d.valid with small | large <;> omega
  replace less : c.val.toNat < d.val.toNat := less
  unfold String.utf8EncodeChar
  dsimp only
  generalize c.val.toNat = n at less ⊢
  generalize d.val.toNat = m at less bound ⊢
  by_cases one : m ≤ 127
  · rw [if_pos one, if_pos (by omega)]
    exact cons_lt_cons (by omega) (by omega) fun same => absurd same (by omega)
  by_cases one' : n ≤ 127
  · rw [if_pos one', if_neg one]
    split_ifs <;> exact cons_lt_cons (by omega) (by omega) fun same => absurd same (by omega)
  rw [if_neg one, if_neg one']
  by_cases two : m ≤ 2047
  · rw [if_pos two, if_pos (by omega)]
    exact cons_lt_cons (by omega) (by omega) fun _ =>
      cons_lt_cons (by omega) (by omega) fun same => absurd same (by omega)
  by_cases two' : n ≤ 2047
  · rw [if_pos two', if_neg two]
    split_ifs <;> exact cons_lt_cons (by omega) (by omega) fun same => absurd same (by omega)
  rw [if_neg two, if_neg two']
  by_cases three : m ≤ 65535
  · rw [if_pos three, if_pos (by omega)]
    exact cons_lt_cons (by omega) (by omega) fun _ => cons_lt_cons (by omega) (by omega) fun _ =>
      cons_lt_cons (by omega) (by omega) fun same => absurd same (by omega)
  by_cases three' : n ≤ 65535
  · rw [if_pos three', if_neg three]
    exact cons_lt_cons (by omega) (by omega) fun same => absurd same (by omega)
  rw [if_neg three, if_neg three']
  exact cons_lt_cons (by omega) (by omega) fun _ => cons_lt_cons (by omega) (by omega) fun _ =>
    cons_lt_cons (by omega) (by omega) fun _ => cons_lt_cons (by omega) (by omega) fun same =>
      absurd same (by omega)

/-- Texts are in the order of their bytes. -/
theorem bytesOf_lt {s t : String} (less : s < t) : bytesOf s < bytesOf t := by
  have chars (cs ds : List Char) (smaller : cs < ds) :
      cs.flatMap String.utf8EncodeChar < ds.flatMap String.utf8EncodeChar := by
    induction smaller with
    | nil =>
      rw [List.flatMap_nil, List.flatMap_cons]
      obtain ⟨b, bs, encoded⟩ := List.exists_cons_of_ne_nil String.utf8EncodeChar_ne_nil
      rw [encoded]
      exact List.nil_lt_cons _ _
    | rel head => exact utf8EncodeChar_lt head _ _
    | cons tail ih => exact List.append_left_lt ih
  rw [bytesOf_eq, bytesOf_eq]
  exact chars _ _ less
end Jukebox.Text
