import Mathlib.Tactic
import Jukebox.Text.Base64
/-!
# Base64 comes back

Every list of bytes is read back from the characters it was written as.
-/
namespace Jukebox.Text.Base64

theorem value?_digit {n : Nat} (small : n < 64) : value? (digit n) = some n := by
  interval_cases n <;> rfl

theorem digit_ne_pad {n : Nat} (small : n < 64) : digit n ≠ '=' := by
  intro pad
  have read := value?_digit small
  rw [pad] at read
  cases read

/-- A group without padding. -/
theorem decode_group {a b c d : Nat} (first : a < 64) (second : b < 64) (third : c < 64)
    (fourth : d < 64) (rest : List Char) :
    decode (digit a :: digit b :: digit c :: digit d :: rest) =
      (decode rest).map fun more =>
        let n := a * 262144 + b * 4096 + c * 64 + d
        UInt8.ofNat (n / 65536) :: UInt8.ofNat (n / 256 % 256) :: UInt8.ofNat (n % 256) ::
          more := by
  have pad := digit_ne_pad fourth
  rw [decode]
  · simp only [value?_digit first, value?_digit second, value?_digit third, value?_digit fourth]
    cases decode rest <;> rfl
  -- the other cases of the reader are for padding
  · exact fun _ same => absurd same pad
  · exact fun same => absurd same pad

/-- A group of two bytes. -/
theorem decode_two {a b c : Nat} (first : a < 64) (second : b < 64) (third : c < 64) :
    decode [digit a, digit b, digit c, '='] =
      let n := a * 4096 + b * 64 + c
      if n % 4 = 0 then some [UInt8.ofNat (n / 1024), UInt8.ofNat (n / 4 % 256)] else none := by
  have pad := digit_ne_pad third
  rw [decode]
  · simp only [value?_digit first, value?_digit second, value?_digit third]
    rfl
  · exact fun same => absurd same pad

/-- A group of one byte. -/
theorem decode_one {a b : Nat} (first : a < 64) (second : b < 64) :
    decode [digit a, digit b, '=', '='] =
      let n := a * 64 + b
      if n % 16 = 0 then some [UInt8.ofNat (n / 16)] else none := by
  rw [decode]
  simp only [value?_digit first, value?_digit second]
  rfl

/-- Bytes are read back from their characters. -/
theorem decode_encode (bytes : List UInt8) : decode (encode bytes) = some bytes := by
  have byte {n : Nat} {b : UInt8} (same : n = b.toNat) : UInt8.ofNat n = b := by
    rw [same, UInt8.ofNat_toNat]
  induction bytes using encode.induct with
  | case1 a b c rest ih =>
    have ha := a.toNat_lt
    have hb := b.toNat_lt
    have hc := c.toNat_lt
    rw [encode]
    rw [decode_group (by omega) (by omega) (by omega) (by omega), ih]
    dsimp only [Option.map_some]
    rw [byte (b := a) (by omega), byte (b := b) (by omega), byte (b := c) (by omega)]
  | case2 a b =>
    have ha := a.toNat_lt
    have hb := b.toNat_lt
    rw [encode]
    rw [decode_two (by omega) (by omega) (by omega), if_pos (by omega),
      byte (b := a) (by omega), byte (b := b) (by omega)]
  | case3 a =>
    have ha := a.toNat_lt
    rw [encode]
    rw [decode_one (by omega) (by omega), if_pos (by omega),
      byte (b := a) (by omega)]
  | case4 => rfl

end Jukebox.Text.Base64
