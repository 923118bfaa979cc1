/-!
# Bytes that should be text

Reading bytes as UTF-8 when some of them may be wrong: every longest run of bytes that begins a
character but does not end it counts as one replacement character.
-/

namespace LineShell.Text.Utf8

/-- The mark that stands for bytes that are no text. -/
def replacement : Char := '\uFFFD'

/-- How a leading byte goes on: the range of the byte after it, and how many continuation bytes
follow that one. -/
def follow? (b : UInt8) : Option (UInt8 × UInt8 × Nat) :=
  if 0xC2 ≤ b ∧ b ≤ 0xDF then some (0x80, 0xBF, 0)
  else if b = 0xE0 then some (0xA0, 0xBF, 1)
  else if b = 0xED then some (0x80, 0x9F, 1)
  else if 0xE1 ≤ b ∧ b ≤ 0xEF then some (0x80, 0xBF, 1)
  else if b = 0xF0 then some (0x90, 0xBF, 2)
  else if 0xF1 ≤ b ∧ b ≤ 0xF3 then some (0x80, 0xBF, 2)
  else if b = 0xF4 then some (0x80, 0x8F, 2)
  else none

/-- The payload bits of a leading byte that `n` more bytes follow. -/
def leadBits (b : UInt8) (n : Nat) : Nat :=
  b.toNat % (1 <<< (6 - n))

/-- Adds a continuation byte to the bits read so far. -/
def addBits (bits : Nat) (b : UInt8) : Nat := bits * 64 + b.toNat % 64

/-- The bytes of one character after its leading byte: between `lo` and `hi` first, then `more`
continuation bytes. The bits are `none` where a byte is missing or out of range. -/
def tail (lo hi : UInt8) (more bits : Nat) : List UInt8 → Option Nat × List UInt8
  | [] => (none, [])
  | b :: bs =>
    if lo ≤ b ∧ b ≤ hi then
      match more with
      | 0 => (some (addBits bits b), bs)
      | more + 1 => tail 0x80 0xBF more (addBits bits b) bs
    else (none, b :: bs)

theorem length_tail_le (lo hi : UInt8) (more bits : Nat) (bs : List UInt8) :
    (tail lo hi more bits bs).2.length ≤ bs.length := by
  induction bs generalizing lo hi more bits with
  | nil => simp [tail]
  | cons b bs ih =>
    unfold tail
    split
    · cases more with
      | zero => simp
      | succ n => exact Nat.le_succ_of_le (ih ..)
    · simp

/-- The text of the bytes, with replacement characters for what is no text. -/
def decodeList : List UInt8 → List Char
  | [] => []
  | b :: bs =>
    if b < 0x80 then Char.ofNat b.toNat :: decodeList bs
    else
      match follow? b with
      | none => replacement :: decodeList bs
      | some (lo, hi, more) =>
        have := length_tail_le lo hi more (leadBits b (more + 1)) bs
        ((tail lo hi more (leadBits b (more + 1)) bs).1.map Char.ofNat).getD replacement
          :: decodeList (tail lo hi more (leadBits b (more + 1)) bs).2
termination_by bs => bs.length

/-- The text of a file's bytes, with replacement characters for what is no text. -/
def decodeLossy (bytes : ByteArray) : String :=
  match String.fromUTF8? bytes with
  | some s => s
  | none => String.ofList (decodeList bytes.toList)

end LineShell.Text.Utf8
