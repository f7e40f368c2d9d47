import Mathlib.Tactic.SplitIfs
import SearchTelemetry.Proofs.Text.Utf8
/-!
# Text.Ordered — texts and their bytes are in the same order

Of two texts, the one that comes first by its characters comes first by its bytes (`bytes_lt_bytes`): a character with a
longer writing has the higher code point and the higher first byte, and in writings of one length the high bits come first.
-/
namespace SearchTelemetry
namespace Utf8

variable {m n : Nat}

theorem cons_lt_cons (hm : m < 256) (hn : n < 256) {as bs : List UInt8} (h : m ≤ n) (hrest : m = n → as < bs) :
    m.toUInt8 :: as < n.toUInt8 :: bs := by
  rw [List.cons_lt_cons_iff, UInt8.lt_iff_toNat_lt, ← UInt8.toNat_inj, toNat_toUInt8 hm, toNat_toUInt8 hn]
  exact (Nat.lt_or_eq_of_le h).imp_right fun heq => ⟨heq, hrest heq⟩

theorem lastByte_lt (h : m < n) (hhigh : m / 64 = n / 64) (as bs : List UInt8) :
    (0x80 + m % 64).toUInt8 :: as < (0x80 + n % 64).toUInt8 :: bs :=
  cons_lt_cons (by omega) (by omega) (by omega) fun heq => absurd heq (by omega)

theorem lastTwo_lt (h : m < n) (hhigh : m / 4096 = n / 4096) (as bs : List UInt8) :
    (0x80 + m / 64 % 64).toUInt8 :: (0x80 + m % 64).toUInt8 :: as <
      (0x80 + n / 64 % 64).toUInt8 :: (0x80 + n % 64).toUInt8 :: bs :=
  cons_lt_cons (by omega) (by omega) (by omega) fun heq => lastByte_lt h (by omega) as bs

theorem lastThree_lt (h : m < n) (hhigh : m / 262144 = n / 262144) (as bs : List UInt8) :
    (0x80 + m / 4096 % 64).toUInt8 :: (0x80 + m / 64 % 64).toUInt8 :: (0x80 + m % 64).toUInt8 :: as <
      (0x80 + n / 4096 % 64).toUInt8 :: (0x80 + n / 64 % 64).toUInt8 :: (0x80 + n % 64).toUInt8 :: bs :=
  cons_lt_cons (by omega) (by omega) (by omega) fun heq => lastTwo_lt h (by omega) as bs

/-- The lesser of two characters has the lesser bytes, whatever follows either. -/
theorem encodeChar_lt_encodeChar {c d : Char} (h : c < d) (as bs : List UInt8) :
    encodeChar c ++ as < encodeChar d ++ bs := by
  have hlt : c.toNat < d.toNat := h
  have hd := toNat_lt_or d
  unfold encodeChar
  dsimp only
  generalize c.toNat = m at *
  generalize d.toNat = n at *
  split_ifs
  -- the lesser one is never the longer one, and of two lengths the first bytes decide
  all_goals try first
    | omega
    | exact cons_lt_cons (by omega) (by omega) (by omega) fun heq => absurd heq (by omega)
  · exact cons_lt_cons (by omega) (by omega) (by omega) fun heq => lastByte_lt hlt (by omega) as bs
  · exact cons_lt_cons (by omega) (by omega) (by omega) fun heq => lastTwo_lt hlt (by omega) as bs
  · exact cons_lt_cons (by omega) (by omega) (by omega) fun heq => lastThree_lt hlt (by omega) as bs

theorem encodeChar_ne_nil (c : Char) : encodeChar c ≠ [] := by
  unfold encodeChar
  dsimp only
  split_ifs <;> exact List.cons_ne_nil _ _

theorem encode_lt_encode {cs ds : List Char} (h : cs < ds) : encode cs < encode ds := by
  induction h with
  | @nil d ds =>
    obtain ⟨first, more, hd⟩ := List.exists_cons_of_ne_nil (encodeChar_ne_nil d)
    rw [encode_cons, hd]
    exact List.Lex.nil
  | rel hlt => exact encodeChar_lt_encodeChar hlt _ _
  | cons _ ih => exact List.append_left_lt ih

/-- **Texts and their bytes are in the same order.** -/
theorem bytes_lt_bytes {s t : String} (h : s < t) : bytes s < bytes t :=
  encode_lt_encode (String.lt_iff.1 h)

end Utf8
end SearchTelemetry
