import Mathlib.Algebra.Order.Group.Nat
import Caskdb.Basic

/-!
# `util/coding.rs` — fixed-width little-endian integers, modelled from the spec

`Footer::encoded` and `Footer::decode_from` write and read the table magic with
`put_fixed_64` and `decode_fixed_64`, which are not among the sources. The spec says what
they are: "Little-endian fixed 32/64-bit integers", the magic stored "in little-endian".
The model is those words: eight bytes, lowest first.

On fewer than eight bytes the spec says nothing. The model *assumes* that
`decode_fixed_64` then panics, as a slice of eight bytes would; a reader that took the
bytes present would be as faithful to the spec. No theorem of the project depends on that
choice: every one that meets `decode_fixed_64` gives it eight bytes or more.

Reading is where a footer's integrity rests, and the fact it needs is that the eight
bytes determine the integer: `decodeFixed64_eq_iff` says that `decode_fixed_64` reads a
given `u64` exactly when the first eight bytes are that integer's own encoding, so that
eight bytes that differ anywhere from the magic's cannot read as the magic.
-/

set_option autoImplicit false

namespace Caskdb
namespace Util

/-- The little-endian value of a byte string, lowest byte first. -/
def leValue : Bytes → Nat
  | [] => 0
  | b :: bs => b.toNat + 256 * leValue bs

/-- The `k` lowest bytes of `n`, lowest first. -/
def leBytes : Nat → Nat → Bytes
  | 0, _ => []
  | k + 1, n => (n % 256).toUInt8 :: leBytes k (n / 256)

/-- Modelled from the spec: `put_fixed_64(dst, n)`, appending the eight little-endian bytes
    of `n` to `dst`. -/
def putFixed64 (dst : Bytes) (n : UInt64) : Bytes := dst ++ leBytes 8 n.toNat

/-- Modelled from the spec: `decode_fixed_64(src)`, the little-endian `u64` in the first
    eight bytes of `src`. That a shorter `src` panics is an assumption of the model, not
    the spec's. -/
def decodeFixed64 (src : Bytes) : RustM UInt64 :=
  if 8 ≤ src.length then pure (UInt64.ofNat (leValue (src.take 8))) else panicked

/-! ## Little-endian bytes -/

@[simp] theorem length_leBytes : ∀ (k n : Nat), (leBytes k n).length = k
  | 0, _ => rfl
  | k + 1, n => by simp [leBytes, length_leBytes k]

theorem leValue_lt : ∀ bs : Bytes, leValue bs < 256 ^ bs.length
  | [] => by simp [leValue]
  | b :: bs => by
    have := leValue_lt bs
    have := b.toNat_lt
    simp only [leValue, List.length_cons, Nat.pow_succ]
    omega

theorem leValue_leBytes : ∀ (k n : Nat), leValue (leBytes k n) = n % 256 ^ k
  | 0, n => by simp [leBytes, leValue, Nat.mod_one]
  | k + 1, n => by
    simp only [leBytes, leValue, leValue_leBytes k, Nat.pow_succ]
    rw [show ((n % 256).toUInt8).toNat = n % 256 from Nat.mod_eq_of_lt (Nat.mod_lt _ (by decide))]
    rw [Nat.mul_comm (256 ^ k) 256, Nat.mod_mul, Nat.add_comm]

/-- Bytes of one length are determined by their little-endian value. -/
theorem leValue_inj : ∀ {bs cs : Bytes}, bs.length = cs.length → leValue bs = leValue cs →
    bs = cs
  | [], [], _, _ => rfl
  | b :: bs, c :: cs, hl, hv => by
    simp only [leValue] at hv
    have hb := b.toNat_lt
    have hc := c.toNat_lt
    have hlow : b.toNat = c.toNat := by omega
    have hrest : leValue bs = leValue cs := by omega
    rw [UInt8.ext hlow, leValue_inj (by simpa using hl) hrest]

/-! ## `decode_fixed_64` against `put_fixed_64` -/

/-- `decode_fixed_64` reads `n` exactly when the first eight bytes are `n`'s encoding. -/
theorem decodeFixed64_eq_iff {src : Bytes} (h : 8 ≤ src.length) (n : UInt64) :
    (decodeFixed64 src).run = some (.ok n) ↔ src.take 8 = leBytes 8 n.toNat := by
  have hlen : (src.take 8).length = 8 := by simp; omega
  have hlt := leValue_lt (src.take 8)
  rw [hlen] at hlt
  simp only [decodeFixed64, if_pos h]
  constructor
  · intro hd
    have he : UInt64.ofNat (leValue (src.take 8)) = n := by
      simpa using (Except.ok.inj (Option.some.inj hd))
    apply leValue_inj (by simp [hlen])
    rw [leValue_leBytes, Nat.mod_eq_of_lt (n.toNat_lt.trans_le (by decide)), ← he]
    exact (UInt64.toNat_ofNat_of_lt (hlt.trans_le (by decide))).symm
  · intro he
    rw [he, leValue_leBytes, Nat.mod_eq_of_lt (n.toNat_lt.trans_le (by decide))]
    exact congrArg (fun x => some (Except.ok x))
      (UInt64.ext (UInt64.toNat_ofNat_of_lt n.toNat_lt_size))

end Util
end Caskdb
