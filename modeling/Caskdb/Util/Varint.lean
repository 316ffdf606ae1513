import Mathlib.Algebra.Order.Group.Nat
import Caskdb.Basic

/-!
# `util/varint.rs` — the `u64` varint, modelled from the spec

The block-handle codec of `sstable/mod.rs` calls `VarintU64::put_varint` and
`VarintU64::read`, whose file is not among the sources. The spec fixes what they do:
"unsigned varint up to 10 bytes", `MAX_VARINT_LEN_U64` being the bound that
`MAX_BLOCK_HANDLE_ENCODE_LENGTH = 2 * MAX_VARINT_LEN_U64` doubles. So both are written
here from that sentence, in the one encoding it names: seven payload bits a byte, lowest
group first, the high bit set on every byte but the last.

The reader is the budgeted loop such a `u64` reader is: one byte per seven bits of shift,
and no byte once the shift would pass 63. Its budget of `MAX_VARINT_LEN_U64` bytes is the
structural argument of `readN`, so the reader can neither run past ten bytes nor past the
end of its input, and a tenth byte contributes only the bits a `u64` keeps (`UInt64.ofNat`
drops the rest).

What the codec needs is three facts, proved for every `u64`: the reader reads back what
the writer wrote whatever follows it (`read_encode`), the writer never writes more than
ten bytes (`length_encode_le_max`), and the reader never claims more bytes than it was
given or than its budget (`read_bound`). And the reader sees only the bytes it reads: a
cut past its budget changes nothing (`read_take`), and what it consumed reads the same
whatever follows (`read_take_append`).
-/

set_option autoImplicit false

namespace Caskdb
namespace Util

/-- `MAX_VARINT_LEN_U64`: the most bytes one `u64` varint spans. -/
def maxVarintLenU64 : Nat := 10

namespace VarintU64

/-- Modelled from the spec: the bytes `VarintU64::put_varint` appends for `n` ("unsigned
    varint up to 10 bytes"): seven bits a byte, lowest first, continuation bit on all but
    the last. -/
def encode (n : Nat) : Bytes :=
  if n < 128 then [n.toUInt8] else (n % 128 + 128).toUInt8 :: encode (n / 128)
termination_by n
decreasing_by omega

/-- Modelled from the spec: `VarintU64::put_varint(dst, n)`, appending the varint of `n`
    to `dst`. -/
def putVarint (dst : Bytes) (n : UInt64) : Bytes := dst ++ encode n.toNat

/-- The loop of `VarintU64::read` with `budget` bytes still allowed: the value of the
    varint at the front of the input and how many bytes it spans. -/
def readN : Nat → Bytes → Option (Nat × Nat)
  | 0, _ => none
  | _ + 1, [] => none
  | k + 1, b :: bs =>
    if b.toNat < 128 then some (b.toNat, 1)
    else (readN k bs).map fun p => (b.toNat - 128 + 128 * p.1, p.2 + 1)

/-- Modelled from the spec: `VarintU64::read(src)`: the `u64` at the front of `src` and the
    number of bytes read, or `None` when the bytes end inside the number or it would need
    an eleventh byte. -/
def read (src : Bytes) : Option (UInt64 × Nat) :=
  (readN maxVarintLenU64 src).map fun p => (UInt64.ofNat p.1, p.2)

/-! ## The writer -/

theorem toNat_toUInt8_of_lt {n : Nat} (h : n < 256) : n.toUInt8.toNat = n :=
  Nat.mod_eq_of_lt h

/-- The writer's length is the number of seven-bit groups: at most `k + 1` bytes below
    `2 ^ (7 * (k + 1))`. -/
theorem length_encode_le : ∀ (k n : Nat), n < 2 ^ (7 * (k + 1)) → (encode n).length ≤ k + 1
  | 0, n, h => by rw [encode, if_pos (by simpa using h)]; simp
  | k + 1, n, h => by
    rw [encode]
    split
    · simp
    · have hpow : 2 ^ (7 * (k + 1 + 1)) = 2 ^ (7 * (k + 1)) * 128 := by
        rw [show 7 * (k + 1 + 1) = 7 * (k + 1) + 7 by omega, Nat.pow_add]
      have := length_encode_le k (n / 128)
        (by rw [Nat.div_lt_iff_lt_mul (by decide)]; omega)
      simp only [List.length_cons]
      omega

theorem length_encode_le_max (x : UInt64) : (encode x.toNat).length ≤ maxVarintLenU64 :=
  length_encode_le 9 x.toNat (x.toNat_lt.trans (by decide))

/-! ## The reader against the writer -/

theorem readN_encode (n : Nat) : ∀ (k : Nat) (rest : Bytes), (encode n).length ≤ k →
    readN k (encode n ++ rest) = some (n, (encode n).length) := by
  induction n using Nat.strongRecOn with
  | ind n ih =>
    intro k rest hk
    rw [encode] at hk ⊢
    obtain ⟨k, rfl⟩ : ∃ j, k = j + 1 := ⟨k - 1, by split at hk <;> simp at hk <;> omega⟩
    by_cases hsmall : n < 128
    · simp [readN, hsmall, toNat_toUInt8_of_lt (by omega : n < 256)]
    · have hb := toNat_toUInt8_of_lt (by omega : n % 128 + 128 < 256)
      simp only [hsmall, if_false, List.length_cons, Nat.add_le_add_iff_right] at hk ⊢
      simp only [List.cons_append, readN, hb, if_neg (show ¬n % 128 + 128 < 128 by omega),
        List.append_eq, ih (n / 128) (by omega) k rest hk, Option.map_some', Option.some.injEq,
        Prod.mk.injEq, and_true]
      omega

/-- **Round trip.** Whatever follows it, the varint of a `u64` reads back as that `u64`
    and spans exactly the bytes the writer appended. -/
theorem read_encode (x : UInt64) (rest : Bytes) :
    read (encode x.toNat ++ rest) = some (x, (encode x.toNat).length) := by
  simp only [read, readN_encode x.toNat maxVarintLenU64 rest (length_encode_le_max x),
    Option.map_some', Option.some.injEq, Prod.mk.injEq, and_true]
  exact UInt64.ext (UInt64.toNat_ofNat_of_lt x.toNat_lt_size)

/-! ## What the reader can claim, on any input -/

theorem readN_bound : ∀ {k : Nat} {src : Bytes} {v n : Nat}, readN k src = some (v, n) →
    0 < n ∧ n ≤ k ∧ n ≤ src.length
  | 0, _, _, _, h => by simp [readN] at h
  | _ + 1, [], _, _, h => by simp [readN] at h
  | k + 1, b :: bs, v, n, h => by
    simp only [readN] at h
    split at h
    · simp only [Option.some.injEq, Prod.mk.injEq] at h
      simp; omega
    · obtain ⟨⟨v', n'⟩, hr, he⟩ := Option.map_eq_some'.mp h
      simp only [Prod.mk.injEq] at he
      have := readN_bound hr
      simp; omega

theorem read_bound {src : Bytes} {x : UInt64} {n : Nat} (h : read src = some (x, n)) :
    0 < n ∧ n ≤ maxVarintLenU64 ∧ n ≤ src.length := by
  obtain ⟨⟨v, n'⟩, hr, he⟩ := Option.map_eq_some'.mp h
  simp only [Prod.mk.injEq] at he
  exact he.2 ▸ readN_bound hr

/-! ## The reader sees only the bytes it reads -/

/-- Cutting the input anywhere past the reader's budget changes nothing. -/
theorem readN_take : ∀ {k m : Nat} (src : Bytes), k ≤ m → readN k (src.take m) = readN k src
  | 0, _, _, _ => rfl
  | _ + 1, _ + 1, [], _ => rfl
  | k + 1, m + 1, b :: bs, h => by
    simp only [List.take_succ_cons, readN, readN_take bs (Nat.le_of_succ_le_succ h)]

/-- A varint is self-delimiting: the bytes the reader consumed, followed by anything, read
    the same. -/
theorem readN_take_append : ∀ {k : Nat} {src : Bytes} {v n : Nat}, readN k src = some (v, n) →
    ∀ rest, readN k (src.take n ++ rest) = some (v, n)
  | 0, _, _, _, h, _ => by simp [readN] at h
  | _ + 1, [], _, _, h, _ => by simp [readN] at h
  | k + 1, b :: bs, v, n, h, rest => by
    simp only [readN] at h
    split at h
    · next hb =>
      cases h
      simp [readN, hb]
    · next hb =>
      obtain ⟨⟨v', n'⟩, hr, he⟩ := Option.map_eq_some'.mp h
      cases he
      simp only [List.take_succ_cons, List.cons_append, readN, if_neg hb, List.append_eq,
        readN_take_append hr rest, Option.map_some']

theorem read_take {m : Nat} (src : Bytes) (h : maxVarintLenU64 ≤ m) :
    read (src.take m) = read src := by
  rw [read, readN_take src h, read]

theorem read_take_append {src : Bytes} {x : UInt64} {n : Nat} (h : read src = some (x, n))
    (rest : Bytes) : read (src.take n ++ rest) = some (x, n) := by
  obtain ⟨⟨v, n'⟩, hr, he⟩ := Option.map_eq_some'.mp h
  simp only [Prod.mk.injEq] at he
  obtain ⟨rfl, rfl⟩ := he
  simp only [read, readN_take_append hr rest, Option.map_some']

end VarintU64
end Util
end Caskdb
