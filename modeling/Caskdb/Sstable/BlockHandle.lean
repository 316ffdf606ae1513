import Caskdb.Util.Varint

/-!
# `BlockHandle` — the pointer from one part of a table to another

`sstable/mod.rs` stores every cross-reference inside a table (index entry to data block,
metaindex entry to filter block, footer to index and metaindex) as a `BlockHandle`: an
`(offset, size)` pair of `u64`s written as two varints. The handle is read back from the
middle of a larger byte string (an index value, the front of a footer), so its decoder
has to say how many bytes it took, and must neither read past its input nor depend on
what follows the handle.

Three theorems carry that. `decodeFrom_encoded_append`: a handle's encoding, followed by
anything, decodes to that handle and consumes exactly the encoding, which is never longer
than `MAX_BLOCK_HANDLE_ENCODE_LENGTH`. `decodeFrom_total`: on *any* bytes the decoder
returns — it never panics on its `&src[n..]` — either its one corruption error or a handle
that spans no more bytes than it was given and no more than twenty.
`decodeFrom_take_append`: a decoded handle depends only on the bytes it consumed, so
those bytes followed by anything decode the same.

All are stated over `run_decodeFrom`, the decoder with its slice discharged, so that no
proof below re-enters the `ExceptT` plumbing.
-/

set_option autoImplicit false

namespace Caskdb
namespace Sstable

open Util

/-- `MAX_BLOCK_HANDLE_ENCODE_LENGTH`: two varints of at most ten bytes each. -/
def maxBlockHandleEncodeLength : Nat := 2 * maxVarintLenU64

theorem maxBlockHandleEncodeLength_eq : maxBlockHandleEncodeLength = 20 := rfl

/-- `BlockHandle`: where a block starts in the file, and its size without the trailer. -/
structure BlockHandle where
  offset : UInt64
  size : UInt64
  deriving DecidableEq, Repr

namespace BlockHandle

/-- `BlockHandle::new`. -/
def new (offset size : UInt64) : BlockHandle := ⟨offset, size⟩

/-- `BlockHandle::set_offset`. -/
def setOffset (h : BlockHandle) (offset : UInt64) : BlockHandle := { h with offset }

/-- `BlockHandle::set_size`. -/
def setSize (h : BlockHandle) (size : UInt64) : BlockHandle := { h with size }

/-- `BlockHandle::encoded_to`: the varints of `offset` and `size` appended to `dst`. -/
def encodedTo (h : BlockHandle) (dst : Bytes) : Bytes :=
  VarintU64.putVarint (VarintU64.putVarint dst h.offset) h.size

/-- `BlockHandle::encoded`. -/
def encoded (h : BlockHandle) : Bytes := h.encodedTo []

/-- `BlockHandle::decode_from`: a handle from the front of `src` and the bytes it spans. -/
def decodeFrom (src : Bytes) : RustM (BlockHandle × Nat) :=
  match VarintU64.read src with
  | some (offset, n) => do
    let rest ← sliceFrom src n
    match VarintU64.read rest with
    | some (size, m) => pure (new offset size, m + n)
    | none => throw (.corruption "bad block handle")
  | none => throw (.corruption "bad block handle")

/-! ## The encoder -/

theorem encoded_eq (h : BlockHandle) :
    h.encoded = VarintU64.encode h.offset.toNat ++ VarintU64.encode h.size.toNat := rfl

theorem encodedTo_eq (h : BlockHandle) (dst : Bytes) : h.encodedTo dst = dst ++ h.encoded := by
  simp [encodedTo, encoded, VarintU64.putVarint]

theorem length_encoded_le (h : BlockHandle) : h.encoded.length ≤ maxBlockHandleEncodeLength := by
  have := VarintU64.length_encode_le_max h.offset
  have := VarintU64.length_encode_le_max h.size
  simp only [encoded_eq, List.length_append, maxBlockHandleEncodeLength]
  omega

/-! ## The decoder -/

/-- `decode_from` with its slice discharged: the slice is always in range, because the
    first read never claims more bytes than `src` holds. -/
theorem run_decodeFrom (src : Bytes) :
    (decodeFrom src).run = match VarintU64.read src with
      | some (offset, n) => match VarintU64.read (src.drop n) with
        | some (size, m) => some (.ok (new offset size, m + n))
        | none => some (.error (.corruption "bad block handle"))
      | none => some (.error (.corruption "bad block handle")) := by
  unfold decodeFrom
  match hr : VarintU64.read src with
  | none => rfl
  | some (offset, n) =>
    simp only [sliceFrom_of_le (VarintU64.read_bound hr).2.2, pure_bind]
    split <;> rfl

theorem run_decodeFrom_encoded (h : BlockHandle) (rest : Bytes) :
    (decodeFrom (h.encoded ++ rest)).run = some (.ok (h, h.encoded.length)) := by
  rw [run_decodeFrom, encoded_eq, List.append_assoc, VarintU64.read_encode]
  dsimp only
  rw [List.drop_left, VarintU64.read_encode]
  simp [new, Nat.add_comm]

/-- **Round trip.** For every `u64` pair and every suffix, decoding a handle's encoding
    gives the handle back and consumes exactly the encoding, which is at most
    `MAX_BLOCK_HANDLE_ENCODE_LENGTH` bytes long. -/
theorem decodeFrom_encoded_append (h : BlockHandle) (rest : Bytes) :
    (decodeFrom (h.encoded ++ rest)).run = some (.ok (h, h.encoded.length)) ∧
      h.encoded.length ≤ maxBlockHandleEncodeLength :=
  ⟨run_decodeFrom_encoded h rest, length_encoded_le h⟩

/-- On any bytes, `decode_from` returns: its corruption error, or a handle spanning at most
    `min src.len() 20` bytes. -/
theorem decodeFrom_total (src : Bytes) :
    (decodeFrom src).run = some (.error (.corruption "bad block handle")) ∨
      ∃ h n, (decodeFrom src).run = some (.ok (h, n)) ∧
        n ≤ min src.length maxBlockHandleEncodeLength := by
  rw [run_decodeFrom]
  rcases hr : VarintU64.read src with _ | ⟨offset, n⟩
  · exact .inl rfl
  dsimp only
  rcases hs : VarintU64.read (src.drop n) with _ | ⟨size, m⟩
  · exact .inl rfl
  have h1 := VarintU64.read_bound hr
  have h2 := VarintU64.read_bound hs
  simp only [List.length_drop] at h2
  exact .inr ⟨_, _, rfl, by simp only [maxBlockHandleEncodeLength]; omega⟩

theorem le_of_run_decodeFrom {src : Bytes} {h : BlockHandle} {n : Nat}
    (hd : (decodeFrom src).run = some (.ok (h, n))) :
    n ≤ min src.length maxBlockHandleEncodeLength := by
  rcases decodeFrom_total src with he | ⟨h', n', he, hn⟩ <;> rw [hd] at he
  · cases he
  · cases he; exact hn

/-! ## The decoder sees only the bytes it consumes -/

/-- Cutting the input anywhere past twenty bytes changes nothing. -/
theorem run_decodeFrom_take_of_le {m : Nat} (src : Bytes)
    (hm : maxBlockHandleEncodeLength ≤ m) :
    (decodeFrom (src.take m)).run = (decodeFrom src).run := by
  rw [maxBlockHandleEncodeLength_eq] at hm
  have h10 : maxVarintLenU64 ≤ m := by rw [maxVarintLenU64]; omega
  rw [run_decodeFrom, run_decodeFrom, VarintU64.read_take src h10]
  rcases hr : VarintU64.read src with _ | ⟨offset, n⟩
  · rfl
  have hn := (VarintU64.read_bound hr).2.1
  dsimp only
  rw [List.drop_take, VarintU64.read_take (src.drop n)
    (by rw [maxVarintLenU64] at hn ⊢; omega)]

/-- **A handle is self-delimiting.** Whatever bytes a decoded handle was read from, its
    decoding depends on the bytes it consumed and on nothing after them: those bytes,
    followed by anything at all, decode to the same handle and the same length. This is
    what lets `decode_from` read handles out of index values and footers that carry other
    bytes behind them. -/
theorem decodeFrom_take_append {src : Bytes} {h : BlockHandle} {n : Nat}
    (hd : (decodeFrom src).run = some (.ok (h, n))) (rest : Bytes) :
    (decodeFrom (src.take n ++ rest)).run = some (.ok (h, n)) := by
  rw [run_decodeFrom] at hd ⊢
  rcases hr : VarintU64.read src with _ | ⟨offset, k⟩ <;> rw [hr] at hd
  · cases hd
  dsimp only at hd
  rcases hs : VarintU64.read (src.drop k) with _ | ⟨size, m⟩ <;> rw [hs] at hd
  · cases hd
  cases hd
  have hk : (src.take k).length = k := by
    simp only [List.length_take]; have := (VarintU64.read_bound hr).2.2; omega
  have hsplit : src.take (m + k) ++ rest = src.take k ++ ((src.drop k).take m ++ rest) := by
    rw [Nat.add_comm, List.take_add, List.append_assoc]
  rw [hsplit, VarintU64.read_take_append hr]
  dsimp only
  rw [List.drop_left' hk, VarintU64.read_take_append hs]

/-- The handle `(5, 3)` at the front of `[5, 3, 9, 9]` reads the same with `200` after it. -/
theorem decodeFrom_take_append_five_three :
    (decodeFrom [5, 3, 9, 9]).run = some (.ok (⟨5, 3⟩, 2)) ∧
      (decodeFrom ([5, 3, 9, 9].take 2 ++ [200])).run = some (.ok (⟨5, 3⟩, 2)) :=
  have hd : (decodeFrom [5, 3, 9, 9]).run = some (.ok (⟨5, 3⟩, 2)) := rfl
  ⟨hd, decodeFrom_take_append hd [200]⟩

end BlockHandle
end Sstable
end Caskdb
