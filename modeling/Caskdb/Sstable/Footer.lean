import Caskdb.Util.Coding
import Caskdb.Sstable.BlockHandle

/-!
# `Footer` — the fixed trailer that anchors a table

A table is opened from its last `FOOTER_ENCODED_LENGTH` bytes: the metaindex handle and
the index handle, zero-padded together to forty bytes, then the eight bytes of
`TABLE_MAGIC_NUMBER` in little-endian. `Footer::encoded` writes that layout and checks it
with an `assert_eq!`; `Footer::decode_from` first compares the magic, then reads the two
handles from the front.

The design only works if the padding is padding: the two handles must fit in the forty
bytes (so `resize` never cuts one), and reading them must never run into the magic. Both
are proved for every pair of handles and every input:

* `encoded_decodeFrom` — every footer encodes to exactly forty-eight bytes, laid out as
  above with nothing truncated, and decodes back to itself;
* `decodeFrom_rejects_bad_magic` — on any input of footer length, bytes `40..48` that are
  not the magic give the bad-magic corruption error, whatever else the input holds, and
  otherwise the handles are read from the first forty bytes only; so changing any magic
  byte of an encoded footer to anything else is detected;
* `run_decodeFrom_panics_by_length` — it panics on every input shorter than forty bytes
  and on no input of `FOOTER_ENCODED_LENGTH` bytes or more;
* `run_decodeFrom_take_footer` — it reads nothing past the first `FOOTER_ENCODED_LENGTH`
  bytes of its input.
-/

set_option autoImplicit false

namespace Caskdb
namespace Sstable

open Util

/-- `TABLE_MAGIC_NUMBER`. -/
def tableMagicNumber : UInt64 := 0xdb4775248b80fb57

/-- `FOOTER_ENCODED_LENGTH`: two padded handles and the magic, 48 bytes. -/
def footerEncodedLength : Nat := 2 * maxBlockHandleEncodeLength + 8

/-- The eight bytes `put_fixed_64` writes for the magic. -/
def tableMagicBytes : Bytes := putFixed64 [] tableMagicNumber

/-- `Footer`: the handles of the metaindex block and of the index block. -/
structure Footer where
  metaIndexHandle : BlockHandle
  indexHandle : BlockHandle
  deriving DecidableEq, Repr

namespace Footer

/-- `Footer::new`. -/
def new (metaIndexHandle indexHandle : BlockHandle) : Footer := ⟨metaIndexHandle, indexHandle⟩

/-- `Footer::decode_from`: check the magic in bytes `40..48`, then read the two handles
    from the front; returns the footer and the bytes the handles spanned. -/
def decodeFrom (src : Bytes) : RustM (Footer × Nat) := do
  let magic ← decodeFixed64 (← sliceFrom src (footerEncodedLength - 8))
  if magic ≠ tableMagicNumber then
    throw (.corruption "not an sstable (bad magic number)")
  let (metaIndexHandle, n) ← BlockHandle.decodeFrom src
  let (indexHandle, m) ← BlockHandle.decodeFrom (← sliceFrom src n)
  pure (⟨metaIndexHandle, indexHandle⟩, m + n)

/-- `Footer::encoded`: both handles, `resize`d to forty bytes with zeros, then the magic;
    `none` is the panic of its closing `assert_eq!` on the length. -/
def encoded (f : Footer) : Option Bytes :=
  let v := f.metaIndexHandle.encodedTo []
  let v := f.indexHandle.encodedTo v
  let v := resize v (2 * maxBlockHandleEncodeLength) 0
  let v := putFixed64 v tableMagicNumber
  if v.length = footerEncodedLength then some v else none

/-! ## The magic check -/

/-- The magic read from an input of footer length is the magic exactly when its bytes
    `40..48` are the magic's bytes. -/
theorem run_decodeFixed64_magic {src : Bytes} (h : footerEncodedLength ≤ src.length) :
    (decodeFixed64 (src.drop (footerEncodedLength - 8))).run = some (.ok tableMagicNumber) ↔
      (src.drop 40).take 8 = tableMagicBytes :=
  decodeFixed64_eq_iff (by simp [footerEncodedLength, maxBlockHandleEncodeLength,
    maxVarintLenU64] at h ⊢; omega) tableMagicNumber

theorem run_decodeFrom_bad_magic {src : Bytes} (h : footerEncodedLength ≤ src.length)
    (hm : (src.drop 40).take 8 ≠ tableMagicBytes) :
    (decodeFrom src).run = some (.error (.corruption "not an sstable (bad magic number)")) := by
  have h8 : 8 ≤ (src.drop (footerEncodedLength - 8)).length := by
    simp [footerEncodedLength, maxBlockHandleEncodeLength, maxVarintLenU64] at h ⊢; omega
  obtain ⟨magic, hd⟩ : ∃ x, (decodeFixed64 (src.drop (footerEncodedLength - 8))).run =
      some (.ok x) := ⟨_, by simp only [decodeFixed64, if_pos h8]; rfl⟩
  have hne : magic ≠ tableMagicNumber := fun he => hm ((run_decodeFixed64_magic h).mp (he ▸ hd))
  simp only [decodeFrom, sliceFrom_of_le (Nat.sub_le_of_le_add (by omega) :
    footerEncodedLength - 8 ≤ src.length), pure_bind]
  rw [run_bind_of_ok hd]
  simp [hne]

/-- Past a good magic, `decode_from` is its two handle reads. -/
theorem run_decodeFrom_of_magic {src : Bytes} (h : footerEncodedLength ≤ src.length)
    (hm : (src.drop 40).take 8 = tableMagicBytes) :
    (decodeFrom src).run = (do
      let (metaIndexHandle, n) ← BlockHandle.decodeFrom src
      let (indexHandle, m) ← BlockHandle.decodeFrom (← sliceFrom src n)
      pure (⟨metaIndexHandle, indexHandle⟩, m + n) : RustM (Footer × Nat)).run := by
  simp only [decodeFrom, sliceFrom_of_le (Nat.sub_le_of_le_add (by omega) :
    footerEncodedLength - 8 ≤ src.length), pure_bind]
  rw [run_bind_of_ok ((run_decodeFixed64_magic h).mpr hm)]
  simp

theorem run_decodeFrom_of_handles {src : Bytes} (h : footerEncodedLength ≤ src.length)
    (hm : (src.drop 40).take 8 = tableMagicBytes) {mh ih : BlockHandle} {n m : Nat}
    (h1 : (BlockHandle.decodeFrom src).run = some (.ok (mh, n)))
    (h2 : (BlockHandle.decodeFrom (src.drop n)).run = some (.ok (ih, m))) :
    (decodeFrom src).run = some (.ok (⟨mh, ih⟩, m + n)) := by
  rw [run_decodeFrom_of_magic h hm, run_bind_of_ok h1]
  simp only [sliceFrom_of_le ((BlockHandle.le_of_run_decodeFrom h1).trans (min_le_left _ _)),
    pure_bind]
  rw [run_bind_of_ok h2]
  rfl

/-- Past a good magic, the handles come from the first forty bytes: the decoder returns a
    corruption error or spans at most `2 * MAX_BLOCK_HANDLE_ENCODE_LENGTH` bytes. -/
theorem run_decodeFrom_good_magic {src : Bytes} (h : footerEncodedLength ≤ src.length)
    (hm : (src.drop 40).take 8 = tableMagicBytes) :
    (∃ msg, (decodeFrom src).run = some (.error (.corruption msg))) ∨
      ∃ f n, (decodeFrom src).run = some (.ok (f, n)) ∧
        n ≤ 2 * maxBlockHandleEncodeLength := by
  rw [run_decodeFrom_of_magic h hm]
  rcases BlockHandle.decodeFrom_total src with h1 | ⟨mh, n, h1, hn⟩
  · exact .inl ⟨_, run_bind_of_error h1⟩
  rw [run_bind_of_ok h1]
  simp only [sliceFrom_of_le (hn.trans (min_le_left _ _)), pure_bind]
  rcases BlockHandle.decodeFrom_total (src.drop n) with h2 | ⟨ih, m, h2, hm'⟩
  · exact .inl ⟨_, run_bind_of_error h2⟩
  rw [run_bind_of_ok h2]
  exact .inr ⟨_, _, rfl, by simp only [le_min_iff] at hn hm'; omega⟩

/-! ## What `decode_from` reads of its input -/

theorem footerEncodedLength_eq : footerEncodedLength = 48 := rfl

/-- **Where `decode_from` can panic.** On every input shorter than forty bytes,
    `decode_from` panics at its `&src[FOOTER_ENCODED_LENGTH - 8..]`; on every input of
    `FOOTER_ENCODED_LENGTH` bytes or more it returns a `Result`, since its slices are then in
    range and `decode_fixed_64` gets eight bytes. (In between, the outcome is
    `decode_fixed_64`'s on fewer than eight bytes, which the model does not settle.) -/
theorem run_decodeFrom_panics_by_length (src : Bytes) :
    (src.length < footerEncodedLength - 8 → (decodeFrom src).run = none) ∧
      (footerEncodedLength ≤ src.length → (decodeFrom src).run ≠ none) := by
  constructor
  · intro h
    simp only [decodeFrom, sliceFrom, if_neg (Nat.not_le_of_lt h)]
    exact run_bind_of_none rfl
  · intro hlen h
    by_cases hm : (src.drop 40).take 8 = tableMagicBytes
    · rcases run_decodeFrom_good_magic hlen hm with ⟨_, he⟩ | ⟨_, _, he, _⟩ <;>
        rw [he] at h <;> cases h
    · rw [run_decodeFrom_bad_magic hlen hm] at h
      cases h

/-- **`decode_from` reads the footer and nothing past it.** On every input, keeping only
    its first `FOOTER_ENCODED_LENGTH` bytes leaves the result (footer, length, error or
    panic) unchanged: the magic lies in bytes `40..48`, and the two handles, at most twenty
    bytes each, are read from the front. -/
theorem run_decodeFrom_take_footer (src : Bytes) :
    (decodeFrom (src.take footerEncodedLength)).run = (decodeFrom src).run := by
  by_cases hlen : footerEncodedLength ≤ src.length
  case neg => rw [List.take_of_length_le (Nat.le_of_not_le hlen)]
  have hl : footerEncodedLength ≤ (src.take footerEncodedLength).length := by
    rw [List.length_take]; exact le_min le_rfl hlen
  have hmagic : ((src.take footerEncodedLength).drop 40).take 8 = (src.drop 40).take 8 := by
    rw [List.drop_take, List.take_take, footerEncodedLength_eq]; rfl
  by_cases hm : (src.drop 40).take 8 = tableMagicBytes
  case neg =>
    rw [run_decodeFrom_bad_magic hlen hm, run_decodeFrom_bad_magic hl (hmagic ▸ hm)]
  rw [run_decodeFrom_of_magic hlen hm, run_decodeFrom_of_magic hl (hmagic ▸ hm),
    run_bind_congr (BlockHandle.run_decodeFrom_take_of_le src (by decide))]
  rcases BlockHandle.decodeFrom_total src with h1 | ⟨mh, n, h1, hn⟩
  · rw [run_bind_of_error h1, run_bind_of_error h1]
  rw [run_bind_of_ok h1, run_bind_of_ok h1]
  have hn20 : n ≤ maxBlockHandleEncodeLength := hn.trans (min_le_right _ _)
  dsimp only
  rw [sliceFrom_of_le (hn.trans (min_le_left _ _)), sliceFrom_of_le
    (hn20.trans ((by decide : maxBlockHandleEncodeLength ≤ footerEncodedLength).trans hl)),
    pure_bind, pure_bind, List.drop_take]
  rw [maxBlockHandleEncodeLength_eq] at hn20
  exact run_bind_congr (BlockHandle.run_decodeFrom_take_of_le _
    (by rw [maxBlockHandleEncodeLength_eq, footerEncodedLength_eq]; omega))

/-! ## The encoder -/

@[simp] theorem length_tableMagicBytes : tableMagicBytes.length = 8 := by
  simp [tableMagicBytes, putFixed64]

theorem length_handles_le (f : Footer) :
    (f.metaIndexHandle.encoded ++ f.indexHandle.encoded).length ≤
      2 * maxBlockHandleEncodeLength := by
  have := f.metaIndexHandle.length_encoded_le
  have := f.indexHandle.length_encoded_le
  simp only [List.length_append]
  omega

/-- The layout `encoded` produces: both handles whole, zeros up to forty bytes, the magic;
    the `assert_eq!` never fires. -/
theorem encoded_eq (f : Footer) :
    f.encoded = some (f.metaIndexHandle.encoded ++ f.indexHandle.encoded ++
      List.replicate (2 * maxBlockHandleEncodeLength -
        (f.metaIndexHandle.encoded ++ f.indexHandle.encoded).length) 0 ++ tableMagicBytes) := by
  have hfit := length_handles_le f
  simp only [encoded, BlockHandle.encodedTo_eq, List.nil_append, resize_of_le 0 hfit]
  rw [if_pos (by simp [putFixed64, footerEncodedLength] at hfit ⊢; omega)]
  simp [putFixed64, tableMagicBytes]

theorem length_padded (f : Footer) :
    (f.metaIndexHandle.encoded ++ f.indexHandle.encoded ++
      List.replicate (2 * maxBlockHandleEncodeLength -
        (f.metaIndexHandle.encoded ++ f.indexHandle.encoded).length) 0).length = 40 := by
  have hfit := length_handles_le f
  simp only [List.length_append, List.length_replicate, maxBlockHandleEncodeLength,
    maxVarintLenU64] at hfit ⊢
  omega

/-- **Footer round trip.** Every footer encodes to exactly `FOOTER_ENCODED_LENGTH` bytes:
    its two handles whole (they fit in the forty-byte area, so `resize` only pads), zeros,
    and the magic in little-endian; and decoding that gives back both handles, having read
    exactly the two handles' bytes. -/
theorem encoded_decodeFrom (f : Footer) :
    ∃ v, f.encoded = some v ∧ v.length = footerEncodedLength ∧
      (f.metaIndexHandle.encoded ++ f.indexHandle.encoded).length ≤
        2 * maxBlockHandleEncodeLength ∧
      v = f.metaIndexHandle.encoded ++ f.indexHandle.encoded ++
        List.replicate (2 * maxBlockHandleEncodeLength -
          (f.metaIndexHandle.encoded ++ f.indexHandle.encoded).length) 0 ++ tableMagicBytes ∧
      (decodeFrom v).run =
        some (.ok (f, f.metaIndexHandle.encoded.length + f.indexHandle.encoded.length)) := by
  have hpre := length_padded f
  have hlen : (f.metaIndexHandle.encoded ++ f.indexHandle.encoded ++
      List.replicate (2 * maxBlockHandleEncodeLength -
        (f.metaIndexHandle.encoded ++ f.indexHandle.encoded).length) 0 ++
      tableMagicBytes).length = footerEncodedLength := by
    rw [List.length_append, hpre, length_tableMagicBytes]; rfl
  refine ⟨_, encoded_eq f, hlen, length_handles_le f, rfl, ?_⟩
  rw [Nat.add_comm]
  refine run_decodeFrom_of_handles hlen.ge ?_ ?_ ?_
  · rw [List.drop_left' hpre, List.take_of_length_le (by simp)]
  · simpa only [List.append_assoc] using BlockHandle.run_decodeFrom_encoded _ _
  · simpa only [List.append_assoc, List.drop_left] using BlockHandle.run_decodeFrom_encoded _ _

/-! ## Integrity of the magic -/

/-- Changing one of the eight magic bytes after a forty-byte handle area to another value
    makes the magic check fail. -/
theorem run_decodeFrom_set_magic_byte {pre : Bytes} (hpre : pre.length = 40) {i : Nat}
    (hi : i < 8) {b : UInt8} (hb : (pre ++ tableMagicBytes)[40 + i]? ≠ some b) :
    (decodeFrom ((pre ++ tableMagicBytes).set (40 + i) b)).run =
      some (.error (.corruption "not an sstable (bad magic number)")) := by
  apply run_decodeFrom_bad_magic (by simp [hpre]; decide)
  intro heq
  have hset : ((((pre ++ tableMagicBytes).set (40 + i) b).drop 40).take 8)[i]? = some b := by
    rw [List.getElem?_take_of_lt hi, List.getElem?_drop,
      List.getElem?_set_self (by simp [hpre]; omega)]
  rw [heq] at hset
  apply hb
  rw [List.getElem?_append_right (by omega), hpre, Nat.add_sub_cancel_left, hset]

theorem run_decodeFrom_set_magic {f : Footer} {v : Bytes} (hv : f.encoded = some v) {i : Nat}
    (hi : i < 8) {b : UInt8} (hb : v[40 + i]? ≠ some b) :
    (decodeFrom (v.set (40 + i) b)).run =
      some (.error (.corruption "not an sstable (bad magic number)")) := by
  rw [encoded_eq] at hv
  cases hv
  exact run_decodeFrom_set_magic_byte (length_padded f) hi hb

/-- **Footer integrity.** `BlockHandle::decode_from` returns on every input (its slice is
    never out of range), with its corruption error or a handle spanning at most
    `min src.len() 20` bytes. On every input of footer length, bytes `40..48` other than
    the magic's give the bad-magic error; with the magic there, the result is a corruption
    error or a footer read from the first forty bytes only. And changing any magic byte of
    any encoded footer to any other value is rejected as a bad magic. -/
theorem decodeFrom_rejects_bad_magic :
    (∀ src : Bytes,
      (BlockHandle.decodeFrom src).run = some (.error (.corruption "bad block handle")) ∨
        ∃ h n, (BlockHandle.decodeFrom src).run = some (.ok (h, n)) ∧
          n ≤ min src.length maxBlockHandleEncodeLength) ∧
    (∀ src : Bytes, footerEncodedLength ≤ src.length →
      ((src.drop 40).take 8 ≠ tableMagicBytes →
        (decodeFrom src).run = some (.error (.corruption "not an sstable (bad magic number)"))) ∧
      ((src.drop 40).take 8 = tableMagicBytes →
        (∃ msg, (decodeFrom src).run = some (.error (.corruption msg))) ∨
          ∃ f n, (decodeFrom src).run = some (.ok (f, n)) ∧
            n ≤ 2 * maxBlockHandleEncodeLength)) ∧
    (∀ (f : Footer) (v : Bytes) (i : Nat) (b : UInt8), f.encoded = some v → i < 8 →
      v[40 + i]? ≠ some b →
        (decodeFrom (v.set (40 + i) b)).run =
          some (.error (.corruption "not an sstable (bad magic number)"))) :=
  ⟨BlockHandle.decodeFrom_total,
    fun _ h => ⟨run_decodeFrom_bad_magic h, run_decodeFrom_good_magic h⟩,
    fun _ _ _ _ hv hi hb => run_decodeFrom_set_magic hv hi hb⟩

end Footer
end Sstable
end Caskdb
