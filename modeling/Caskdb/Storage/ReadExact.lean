import Caskdb.Basic

/-!
# `File::read_exact_at` — filling a buffer from an offset

The trait's default method calls `read_at` until the buffer is full. Each `Ok(n)` moves
the front of the buffer and the offset on by `n`, `Ok(0)` breaks out of the loop, an
`Interrupted` error is retried, and any other error is returned. A buffer left unfilled
is then `UnexpectedEof`.

`read_at` is the method each storage implements, so the model takes it as an input,
`ReadAt`, which may answer each call differently: a call is known by its index, the
length it asks for and its offset. What the loop may rely on is `ReadAtContract` for a
file holding `c`, and `InterruptsBefore N`: only the first `N` calls are interrupted.
The loop runs on fuel. `ReadState.calls` is a ghost log of the replies it received, which
the theorems use to say which errors occurred.

`readExactAt_spec` is the method's correctness. With fuel above `N + buf.len()` it
returns, and it returns `Ok(())` exactly when no call failed other than by an interrupt and
the file holds the whole range; the buffer then holds that range. It returns
`UnexpectedEof` when the file ends first. The proof is one invariant, `LoopInv`, kept by
every iteration under a measure each iteration lowers: the interrupts still allowed plus
the bytes still to read. More fuel never changes a result (`readExactAt_add_fuel`), so the
result the theorem describes is the loop's, not an artefact of the bound.

`readExactAt_bounded` asks less of `read_at`: only that it never reports more bytes than
it was asked for, whatever bytes it writes and whether or not a file lies behind them.
The loop still returns, each call asks for the unfilled rest at the offset past what was
filled, the filled front of the buffer is the reported bytes in call order
(`Bookkeeping`), and it stops only when the buffer is full, on `Ok(0)`, or on an
error other than `Interrupted` (`StopReason`). With `offset + buf.len()` below `2 ^ 64`,
its `u64` offset never overflows.

The offset is a `Nat`: under the contract every `Ok(n)` stays inside the file, so
`offset += n as u64` never passes the file's length and never overflows.
-/

set_option autoImplicit false

namespace Caskdb
namespace Storage

/-- Whether an error is `Error::IO` of kind `Interrupted`, the one the loop retries. -/
def isInterrupted : Error → Bool
  | .io err => decide (err.kind = .interrupted)
  | .corruption _ => false

/-- `read_at(buf, offset)` of one file: the answer to the call of index `i` asking for
    `len` bytes at `offset`. `Ok` carries the bytes it reports at the front of the buffer,
    whose number is the `n` of `Ok(n)`; what it may write past them lies where the next
    call writes, or in the part of the buffer left unfilled. -/
abbrev ReadAt := Nat → Nat → Nat → Result Bytes

/-- The state of the loop: the replies received so far (a ghost log, not in the source),
    the front of the buffer already filled, the rest of it (`buf` in the source), and
    `offset`. -/
structure ReadState where
  calls : List (Result Bytes)
  filled : Bytes
  buf : Bytes
  offset : Nat

/-- The error for a buffer left unfilled. -/
def unexpectedEof : Error := .io ⟨.unexpectedEof, "failed to fill whole buffer"⟩

/-- The `while` loop of `read_exact_at`, for at most `fuel` iterations. It returns `none`
    when they run out, and for the panic of `&mut tmp[n..]` when `n > buf.len()`. -/
def readLoop (readAt : ReadAt) : Nat → ReadState → Option (Result Unit × ReadState)
  | 0, _ => none
  | fuel + 1, t =>
    if t.buf.isEmpty then some (.ok (), t)
    else
      let reply := readAt t.calls.length t.buf.length t.offset
      let t := { t with calls := t.calls ++ [reply] }
      match reply with
      | .ok [] => some (.ok (), t)
      | .ok bytes =>
        if bytes.length ≤ t.buf.length then
          readLoop readAt fuel { t with
            filled := t.filled ++ bytes, buf := t.buf.drop bytes.length,
            offset := t.offset + bytes.length }
        else none
      | .error e => if isInterrupted e then readLoop readAt fuel t else some (.error e, t)

/-- `read_exact_at(buf, offset)`: the result, and the loop's last state, whose `filled` is
    what the replies put at the front of the buffer and whose `buf` is the unfilled rest. -/
def readExactAt (readAt : ReadAt) (fuel : Nat) (buf : Bytes) (offset : Nat) :
    Option (Result Unit × ReadState) := do
  let (r, t) ← readLoop readAt fuel ⟨[], [], buf, offset⟩
  match r with
  | .error e => pure (.error e, t)
  | .ok () => if !t.buf.isEmpty then pure (.error unexpectedEof, t) else pure (.ok (), t)

/-! ## What `read_at` promises -/

/-- What the trait documents of `read_at` on a file holding `c`. A call asking for
    `len > 0` bytes at `offset` that returns `Ok` has copied the file's next bytes, at most
    `len` of them, and none only at the end of the file. -/
def ReadAtContract (c : Bytes) (readAt : ReadAt) : Prop :=
  ∀ i len offset bytes, 0 < len → readAt i len offset = .ok bytes →
    bytes <+: c.drop offset ∧ bytes.length ≤ len ∧ (bytes = [] → c.length ≤ offset)

/-- Only the calls before the `N`-th are answered with `Interrupted`. -/
def InterruptsBefore (N : Nat) (readAt : ReadAt) : Prop :=
  ∀ i len offset e, N ≤ i → readAt i len offset = .error e → isInterrupted e = false

/-- A reply the loop does not retry: an error other than `Interrupted`. -/
def isHardError : Result Bytes → Bool
  | .error e => !isInterrupted e
  | .ok _ => false

/-! ## The loop invariant -/

/-- The invariant of the loop started at `off` on a file holding `c`: the filled front is
    the file's bytes from `off`, the offset has moved past it, and no call has failed
    other than by an interrupt. -/
structure LoopInv (c : Bytes) (off : Nat) (t : ReadState) : Prop where
  offset_eq : t.offset = off + t.filled.length
  filled_prefix : t.filled <+: c.drop off
  no_hard_error : ∀ a ∈ t.calls, isHardError a = false

/-- How the loop can end, from a state that keeps the invariant. Either it leaves by its
    condition or by `break`, with the invariant, and with the buffer full or the file
    ended. Or it returns an error that a call gave. -/
def LoopEnd (c : Bytes) (off : Nat) (r : Result Unit) (t : ReadState) : Prop :=
  (r = .ok () ∧ LoopInv c off t ∧ (t.buf = [] ∨ c.length ≤ t.offset)) ∨
    ∃ e, r = .error e ∧ isInterrupted e = false ∧ .error e ∈ t.calls

theorem append_prefix {l p q : Bytes} (hp : p <+: l) (hq : q <+: l.drop p.length) :
    p ++ q <+: l := by
  obtain ⟨s, rfl⟩ := hp
  rw [List.drop_left] at hq
  obtain ⟨r, rfl⟩ := hq
  exact ⟨r, List.append_assoc _ _ _⟩

section
variable {c : Bytes} {off : Nat} {t : ReadState}

theorem LoopInv.init (buf : Bytes) : LoopInv c off ⟨[], [], buf, off⟩ :=
  ⟨rfl, List.nil_prefix, nofun⟩

/-- A reply that is no hard error keeps the invariant. -/
theorem LoopInv.log (h : LoopInv c off t) (a : Result Bytes) (ha : isHardError a = false) :
    LoopInv c off { t with calls := t.calls ++ [a] } :=
  ⟨h.offset_eq, h.filled_prefix, fun b hb => by
    rcases List.mem_append.mp hb with hb | hb
    · exact h.no_hard_error b hb
    · rw [List.mem_singleton.mp hb, ha]⟩

/-- Moving past bytes the file holds at the offset keeps the invariant. -/
theorem LoopInv.advance (h : LoopInv c off t) {bytes : Bytes} (hb : bytes <+: c.drop t.offset) :
    LoopInv c off { t with
      filled := t.filled ++ bytes, buf := t.buf.drop bytes.length,
      offset := t.offset + bytes.length } := by
  refine ⟨by simp [h.offset_eq, Nat.add_assoc], append_prefix h.filled_prefix ?_,
    h.no_hard_error⟩
  rwa [List.drop_drop, ← h.offset_eq]

end

/-- One iteration from a state with bytes still to read keeps the invariant and lowers
    the measure, or ends the loop as `LoopEnd` says; by induction on the fuel, the loop
    ends with enough of it, keeping the length of the buffer. -/
theorem readLoop_spec {c : Bytes} {readAt : ReadAt} {N : Nat} (hc : ReadAtContract c readAt)
    (hint : InterruptsBefore N readAt) (off fuel : Nat) :
    ∀ t, LoopInv c off t → N - t.calls.length + t.buf.length < fuel →
      ∃ r t', readLoop readAt fuel t = some (r, t') ∧
        t'.filled.length + t'.buf.length = t.filled.length + t.buf.length ∧
        LoopEnd c off r t' := by
  induction fuel with
  | zero => exact fun _ _ h => absurd h (Nat.not_lt_zero _)
  | succ fuel ih =>
    intro t hinv hfuel
    by_cases hb : t.buf = []
    · exact ⟨.ok (), t, by simp [readLoop, hb], rfl, .inl ⟨rfl, hinv, .inl hb⟩⟩
    have hlen : 0 < t.buf.length := List.length_pos.mpr hb
    have hne : t.buf.isEmpty = false := by simpa using hb
    cases hr : readAt t.calls.length t.buf.length t.offset with
    | error e =>
      cases hi : isInterrupted e with
      | false =>
        exact ⟨.error e, { t with calls := t.calls ++ [.error e] },
          by simp [readLoop, hne, hr, hi], rfl, .inr ⟨e, rfl, hi, by simp⟩⟩
      | true =>
        -- an interrupted call is one of the first `N`
        have hN : t.calls.length < N := Nat.lt_of_not_le fun h => by
          simp [hint _ _ _ _ h hr] at hi
        obtain ⟨r, t', h, hl, hend⟩ :=
          ih _ (hinv.log (.error e) (by simp [isHardError, hi])) (by simp; omega)
        exact ⟨r, t', by simp [readLoop, hne, hr, hi, h], hl, hend⟩
    | ok bytes =>
      obtain ⟨hpre, hle, hnil⟩ := hc _ _ _ _ hlen hr
      cases bytes with
      | nil =>
        exact ⟨.ok (), { t with calls := t.calls ++ [.ok []] }, by simp [readLoop, hne, hr], rfl,
          .inl ⟨rfl, hinv.log _ rfl, .inr (hnil rfl)⟩⟩
      | cons b bs =>
        obtain ⟨r, t', h, hl, hend⟩ :=
          ih _ ((hinv.log (.ok (b :: bs)) rfl).advance hpre) (by simp at hle ⊢; omega)
        have hle' : bs.length + 1 ≤ t.buf.length := hle
        refine ⟨r, t', by rw [← h]; simp [readLoop, hne, hr, hle'], ?_, hend⟩
        simp only [hl, List.length_append, List.length_drop, List.length_cons]
        omega

/-- Fuel only bounds the run: once the loop has ended, more fuel ends it the same way. -/
theorem readLoop_add_fuel (readAt : ReadAt) (k : Nat) :
    ∀ fuel t x, readLoop readAt fuel t = some x → readLoop readAt (fuel + k) t = some x := by
  intro fuel
  induction fuel with
  | zero => exact fun _ _ h => nomatch h
  | succ fuel ih =>
    intro t x h
    rw [Nat.add_right_comm]
    by_cases hb : t.buf = []
    · simpa [readLoop, hb] using h
    have hne : t.buf.isEmpty = false := by simpa using hb
    cases hr : readAt t.calls.length t.buf.length t.offset with
    | error e =>
      cases hi : isInterrupted e
      · simpa [readLoop, hne, hr, hi] using h
      · simp only [readLoop, hne, hr, hi] at h ⊢
        exact ih _ _ h
    | ok bytes =>
      cases bytes with
      | nil => simpa [readLoop, hne, hr] using h
      | cons b bs =>
        by_cases hle : bs.length + 1 ≤ t.buf.length
        · simp only [readLoop, hne, hr] at h ⊢
          simp only [List.length_cons, hle, if_true] at h ⊢
          exact ih _ _ h
        · simp [readLoop, hne, hr, hle] at h

theorem readExactAt_add_fuel (readAt : ReadAt) (k : Nat) {fuel : Nat} {buf : Bytes} {offset : Nat}
    {x : Result Unit × ReadState} (h : readExactAt readAt fuel buf offset = some x) :
    readExactAt readAt (fuel + k) buf offset = some x := by
  unfold readExactAt at h ⊢
  cases hl : readLoop readAt fuel ⟨[], [], buf, offset⟩ with
  | none => rw [hl] at h; cases h
  | some y => rw [readLoop_add_fuel readAt k _ _ _ hl, ← h, hl]

/-! ## `read_exact_at` -/

/-- What `read_exact_at` guarantees on a file holding `c`, for a buffer `buf` and
    `offset`, of a run that ends in `r` with last state `t`. -/
structure ReadExactOutcome (c buf : Bytes) (offset : Nat) (r : Result Unit) (t : ReadState) :
    Prop where
  /-- `Ok(())` exactly when no call failed other than by an interrupt and the file holds
      the whole range. -/
  ok_iff : r = .ok () ↔
    (∀ a ∈ t.calls, isHardError a = false) ∧
      (buf.length = 0 ∨ offset + buf.length ≤ c.length)
  /-- On `Ok(())` the buffer holds the range. -/
  ok_fills : r = .ok () → t.filled ++ t.buf = (c.drop offset).take buf.length
  /-- With no hard error, a file that ends inside the range gives `UnexpectedEof`. -/
  eof : (∀ a ∈ t.calls, isHardError a = false) → buf ≠ [] →
    c.length < offset + buf.length →
    r = .error unexpectedEof
  /-- Any other error is one a call returned. -/
  error_from_call : ∀ e, r = .error e →
    e = unexpectedEof ∨ (.error e ∈ t.calls ∧ isInterrupted e = false)

theorem readExactAt_spec (c : Bytes) (readAt : ReadAt) (N : Nat) (hc : ReadAtContract c readAt)
    (hint : InterruptsBefore N readAt) (buf : Bytes) (offset fuel : Nat)
    (hfuel : N + buf.length < fuel) :
    ∃ r t, readExactAt readAt fuel buf offset = some (r, t) ∧
      ReadExactOutcome c buf offset r t := by
  obtain ⟨r, t, h, hl, hend⟩ :=
    readLoop_spec hc hint offset fuel ⟨[], [], buf, offset⟩ (.init buf) (by simpa using hfuel)
  simp only [List.length_nil, Nat.zero_add] at hl
  rcases hend with ⟨rfl, hinv, hend⟩ | ⟨e, rfl, hi, he⟩
  · by_cases hfull : t.buf = []
    · -- the buffer is full, so the file held the whole range
      have hfill : t.filled.length = buf.length := by simpa [hfull] using hl
      have hrange : buf.length = 0 ∨ offset + buf.length ≤ c.length := by
        have := hinv.filled_prefix.length_le
        rw [List.length_drop] at this
        omega
      refine ⟨.ok (), t, by simp [readExactAt, h, hfull],
        ⟨⟨fun _ => ⟨hinv.no_hard_error, hrange⟩, fun _ => rfl⟩, fun _ => ?_,
          fun _ hne hlt => ?_, nofun⟩⟩
      · rw [hfull, List.append_nil, List.prefix_iff_eq_take.mp hinv.filled_prefix, hfill]
      · exact absurd hrange (by have := List.length_pos.mpr hne; omega)
    · -- the file ended before the buffer was full
      have heof := hend.resolve_left hfull
      have hpos : 0 < t.buf.length := List.length_pos.mpr hfull
      have hout : c.length < offset + buf.length := by rw [hinv.offset_eq] at heof; omega
      refine ⟨.error unexpectedEof, t, by simp [readExactAt, h, hfull],
        ⟨?_, nofun, fun _ _ _ => rfl, fun _ he => .inl (Except.error.inj he).symm⟩⟩
      simp only [reduceCtorEq, false_iff, not_and, not_or]
      exact fun _ => ⟨by omega, by omega⟩
  · -- a call failed other than by an interrupt
    have hhard : isHardError (.error e) = true := by simp [isHardError, hi]
    refine ⟨.error e, t, by simp [readExactAt, h],
      ⟨?_, nofun, fun hno => absurd (hno _ he) (by rw [hhard]; simp), ?_⟩⟩
    · simp only [reduceCtorEq, false_iff, not_and]
      exact fun hno => absurd (hno _ he) (by rw [hhard]; simp)
    · rintro e' ⟨⟩
      exact .inr ⟨he, hi⟩

/-- A `read_at` that is interrupted on its first call and then copies one byte per call,
    the slowest answers the contract allows. -/
def trickleRead (c : Bytes) : ReadAt := fun i len offset =>
  if i = 0 then .error (.io ⟨.interrupted, "interrupted"⟩)
  else .ok ((c.drop offset).take (min len 1))

theorem trickleRead_contract (c : Bytes) : ReadAtContract c (trickleRead c) := by
  intro i len offset bytes hlen h
  unfold trickleRead at h
  split at h
  · cases h
  · cases h
    refine ⟨List.take_prefix _ _, (List.length_take_le _ _).trans (Nat.min_le_left _ _),
      fun he => ?_⟩
    rw [List.take_eq_nil_iff, List.drop_eq_nil_iff] at he
    omega

theorem trickleRead_interrupts (c : Bytes) : InterruptsBefore 1 (trickleRead c) := by
  intro i len offset e hi h
  rw [trickleRead, if_neg (by omega)] at h
  cases h

theorem readExactAt_trickleRead :
    ReadAtContract [1, 2, 3, 4] (trickleRead [1, 2, 3, 4]) ∧
      InterruptsBefore 1 (trickleRead [1, 2, 3, 4]) ∧
      1 + [0, 0, 0].length < 5 ∧
      ∃ r t, readExactAt (trickleRead [1, 2, 3, 4]) 5 [0, 0, 0] 1 = some (r, t) ∧
        ReadExactOutcome [1, 2, 3, 4] [0, 0, 0] 1 r t :=
  ⟨trickleRead_contract _, trickleRead_interrupts _, by decide,
    readExactAt_spec _ _ 1 (trickleRead_contract _) (trickleRead_interrupts _) _ _ _ (by decide)⟩

example : (readExactAt (trickleRead [1, 2, 3, 4]) 5 [0, 0, 0] 1).map (fun p => (p.1, p.2.filled)) =
    some (.ok (), [2, 3, 4]) := rfl

example : (readExactAt (trickleRead [1, 2]) 5 [0, 0, 0] 1).map (fun p => (p.1, p.2.filled)) =
    some (.error unexpectedEof, [2]) := rfl

/-! ## Any `read_at` that never over-reports

For `read_exact_at` to return, only the half of the contract that does not mention the
file is needed: `read_at` never reports more bytes than it was asked for, and it is
interrupted finitely often, whatever bytes it copies. What the loop then does is read off
its replies. Each call asks `read_at` for the unfilled rest of the buffer, at the offset
past the bytes filled before it, and the filled front of the buffer is the reported bytes
in call order (`Bookkeeping`): `read_at` is handed the whole unfilled slice and may write past its
count, but the next call starts where that count ends and writes over it; of the unfilled
rest nothing but its length is claimed. And the loop stops for one of three reasons only
(`StopReason`): the buffer is full, a reply is `Ok(0)`, or a reply is an error other than
`Interrupted`; after every earlier reply it went on. It is the file's half of the contract
that turns the filled bytes into the file's range.

The offset is a `Nat` here and a `u64` in the source, whose `offset += n as u64` overflows
past `u64::MAX`. The loop adds to it only what it fills, so when `offset + buf.len()` is
below `2 ^ 64` no sum overflows and the two agree.
-/

/-- The half of `read_at`'s contract that does not mention the file: a call never reports
    more bytes than it asked for. -/
def ReadAtBounded (readAt : ReadAt) : Prop :=
  ∀ i len offset bytes, 0 < len → readAt i len offset = .ok bytes → bytes.length ≤ len

/-- The bytes a reply reports at the front of the slice it was given. -/
def replyBytes : Result Bytes → Bytes
  | .ok bytes => bytes
  | .error _ => []

/-- Whether the loop goes on after a reply: `Ok` with bytes, or `Interrupted`. -/
def continues : Result Bytes → Bool
  | .ok [] => false
  | .ok _ => true
  | .error e => isInterrupted e

/-- The replies end with `last`, and the loop went on after each one before it. -/
def EndsWith (calls : List (Result Bytes)) (last : Result Bytes) : Prop :=
  ∃ pre, calls = pre ++ [last] ∧ ∀ a ∈ pre, continues a = true

/-- Why the loop stopped, `eof` being its result on `Ok(0)`: the buffer is full and the loop
    went on after every reply; or the last reply was `Ok(0)`, with the buffer not full; or
    the last reply was an error other than `Interrupted`, which is the result. -/
def StopReason (eof r : Result Unit) (t : ReadState) : Prop :=
  (r = .ok () ∧ t.buf = [] ∧ ∀ a ∈ t.calls, continues a = true) ∨
    (r = eof ∧ t.buf ≠ [] ∧ EndsWith t.calls (.ok [])) ∨
    ∃ e, r = .error e ∧ isInterrupted e = false ∧ EndsWith t.calls (.error e)

/-- The number of bytes the replies before the `i`-th reported. -/
def filledBefore (calls : List (Result Bytes)) (i : Nat) : Nat :=
  ((calls.take i).map replyBytes).flatten.length

/-- The bookkeeping of the loop started on `buf` at `off`: each call asked `read_at` for the
    unfilled rest of the buffer, at the offset past what the calls before it filled; the
    filled front is the replies' bytes in call order; front and unfilled rest together are
    as long as the buffer; and the offset has moved by what was filled. -/
structure Bookkeeping (readAt : ReadAt) (buf : Bytes) (off : Nat) (t : ReadState) : Prop where
  asked : ∀ i < t.calls.length, t.calls[i]? =
    some (readAt i (buf.length - filledBefore t.calls i) (off + filledBefore t.calls i))
  filled_eq : t.filled = (t.calls.map replyBytes).flatten
  length_eq : t.filled.length + t.buf.length = buf.length
  offset_eq : t.offset = off + t.filled.length

theorem continues_append {calls : List (Result Bytes)} (h : ∀ a ∈ calls, continues a = true)
    {a : Result Bytes} (ha : continues a = true) : ∀ b ∈ calls ++ [a], continues b = true :=
  List.forall_mem_append.mpr ⟨h, List.forall_mem_singleton.mpr ha⟩

section
variable {readAt : ReadAt} {buf : Bytes} {off : Nat} {t : ReadState}

theorem Bookkeeping.init (readAt : ReadAt) (buf : Bytes) (off : Nat) :
    Bookkeeping readAt buf off ⟨[], [], buf, off⟩ :=
  ⟨nofun, rfl, Nat.zero_add _, rfl⟩

/-- The next reply is the one to the call the loop makes: for the unfilled rest, at the
    current offset. -/
theorem Bookkeeping.asked_append (h : Bookkeeping readAt buf off t) {a : Result Bytes}
    (hr : readAt t.calls.length t.buf.length t.offset = a) :
    ∀ i < (t.calls ++ [a]).length, (t.calls ++ [a])[i]? = some
      (readAt i (buf.length - filledBefore (t.calls ++ [a]) i)
        (off + filledBefore (t.calls ++ [a]) i)) := by
  intro i hi
  rw [List.length_append, List.length_singleton] at hi
  rcases Nat.lt_succ_iff_lt_or_eq.mp hi with hlt | rfl
  · rw [List.getElem?_append_left hlt, filledBefore, List.take_append_of_le_length hlt.le,
      ← filledBefore]
    exact h.asked i hlt
  · have hfill : filledBefore (t.calls ++ [a]) t.calls.length = t.filled.length := by
      rw [filledBefore, List.take_left' rfl, ← h.filled_eq]
    have hlen := h.length_eq
    rw [List.getElem?_concat_length, hfill, ← h.offset_eq,
      show buf.length - t.filled.length = t.buf.length by omega, hr]

/-- A reply that reported nothing leaves the filled front as it was. -/
theorem Bookkeeping.log (h : Bookkeeping readAt buf off t) {a : Result Bytes}
    (hr : readAt t.calls.length t.buf.length t.offset = a) (ha : replyBytes a = []) :
    Bookkeeping readAt buf off { t with calls := t.calls ++ [a] } :=
  ⟨h.asked_append hr, by simp [h.filled_eq, ha], h.length_eq, h.offset_eq⟩

/-- An `Ok` reply that fits in the unfilled rest joins the filled front. -/
theorem Bookkeeping.advance (h : Bookkeeping readAt buf off t) {bytes : Bytes}
    (hr : readAt t.calls.length t.buf.length t.offset = .ok bytes)
    (hle : bytes.length ≤ t.buf.length) :
    Bookkeeping readAt buf off { t with
      calls := t.calls ++ [.ok bytes], filled := t.filled ++ bytes,
      buf := t.buf.drop bytes.length, offset := t.offset + bytes.length } := by
  have hlen := h.length_eq
  refine ⟨h.asked_append hr, by simp [h.filled_eq, replyBytes], ?_, ?_⟩
  · simp only [List.length_append, List.length_drop]; omega
  · rw [h.offset_eq, List.length_append, Nat.add_assoc]

end

/-- By the same measure as `readLoop_spec`, the loop ends on any `read_at` that never
    over-reports, keeping its bookkeeping, and for one of the reasons of `StopReason`, with
    `Ok(0)` a `break` out of the loop. -/
theorem readLoop_bounded {readAt : ReadAt} {N : Nat} (hb : ReadAtBounded readAt)
    (hint : InterruptsBefore N readAt) (buf : Bytes) (off fuel : Nat) :
    ∀ t, Bookkeeping readAt buf off t → (∀ a ∈ t.calls, continues a = true) →
      N - t.calls.length + t.buf.length < fuel →
      ∃ r t', readLoop readAt fuel t = some (r, t') ∧ Bookkeeping readAt buf off t' ∧
        StopReason (.ok ()) r t' := by
  induction fuel with
  | zero => exact fun _ _ _ h => absurd h (Nat.not_lt_zero _)
  | succ fuel ih =>
    intro t hbk hgo hfuel
    by_cases hb0 : t.buf = []
    · exact ⟨.ok (), t, by simp [readLoop, hb0], hbk, .inl ⟨rfl, hb0, hgo⟩⟩
    have hlen : 0 < t.buf.length := List.length_pos.mpr hb0
    have hne : t.buf.isEmpty = false := by simpa using hb0
    cases hr : readAt t.calls.length t.buf.length t.offset with
    | error e =>
      cases hi : isInterrupted e with
      | false =>
        exact ⟨.error e, { t with calls := t.calls ++ [.error e] },
          by simp [readLoop, hne, hr, hi], hbk.log hr rfl,
          .inr (.inr ⟨e, rfl, hi, t.calls, rfl, hgo⟩)⟩
      | true =>
        -- an interrupted call is one of the first `N`
        have hN : t.calls.length < N := Nat.lt_of_not_le fun h => by
          simp [hint _ _ _ _ h hr] at hi
        obtain ⟨r, t', h, hbk', hend⟩ := ih _ (hbk.log hr rfl)
          (continues_append hgo hi) (by simp; omega)
        exact ⟨r, t', by simp [readLoop, hne, hr, hi, h], hbk', hend⟩
    | ok bytes =>
      have hle := hb _ _ _ _ hlen hr
      cases bytes with
      | nil =>
        exact ⟨.ok (), { t with calls := t.calls ++ [.ok []] }, by simp [readLoop, hne, hr],
          hbk.log hr rfl, .inr (.inl ⟨rfl, hb0, t.calls, rfl, hgo⟩)⟩
      | cons b bs =>
        have hle' : bs.length + 1 ≤ t.buf.length := hle
        obtain ⟨r, t', h, hbk', hend⟩ := ih _ (hbk.advance hr hle)
          (continues_append hgo rfl) (by simp; omega)
        exact ⟨r, t', by rw [← h]; simp [readLoop, hne, hr, hle'], hbk', hend⟩

/-- **`read_exact_at` on any `read_at` that never over-reports.** For every `read_at` that
    never reports more bytes than it was asked for and is interrupted only on its first `N`
    calls, whatever bytes it writes, and every buffer and offset with
    `offset + buf.len() < 2 ^ 64`: `read_exact_at` returns without panicking, and its offset
    stays below `2 ^ 64`, so `offset += n as u64` never overflows. Each call asked `read_at`
    for the unfilled rest of the buffer, at the offset past the bytes filled before it; the
    filled front of the buffer is the reported bytes in call order, and the offset has moved
    by their number.
    It returns `Ok(())` when the buffer is full, having gone on after every reply;
    `UnexpectedEof` when a reply was `Ok(0)` before that; and the error of a reply that
    failed other than by `Interrupted`, which is then the last call. -/
theorem readExactAt_bounded (readAt : ReadAt) (N : Nat) (hb : ReadAtBounded readAt)
    (hint : InterruptsBefore N readAt) (buf : Bytes) (offset fuel : Nat)
    (hoff : offset + buf.length < 2 ^ 64) (hfuel : N + buf.length < fuel) :
    ∃ r t, readExactAt readAt fuel buf offset = some (r, t) ∧ Bookkeeping readAt buf offset t ∧
      t.offset < 2 ^ 64 ∧ StopReason (.error unexpectedEof) r t := by
  obtain ⟨r, t, h, hbk, hend⟩ := readLoop_bounded hb hint buf offset fuel _
    (.init readAt buf offset) nofun (by simpa using hfuel)
  have hu64 : t.offset < 2 ^ 64 := by
    have := hbk.length_eq
    rw [hbk.offset_eq]
    omega
  rcases hend with ⟨rfl, hfull, hgo⟩ | ⟨rfl, hnot, hlast⟩ | ⟨e, rfl, hi, hlast⟩
  · exact ⟨.ok (), t, by simp [readExactAt, h, hfull], hbk, hu64, .inl ⟨rfl, hfull, hgo⟩⟩
  · exact ⟨.error unexpectedEof, t, by simp [readExactAt, h, hnot], hbk, hu64,
      .inr (.inl ⟨rfl, hnot, hlast⟩)⟩
  · exact ⟨.error e, t, by simp [readExactAt, h], hbk, hu64,
      .inr (.inr ⟨e, rfl, hi, hlast⟩)⟩

/-- A `read_at` that ignores the file: interrupted on its first call, then two zero bytes
    a call. -/
def zerosRead : ReadAt := fun i len _ =>
  if i = 0 then .error (.io ⟨.interrupted, "interrupted"⟩)
  else .ok (List.replicate (min len 2) 0)

theorem readExactAt_bounded_zeros :
    ReadAtBounded zerosRead ∧ InterruptsBefore 1 zerosRead ∧ 0 + [5, 5, 5].length < 2 ^ 64 ∧
      1 + [5, 5, 5].length < 5 ∧
      ∃ r t, readExactAt zerosRead 5 [5, 5, 5] 0 = some (r, t) ∧
        Bookkeeping zerosRead [5, 5, 5] 0 t ∧
        t.offset < 2 ^ 64 ∧ StopReason (.error unexpectedEof) r t :=
  have hb : ReadAtBounded zerosRead := fun i len _ bytes _ h => by
    unfold zerosRead at h
    split at h
    · cases h
    · cases h; simp
  have hint : InterruptsBefore 1 zerosRead := fun i _ _ _ hi h => by
    rw [zerosRead, if_neg (by omega)] at h
    cases h
  ⟨hb, hint, by decide, by decide,
    readExactAt_bounded zerosRead 1 hb hint _ _ _ (by decide) (by decide)⟩

example : (readExactAt zerosRead 5 [5, 5, 5] 0).map (fun p => (p.1, p.2.filled)) =
    some (.ok (), [0, 0, 0]) := rfl

end Storage
end Caskdb
