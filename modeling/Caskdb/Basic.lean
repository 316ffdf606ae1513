import Mathlib.Data.List.Basic
import Mathlib.Data.String.Basic

/-!
# The Rust runtime the model is written against

Every modelled function of the crate returns in one of three ways: with a value, with an
`Err` of the crate's `Error`, or by panicking (a slice index out of range, a failed
`assert_eq!`). A function returning `Result<T>` is modelled in `RustM T`, which is
`ExceptT Error Option T`: the `Except` layer is the `Result` the Rust code sees and
propagates with `?`, and the `Option` below it is the panic, which no `?` and no `match`
can catch.

`Error` keeps only the variants the modelled code builds or inspects (`Corruption` and
`IO`); the crate's other variants are never constructed on these paths. An `io::Error` is
its kind and its message, which is all `read_exact_at` looks at.
-/

set_option autoImplicit false

namespace Caskdb

/-- A byte string (`&[u8]`, `Vec<u8>`). -/
abbrev Bytes := List UInt8

/-- `std::io::ErrorKind`, reduced to the kinds the modelled code tells apart. -/
inductive ErrorKind where
  | interrupted
  | unexpectedEof
  | notFound
  | other
  deriving DecidableEq, Repr

/-- `std::io::Error`: a kind and the message it was built with. -/
structure IoError where
  kind : ErrorKind
  msg : String
  deriving DecidableEq, Repr

/-- The crate's `Error`, with the variants the modelled functions build or match on. -/
inductive Error where
  | corruption (msg : String)
  | io (err : IoError)
  deriving DecidableEq, Repr

/-- `crate::Result<T>`. -/
abbrev Result (α : Type) := Except Error α

/-- Rust code returning `Result<T>`, with a panic as the `none` underneath. -/
abbrev RustM (α : Type) := ExceptT Error Option α

/-- A panic: the computation stops with no `Result` at all. -/
def panicked {α : Type} : RustM α := ExceptT.lift none

/-- `&src[n..]`: the bytes from index `n` on; panics when `n > src.len()`. -/
def sliceFrom (src : Bytes) (n : Nat) : RustM Bytes :=
  if n ≤ src.length then pure (src.drop n) else panicked

/-- `Vec::resize(len, value)`: truncate to `len`, or pad with `value` up to it. -/
def resize (v : Bytes) (len : Nat) (value : UInt8) : Bytes :=
  v.take len ++ List.replicate (len - v.length) value

/-- `String::as_bytes`: the UTF-8 encoding of a string. -/
def asBytes (s : String) : Bytes := s.toUTF8.data.toList

/-! ## Running `RustM` -/

section
variable {α : Type}

@[simp] theorem run_panicked : (panicked : RustM α).run = none := rfl

theorem run_bind_of_ok {β : Type} {x : RustM α} {f : α → RustM β} {a : α}
    (h : x.run = some (.ok a)) : (x >>= f).run = (f a).run := by
  simp only [ExceptT.run_bind, h]; rfl

theorem run_bind_of_error {β : Type} {x : RustM α} {f : α → RustM β} {e : Error}
    (h : x.run = some (.error e)) : (x >>= f).run = some (.error e) := by
  simp only [ExceptT.run_bind, h]; rfl

theorem run_bind_of_none {β : Type} {x : RustM α} {f : α → RustM β} (h : x.run = none) :
    (x >>= f).run = none := by
  simp only [ExceptT.run_bind, h]; rfl

theorem run_bind_congr {β : Type} {x y : RustM α} {f : α → RustM β} (h : x.run = y.run) :
    (x >>= f).run = (y >>= f).run := by
  simp only [ExceptT.run_bind, h]

theorem sliceFrom_of_le {src : Bytes} {n : Nat} (h : n ≤ src.length) :
    sliceFrom src n = pure (src.drop n) := if_pos h

@[simp] theorem run_sliceFrom (src : Bytes) (n : Nat) :
    (sliceFrom src n).run = if n ≤ src.length then some (.ok (src.drop n)) else none := by
  unfold sliceFrom; split <;> rfl

end

theorem resize_of_le {v : Bytes} {len : Nat} (value : UInt8) (h : v.length ≤ len) :
    resize v len value = v ++ List.replicate (len - v.length) value := by
  rw [resize, List.take_of_length_le h]

@[simp] theorem length_resize (v : Bytes) (len : Nat) (value : UInt8) :
    (resize v len value).length = len := by
  simp only [resize, List.length_append, List.length_take, List.length_replicate]
  omega

end Caskdb
