import Mathlib.Data.Nat.Digits
import Caskdb.Basic

/-!
# The string functions of Rust's standard library that the file names go through

`db/filename.rs` builds names with `format!("{:06}", seq)`, takes them apart with
`str::split('-')` and `u64::from_str`, and cuts a directory prefix off with
`String::drain(0..=len)`. Those are the standard library's, and their edge cases decide
which names parse and to what: `from_str` accepts a leading `+`; `{:06}` pads but never truncates,
so a seventh digit simply follows; `drain` counts UTF-8 *bytes* and panics off a character
boundary. Each is written here on `List Char` as the standard library defines it.

The one theorem the file names need is that the two number functions invert each other
on every `u64`, padding included (`parseU64_zeroPad6`); it goes through Mathlib's
`Nat.digits`, to which core's `Nat.toDigits` is related once (`toDigits_eq`).
-/

set_option autoImplicit false

namespace Caskdb

/-! ## `format!("{:06}", n)` -/

/-- `format!("{:06}", n)`: the decimal digits of `n`, zero-padded on the left to six. -/
def zeroPad6 (n : Nat) : String :=
  let ds := Nat.toDigits 10 n
  String.mk (List.replicate (6 - ds.length) '0' ++ ds)

/-! ## `<u64 as FromStr>::from_str` -/

/-- The digit loop of `u64::from_str_radix(_, 10)`: every character an ASCII digit, the
    value checked against `u64::MAX` after each one (`checked_mul`, `checked_add`). -/
def parseDigits (acc : Nat) : List Char → Option UInt64
  | [] => some (UInt64.ofNat acc)
  | c :: cs =>
    if c.isDigit then
      let v := acc * 10 + (c.toNat - '0'.toNat)
      if v < 2 ^ 64 then parseDigits v cs else none
    else none

/-- `<u64 as FromStr>::from_str`, with `Err` as `none`: one optional leading `+` (a sign
    alone is refused; `-` is then an invalid digit), and at least one digit. -/
def parseU64 (s : String) : Option UInt64 :=
  match s.data with
  | [] => none
  | ['+'] | ['-'] => none
  | '+' :: digits => parseDigits 0 digits
  | digits => parseDigits 0 digits

/-! ## `str::split(char)` and `String::drain(0..=k)` -/

/-- Put `c` in front of the first piece. -/
def consHead (c : Char) : List (List Char) → List (List Char)
  | [] => [[c]]
  | p :: ps => (c :: p) :: ps

/-- `str::split(sep)`: the pieces between the separators, empty ones included. -/
def splitChar (sep : Char) : List Char → List (List Char)
  | [] => [[]]
  | c :: cs => if c = sep then [] :: splitChar sep cs else consHead c (splitChar sep cs)

/-- The characters left once the first `n` bytes of their UTF-8 encoding are removed, or
    `none` when byte `n` is past the end or inside a character. -/
def dropBytes : Nat → List Char → Option (List Char)
  | 0, cs => some cs
  | _ + 1, [] => none
  | n + 1, c :: cs => if c.utf8Size ≤ n + 1 then dropBytes (n + 1 - c.utf8Size) cs else none

/-- `s.drain(0..=k)`, the string it leaves behind; `none` is its panic on a range that
    ends past the string or off a character boundary. -/
def drain (s : String) (k : Nat) : Option String := (dropBytes (k + 1) s.data).map String.mk

/-! ## Decimal round trip -/

theorem digitChar_digit {d : Nat} (h : d < 10) :
    (Nat.digitChar d).isDigit = true ∧ (Nat.digitChar d).toNat - '0'.toNat = d := by
  have key : ∀ d : Fin 10, (Nat.digitChar d.val).isDigit = true ∧
      (Nat.digitChar d.val).toNat - '0'.toNat = d.val := by decide
  exact key ⟨d, h⟩

/-- Reading more digits never lowers the value. -/
theorem le_foldl_decimal (ds : List Nat) (acc : Nat) :
    acc ≤ ds.foldl (fun a d => a * 10 + d) acc := by
  induction ds generalizing acc with
  | nil => exact le_refl acc
  | cons d ds ih => exact le_trans (by omega) (ih (acc * 10 + d))

theorem parseDigits_map_digitChar : ∀ (ds : List Nat) (acc : Nat), (∀ d ∈ ds, d < 10) →
    ds.foldl (fun a d => a * 10 + d) acc < 2 ^ 64 →
    parseDigits acc (ds.map Nat.digitChar) =
      some (UInt64.ofNat (ds.foldl (fun a d => a * 10 + d) acc))
  | [], _, _, _ => rfl
  | d :: ds, acc, hd, hv => by
    obtain ⟨hdig, hval⟩ := digitChar_digit (hd d (by simp))
    have hstep := le_foldl_decimal ds (acc * 10 + d)
    simp only [List.foldl_cons] at hv
    simp only [List.map_cons, parseDigits, hdig, hval, if_true,
      if_pos (by omega : acc * 10 + d < 2 ^ 64)]
    exact parseDigits_map_digitChar ds _ (fun x hx => hd x (by simp [hx])) hv

theorem toDigitsCore_eq : ∀ (fuel n : Nat) (ds : List Char), n < fuel → 0 < n →
    Nat.toDigitsCore 10 fuel n ds = (Nat.digits 10 n).reverse.map Nat.digitChar ++ ds
  | 0, _, _, h, _ => absurd h (Nat.not_lt_zero _)
  | fuel + 1, n, ds, h, hn => by
    rw [Nat.digits_def' (by decide) hn]
    simp only [Nat.toDigitsCore]
    split
    · rename_i h0
      simp [h0]
    · rw [toDigitsCore_eq fuel (n / 10) _ (by omega) (by omega)]
      simp

theorem foldl_decimal_digits (n : Nat) :
    (Nat.digits 10 n).reverse.foldl (fun a d => a * 10 + d) 0 = n := by
  conv_rhs => rw [← Nat.ofDigits_digits 10 n]
  rw [List.foldl_reverse]
  induction Nat.digits 10 n with
  | nil => rfl
  | cons d ds ih => simp [Nat.ofDigits_cons, ih]; ring

theorem parseDigits_replicate_zero (k : Nat) (cs : List Char) :
    parseDigits 0 (List.replicate k '0' ++ cs) = parseDigits 0 cs := by
  induction k with
  | zero => rfl
  | succ k ih => simpa [List.replicate_succ, parseDigits] using ih

/-- A string of digits skips the sign handling of `from_str`. -/
theorem parseU64_of_isDigit {s : String} {c : Char} {cs : List Char} (hs : s.data = c :: cs)
    (hc : c.isDigit = true) : parseU64 s = parseDigits 0 (c :: cs) := by
  have hp : c ≠ '+' := by rintro rfl; exact absurd hc (by decide)
  have hm : c ≠ '-' := by rintro rfl; exact absurd hc (by decide)
  unfold parseU64
  rw [hs]
  split <;> simp_all

theorem toDigits_eq {m : Nat} (hm : 0 < m) :
    Nat.toDigits 10 m = (Nat.digits 10 m).reverse.map Nat.digitChar := by
  rw [Nat.toDigits, toDigitsCore_eq (m + 1) m [] (by omega) hm, List.append_nil]

/-- **`{:06}` and `from_str` invert each other** on every `u64`, whatever its number of
    digits. -/
theorem parseU64_zeroPad6 (n : UInt64) : parseU64 (zeroPad6 n.toNat) = some n := by
  rcases Nat.eq_zero_or_pos n.toNat with h0 | hpos
  · rw [h0, show n = 0 from UInt64.ext h0]; rfl
  have hdig : ∀ d ∈ (Nat.digits 10 n.toNat).reverse, d < 10 := fun d hd =>
    Nat.digits_lt_base (by decide) (List.mem_reverse.mp hd)
  have hne : (Nat.digits 10 n.toNat).reverse ≠ [] := by
    simpa using Nat.digits_ne_nil_iff_ne_zero.mpr (by omega)
  obtain ⟨d, ds, hds⟩ := List.exists_cons_of_ne_nil hne
  have hval := foldl_decimal_digits n.toNat
  have hparse := parseDigits_map_digitChar _ 0 hdig (by rw [hval]; exact n.toNat_lt)
  rw [hval, show UInt64.ofNat n.toNat = n from UInt64.ext (UInt64.toNat_ofNat_of_lt
    n.toNat_lt_size)] at hparse
  simp only [zeroPad6, toDigits_eq hpos]
  cases hk : 6 - ((Nat.digits 10 n.toNat).reverse.map Nat.digitChar).length with
  | zero =>
    rw [hds] at hparse ⊢
    rw [List.replicate_zero, List.nil_append, List.map_cons]
    rw [parseU64_of_isDigit rfl (digitChar_digit (hdig d (by simp [hds]))).1, ← List.map_cons,
      hparse]
  | succ k =>
    rw [List.replicate_succ, List.cons_append, parseU64_of_isDigit rfl (by decide),
      ← List.cons_append, ← List.replicate_succ, parseDigits_replicate_zero, hparse]

theorem isDigit_of_mem_toDigits {n : Nat} {c : Char} (h : c ∈ Nat.toDigits 10 n) :
    c.isDigit = true := by
  rcases Nat.eq_zero_or_pos n with rfl | hn
  · rw [show Nat.toDigits 10 0 = ['0'] from rfl, List.mem_singleton] at h
    rw [h]; rfl
  · rw [toDigits_eq hn] at h
    obtain ⟨d, hd, rfl⟩ := List.mem_map.mp h
    exact (digitChar_digit (Nat.digits_lt_base (by decide) (List.mem_reverse.mp hd))).1

/-- `{:06}` writes digits only, and at least six of them. -/
theorem isDigit_of_mem_zeroPad6 {n : Nat} {c : Char} (h : c ∈ (zeroPad6 n).data) :
    c.isDigit = true := by
  simp only [zeroPad6, List.mem_append, List.mem_replicate] at h
  rcases h with ⟨-, rfl⟩ | h
  · rfl
  · exact isDigit_of_mem_toDigits h

theorem six_le_length_zeroPad6 (n : Nat) : 6 ≤ (zeroPad6 n).data.length := by
  simp only [zeroPad6, List.length_append, List.length_replicate]
  omega

/-- A digit is not one of the separators the file names are cut at. -/
theorem ne_of_isDigit {c : Char} (h : c.isDigit = true) :
    c ≠ '/' ∧ c ≠ '.' ∧ c ≠ '-' := by
  refine ⟨?_, ?_, ?_⟩ <;> rintro rfl <;> exact absurd h (by decide)

/-! ## Splitting and draining -/

theorem consHead_append (c : Char) {ps : List (List Char)} (hps : ps ≠ [])
    (qs : List (List Char)) : consHead c (ps ++ qs) = consHead c ps ++ qs := by
  cases ps with
  | nil => exact absurd rfl hps
  | cons p ps => rfl

theorem splitChar_ne_nil (sep : Char) : ∀ xs : List Char, splitChar sep xs ≠ []
  | [] => by simp [splitChar]
  | c :: cs => by
    unfold splitChar
    split
    · simp
    · cases splitChar sep cs <;> simp [consHead]

theorem splitChar_of_not_mem {sep : Char} : ∀ {xs : List Char}, sep ∉ xs →
    splitChar sep xs = [xs]
  | [], _ => rfl
  | c :: cs, h => by
    have hc : c ≠ sep := fun e => h (e ▸ List.mem_cons_self c cs)
    simp only [splitChar, if_neg hc, splitChar_of_not_mem (fun hm => h (List.mem_cons_of_mem c hm))]
    rfl

/-- A separator splits the pieces of what stands before it from the pieces after it. -/
theorem splitChar_append (sep : Char) (ys : List Char) : ∀ xs : List Char,
    splitChar sep (xs ++ sep :: ys) = splitChar sep xs ++ splitChar sep ys
  | [] => by simp [splitChar]
  | c :: cs => by
    simp only [List.cons_append, splitChar, List.append_eq, splitChar_append sep ys cs]
    split
    · rfl
    · exact consHead_append c (splitChar_ne_nil sep cs) _

/-- Dropping the bytes of a whole prefix of characters leaves what follows it. -/
theorem dropBytes_append (ys : List Char) : ∀ (xs : List Char) (n : Nat),
    dropBytes (String.utf8ByteSize.go xs + n) (xs ++ ys) = dropBytes n ys
  | [], n => by simp [String.utf8ByteSize.go]
  | c :: cs, n => by
    have hgo : String.utf8ByteSize.go (c :: cs) = String.utf8ByteSize.go cs + c.utf8Size := rfl
    have hpos := c.utf8Size_pos
    obtain ⟨m, hm⟩ : ∃ m, String.utf8ByteSize.go (c :: cs) + n = m + 1 :=
      ⟨_, (Nat.succ_pred_eq_of_pos (by omega)).symm⟩
    rw [hm, List.cons_append, dropBytes, if_pos (by omega),
      show m + 1 - c.utf8Size = String.utf8ByteSize.go cs + n by omega, dropBytes_append ys cs n]

end Caskdb
