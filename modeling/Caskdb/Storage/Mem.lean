import Caskdb.Basic

/-!
# The `Storage` and `File` traits, as a map of files that may fail

`storage/mod.rs` only declares the traits: a `Storage` creates, removes and renames files
by name, and a `File` it created is written, flushed and closed. What a real storage does
on each call — succeed, fail, or (for `File::write`, which returns `Result<usize>` as
`io::Write` does) take fewer bytes than it was given — is not the code's to choose. So
the model makes that choice an input: the state carries, next to the map from names to
contents, the list of `Reply`s the storage will give to its next calls, and every
theorem about the code is quantified over that list. A call beyond the end of the list
succeeds in full.

A call that fails changes nothing; `remove` and `rename` of a name that holds no file
fail with `NotFound`. A file handle is the name it was created under.

The monad's plumbing gets `run_` lemmas, and every operation one `_cases` lemma saying
all it can do to any state (`create_cases`, `write_cases`, `rename_cases`, ...), so that
the proofs about `do_write_string_to_file` and `update_current` never unfold an operation.
-/

set_option autoImplicit false

namespace Caskdb
namespace Storage

/-- How the storage answers one call. -/
inductive Reply where
  /-- The call succeeds; a write takes every byte. -/
  | done
  /-- The call succeeds, and a write takes only its first `n` bytes. -/
  | short (n : Nat)
  /-- The call fails with `e` and changes nothing. -/
  | fail (e : Error)
  deriving DecidableEq, Repr

/-- A storage: the contents of each file, and the replies to its next calls. -/
structure MemStorage where
  files : String → Option Bytes
  replies : List Reply

/-- A file handle of the storage, `Storage::F`: the name it was created under. -/
structure File where
  name : String
  deriving DecidableEq, Repr

/-- Code running against the storage: its `Result`, the state it leaves, or a panic. -/
abbrev StorageM (α : Type) := ExceptT Error (StateT MemStorage Option) α

namespace MemStorage

/-- `name` now holds `c` (`none`: no file of that name). -/
def setFile (s : MemStorage) (name : String) (c : Option Bytes) : MemStorage :=
  { s with files := fun x => if x = name then c else s.files x }

/-- The state once the next reply has been used. -/
def pop (s : MemStorage) : MemStorage := { s with replies := s.replies.tail }

@[simp] theorem setFile_files_self (s : MemStorage) (name : String) (c : Option Bytes) :
    (s.setFile name c).files name = c := if_pos rfl

theorem setFile_files_of_ne (s : MemStorage) {name x : String} (c : Option Bytes)
    (h : x ≠ name) : (s.setFile name c).files x = s.files x := if_neg h

@[simp] theorem pop_files (s : MemStorage) : s.pop.files = s.files := rfl

@[simp] theorem setFile_replies (s : MemStorage) (name : String) (c : Option Bytes) :
    (s.setFile name c).replies = s.replies := rfl

end MemStorage

open MemStorage

/-- The `NotFound` error of a call on a name that holds no file. -/
def notFound (name : String) : Error := .io ⟨.notFound, name⟩

/-- The reply the storage gives to the call being made. -/
def nextReply : StorageM Reply :=
  modifyGet fun s => (s.replies.headD .done, s.pop)

/-- A call with no effect on the files, such as `File::flush` or `File::close`. -/
def plainCall : StorageM Unit := do
  match ← nextReply with
  | .fail e => throw e
  | _ => pure ()

/-- `Storage::create`: `name` becomes an empty file, truncating one that is there. -/
def create (name : String) : StorageM File := do
  match ← nextReply with
  | .fail e => throw e
  | _ =>
    modify (·.setFile name (some []))
    pure ⟨name⟩

/-- `Storage::remove`. -/
def remove (name : String) : StorageM Unit := do
  match ← nextReply with
  | .fail e => throw e
  | _ =>
    match (← get).files name with
    | none => throw (notFound name)
    | some _ => modify (·.setFile name none)

/-- `Storage::rename`: `new` takes the contents of `old`, replacing any file there. -/
def rename (old new : String) : StorageM Unit := do
  match ← nextReply with
  | .fail e => throw e
  | _ =>
    match (← get).files old with
    | none => throw (notFound old)
    | some c => modify fun s => (s.setFile old none).setFile new (some c)

/-- Append `bytes` to the file `name`, if there is one. -/
def appendTo (name : String) (bytes : Bytes) : StorageM Unit :=
  modify fun s => s.setFile name ((s.files name).map (· ++ bytes))

/-- `File::write`: append what the storage takes of `buf`, and return how much that is. -/
def File.write (f : File) (buf : Bytes) : StorageM Nat := do
  match ← nextReply with
  | .fail e => throw e
  | .done =>
    appendTo f.name buf
    pure buf.length
  | .short n =>
    appendTo f.name (buf.take n)
    pure (min n buf.length)

/-- `File::flush`. -/
def File.flush (_ : File) : StorageM Unit := plainCall

/-- `File::close`. -/
def File.close (_ : File) : StorageM Unit := plainCall

/-- The `Result` of a call, as a value the caller can `match` on (`let r = f(); match &r`). -/
def capture {α : Type} (x : StorageM α) : StorageM (Result α) := ExceptT.lift x.run

/-- Return a `Result` that was held as a value. -/
def ofResult {α : Type} (r : Result α) : StorageM α := ExceptT.mk (pure r)

/-- Panic unless the value is there. -/
def orPanic {α : Type} : Option α → StorageM α
  | some a => pure a
  | none => ExceptT.lift (StateT.lift none)

/-! ## Running the monad -/

section
variable {α β : Type}

@[simp] theorem run_bind (x : StorageM α) (f : α → StorageM β) (s : MemStorage) :
    (x >>= f).run.run s = (x.run.run s).bind fun p => match p.1 with
      | .ok a => (f a).run.run p.2
      | .error e => some (.error e, p.2) := by
  simp only [ExceptT.run_bind, StateT.run_bind]
  show Option.bind _ _ = _
  congr 1; funext p; obtain ⟨r, s'⟩ := p; cases r <;> rfl

@[simp] theorem run_pure (a : α) (s : MemStorage) :
    (pure a : StorageM α).run.run s = some (.ok a, s) := rfl

@[simp] theorem run_throw (e : Error) (s : MemStorage) :
    (throw e : StorageM α).run.run s = some (.error e, s) := rfl

@[simp] theorem run_get (s : MemStorage) :
    (get : StorageM MemStorage).run.run s = some (.ok s, s) := rfl

@[simp] theorem run_modify (f : MemStorage → MemStorage) (s : MemStorage) :
    (modify f : StorageM PUnit).run.run s = some (.ok ⟨⟩, f s) := rfl

@[simp] theorem run_map (f : α → β) (x : StorageM α) (s : MemStorage) :
    (f <$> x).run.run s = (x.run.run s).map fun p => (p.1.map f, p.2) := by
  simp only [ExceptT.run_map, StateT.run_map]
  rfl

@[simp] theorem except_map_ok (f : α → β) (a : α) :
    (Except.ok a : Result α).map f = .ok (f a) := rfl

@[simp] theorem except_map_error (f : α → β) (e : Error) :
    (Except.error e : Result α).map f = .error e := rfl

@[simp] theorem run_nextReply (s : MemStorage) :
    nextReply.run.run s = some (.ok (s.replies.headD .done), s.pop) := rfl

@[simp] theorem run_capture (x : StorageM α) (s : MemStorage) :
    (capture x).run.run s = (x.run.run s).map fun p => (.ok p.1, p.2) := by
  simp only [capture, ExceptT.run_lift, StateT.run_map]
  cases x.run.run s <;> rfl

@[simp] theorem run_ofResult (r : Result α) (s : MemStorage) :
    (ofResult r).run.run s = some (r, s) := rfl

@[simp] theorem run_orPanic_some (a : α) (s : MemStorage) :
    (orPanic (some a)).run.run s = some (.ok a, s) := rfl

end

/-! ## What each call can do -/

/-- No call still to come takes only part of a write. -/
def NoShortWrites (s : MemStorage) : Prop := ∀ n, Reply.short n ∉ s.replies

theorem NoShortWrites.pop {s : MemStorage} (h : NoShortWrites s) : NoShortWrites s.pop :=
  fun n hn => h n (List.mem_of_mem_tail hn)

theorem NoShortWrites.setFile {s : MemStorage} (h : NoShortWrites s) (name : String)
    (c : Option Bytes) : NoShortWrites (s.setFile name c) := h

theorem NoShortWrites.head {s : MemStorage} (h : NoShortWrites s) (n : Nat) :
    s.replies.headD .done ≠ .short n := by
  cases hr : s.replies with
  | nil => simp
  | cons r rs => rintro rfl; exact h n (hr ▸ List.mem_cons_self _ _)

/-- No call still to come fails or takes only part of a write. -/
def AllDone (s : MemStorage) : Prop := ∀ r ∈ s.replies, r = .done

theorem AllDone.pop {s : MemStorage} (h : AllDone s) : AllDone s.pop :=
  fun r hr => h r (List.mem_of_mem_tail hr)

theorem AllDone.setFile {s : MemStorage} (h : AllDone s) (name : String) (c : Option Bytes) :
    AllDone (s.setFile name c) := h

theorem AllDone.head {s : MemStorage} (h : AllDone s) : s.replies.headD .done = .done := by
  cases hr : s.replies with
  | nil => rfl
  | cons r rs => exact h r (hr ▸ List.mem_cons_self _ _)

theorem plainCall_cases (s : MemStorage) :
    (∃ e, plainCall.run.run s = some (.error e, s.pop)) ∨
      plainCall.run.run s = some (.ok (), s.pop) := by
  simp only [plainCall, run_bind, run_nextReply, Option.bind_some]
  cases s.replies.headD .done <;> simp

theorem create_cases (name : String) (s : MemStorage) :
    (∃ e, (create name).run.run s = some (.error e, s.pop)) ∨
      (create name).run.run s = some (.ok ⟨name⟩, s.pop.setFile name (some [])) := by
  simp only [create, run_bind, run_nextReply, Option.bind_some]
  cases s.replies.headD .done <;> simp

/-- A write fails, or appends the first `k` bytes of `buf`: all of them unless the storage
    answered with a short write. -/
theorem write_cases (f : File) (buf : Bytes) (s : MemStorage) :
    (∃ e, (f.write buf).run.run s = some (.error e, s.pop)) ∨
      ∃ k, k ≤ buf.length ∧
        ((∀ n, s.replies.headD .done ≠ .short n) → k = buf.length) ∧
        (f.write buf).run.run s =
          some (.ok k, s.pop.setFile f.name ((s.files f.name).map (· ++ buf.take k))) := by
  simp only [File.write, appendTo, run_bind, run_nextReply, Option.bind_some]
  cases hr : s.replies.headD .done with
  | fail e => exact .inl ⟨e, rfl⟩
  | done => exact .inr ⟨buf.length, le_refl _, fun _ => rfl, by simp⟩
  | short n =>
    refine .inr ⟨min n buf.length, Nat.min_le_right _ _, fun h => absurd rfl (h n), ?_⟩
    have htake : buf.take (min n buf.length) = buf.take n := by
      rcases le_total n buf.length with h | h
      · rw [Nat.min_eq_left h]
      · rw [Nat.min_eq_right h, List.take_length, List.take_of_length_le h]
    simp [htake]

theorem remove_cases (name : String) (s : MemStorage) :
    (∃ e, (remove name).run.run s = some (.error e, s.pop)) ∨
      (s.files name ≠ none ∧
        (remove name).run.run s = some (.ok (), s.pop.setFile name none)) := by
  simp only [remove, run_bind, run_nextReply, Option.bind_some, run_get]
  cases s.replies.headD .done <;> cases hf : s.files name <;> simp [hf]

theorem rename_cases (old new : String) (s : MemStorage) :
    (∃ e, (rename old new).run.run s = some (.error e, s.pop)) ∨
      ∃ c, s.files old = some c ∧ (rename old new).run.run s =
        some (.ok (), (s.pop.setFile old none).setFile new (some c)) := by
  simp only [rename, run_bind, run_nextReply, Option.bind_some, run_get]
  cases s.replies.headD .done <;> cases hf : s.files old <;> simp [hf]

/-! ## Each call when the storage answers `done` -/

section
variable {s : MemStorage} (h : s.replies.headD .done = .done)
include h

theorem plainCall_of_done : plainCall.run.run s = some (.ok (), s.pop) := by
  simp only [plainCall, run_bind, run_nextReply, Option.bind_some, h]
  rfl

theorem create_of_done (name : String) :
    (create name).run.run s = some (.ok ⟨name⟩, s.pop.setFile name (some [])) := by
  simp only [create, run_bind, run_nextReply, Option.bind_some, h]
  simp

theorem write_of_done (f : File) (buf : Bytes) :
    (f.write buf).run.run s =
      some (.ok buf.length, s.pop.setFile f.name ((s.files f.name).map (· ++ buf))) := by
  simp only [File.write, appendTo, run_bind, run_nextReply, Option.bind_some, h]
  simp

theorem rename_of_done (old new : String) {c : Bytes} (hc : s.files old = some c) :
    (rename old new).run.run s =
      some (.ok (), (s.pop.setFile old none).setFile new (some c)) := by
  simp only [rename, run_bind, run_nextReply, Option.bind_some, run_get]
  rw [h]
  simp [hc]

end

end Storage
end Caskdb
