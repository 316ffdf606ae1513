import Caskdb.Db.Filename
import Caskdb.Storage.WriteString

/-!
# `update_current` — pointing `CURRENT` at a manifest

`update_current(env, dir, n)` writes the file name of manifest `n` into the temporary file
`generate_filename(dir, Temp, n)`, then renames that file over `CURRENT`; when the write
fails it removes the temporary file instead, and either way it returns the write's result
unless the rename or the removal fails first.

The name it writes is the manifest's path with its first `dir.len() + 1` bytes drained,
which is the file name only when `Path::join` put one `/` after `dir`. When `dir` is empty
or already ends in `/`, the join put none, and the drain eats the `M` of `MANIFEST`
(`drain_generateFilename_manifest`). The name written is then one `parse_filename` does
not recognise (`parseFilename_join_drained`).

When no storage call fails, `update_current` does its job: `Ok(())`, `CURRENT` holding
the whole name, the temporary file gone (`updateCurrent_of_allDone`). For every storage
state and every pattern of replies, `updateCurrent_spec` says what the code guarantees
(`CurrentOutcome`): it returns, it touches no file but the temporary one and `CURRENT`,
an error leaves `CURRENT` as it was, and `Ok` means the temporary file is gone and
`CURRENT` holds a prefix of the name, the whole name when no write was short.
`Ok` with a truncated `CURRENT`, and an error that leaves the temporary file behind, both
happen (`updateCurrent_truncates_or_leaves_temp`).

Over a whole run of calls, `CURRENT` is meant to be a pointer that each successful call
moves to its manifest (`pointerAfter`). `updateCurrents_refines_pointer` shows that any
sequence of calls refines that model when no write is short, whatever else fails.
With short writes, `CURRENT` still holds a prefix of what the model says
(`updateCurrents_prefix_pointer`): a short write truncates the name but never replaces it.
Short writes or not, `updateCurrents_spec` bounds what a run touches (`RunOutcome`): no
file but `CURRENT` and its temporary files, and no temporary file left for a manifest
whose last call returned `Ok`.
These are safety properties, which a body that always failed would meet too; with no
failing call, every call of a run returns `Ok(())` and `CURRENT` names the run's last
manifest (`updateCurrents_of_allDone`).
-/

set_option autoImplicit false

namespace Caskdb
namespace Db

open Storage MemStorage

/-- `update_current(env, dir, manifest_file_num)`. -/
def updateCurrent (dir : String) (manifestFileNum : UInt64) : StorageM Unit := do
  let manifest ← orPanic (drain (generateFilename dir .manifest manifestFileNum) dir.utf8ByteSize)
  let tmp := generateFilename dir .temp manifestFileNum
  let result ← capture (doWriteStringToFile manifest tmp true)
  match result with
  | .ok () => rename tmp (generateFilename dir .current 0)
  | .error _ => remove tmp
  ofResult result

/-! ## The name that is written -/

/-- The string `update_current` writes: the manifest's file name when the join put a `/`
    after `dir`, and that name less its first byte when it did not. -/
def drainedManifestName (dir : String) (n : UInt64) : String :=
  if Path.needsSep dir then "MANIFEST-" ++ zeroPad6 n.toNat else "ANIFEST-" ++ zeroPad6 n.toNat

section
variable (dir : String) (n : UInt64)

theorem data_manifest_name :
    ("MANIFEST-" ++ zeroPad6 n.toNat).data = 'M' :: ("ANIFEST-" ++ zeroPad6 n.toNat).data := by
  simp only [String.data_append]
  rfl

/-- The drain never panics: it removes `dir` and the one byte after it, which is the `/`
    of the join or, when there is none, the `M`. -/
theorem drain_generateFilename_manifest :
    drain (generateFilename dir .manifest n) dir.utf8ByteSize =
      some (drainedManifestName dir n) := by
  have hsize : dir.utf8ByteSize = String.utf8ByteSize.go dir.data := rfl
  rw [generateFilename, Path.join, if_neg (by rw [data_manifest_name]; simp), drain, hsize,
    drainedManifestName]
  cases Path.needsSep dir with
  | true =>
    simp only [if_true, String.data_append, List.append_assoc]
    rw [dropBytes_append]
    rfl
  | false =>
    simp only [Bool.false_eq_true, if_false]
    rw [String.data_append, data_manifest_name, dropBytes_append]
    rfl

theorem separators_anifest :
    ∀ c ∈ ("ANIFEST-" ++ zeroPad6 n.toNat).data, c ≠ '/' ∧ c ≠ '.' := by
  intro c hc
  rw [String.data_append, List.mem_append] at hc
  rcases hc with hc | hc
  · revert c; decide
  · exact separators_zeroPad6 n c hc

/-- The manifest name less its `M` is no name `parse_filename` knows. -/
theorem parseFilename_anifest :
    parseFilename (Path.join dir ("ANIFEST-" ++ zeroPad6 n.toNat)) = none := by
  have hdata : ("ANIFEST-" ++ zeroPad6 n.toNat).data =
      'A' :: ("NIFEST-".data ++ (zeroPad6 n.toNat).data) := by
    simp only [String.data_append]
    rfl
  obtain ⟨hstem, -⟩ := Path.fileStem_join_undotted dir (by simp [hdata]) (separators_anifest n)
  have hparse : parseU64 ("ANIFEST-" ++ zeroPad6 n.toNat) = none := by
    unfold parseU64
    rw [hdata]
    rfl
  rw [parseFilename_of_stem hstem ⟨ne_of_head_ne (by simp [hdata]),
    ne_of_head_ne (by simp [hdata]), ne_of_head_ne (by simp [hdata])⟩,
    if_neg (by rw [hdata]; simp [List.isPrefixOf]), hparse]
  rfl

/-- Whether the name `update_current` writes into `CURRENT` names the manifest depends on
    the directory string alone: it does exactly when the join put a `/` after `dir`. -/
theorem parseFilename_join_drained :
    (drain (generateFilename dir .manifest n) dir.utf8ByteSize).map
        (fun m => parseFilename (Path.join dir m)) =
      some (if Path.needsSep dir then some (.manifest, n) else none) := by
  rw [drain_generateFilename_manifest, Option.map_some', drainedManifestName]
  cases Path.needsSep dir with
  | true => exact congrArg some (parseFilename_manifest dir n)
  | false => exact congrArg some (parseFilename_anifest dir n)

theorem temp_ne_current : generateFilename dir .temp n ≠ generateFilename dir .current 0 :=
  fun h => by
    have h' := parseFilename_temp dir n
    rw [h, parseFilename_current] at h'
    cases h'

end

/-! ## What `update_current` leaves behind -/

/-- What a run of `update_current dir n` from `s`, ending in `s'` with result `r`, is
    guaranteed to leave behind. -/
structure CurrentOutcome (dir : String) (n : UInt64) (s s' : MemStorage) (r : Result Unit) :
    Prop where
  /-- No file but the temporary one and `CURRENT` changes. -/
  frame : ∀ x, x ≠ generateFilename dir .temp n → x ≠ generateFilename dir .current 0 →
    s'.files x = s.files x
  /-- An error leaves `CURRENT` as it was. -/
  error_keeps_current : ∀ e, r = .error e →
    s'.files (generateFilename dir .current 0) = s.files (generateFilename dir .current 0)
  /-- `Ok` means the temporary file is gone. -/
  ok_removes_temp : r = .ok () → s'.files (generateFilename dir .temp n) = none
  /-- `Ok` means `CURRENT` holds a prefix of the name, all of it when no write was short. -/
  ok_writes_current : r = .ok () → ∃ k,
    s'.files (generateFilename dir .current 0) =
      some ((asBytes (drainedManifestName dir n)).take k) ∧
    (NoShortWrites s → k = (asBytes (drainedManifestName dir n)).length)
  /-- No short write is left in the replies if there was none. -/
  keeps_no_short : NoShortWrites s → NoShortWrites s'

theorem updateCurrent_spec (dir : String) (n : UInt64) (s : MemStorage) :
    ∃ r s', (updateCurrent dir n).run.run s = some (r, s') ∧ CurrentOutcome dir n s s' r := by
  have hne := temp_ne_current dir n
  obtain ⟨r1, s1, h1, hf1, hw1, hn1⟩ :=
    doWriteStringToFile_spec (drainedManifestName dir n) (generateFilename dir .temp n) true s
  rcases r1 with e | ⟨⟩
  · rcases remove_cases (generateFilename dir .temp n) s1 with ⟨e', h2⟩ | ⟨-, h2⟩
    · exact ⟨.error e', s1.pop,
        by simp [updateCurrent, drain_generateFilename_manifest, h1, h2],
        ⟨fun x hx _ => hf1 x hx, fun _ _ => hf1 _ hne.symm, nofun, nofun,
          fun h => (hn1 h).pop⟩⟩
    · refine ⟨.error e, s1.pop.setFile (generateFilename dir .temp n) none,
        by simp [updateCurrent, drain_generateFilename_manifest, h1, h2],
        ⟨fun x hx _ => ?_, fun _ _ => ?_, nofun, nofun, fun h => (hn1 h).pop.setFile _ _⟩⟩
      · rw [setFile_files_of_ne _ _ hx]; exact hf1 x hx
      · rw [setFile_files_of_ne _ _ hne.symm]; exact hf1 _ hne.symm
  · rcases rename_cases (generateFilename dir .temp n) (generateFilename dir .current 0) s1 with
      ⟨e', h2⟩ | ⟨c, hc, h2⟩
    · exact ⟨.error e', s1.pop,
        by simp [updateCurrent, drain_generateFilename_manifest, h1, h2],
        ⟨fun x hx _ => hf1 x hx, fun _ _ => hf1 _ hne.symm, nofun, nofun,
          fun h => (hn1 h).pop⟩⟩
    · obtain ⟨k, hk, hfull⟩ := (hw1 rfl).resolve_left (by rw [hc]; simp)
      refine ⟨.ok (), (s1.pop.setFile (generateFilename dir .temp n) none).setFile
          (generateFilename dir .current 0) (some c),
        by simp [updateCurrent, drain_generateFilename_manifest, h1, h2],
        ⟨fun x hx hx' => ?_, nofun, fun _ => ?_, fun _ => ⟨k, ?_, hfull⟩,
          fun h => ((hn1 h).pop.setFile _ _).setFile _ _⟩⟩
      · rw [setFile_files_of_ne _ _ hx', setFile_files_of_ne _ _ hx]; exact hf1 x hx
      · rw [setFile_files_of_ne _ _ hne, setFile_files_self]
      · rw [setFile_files_self, ← hk, ← hc]

/-- When no storage call fails or writes short, `update_current` returns `Ok(())` with
    `CURRENT` holding the whole name it writes and the temporary file gone. -/
theorem updateCurrent_of_allDone (dir : String) (n : UInt64) {s : MemStorage}
    (h : AllDone s) :
    ∃ s', (updateCurrent dir n).run.run s = some (.ok (), s') ∧
      s'.files (generateFilename dir .current 0) = some (asBytes (drainedManifestName dir n)) ∧
      s'.files (generateFilename dir .temp n) = none ∧ AllDone s' := by
  obtain ⟨s1, h1, hf1, hd1⟩ := doWriteStringToFile_of_allDone (drainedManifestName dir n)
    (generateFilename dir .temp n) true h
  have h2 := rename_of_done hd1.head (generateFilename dir .temp n)
    (generateFilename dir .current 0) (by rw [hf1, setFile_files_self])
  refine ⟨(s1.pop.setFile (generateFilename dir .temp n) none).setFile
      (generateFilename dir .current 0) (some (asBytes (drainedManifestName dir n))),
    by simp [updateCurrent, drain_generateFilename_manifest, h1, h2],
    setFile_files_self _ _ _, ?_, (hd1.pop.setFile _ _).setFile _ _⟩
  rw [setFile_files_of_ne _ _ (temp_ne_current dir n), setFile_files_self]

/-- From an empty storage, with directory `db` and manifest 1: a write that takes three
    bytes ends in `Ok(())` with `CURRENT` holding `MAN`; a failed rename ends in an error
    with the temporary file still holding the name. -/
theorem updateCurrent_truncates_or_leaves_temp :
    ((updateCurrent "db" 1).run.run ⟨fun _ => none, [.done, .short 3]⟩).map
        (fun p => (p.1, p.2.files "db/CURRENT")) = some (.ok (), some (asBytes "MAN")) ∧
    ((updateCurrent "db" 1).run.run
        ⟨fun _ => none,
          [.done, .done, .done, .done, .fail (.io ⟨.other, "rename failed"⟩)]⟩).map
        (fun p => (p.1, p.2.files "db/CURRENT", p.2.files "db/000001.dbtmp")) =
      some (.error (.io ⟨.other, "rename failed"⟩), none, some (asBytes "MANIFEST-000001")) :=
  ⟨rfl, rfl⟩

/-- With the directory `""` or `db/` and every call succeeding, `CURRENT` ends up holding
    `ANIFEST-000001`, a name `parse_filename` refuses. -/
theorem updateCurrent_drops_manifest_initial :
    ((updateCurrent "" 1).run.run ⟨fun _ => none, []⟩).map
        (fun p => (p.1, p.2.files "CURRENT")) =
      some (.ok (), some (asBytes "ANIFEST-000001")) ∧
    ((updateCurrent "db/" 1).run.run ⟨fun _ => none, []⟩).map
        (fun p => (p.1, p.2.files "db/CURRENT")) =
      some (.ok (), some (asBytes "ANIFEST-000001")) ∧
    parseFilename "db/ANIFEST-000001" = none :=
  ⟨rfl, rfl, by decide⟩

/-! ## Runs of `update_current`, and the pointer they keep -/

/-- A client calling `update_current(env, dir, n)` for each manifest number `n` of `ns` in
    turn, as a database does each time it installs a new manifest, keeping each result. -/
def updateCurrents (dir : String) : List UInt64 → StorageM (List (Result Unit))
  | [] => pure []
  | n :: ns => do
    let r ← capture (updateCurrent dir n)
    let rs ← updateCurrents dir ns
    pure (r :: rs)

/-- `CURRENT` as the design means it: a pointer that each call returning `Ok` moves to the
    name of its manifest, and that a failed call leaves where it was. -/
def pointerAfter (dir : String) (p : Option Bytes) : List (UInt64 × Result Unit) → Option Bytes
  | [] => p
  | (n, r) :: rest =>
    pointerAfter dir (match r with
      | .ok () => some (asBytes (drainedManifestName dir n))
      | .error _ => p) rest

/-- With no short write among the replies, every run of `update_current` calls refines the
    pointer model. Every call returns, and `CURRENT` ends up at the name written by the last
    call that returned `Ok`, or where it was when none did. -/
theorem updateCurrents_refines_pointer (dir : String) (ns : List UInt64) (s : MemStorage)
    (h : NoShortWrites s) :
    ∃ rs s', (updateCurrents dir ns).run.run s = some (.ok rs, s') ∧ rs.length = ns.length ∧
      s'.files (generateFilename dir .current 0) =
        pointerAfter dir (s.files (generateFilename dir .current 0)) (ns.zip rs) := by
  induction ns generalizing s with
  | nil => exact ⟨[], s, rfl, rfl, rfl⟩
  | cons n ns ih =>
    obtain ⟨r, s1, h1, hout⟩ := updateCurrent_spec dir n s
    obtain ⟨rs, s', h2, hlen, hcur⟩ := ih s1 (hout.keeps_no_short h)
    refine ⟨r :: rs, s', by simp [updateCurrents, h1, h2], by simp [hlen], ?_⟩
    rw [hcur, List.zip_cons_cons]
    simp only [pointerAfter]
    congr 1
    rcases r with e | ⟨⟩
    · exact hout.error_keeps_current e rfl
    · obtain ⟨k, hk, hfull⟩ := hout.ok_writes_current rfl
      rw [hk, hfull h, List.take_length]

theorem updateCurrents_refines_pointer_db :
    NoShortWrites
        ⟨fun _ => none, [.done, .done, .done, .done, .fail (.io ⟨.other, "rename"⟩)]⟩ ∧
      ∃ rs s', (updateCurrents "db" [1, 2]).run.run
          ⟨fun _ => none, [.done, .done, .done, .done, .fail (.io ⟨.other, "rename"⟩)]⟩ =
          some (.ok rs, s') ∧ rs.length = 2 ∧
        s'.files "db/CURRENT" = pointerAfter "db" none ([1, 2].zip rs) :=
  have h : NoShortWrites ⟨fun _ => none, [.done, .done, .done, .done,
      .fail (.io ⟨.other, "rename"⟩)]⟩ := fun _ hn => by simp at hn
  ⟨h, updateCurrents_refines_pointer "db" [1, 2] _ h⟩

theorem rel_prefix_refl : ∀ p : Option Bytes, Option.Rel List.IsPrefix p p
  | none => .none
  | some x => .some (List.prefix_refl x)

theorem rel_prefix_trans {p q r : Option Bytes} :
    Option.Rel List.IsPrefix p q → Option.Rel List.IsPrefix q r → Option.Rel List.IsPrefix p r
  | .none, .none => .none
  | .some h1, .some h2 => .some (h1.trans h2)

/-- The pointer model keeps a prefix a prefix: a call returning `Ok` resets both sides to
    the same name, and a failed one leaves both as they were. -/
theorem pointerAfter_mono (dir : String) :
    ∀ (l : List (UInt64 × Result Unit)) {p q : Option Bytes}, Option.Rel List.IsPrefix p q →
      Option.Rel List.IsPrefix (pointerAfter dir p l) (pointerAfter dir q l)
  | [], _, _, h => h
  | (_, .ok ()) :: _, _, _, _ => rel_prefix_refl _
  | (_, .error _) :: rest, _, _, h => pointerAfter_mono dir rest h

/-- **Short writes only truncate.** Whatever the replies, short writes included, every run
    of `update_current` calls returns, and `CURRENT` ends up holding a prefix of what the
    pointer model says: of the name written by the last call that returned `Ok`, or of its
    initial content when none did. No call ever points `CURRENT` at another manifest or
    fills it with other bytes. -/
theorem updateCurrents_prefix_pointer (dir : String) (ns : List UInt64) (s : MemStorage) :
    ∃ rs s', (updateCurrents dir ns).run.run s = some (.ok rs, s') ∧ rs.length = ns.length ∧
      Option.Rel List.IsPrefix (s'.files (generateFilename dir .current 0))
        (pointerAfter dir (s.files (generateFilename dir .current 0)) (ns.zip rs)) := by
  induction ns generalizing s with
  | nil => exact ⟨[], s, rfl, rfl, rel_prefix_refl _⟩
  | cons n ns ih =>
    obtain ⟨r, s1, h1, hout⟩ := updateCurrent_spec dir n s
    obtain ⟨rs, s', h2, hlen, hcur⟩ := ih s1
    refine ⟨r :: rs, s', by simp [updateCurrents, h1, h2], by simp [hlen], ?_⟩
    rw [List.zip_cons_cons]
    refine rel_prefix_trans hcur (pointerAfter_mono dir _ ?_)
    -- after the first call, `CURRENT` is a prefix of where the model points
    rcases r with e | ⟨⟩
    · rw [hout.error_keeps_current e rfl]
      exact rel_prefix_refl _
    · obtain ⟨k, hk, -⟩ := hout.ok_writes_current rfl
      rw [hk]
      exact .some (List.take_prefix k _)

/-- **With no failing call, a run installs its last manifest.** When no storage call fails
    or writes short, every call of a run of `update_current` returns `Ok(())`, and
    `CURRENT` ends up holding the name of the run's last manifest, or what it held before
    when the run is empty. -/
theorem updateCurrents_of_allDone (dir : String) (ns : List UInt64) {s : MemStorage}
    (h : AllDone s) :
    ∃ s', (updateCurrents dir ns).run.run s =
        some (.ok (List.replicate ns.length (.ok ())), s') ∧
      s'.files (generateFilename dir .current 0) =
        (ns.getLast?.map fun n => asBytes (drainedManifestName dir n)).or
          (s.files (generateFilename dir .current 0)) := by
  induction ns generalizing s with
  | nil => exact ⟨s, rfl, rfl⟩
  | cons n ns ih =>
    obtain ⟨s1, h1, hcur1, -, hd1⟩ := updateCurrent_of_allDone dir n h
    obtain ⟨s', h2, hcur⟩ := ih hd1
    refine ⟨s', by simp [updateCurrents, h1, h2, List.replicate_succ], ?_⟩
    -- the rest of the run names its last manifest, or leaves this call's name in place
    rw [hcur, hcur1, List.getLast?_cons]
    cases ns.getLast? <;> rfl

theorem updateCurrents_of_allDone_db :
    AllDone ⟨fun _ => none, []⟩ ∧
      ∃ s', (updateCurrents "db" [1, 2]).run.run ⟨fun _ => none, []⟩ =
          some (.ok (List.replicate 2 (.ok ())), s') ∧
        s'.files (generateFilename "db" .current 0) =
          (([1, 2] : List UInt64).getLast?.map fun n => asBytes (drainedManifestName "db" n)).or
            none :=
  have h : AllDone ⟨fun _ => none, []⟩ := fun _ hr => nomatch hr
  ⟨h, updateCurrents_of_allDone "db" [1, 2] h⟩

/-- The result of the last call for manifest `n` in a run, if there was one. -/
def lastCallFor (n : UInt64) : List (UInt64 × Result Unit) → Option (Result Unit)
  | [] => none
  | (m, r) :: rest => (lastCallFor n rest).or (if m = n then some r else none)

/-- A manifest's last call in a run is the last in the rest of the run, or, if the rest
    has none, the run's first call. -/
theorem lastCallFor_cons_eq_some {m n : UInt64} {r x : Result Unit}
    {rest : List (UInt64 × Result Unit)} (h : lastCallFor m ((n, r) :: rest) = some x) :
    lastCallFor m rest = some x ∨ lastCallFor m rest = none ∧ n = m ∧ r = x := by
  rw [lastCallFor] at h
  cases hl : lastCallFor m rest with
  | some y =>
    rw [hl] at h
    exact .inl h
  | none =>
    rw [hl, Option.none_or] at h
    split at h
    · cases h; exact .inr ⟨rfl, ‹_›, rfl⟩
    · cases h

theorem not_mem_of_lastCallFor {n : UInt64} :
    ∀ {ns : List UInt64} {rs : List (Result Unit)}, rs.length = ns.length →
      lastCallFor n (ns.zip rs) = none → n ∉ ns
  | [], _, _, _ => List.not_mem_nil n
  | m :: ns, r :: rs, hlen, h => by
    rw [List.zip_cons_cons, lastCallFor, Option.or_eq_none] at h
    have hm : m ≠ n := fun he => by simp [he] at h
    simp only [List.mem_cons, not_or]
    exact ⟨hm.symm, not_mem_of_lastCallFor (by simpa using hlen) h.1⟩

theorem temp_injective (dir : String) {n m : UInt64}
    (h : generateFilename dir .temp n = generateFilename dir .temp m) : n = m := by
  have hp := parseFilename_temp dir n
  rw [h, parseFilename_temp] at hp
  cases hp
  rfl

/-- What a run of `update_current` calls for the numbers `ns`, from `s`, ending in `s'`
    with results `rs`, leaves behind, whatever fails. -/
structure RunOutcome (dir : String) (ns : List UInt64) (s s' : MemStorage)
    (rs : List (Result Unit)) : Prop where
  /-- No file but `CURRENT` and the run's temporary files changes: no log, table, manifest
      or other file of the directory. -/
  frame : ∀ x, x ≠ generateFilename dir .current 0 →
    (∀ n ∈ ns, x ≠ generateFilename dir .temp n) → s'.files x = s.files x
  /-- The temporary file of a manifest whose last call returned `Ok` is gone. -/
  temp_removed : ∀ n, lastCallFor n (ns.zip rs) = some (.ok ()) →
    s'.files (generateFilename dir .temp n) = none

/-- One call in front of a run: its own outcome and the rest's make the whole run's. -/
theorem RunOutcome.cons {dir : String} {n : UInt64} {ns : List UInt64} {s s1 s' : MemStorage}
    {r : Result Unit} {rs : List (Result Unit)} (hout : CurrentOutcome dir n s s1 r)
    (hrun : RunOutcome dir ns s1 s' rs) (hlen : rs.length = ns.length) :
    RunOutcome dir (n :: ns) s s' (r :: rs) where
  frame x hcur hx := by
    rw [hrun.frame x hcur fun k hk => hx k (List.mem_cons_of_mem n hk),
      hout.frame x (hx n (List.mem_cons_self n ns)) hcur]
  temp_removed m hm := by
    rw [List.zip_cons_cons] at hm
    rcases lastCallFor_cons_eq_some hm with hl | ⟨hl, rfl, rfl⟩
    · exact hrun.temp_removed m hl
    -- the first call is the last one for its manifest, and it returned `Ok`
    · have hnot := not_mem_of_lastCallFor hlen hl
      rw [hrun.frame _ (temp_ne_current dir n)
        fun k hk he => hnot (temp_injective dir he ▸ hk), hout.ok_removes_temp rfl]

/-- **Runs of `update_current` stay in their lane.** For every storage state and every
    pattern of failed or short calls, a run of `update_current` calls returns, one result
    per call. It changes no file but `CURRENT` and the temporary files of its manifest
    numbers. And it leaves no temporary file behind for a number whose last call
    returned `Ok`. -/
theorem updateCurrents_spec (dir : String) (ns : List UInt64) (s : MemStorage) :
    ∃ rs s', (updateCurrents dir ns).run.run s = some (.ok rs, s') ∧ rs.length = ns.length ∧
      RunOutcome dir ns s s' rs := by
  induction ns generalizing s with
  | nil => exact ⟨[], s, rfl, rfl, ⟨fun _ _ _ => rfl, fun _ h => nomatch h⟩⟩
  | cons n ns ih =>
    obtain ⟨r, s1, h1, hout⟩ := updateCurrent_spec dir n s
    obtain ⟨rs, s', h2, hlen, hrun⟩ := ih s1
    exact ⟨r :: rs, s', by simp [updateCurrents, h1, h2], by simp [hlen], .cons hout hrun hlen⟩

end Db
end Caskdb
