import Caskdb.Storage.Mem

/-!
# `do_write_string_to_file` — writing a whole small file

The helper behind `update_current`: create the file, write the string, flush it when
asked, close it, and remove the file when closing fails. Whether `Ok(())` means the file
holds the string depends on the replies of the storage, and the model quantifies over all
of them.

What the code does guarantee, for every storage state and every pattern of replies, is
`doWriteStringToFile_spec`: it returns (it never panics), it touches no file but the one
it writes, and when it returns `Ok` that file is either gone or holds a *prefix* of the
string, the whole string when no write was short. The two ways `Ok` comes back without
the string in place are `doWriteStringToFile_ok_without_data`: the count `write` returns
is dropped (`file.write(..)?` is not `write_all`), and a failed `close` is answered by
removing the file and still returning `Ok(())`.
-/

set_option autoImplicit false

namespace Caskdb
namespace Storage

open MemStorage

/-- `do_write_string_to_file(env, data, file_name, should_sync)`. -/
def doWriteStringToFile (data : String) (fileName : String) (shouldSync : Bool) :
    StorageM Unit := do
  let file ← create fileName
  let _ ← file.write (asBytes data)
  if shouldSync then file.flush
  match ← capture file.close with
  | .error _ => remove fileName
  | .ok () => pure ()

/-- What `do_write_string_to_file` guarantees about the file it writes, once it has
    returned `Ok`: nothing, or a prefix of the data. -/
def WroteAtMost (data : Bytes) (s : MemStorage) (name : String) (full : Prop) : Prop :=
  s.files name = none ∨ ∃ k, s.files name = some (data.take k) ∧ (full → k = data.length)

theorem doWriteStringToFile_spec (data fileName : String) (sync : Bool) (s : MemStorage) :
    ∃ r s', (doWriteStringToFile data fileName sync).run.run s = some (r, s') ∧
      (∀ x, x ≠ fileName → s'.files x = s.files x) ∧
      (r = .ok () → WroteAtMost (asBytes data) s' fileName (NoShortWrites s)) ∧
      (NoShortWrites s → NoShortWrites s') := by
  rcases create_cases fileName s with ⟨e, h1⟩ | h1
  · exact ⟨.error e, s.pop, by simp [doWriteStringToFile, h1], fun _ _ => rfl, by simp,
      (·.pop)⟩
  rcases write_cases ⟨fileName⟩ (asBytes data) (s.pop.setFile fileName (some [])) with
    ⟨e, h2⟩ | ⟨k, -, hfull, h2⟩
  · exact ⟨.error e, (s.pop.setFile fileName (some [])).pop,
      by simp [doWriteStringToFile, h1, h2], fun x hx => by simp [MemStorage.setFile, hx], by simp,
      fun h => (h.pop.setFile _ _).pop⟩
  simp only [MemStorage.setFile_files_self, Option.map_some', List.nil_append] at h2
  set s2 := (s.pop.setFile fileName (some [])).pop.setFile fileName
    (some ((asBytes data).take k)) with hs2
  have hframe : ∀ x, x ≠ fileName → s2.files x = s.files x := fun x hx => by
    simp [hs2, MemStorage.setFile, hx]
  have hwrote : WroteAtMost (asBytes data) s2 fileName (NoShortWrites s) :=
    .inr ⟨k, by simp [hs2], fun h => hfull ((h.pop.setFile _ _).head)⟩
  have hshort : NoShortWrites s → NoShortWrites s2 :=
    fun h => (h.pop.setFile _ _).pop.setFile _ _
  -- `close`, removing the file when it fails, from a state with the files of `s2`
  have hclose : ∀ t : MemStorage, t.files = s2.files → (NoShortWrites s → NoShortWrites t) →
      ∃ r s', (capture (File.close ⟨fileName⟩) >>= fun r => match r with
        | .error _ => remove fileName
        | .ok () => pure ()).run.run t = some (r, s') ∧
      (∀ x, x ≠ fileName → s'.files x = s.files x) ∧
      (r = .ok () → WroteAtMost (asBytes data) s' fileName (NoShortWrites s)) ∧
      (NoShortWrites s → NoShortWrites s') := by
    intro t ht hts
    rcases plainCall_cases t with ⟨e, h3⟩ | h3
    · rcases remove_cases fileName t.pop with ⟨e', h4⟩ | ⟨-, h4⟩
      · exact ⟨.error e', t.pop.pop, by simp [File.close, h3, h4],
          fun x hx => by simp [ht, hframe x hx], by simp, fun h => (hts h).pop.pop⟩
      · exact ⟨.ok (), t.pop.pop.setFile fileName none, by simp [File.close, h3, h4],
          fun x hx => by simp [MemStorage.setFile, hx, ht, hframe x hx], fun _ => .inl (by simp),
          fun h => ((hts h).pop.pop.setFile _ _)⟩
    · exact ⟨.ok (), t.pop, by simp [File.close, h3], fun x hx => by simp [ht, hframe x hx],
        fun _ => by simpa [WroteAtMost, ht] using hwrote, fun h => (hts h).pop⟩
  cases sync with
  | false =>
    obtain ⟨r, s', h, hf, hw, hn⟩ := hclose s2 rfl hshort
    exact ⟨r, s', by simpa [doWriteStringToFile, h1, h2] using h, hf, hw, hn⟩
  | true =>
    rcases plainCall_cases s2 with ⟨e, h3⟩ | h3
    · exact ⟨.error e, s2.pop, by simp [doWriteStringToFile, h1, h2, File.flush, h3],
        fun x hx => by simp [hframe x hx], by simp, fun h => (hshort h).pop⟩
    · obtain ⟨r, s', h, hf, hw, hn⟩ := hclose s2.pop rfl fun h => (hshort h).pop
      exact ⟨r, s', by simpa [doWriteStringToFile, h1, h2, File.flush, h3] using h, hf, hw, hn⟩

/-- When no call fails or writes short, `do_write_string_to_file` returns `Ok(())` with the
    file holding the whole string and every other file as it was. -/
theorem doWriteStringToFile_of_allDone (data fileName : String) (sync : Bool)
    {s : MemStorage} (h : AllDone s) :
    ∃ s', (doWriteStringToFile data fileName sync).run.run s = some (.ok (), s') ∧
      (∀ x, s'.files x = (s.setFile fileName (some (asBytes data))).files x) ∧ AllDone s' := by
  have h1 := create_of_done h.head fileName
  have hd1 := h.pop.setFile fileName (some [])
  have h2 := write_of_done hd1.head ⟨fileName⟩ (asBytes data)
  simp only [MemStorage.setFile_files_self, Option.map_some', List.nil_append] at h2
  set s2 := (s.pop.setFile fileName (some [])).pop.setFile fileName (some (asBytes data))
    with hs2
  have hd2 : AllDone s2 := hd1.pop.setFile _ _
  have hfiles : ∀ x, s2.files x = (s.setFile fileName (some (asBytes data))).files x :=
    fun x => by by_cases hx : x = fileName <;> simp [hs2, MemStorage.setFile, hx]
  cases sync with
  | false =>
    exact ⟨s2.pop, by simp [doWriteStringToFile, h1, h2, File.close, plainCall_of_done hd2.head],
      hfiles, hd2.pop⟩
  | true =>
    exact ⟨s2.pop.pop, by simp [doWriteStringToFile, h1, h2, File.flush, File.close,
      plainCall_of_done hd2.head, plainCall_of_done hd2.pop.head], hfiles, hd2.pop.pop⟩

/-- `Ok(())` with the data not in the file, from an empty storage: a failed `close` removes
    the file and still returns `Ok`; a short write leaves three bytes of the string and
    returns `Ok`. -/
theorem doWriteStringToFile_ok_without_data :
    ((doWriteStringToFile "MANIFEST-000001" "db/000001.dbtmp" true).run.run
        ⟨fun _ => none,
          [.done, .done, .done, .fail (.io ⟨.other, "close failed"⟩), .done]⟩).map
      (fun p => (p.1, p.2.files "db/000001.dbtmp")) = some (.ok (), none) ∧
    ((doWriteStringToFile "MANIFEST-000001" "db/000001.dbtmp" true).run.run
        ⟨fun _ => none, [.done, .short 3]⟩).map
      (fun p => (p.1, p.2.files "db/000001.dbtmp")) = some (.ok (), some (asBytes "MAN")) :=
  ⟨rfl, rfl⟩

end Storage
end Caskdb
