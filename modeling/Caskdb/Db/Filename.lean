import Caskdb.Std.Path

/-!
# `db/filename.rs` — the names of a database's files

Every file of a database directory is named by `generate_filename` from its type and a
sequence number, and recognised again by `parse_filename`. Recovery depends on the two
agreeing: a log, table or manifest that `parse_filename` does not recognise as what
`generate_filename` made is never found again.

The agreement is `parseFilename_generateFilename`: for every directory string, every type
and every `u64` (not only numbers of six digits or less), parsing a generated name gives
back the type and, for the numbered types, the number. It holds because the file name of
a join is the joined name (`Path.fileName_join`) and because `{:06}` and `u64::from_str`
invert each other (`parseU64_zeroPad6`).

The converse fails: `parse_filename` dispatches on the file *stem*, so it also accepts
names that `generate_filename` never makes (`CURRENT.bak`, `MANIFESTX-7`, `+7.log`); see
`parseFilename_accepts_foreign_names`.
-/

set_option autoImplicit false

namespace Caskdb
namespace Db

/-- `FileType`: what a file of the database directory holds. -/
inductive FileType where
  | log
  | lock
  | table
  | manifest
  | current
  | temp
  | infoLog
  | oldInfoLog
  deriving DecidableEq, Repr

/-- The types whose names carry a sequence number. -/
def FileType.isNumbered : FileType → Bool
  | .log | .table | .manifest | .temp => true
  | .lock | .current | .infoLog | .oldInfoLog => false

/-- `generate_filename`: the path of the file of type `filetype` and number `seq` in
    `dirname`. -/
def generateFilename (dirname : String) (filetype : FileType) (seq : UInt64) : String :=
  match filetype with
  | .log => Path.join dirname (zeroPad6 seq.toNat ++ ".log")
  | .lock => Path.join dirname "LOCK"
  | .table => Path.join dirname (zeroPad6 seq.toNat ++ ".sst")
  | .manifest => Path.join dirname ("MANIFEST-" ++ zeroPad6 seq.toNat)
  | .current => Path.join dirname "CURRENT"
  | .temp => Path.join dirname (zeroPad6 seq.toNat ++ ".dbtmp")
  | .infoLog => Path.join dirname "LOG"
  | .oldInfoLog => Path.join dirname "LOG.old"

/-- The `match` of `parse_filename` on the extension of a numbered name. -/
def numberedFileType (extension : String) (seq : UInt64) : Option (FileType × UInt64) :=
  match extension with
  | "log" => some (.log, seq)
  | "sst" => some (.table, seq)
  | "dbtmp" => some (.temp, seq)
  | _ => none

/-- `parse_filename`: the type and number of the file at `filename`, read off its stem
    (and, for `LOG`, its file name; for numbered names, its extension). -/
def parseFilename (filename : String) : Option (FileType × UInt64) :=
  let invalid := "invalid"
  let fileStem := (Path.fileStem filename).getD invalid
  match fileStem with
  | "CURRENT" => some (.current, 0)
  | "LOCK" => some (.lock, 0)
  | "LOG" =>
    match (Path.fileName filename).getD "" with
    | "LOG" => some (.infoLog, 0)
    | "LOG.old" => some (.oldInfoLog, 0)
    | _ => none
  | withSeq =>
    if "MANIFEST".data.isPrefixOf withSeq.data then
      let strs := splitChar '-' withSeq.data
      if strs.length ≠ 2 then none
      else (parseU64 (String.mk (strs.getD 1 []))).map fun seq => (.manifest, seq)
    else
      match parseU64 withSeq with
      | some seq => numberedFileType ((Path.extension filename).getD invalid) seq
      | none => none

/-! ## Parsing what was generated -/

/-- `parse_filename` looks at the file name only. -/
theorem parseFilename_congr {p q : String} (h : Path.fileName p = Path.fileName q) :
    parseFilename p = parseFilename q := by
  simp only [parseFilename, Path.fileStem, Path.extension, h]

theorem parseFilename_join (dir : String) {name : String} (h : Path.IsComponent name.data) :
    parseFilename (Path.join dir name) = parseFilename name :=
  parseFilename_congr (by rw [Path.fileName_join dir h, Path.fileName_self h])

/-- A stem other than `CURRENT`, `LOCK` and `LOG` takes the last arm of `parse_filename`:
    a `MANIFEST` name split at `-`, or a number and an extension. -/
theorem parseFilename_of_stem {p stem : String} (hstem : Path.fileStem p = some stem)
    (hne : stem ≠ "CURRENT" ∧ stem ≠ "LOCK" ∧ stem ≠ "LOG") :
    parseFilename p =
      if "MANIFEST".data.isPrefixOf stem.data then
        if (splitChar '-' stem.data).length ≠ 2 then none
        else (parseU64 (String.mk ((splitChar '-' stem.data).getD 1 []))).map (.manifest, ·)
      else (parseU64 stem).bind (numberedFileType ((Path.extension p).getD "invalid")) := by
  simp only [parseFilename, hstem, Option.getD_some]
  split
  · exact absurd rfl hne.1
  · exact absurd rfl hne.2.1
  · exact absurd rfl hne.2.2
  · cases parseU64 stem <;> rfl

section
variable (dir : String) (seq : UInt64)

theorem separators_zeroPad6 : ∀ c ∈ (zeroPad6 seq.toNat).data, c ≠ '/' ∧ c ≠ '.' :=
  fun _ hc => (ne_of_isDigit (isDigit_of_mem_zeroPad6 hc)).imp_right And.left

/-- `{:06}` never writes a name that has a character other than a digit. -/
theorem zeroPad6_ne {s : String} (hs : ¬∀ c ∈ s.data, c.isDigit = true) :
    zeroPad6 seq.toNat ≠ s :=
  fun h => hs fun _ hc => isDigit_of_mem_zeroPad6 (by rwa [h])

theorem zeroPad6_ne_nil : (zeroPad6 seq.toNat).data ≠ [] := fun h => by
  have := six_le_length_zeroPad6 seq.toNat
  rw [h] at this
  cases this

/-- A name of six or more digits, dot, extension: `parse_filename` reads the digits and
    dispatches on the extension. -/
theorem parseFilename_numbered (ext : String)
    (hext : ∀ c ∈ ext.data, c ≠ '/' ∧ c ≠ '.') :
    parseFilename (Path.join dir (zeroPad6 seq.toNat ++ ("." ++ ext))) =
      numberedFileType ext seq := by
  rw [← String.append_assoc]
  obtain ⟨hstem, hextn⟩ :=
    Path.fileStem_join_dot dir (zeroPad6_ne_nil seq) (separators_zeroPad6 seq) hext
  have hdig : ∀ c ∈ (zeroPad6 seq.toNat).data, c.isDigit = true :=
    fun _ => isDigit_of_mem_zeroPad6
  obtain ⟨c, cs, hc⟩ := List.exists_cons_of_ne_nil (zeroPad6_ne_nil seq)
  have hM : "MANIFEST".data.isPrefixOf (zeroPad6 seq.toNat).data = false := by
    rw [hc]
    have : 'M' ≠ c := by rintro rfl; exact absurd (hdig 'M' (by simp [hc])) (by decide)
    simp [List.isPrefixOf, this]
  rw [parseFilename_of_stem hstem ⟨zeroPad6_ne seq (by decide), zeroPad6_ne seq (by decide),
    zeroPad6_ne seq (by decide)⟩, hM, hextn, parseU64_zeroPad6]
  rfl

/-- A stem starting with `M` is none of `CURRENT`, `LOCK`, `LOG`. -/
theorem ne_of_head_ne {s t : String} (h : s.data.head? ≠ t.data.head?) : s ≠ t :=
  fun e => h (e ▸ rfl)

theorem parseFilename_manifest :
    parseFilename (Path.join dir ("MANIFEST-" ++ zeroPad6 seq.toNat)) = some (.manifest, seq) := by
  have hdata : ("MANIFEST-" ++ zeroPad6 seq.toNat).data =
      "MANIFEST".data ++ '-' :: (zeroPad6 seq.toNat).data := by
    simp [String.data_append]
  have hname : ∀ c ∈ ("MANIFEST-" ++ zeroPad6 seq.toNat).data, c ≠ '/' ∧ c ≠ '.' := by
    intro c hc
    rw [String.data_append, List.mem_append] at hc
    rcases hc with hc | hc
    · revert c; decide
    · exact separators_zeroPad6 seq c hc
  obtain ⟨hstem, -⟩ := Path.fileStem_join_undotted dir (by simp [hdata]) hname
  have hsplit : splitChar '-' ("MANIFEST-" ++ zeroPad6 seq.toNat).data =
      ["MANIFEST".data, (zeroPad6 seq.toNat).data] := by
    rw [hdata, splitChar_append, splitChar_of_not_mem (by decide),
      splitChar_of_not_mem fun hc => (ne_of_isDigit (isDigit_of_mem_zeroPad6 hc)).2.2 rfl]
    rfl
  have hparse : parseU64 ⟨(zeroPad6 seq.toNat).data⟩ = some seq := parseU64_zeroPad6 seq
  rw [parseFilename_of_stem hstem ⟨ne_of_head_ne (by simp [hdata]),
    ne_of_head_ne (by simp [hdata]), ne_of_head_ne (by simp [hdata])⟩,
    if_pos (by rw [hdata]; simp [List.isPrefixOf]), hsplit]
  simp [hparse]

theorem parseFilename_temp :
    parseFilename (generateFilename dir .temp seq) = some (.temp, seq) :=
  parseFilename_numbered dir seq "dbtmp" (by decide)

theorem parseFilename_current :
    parseFilename (generateFilename dir .current seq) = some (.current, 0) := by
  rw [generateFilename, parseFilename_join dir (by decide)]
  decide

end

/-- **Generated names parse back.** For every directory string, every file type and every
    `u64` sequence number, `parse_filename` recognises what `generate_filename` made: the
    same type, with the number for the numbered types and 0 for the others. -/
theorem parseFilename_generateFilename (dir : String) (ft : FileType) (seq : UInt64) :
    parseFilename (generateFilename dir ft seq) = some (ft, if ft.isNumbered then seq else 0) := by
  cases ft with
  | log => exact parseFilename_numbered dir seq "log" (by decide)
  | table => exact parseFilename_numbered dir seq "sst" (by decide)
  | temp => exact parseFilename_temp dir seq
  | manifest => exact parseFilename_manifest dir seq
  | current => exact parseFilename_current dir seq
  | lock | infoLog | oldInfoLog =>
    rw [generateFilename, parseFilename_join dir (by decide)]
    rfl

/-- The table of `test_generate_filename`, Unix branch. -/
example : generateFilename "test" .log 10 = "test/000010.log" ∧
    generateFilename "test" .lock 1 = "test/LOCK" ∧
    generateFilename "test" .table 123 = "test/000123.sst" ∧
    generateFilename "test" .manifest 9 = "test/MANIFEST-000009" ∧
    generateFilename "test" .current 1 = "test/CURRENT" ∧
    generateFilename "test" .temp 100 = "test/000100.dbtmp" ∧
    generateFilename "test" .infoLog 1 = "test/LOG" ∧
    generateFilename "test" .oldInfoLog 1 = "test/LOG.old" := by
  decide

theorem parseFilename_accepts_foreign_names :
    parseFilename "CURRENT.bak" = some (.current, 0) ∧
    parseFilename "a/LOCK.tmp" = some (.lock, 0) ∧
    parseFilename "+7.log" = some (.log, 7) ∧
    parseFilename "MANIFESTX-7" = some (.manifest, 7) ∧
    parseFilename "MANIFEST-000007.sst" = some (.manifest, 7) := by
  decide

/-- The table of `test_parse_filename`, Unix branch: the names it accepts and the ones it
    refuses. -/
example : parseFilename "a/b/c/000123.log" = some (.log, 123) ∧
    parseFilename "a/b/c/LOCK" = some (.lock, 0) ∧
    parseFilename "a/b/c/010666.sst" = some (.table, 10666) ∧
    parseFilename "a/b/c/MANIFEST-000009" = some (.manifest, 9) ∧
    parseFilename "a/b/c/000123.dbtmp" = some (.temp, 123) ∧
    parseFilename "a/b/c/CURRENT" = some (.current, 0) ∧
    parseFilename "a/b/c/LOG" = some (.infoLog, 0) ∧
    parseFilename "a/b/c/LOG.old" = some (.oldInfoLog, 0) ∧
    parseFilename "a/b/c/test.123" = none ∧ parseFilename "a/b/c/LOG." = none ∧
    parseFilename "a/b/c/LOG.new" = none ∧ parseFilename "a/b/c/000def.log" = none ∧
    parseFilename "a/b/c/MANIFEST-abcedf" = none ∧ parseFilename "a/b/c/MANIFEST" = none ∧
    parseFilename "a/b/c/MANIFEST-123123-abcdef" = none := by
  decide

end Db
end Caskdb
