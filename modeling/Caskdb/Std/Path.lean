import Caskdb.Std.Str

/-!
# `std::path::Path` on Unix, as far as the file names use it

`generate_filename` joins a directory and a file name with `Path::join`, and
`parse_filename` takes a path apart with `file_name`, `file_stem` and `extension`. What
those four do on Unix decides which names the two functions produce and accept (that
every generated name parses back, and which other names parse too), so they are written
here after the standard library: `join` is `PathBuf::push` (a separator only where the
directory does not already end with one), `file_name` is the last normal component
(`Path::components` drops empty pieces and `.`, and `..` is not a normal component), and
stem and extension split the file name at its last dot unless that dot leads the name
(`rsplit_file_at_dot`).

The fact the rest of the project needs is `fileName_join`: whatever the directory, the
file name of `join dir name` is `name`, for every name that is a single normal component.
-/

set_option autoImplicit false

namespace Caskdb
namespace Path

/-- Whether `PathBuf::push` puts a `/` after `dir`: it is non-empty and does not end with
    one. -/
def needsSep (dir : String) : Bool :=
  match dir.data.getLast? with
  | some c => c != '/'
  | none => false

/-- `Path::join` on Unix (`PathBuf::push`): an absolute `name` replaces `dir`; otherwise
    `name` follows `dir`, after a `/` when `needsSep dir`. -/
def join (dir name : String) : String :=
  if name.data.head? = some '/' then name
  else if needsSep dir then dir ++ "/" ++ name else dir ++ name

/-- The normal components of a path: the pieces between `/`s, less the empty ones and
    `.`, which `Path::components` never yields as normal components. -/
def components (p : String) : List (List Char) :=
  (splitChar '/' p.data).filter fun s => !s.isEmpty && s != ['.']

/-- `Path::file_name`: the last component, when it is a normal one (not `..`). -/
def fileName (p : String) : Option String :=
  match (components p).getLast? with
  | some ['.', '.'] => none
  | some c => some (String.mk c)
  | none => none

/-- The characters before and after the last `.` of a name, if it has one. -/
def splitLastDot : List Char → Option (List Char × List Char)
  | [] => none
  | c :: cs =>
    match splitLastDot cs with
    | some (before, after) => some (c :: before, after)
    | none => if c = '.' then some ([], cs) else none

/-- `rsplit_file_at_dot` of `std::path`: `(before, after)` the last dot of a file name;
    a name without a dot is all `after`, and `..` or a name whose only dot leads it is all
    `before`. -/
def rsplitFileAtDot (file : List Char) : Option (List Char) × Option (List Char) :=
  if file = ['.', '.'] then (some file, none)
  else
    match splitLastDot file with
    | none => (none, some file)
    | some (before, after) => if before = [] then (some file, none) else (some before, some after)

/-- `Path::file_stem`: `before.or(after)` of the file name. -/
def fileStem (p : String) : Option String :=
  (fileName p).bind fun f =>
    match rsplitFileAtDot f.data with
    | (some before, _) => some (String.mk before)
    | (none, after) => after.map String.mk

/-- `Path::extension`: `before.and(after)` of the file name. -/
def extension (p : String) : Option String :=
  (fileName p).bind fun f =>
    match rsplitFileAtDot f.data with
    | (some _, after) => after.map String.mk
    | (none, _) => none

/-- A name that is one normal path component: non-empty, without `/`, neither `.` nor
    `..`. -/
def IsComponent (name : List Char) : Prop :=
  name ≠ [] ∧ '/' ∉ name ∧ name ≠ ['.'] ∧ name ≠ ['.', '.']

instance (name : List Char) : Decidable (IsComponent name) :=
  inferInstanceAs (Decidable (_ ∧ _ ∧ _ ∧ _))

/-! ## Joining, then taking the file name -/

/-- Joining onto the empty directory adds nothing. -/
theorem join_empty (name : String) : join "" name = name := by
  unfold join
  split
  · rfl
  · exact String.empty_append name

/-- Whatever the directory, a relative name ends up as the last piece of the join. -/
theorem splitChar_join (dir : String) {name : String} (hname : '/' ∉ name.data) :
    ∃ pre, splitChar '/' (join dir name).data = pre ++ [name.data] := by
  have hrel : name.data.head? ≠ some '/' := by
    cases h : name.data with
    | nil => simp
    | cons c cs => rintro ⟨⟩; exact hname (h ▸ List.mem_cons_self _ _)
  unfold join
  rw [if_neg hrel]
  split
  · exact ⟨splitChar '/' dir.data, by
      simp [String.data_append, splitChar_append, splitChar_of_not_mem hname]⟩
  · rename_i hsep
    unfold needsSep at hsep
    split at hsep
    · rename_i c hc
      have hc' : c = '/' := by simpa using hsep
      obtain ⟨d, hd⟩ := List.getLast?_eq_some_iff.mp hc
      refine ⟨splitChar '/' d, ?_⟩
      rw [String.data_append, hd, hc', List.append_assoc, List.singleton_append,
        splitChar_append, splitChar_of_not_mem hname]
    · rename_i hnone
      refine ⟨[], ?_⟩
      rw [String.data_append, List.getLast?_eq_none_iff.mp hnone, List.nil_append,
        splitChar_of_not_mem hname]
      rfl

/-- **The file name of a join is the joined name**, for every directory and every name
    that is one normal component. -/
theorem fileName_join (dir : String) {name : String} (hname : IsComponent name.data) :
    fileName (join dir name) = some name := by
  obtain ⟨hne, hsl, hdot, hdotdot⟩ := hname
  obtain ⟨pre, hsplit⟩ := splitChar_join dir hsl
  have hkeep : (!name.data.isEmpty && name.data != ['.']) = true := by
    cases h : name.data with
    | nil => exact absurd h hne
    | cons c cs => simpa [h] using hdot
  unfold fileName components
  rw [hsplit, List.filter_append, List.filter_singleton, hkeep, cond_true,
    List.getLast?_concat]
  split
  · rename_i h; exact absurd (Option.some.inj h) hdotdot
  · rename_i c _ h; rw [← Option.some.inj h]
  · rename_i h; cases h

theorem fileName_self {name : String} (hname : IsComponent name.data) :
    fileName name = some name := by
  simpa only [join_empty] using fileName_join "" hname

/-! ## Splitting at the last dot -/

theorem splitLastDot_of_not_mem : ∀ {ys : List Char}, '.' ∉ ys → splitLastDot ys = none
  | [], _ => rfl
  | c :: cs, h => by
    have hc : c ≠ '.' := fun e => h (e ▸ List.mem_cons_self c cs)
    simp [splitLastDot, splitLastDot_of_not_mem (fun hm => h (List.mem_cons_of_mem c hm)), hc]

theorem splitLastDot_append {ys : List Char} (hys : '.' ∉ ys) : ∀ xs : List Char,
    splitLastDot (xs ++ '.' :: ys) = some (xs, ys)
  | [] => by simp [splitLastDot, splitLastDot_of_not_mem hys]
  | c :: cs => by simp [splitLastDot, splitLastDot_append hys cs]

/-! ## Stem and extension of a joined name -/

theorem cons_ne_of_ne {c d : Char} (l l' : List Char) (h : c ≠ d) : c :: l ≠ d :: l' :=
  fun e => h (List.cons.inj e).1

theorem data_dot {stem ext : String} {c : Char} {cs : List Char} (hc : stem.data = c :: cs) :
    (stem ++ "." ++ ext).data = c :: (cs ++ '.' :: ext.data) := by
  simp [String.data_append, hc]

theorem fileName_join_dot (dir : String) {stem ext : String} (hs : stem.data ≠ [])
    (hstem : ∀ c ∈ stem.data, c ≠ '/' ∧ c ≠ '.')
    (hext : ∀ c ∈ ext.data, c ≠ '/' ∧ c ≠ '.') :
    fileName (join dir (stem ++ "." ++ ext)) = some (stem ++ "." ++ ext) := by
  obtain ⟨c, cs, hc⟩ := List.exists_cons_of_ne_nil hs
  have hc' := hstem c (by simp [hc])
  refine fileName_join dir ⟨by simp [data_dot hc], fun hm => ?_, ?_, ?_⟩
  · simp only [String.data_append, List.mem_append] at hm
    rcases hm with (hm | hm) | hm
    · exact (hstem _ hm).1 rfl
    · simp at hm
    · exact (hext _ hm).1 rfl
  · rw [data_dot hc]
    cases cs <;> simp
  · rw [data_dot hc]; exact cons_ne_of_ne _ _ hc'.2

/-- A joined name `stem.ext` has stem `stem` and extension `ext`, when neither holds a
    `/` or a `.` and the stem is not empty. -/
theorem fileStem_join_dot (dir : String) {stem ext : String} (hs : stem.data ≠ [])
    (hstem : ∀ c ∈ stem.data, c ≠ '/' ∧ c ≠ '.')
    (hext : ∀ c ∈ ext.data, c ≠ '/' ∧ c ≠ '.') :
    fileStem (join dir (stem ++ "." ++ ext)) = some stem ∧
      extension (join dir (stem ++ "." ++ ext)) = some ext := by
  have hsplit : rsplitFileAtDot (stem.data ++ '.' :: ext.data) =
      (some stem.data, some ext.data) := by
    obtain ⟨c, cs, hc⟩ := List.exists_cons_of_ne_nil hs
    have hc' := hstem c (by simp [hc])
    rw [rsplitFileAtDot, if_neg (by rw [hc]; exact cons_ne_of_ne _ _ hc'.2),
      splitLastDot_append (fun hm => (hext _ hm).2 rfl)]
    exact if_neg hs
  simp [fileStem, extension, fileName_join_dot dir hs hstem hext, hsplit]

/-- A joined name without a dot is its own stem and has no extension. -/
theorem fileStem_join_undotted (dir : String) {name : String} (hn : name.data ≠ [])
    (hname : ∀ c ∈ name.data, c ≠ '/' ∧ c ≠ '.') :
    fileStem (join dir name) = some name ∧ extension (join dir name) = none := by
  obtain ⟨c, cs, hc⟩ := List.exists_cons_of_ne_nil hn
  have hc' := hname c (by simp [hc])
  have hfile : fileName (join dir name) = some name :=
    fileName_join dir ⟨hn, fun hm => (hname _ hm).1 rfl,
      by rw [hc]; exact cons_ne_of_ne _ _ hc'.2, by rw [hc]; exact cons_ne_of_ne _ _ hc'.2⟩
  have hsplit : rsplitFileAtDot name.data = (none, some name.data) := by
    rw [rsplitFileAtDot, if_neg (by rw [hc]; exact cons_ne_of_ne _ _ hc'.2),
      splitLastDot_of_not_mem (fun hm => (hname _ hm).2 rfl)]
  simp [fileStem, extension, hfile, hsplit]

end Path
end Caskdb
