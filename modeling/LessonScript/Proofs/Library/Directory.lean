import LessonScript.Library.Source
import LessonScript.Proofs.Text.Lines
import Mathlib.Data.List.TakeWhile

/-!
# Listing a directory and looking up in it

A directory looks up a key under the file name that is made of the key, a dot and the extension.
When it is listed, every file name is taken apart at its last dot, and those with the extension
behind that dot give their keys. As long as the extension has no dot in it, the keys listed are
those that there are files for. No file name has an extension with a dot, so then nothing is listed.
-/

namespace LessonScript

/-! ## Names and paths -/

namespace Path

section

variable {before behind : List Char}

lemma splitExtension_of_dot (hbehind : '.' ∉ behind) :
    splitExtension (String.ofList (before ++ '.' :: behind)) =
      if before = [] then (String.ofList ('.' :: behind), none)
      else (String.ofList before, some (String.ofList behind)) := by
  have htake : (behind.reverse ++ '.' :: before.reverse).takeWhile (· ≠ '.') = behind.reverse := by
    rw [List.takeWhile_append_of_pos (by simpa using fun c hc => ne_of_mem_of_not_mem hc hbehind)]
    simp
  have hreverse : (before ++ '.' :: behind).reverse = behind.reverse ++ '.' :: before.reverse := by
    simp
  simp only [splitExtension, String.toList_ofList, hreverse, htake]
  rw [List.drop_left]
  by_cases hbefore : before = [] <;> simp [hbefore]

lemma splitExtension_of_no_dot {name : String} (h : '.' ∉ name.toList) :
    splitExtension name = (name, none) := by
  have htake : name.toList.reverse.takeWhile (· ≠ '.') = name.toList.reverse := by
    rw [List.takeWhile_eq_self_iff]
    simpa using fun c hc => ne_of_mem_of_not_mem hc h
  simp only [splitExtension, htake]
  rw [List.drop_length]

lemma exists_last_dot {cs : List Char} (h : '.' ∈ cs) :
    ∃ before behind, cs = before ++ '.' :: behind ∧ '.' ∉ behind := by
  obtain ⟨behind, before, hcs, hbehind⟩ := List.eq_append_cons_of_mem (List.mem_reverse.2 h)
  refine ⟨before.reverse, behind.reverse, ?_, by simpa using hbehind⟩
  rw [← List.reverse_reverse cs, hcs]
  simp

end

/-- A name has the extension behind its last dot, if there is something before that dot. -/
lemma splitExtension_eq_iff {name stem extension : String} :
    splitExtension name = (stem, some extension) ↔
      stem ≠ "" ∧ '.' ∉ extension.toList ∧ name = stem ++ "." ++ extension := by
  have hjoined : stem ++ "." ++ extension =
      String.ofList (stem.toList ++ '.' :: extension.toList) := by
    apply String.toList_injective
    simp
  rw [hjoined]
  constructor
  · intro h
    by_cases hdot : '.' ∈ name.toList
    · obtain ⟨before, behind, hname, hbehind⟩ := exists_last_dot hdot
      obtain rfl : name = String.ofList (before ++ '.' :: behind) := by
        rw [← hname, String.ofList_toList]
      rw [splitExtension_of_dot hbehind] at h
      split_ifs at h with hbefore
      · cases (Prod.mk.inj h).2
      · obtain ⟨rfl, hextension⟩ := Prod.mk.inj h
        obtain rfl := Option.some.inj hextension
        simpa [hbehind] using hbefore
    · rw [splitExtension_of_no_dot hdot] at h
      cases h
  · rintro ⟨hstem, hextension, rfl⟩
    rw [splitExtension_of_dot hextension, if_neg (mt String.toList_eq_nil_iff.1 hstem),
      String.ofList_toList, String.ofList_toList]

lemma parts_behind (path : String) {name : String} (h : '/' ∉ name.toList) :
    parts (path ++ "/" ++ name) = parts path ++ [name] := by
  have hsplit : (path ++ "/" ++ name).toList.splitOn '/' =
      path.toList.splitOn '/' ++ [name.toList] := by
    have hcs : (path ++ "/" ++ name).toList = path.toList ++ '/' :: name.toList := by simp
    rw [hcs, List.splitOn_append_cons_self, List.splitOn_eq_singleton h]
  simp only [parts, Text.splitOn_eq, hsplit, List.map_append, List.map_singleton,
    String.ofList_toList]

/-- There is one slash in front of the name, which the directory may have brought along. -/
lemma exists_join {dir name : String} (hdir : dir ≠ "") (hname : '/' ∉ name.toList) :
    ∃ before, join dir name = before ++ "/" ++ name ∧ (dir = before ∨ dir = before ++ "/") := by
  have habsolute : name.startsWith "/" = false := by
    rw [Bool.eq_false_iff, Ne, String.startsWith_string_iff]
    exact fun hfront => hname (hfront.subset (List.mem_singleton_self '/'))
  rw [join, habsolute, if_neg Bool.false_ne_true]
  by_cases hends : dir.endsWith "/" = true
  · have hsuffix : "/".toList <:+ dir.toList := by
      rw [String.endsWith_eq_endsWith_toSlice, String.Slice.endsWith_string_iff,
        String.copy_toSlice] at hends
      exact hends
    obtain ⟨before, hbefore⟩ := hsuffix
    have hd : dir = String.ofList before ++ "/" := by
      apply String.toList_injective
      simp [← hbefore]
    refine ⟨String.ofList before, ?_, .inr hd⟩
    rw [if_pos (by simp [hends]), hd]
  · exact ⟨dir, if_neg (by simp [hdir, hends]), .inl rfl⟩

lemma empty_or_absolute_iff {path : String} :
    (path.isEmpty || path.startsWith "/") = true ↔ path.toList.head?.getD '/' = '/' := by
  have hslash : "/".toList = ['/'] := rfl
  rw [Bool.or_eq_true, String.isEmpty_iff, ← String.toList_eq_nil_iff,
    String.startsWith_string_iff, hslash]
  cases path.toList with
  | nil => simp
  | cons c cs => simp [List.cons_prefix_cons, eq_comm]

end Path

/-! ## Entries of a directory -/

namespace FileNode

/-- A part of a path that leads to an entry of a directory. -/
structure IsStep (name : String) : Prop where
  ne_empty : name ≠ ""
  ne_stay : name ≠ "."
  ne_up : name ≠ ".."
  no_slash : '/' ∉ name.toList

/-- A name that an entry of a directory can have. -/
structure IsFileName (name : String) : Prop extends IsStep name where
  no_nul : name.toList.any (·.toNat = 0) = false
  short : name.utf8ByteSize ≤ nameLimit

/-- The first parts of a path fail whatever follows, or they lead to a node that the others are
followed from. -/
lemma follow_append (nodes : List FileNode) (parts : List String) :
    (∃ e, ∀ more, follow nodes (parts ++ more) = .error e) ∨
      ∃ node above, ∀ more, follow nodes (parts ++ more) = follow (node :: above) more := by
  fun_induction follow nodes parts with
  | case1 parts => exact .inl ⟨.notFound, fun more => by rw [follow]⟩
  | case2 here above => exact .inr ⟨here, above, fun more => rfl⟩
  | case3 => exact .inl ⟨.notDirectory, fun more => by rw [List.cons_append, follow]⟩
  | case4 entries above part rest hstays ih =>
    simpa only [List.cons_append, follow, if_pos hstays] using ih
  | case5 entries above rest hstays ih =>
    simpa only [List.cons_append, follow, if_neg hstays, if_true] using ih
  | case6 entries above part rest hstays hup hlong =>
    refine .inl ⟨.nameTooLong, fun more => ?_⟩
    rw [List.cons_append, follow, if_neg hstays, if_neg hup, if_pos hlong]
  | case7 entries above part rest hstays hup hshort hnone =>
    refine .inl ⟨.notFound, fun more => ?_⟩
    rw [List.cons_append, follow, if_neg hstays, if_neg hup, if_neg hshort, hnone]
  | case8 entries above part rest hstays hup hshort child hchild ih =>
    simpa only [List.cons_append, follow, if_neg hstays, if_neg hup, if_neg hshort, hchild]
      using ih

section

variable {entries : List (String × FileNode)} {name : String} (hname : IsStep name)

include hname

lemma follow_step (above : List FileNode) :
    (follow (.directory entries :: above) [name]).toOption.isSome = true ↔
      name.utf8ByteSize ≤ nameLimit ∧ name ∈ entries.map Prod.fst := by
  rw [follow, if_neg (by simp [hname.ne_empty, hname.ne_stay]), if_neg hname.ne_up]
  split_ifs with hlong
  · simp [Except.toOption, Nat.not_le_of_lt hlong]
  · have hmem : name ∈ entries.map Prod.fst ↔ (entries.lookup name).isSome = true := by
      simp [List.lookup_isSome_iff]
    rw [hmem]
    cases entries.lookup name with
    | none => simp [Except.toOption]
    | some child => simpa [follow, Except.toOption] using hlong

/-- The way to an entry goes by the way to its directory, and a slash behind that leads nowhere. -/
lemma follow_concat {nodes : List FileNode} {parts last : List String}
    (hlast : last = [] ∨ last = [""])
    (h : follow nodes (parts ++ last) = .ok (.directory entries)) :
    (follow nodes (parts ++ [name])).toOption.isSome = true ↔
      name.utf8ByteSize ≤ nameLimit ∧ name ∈ entries.map Prod.fst := by
  obtain ⟨e, he⟩ | ⟨node, above, happend⟩ := follow_append nodes parts
  · cases (he last).symm.trans h
  · obtain rfl : node = .directory entries := by
      rw [happend] at h
      obtain rfl | rfl := hlast
      · simpa [follow] using h
      · cases node with
        | file content => simp [follow] at h
        | directory own => simpa [follow] using h
    rw [happend, follow_step hname]

/-- There is something at the path of a name in a directory exactly when the directory has an entry
of that name. -/
lemma contains_join {root : FileNode} {dir : String}
    (hdir : root.find dir = .ok (.directory entries))
    (hnames : ∀ entry ∈ entries, IsFileName entry.1)
    (hshort : (Path.join dir name).utf8ByteSize ≤ pathLimit) :
    root.contains (Path.join dir name) = true ↔ name ∈ entries.map Prod.fst := by
  have hmem : name ∈ entries.map Prod.fst → IsFileName name := by
    intro hin
    obtain ⟨entry, hentry, rfl⟩ := List.mem_map.1 hin
    exact hnames entry hentry
  rw [find] at hdir
  split_ifs at hdir with hnul hlong hrooted
  have hne : dir ≠ "" := by
    rintro rfl
    exact hrooted rfl
  obtain ⟨before, hjoin, hbefore⟩ := Path.exists_join hne hname.no_slash
  rw [contains, find, hjoin]
  split_ifs with hnul' hlong' hrooted'
  · refine iff_of_false Bool.false_ne_true fun hin => ?_
    have hno := (hmem hin).no_nul
    rw [Bool.not_eq_true] at hnul
    obtain rfl | rfl := hbefore <;> simp_all only [String.toList_append, List.any_append] <;>
      cases hnul'
  · exact absurd hshort (by rw [hjoin]; exact Nat.not_le_of_lt hlong')
  · refine absurd hrooted' ?_
    rw [Path.empty_or_absolute_iff] at hrooted ⊢
    cases hhead : before.toList.head? <;> obtain rfl | rfl := hbefore <;>
      simp_all [List.head?_append]
  · rw [Path.parts_behind before hname.no_slash]
    have hfollow : (follow [root] (Path.parts before ++ [name])).toOption.isSome = true ↔
        name.utf8ByteSize ≤ nameLimit ∧ name ∈ entries.map Prod.fst := by
      obtain rfl | rfl := hbefore
      · exact follow_concat hname (.inl rfl) (by rwa [List.append_nil])
      · refine follow_concat hname (.inr rfl) ?_
        rwa [← Path.parts_behind before (by decide), String.append_empty]
    rw [hfollow]
    exact ⟨And.right, fun hin => ⟨(hmem hin).short, hin⟩⟩

end

end FileNode

/-! ## Keys -/

namespace ScriptDirectory

/-- The name of the file that a directory has for a key. -/
def fileName (d : ScriptDirectory) (key : String) : String := key ++ "." ++ d.extension

lemma mem_keysAmong {d : ScriptDirectory} {names : List String} {key : String} :
    key ∈ d.keysAmong names ↔ key ≠ "" ∧ '.' ∉ d.extension.toList ∧ d.fileName key ∈ names := by
  have hsplit : key ∈ d.keysAmong names ↔
      ∃ name ∈ names, Path.splitExtension name = (key, some d.extension) := by
    rw [keysAmong, List.mem_filterMap]
    refine exists_congr fun name => and_congr_right fun _ => ?_
    obtain ⟨stem, extension | extension⟩ := Path.splitExtension name
    · simp
    · simp [and_comm]
  rw [hsplit]
  simp only [Path.splitExtension_eq_iff]
  constructor
  · rintro ⟨_, hname, hkey, hextension, rfl⟩
    exact ⟨hkey, hextension, hname⟩
  · rintro ⟨hkey, hextension, hname⟩
    exact ⟨_, hname, hkey, hextension, rfl⟩

lemma isStep_fileName {d : ScriptDirectory} {key : String} (hkey : key ≠ "")
    (hslash : '/' ∉ key.toList) (hextension : d.extension ≠ "")
    (hplain : '/' ∉ d.extension.toList) : FileNode.IsStep (d.fileName key) := by
  have hlength : 3 ≤ (d.fileName key).length := by
    have hk : 0 < key.length := by simpa [Nat.pos_iff_ne_zero] using hkey
    have he : 0 < d.extension.length := by simpa [Nat.pos_iff_ne_zero] using hextension
    have hdot : ".".length = 1 := rfl
    rw [fileName, String.length_append, String.length_append]
    omega
  refine ⟨?_, ?_, ?_, by simp [fileName, hslash, hplain]⟩ <;> intro h <;> rw [h] at hlength <;>
    exact absurd hlength (by decide)

/-- The keys that a directory lists, and those that it finds, when its entries have some names. -/
structure Lists (d : ScriptDirectory) (root : FileNode) (names keys : List String) : Prop where
  mem_iff : ∀ key, key ≠ "" → (key ∈ keys ↔ '.' ∉ d.extension.toList ∧ d.fileName key ∈ names)
  /-- A key is found at its path, unless the path is longer than any path may be. -/
  contains_iff : ∀ key, key ≠ "" → '/' ∉ key.toList →
    d.extension ≠ "" → '/' ∉ d.extension.toList →
    (d.pathFor key).utf8ByteSize ≤ FileNode.pathLimit →
    ((d.source root).contains key = true ↔ d.fileName key ∈ names)
  /-- What is listed is what there are files for, but for the files of an extension with a dot. -/
  complete_iff : (∀ key, key ≠ "" → '/' ∉ key.toList → (key ∈ keys ↔ d.fileName key ∈ names)) ↔
    '.' ∉ d.extension.toList ∨ ∀ key, key ≠ "" → '/' ∉ key.toList → d.fileName key ∉ names

/-- A directory lists a key if there is a file of its name and there is no dot in the extension. -/
theorem lists_source {root : FileNode} {dir : String} {entries : List (String × FileNode)}
    (hdir : root.find dir = .ok (.directory entries))
    (hnames : ∀ entry ∈ entries, FileNode.IsFileName entry.1) (extension : String) :
    ∃ keys, ((of dir extension).source root).keys = .ok keys ∧
      (of dir extension).Lists root (entries.map Prod.fst) keys := by
  have hlist : root.list dir = .ok (entries.map Prod.fst) := by
    rw [FileNode.list, hdir]
  refine ⟨(of dir extension).keysAmong (entries.map Prod.fst), ?_, ?_, ?_, ?_⟩
  · rw [source]
    show (of dir extension).keysOf (root.list dir) = _
    rw [hlist, keysOf]
  · intro key hkey
    rw [mem_keysAmong, and_iff_right hkey]
  · intro key hkey hslash hextension hplain hshort
    exact FileNode.contains_join (isStep_fileName hkey hslash hextension hplain) hdir hnames hshort
  · simp only [mem_keysAmong]
    by_cases hdot : '.' ∈ (of dir extension).extension.toList
    · simp only [hdot, not_true, false_and, and_false, false_iff, false_or]
    · simp +contextual [hdot]

theorem lists_source_dotted_keys :
    let root : FileNode := .directory [("lessons", .directory
      [("lesson.one.md", .file ⟨#[]⟩), (".md", .file ⟨#[]⟩), ("notes.txt", .directory [])])]
    let entries := [("lesson.one.md", FileNode.file ⟨#[]⟩), (".md", .file ⟨#[]⟩),
      ("notes.txt", .directory [])]
    root.find "lessons/" = .ok (.directory entries) ∧
      (∀ entry ∈ entries, FileNode.IsFileName entry.1) ∧
      ∃ keys, ((of "lessons/" "..md").source root).keys = .ok keys ∧
        (of "lessons/" "..md").Lists root ["lesson.one.md", ".md", "notes.txt"] keys := by
  intro root entries
  have hdir : root.find "lessons/" = .ok (.directory entries) := by
    have hparts : Path.parts "lessons/" = ["lessons", ""] := by decide +kernel
    have hshort : "lessons".utf8ByteSize ≤ 255 := by decide
    rw [FileNode.find, if_neg (by decide +kernel), if_neg (by decide +kernel),
      if_neg (by decide +kernel), hparts]
    simp [root, entries, FileNode.follow, FileNode.nameLimit, hshort]
  have hnames : ∀ entry ∈ entries, FileNode.IsFileName entry.1 := by
    simp only [entries, List.forall_mem_cons]
    exact ⟨⟨⟨by decide, by decide, by decide, by decide⟩, by decide, by decide⟩,
      ⟨⟨by decide, by decide, by decide, by decide⟩, by decide, by decide⟩,
      ⟨⟨by decide, by decide, by decide, by decide⟩, by decide, by decide⟩, nofun⟩
  exact ⟨hdir, hnames, lists_source hdir hnames "..md"⟩

/-- The file is found and not listed, for its extension would have to be "md". -/
theorem keys_of_dotted_extension :
    let source := (of "." "en.md").source (.directory [("lesson001.en.md", .file ⟨#[]⟩)])
    source.keys = .ok [] ∧ source.contains "lesson001" = true ∧
      (of "." "en.md").fileName "lesson001" = "lesson001.en.md" := by
  decide +kernel

end ScriptDirectory
end LessonScript
