import LessonScript.Library.Source
import LessonScript.Settings.Basic
import Mathlib.Data.List.TakeWhile
import Mathlib.Tactic.Common

/-!
# Settings that load

Settings that load are usable: texts take time, the bounds of their duration do not cross, and there
is an extension. One dot in front of the extension is dropped when settings are loaded, and all dots
that are left when a directory is made of it. So the directory has the extension of the settings as
long as the extension is given with one dot at most, and has an empty one if nothing but dots is
given.
-/

namespace LessonScript

lemma bind_eq_ok_iff {ε α β : Type} {x : Except ε α} {f : α → Except ε β} {b : β} :
    x >>= f = .ok b ↔ ∃ a, x = .ok a ∧ f a = .ok b := by
  cases x with
  | error e => exact iff_of_false nofun (by rintro ⟨a, ⟨⟩, -⟩)
  | ok a => exact ⟨fun h => ⟨a, rfl, h⟩, by rintro ⟨_, ⟨⟩, h⟩; exact h⟩

/-! ## A setting over all others -/

namespace Setting

lemma lookup_changeEntry (key : String) (change : Setting → Setting)
    (entries : List (String × Setting)) :
    (changeEntry key change entries).lookup key =
      some (change ((entries.lookup key).getD unset)) := by
  induction entries with
  | nil => simp [changeEntry]
  | cons entry rest ih =>
    obtain ⟨k, v⟩ := entry
    rw [changeEntry]
    split_ifs with hk
    · simp [hk]
    · have hne : (key == k) = false := beq_eq_false_iff_ne.2 (Ne.symm hk)
      rw [List.lookup_cons, List.lookup_cons, hne, ih]

/-- Changing a key of a setting leaves a table that has what the change makes of some value. -/
lemma exists_changeKey (key : String) (change : Setting → Setting) (v : Setting) :
    ∃ origin entries old, changeKey key change v = .table origin entries ∧
      entries.lookup (keptKey key) = some (change old) := by
  cases v with
  | table origin entries => exact ⟨origin, _, _, rfl, lookup_changeEntry ..⟩
  | scalar origin value => exact ⟨none, _, unset, rfl, by simp⟩
  | list origin items => exact ⟨none, _, unset, rfl, by simp⟩

variable {σ α : Type}

/-- The last field of a group is there, and it is read last. -/
lemma exists_of_readGroup {group name : String} (before : List (SettingField σ))
    {read : Setting → Except SettingsError α} {keep : α → σ → σ} {start result : σ}
    {origin : Option String} {entries : List (String × Setting)}
    (h : readGroup group (before ++ [.of name read keep]) start (.table origin entries) =
      .ok result) {v : Setting} (hv : entries.lookup name = some v) :
    ∃ a s, read v = .ok a ∧ result = keep a s := by
  have hname : (SettingField.of name read keep).name = name := rfl
  rw [readGroup] at h
  obtain ⟨put, hput, hresult⟩ := bind_eq_ok_iff.1 h
  obtain rfl : put = result := by
    split at hresult
    · cases hresult
    · exact Except.ok.inj hresult
  rw [List.foldlM_append] at hput
  obtain ⟨s, -, hlast⟩ := bind_eq_ok_iff.1 hput
  rw [List.foldlM_cons, hname, hv] at hlast
  obtain ⟨_, hread, hdone⟩ := bind_eq_ok_iff.1 hlast
  obtain rfl := Except.ok.inj hdone
  simp only [SettingField.putAt, SettingField.of] at hread
  cases ha : read v with
  | error e => simp [ha, Except.map, Except.mapError] at hread
  | ok a =>
    rw [ha] at hread
    exact ⟨a, s, rfl, (Except.ok.inj hread).symm⟩

/-- An extension that is set over all else is the extension that is read. -/
lemma extension_of_placeAt {root : Setting} {path : SettingPath}
    (hpath : SettingPath.ofText? "library.extension" = some path) {extension : String}
    {s : Settings} (h : (root.placeAt path (.ofText extension)).readSettings = .ok s) :
    s.library.extension = extension := by
  have hp : SettingPath.ofText? "library.extension" =
      some ⟨"library", [.key "extension"]⟩ := by decide +kernel
  have hkept : keptKey "library" = "library" ∧ keptKey "extension" = "extension" := by
    decide +kernel
  obtain rfl := Option.some.inj (hp.symm.trans hpath)
  obtain ⟨_, entries, old, htable, hlibrary⟩ :=
    exists_changeKey "library" (place (.ofText extension) [.key "extension"]) root
  rw [hkept.1] at hlibrary
  rw [placeAt, place, htable] at h
  obtain ⟨library, _, hread, rfl⟩ := exists_of_readGroup [_] h hlibrary
  obtain ⟨_, entries, old, htable, hextension⟩ :=
    exists_changeKey "extension" (place (.ofText extension) []) old
  rw [hkept.2] at hextension
  rw [place, htable] at hread
  obtain ⟨text, _, htext, rfl⟩ := exists_of_readGroup [_] hread hextension
  exact (Except.ok.inj htext).symm

end Setting

/-! ## Loading -/

/-- The number of dots that a text begins with. -/
def leadingDots (text : String) : Nat := (text.toList.takeWhile (· = '.')).length

namespace Settings

/-- Settings as they are read from all layers, before anything is made of them. -/
def layered (files : List SettingsFile) (single : List (String × Setting)) :
    Except SettingsError Settings := do
  let single ← single.mapM fun p =>
    (SettingPath.ofText? p.1).elim (.error (.badPath p.1)) fun path => .ok (path, p.2)
  let root ← files.foldlM overlayFile (Setting.ofSettings defaults)
  (single.foldl (fun root p => root.placeAt p.1 p.2) root).readSettings

lemma load_eq (files : List SettingsFile) (single : List (String × Setting)) :
    load files single = layered files single >>= fun given => given.dropDot.validate := by
  rw [layered, bind_assoc]
  simp only [bind_assoc]
  refine congrArg₂ (· >>= ·) (congrArg (List.mapM · single) (funext fun p => ?_)) rfl
  obtain ⟨text, v⟩ := p
  dsimp only
  cases SettingPath.ofText? text <;> rfl

lemma extension_layered {files : List SettingsFile} {single : List (String × Setting)}
    {extension : String} {given : Settings}
    (h : layered files (single ++ [("library.extension", .ofText extension)]) = .ok given) :
    given.library.extension = extension := by
  obtain ⟨paths, hpaths, h⟩ := bind_eq_ok_iff.1 h
  obtain ⟨root, -, h⟩ := bind_eq_ok_iff.1 h
  rw [List.mapM_append] at hpaths
  obtain ⟨before, -, hpaths⟩ := bind_eq_ok_iff.1 hpaths
  obtain ⟨last, hlast, hpaths⟩ := bind_eq_ok_iff.1 hpaths
  obtain rfl := Except.ok.inj hpaths
  rw [List.mapM_cons] at hlast
  obtain ⟨⟨path, v⟩, hpath, hlast⟩ := bind_eq_ok_iff.1 hlast
  obtain rfl := Except.ok.inj hlast
  rw [List.foldl_append] at h
  cases hp : SettingPath.ofText? "library.extension" with
  | none => simp [hp] at hpath
  | some found =>
    simp only [hp] at hpath
    cases hpath
    exact Setting.extension_of_placeAt hp h

/-- The directory that the scripts are looked up in. -/
def directory (s : Settings) : ScriptDirectory := .of s.library.dir s.library.extension

/-- Settings that load, and what is given for them by all layers together. -/
structure Loaded (given s : Settings) : Prop where
  timing : s.timing = given.timing
  dir : s.library.dir = given.library.dir
  /-- Texts take time. -/
  perChar_pos : 0 < s.timing.text.perChar.count
  min_le_max : s.timing.text.min.count ≤ s.timing.text.max.count
  extension_ne : s.library.extension ≠ ""
  /-- One dot is dropped from the extension if it begins with one. -/
  extension : s.library.extension = given.library.extension ∧
      leadingDots given.library.extension = 0 ∨
    "." ++ s.library.extension = given.library.extension
  /-- The extension still begins with a dot if it is given with more than one. -/
  dotted_iff : 0 < leadingDots s.library.extension ↔ 1 < leadingDots given.library.extension
  kept_iff : s.directory.extension = s.library.extension ↔
    leadingDots given.library.extension ≤ 1
  /-- Nothing is left of an extension of dots alone. -/
  empty_iff : s.directory.extension = "" ↔ ∀ c ∈ given.library.extension.toList, c = '.'

lemma validate_eq_ok_iff {s t : Settings} : s.validate = .ok t ↔ s = t ∧
    0 < s.timing.text.perChar.count ∧ s.timing.text.min.count ≤ s.timing.text.max.count ∧
      s.library.extension ≠ "" := by
  rw [validate]
  split_ifs with hzero hcross hempty
  · simp [hzero]
  · simp [Nat.not_le_of_lt hcross]
  · simp [String.isEmpty_iff.1 hempty]
  · rw [String.isEmpty_iff] at hempty
    simp [Nat.pos_of_ne_zero hzero, Nat.le_of_not_lt hcross, hempty]

lemma dropDot_cases (given : Settings) :
    given.dropDot = given ∧ given.library.extension.toList.head? ≠ some '.' ∨
      ∃ bare, given.library.extension.toList = '.' :: bare ∧
        given.dropDot =
          { given with library := { given.library with extension := String.ofList bare } } := by
  rw [dropDot]
  split
  · rename_i bare hbare
    exact .inr ⟨bare, hbare, rfl⟩
  · rename_i hno
    refine .inl ⟨rfl, fun hhead => ?_⟩
    obtain ⟨bare, hbare⟩ := List.head?_eq_some_iff.1 hhead
    exact hno bare hbare

lemma directory_extension_eq (s : Settings) : s.directory.extension =
    String.ofList (s.library.extension.toList.dropWhile (· = '.')) := rfl

lemma directory_extension_eq_self_iff (s : Settings) :
    s.directory.extension = s.library.extension ↔ leadingDots s.library.extension = 0 := by
  rw [directory_extension_eq, leadingDots, List.length_eq_zero_iff, ← String.toList_inj,
    String.toList_ofList, List.dropWhile_eq_self_iff, List.takeWhile_eq_nil_iff]
  exact Iff.rfl

lemma directory_extension_eq_empty_iff (s : Settings) :
    s.directory.extension = "" ↔ ∀ c ∈ s.library.extension.toList, c = '.' := by
  rw [directory_extension_eq, ← String.toList_inj, String.toList_ofList, String.toList_empty,
    List.dropWhile_eq_nil_iff]
  simp only [decide_eq_true_eq]

/-- What loads is what is given, without one dot in front of the extension. -/
lemma loaded_dropDot {given s : Settings} (h : given.dropDot.validate = .ok s) :
    Loaded given s := by
  obtain ⟨rfl, hper, hbounds, hne⟩ := validate_eq_ok_iff.1 h
  obtain ⟨heq, hhead⟩ | ⟨bare, hgiven, heq⟩ := given.dropDot_cases
  · have hdots : leadingDots given.library.extension = 0 := by
      rw [leadingDots, List.length_eq_zero_iff]
      cases hcs : given.library.extension.toList with
      | nil => rfl
      | cons c cs =>
        rw [hcs] at hhead
        exact List.takeWhile_cons_of_neg (by simpa using hhead)
    rw [heq] at hper hbounds hne ⊢
    exact ⟨rfl, rfl, hper, hbounds, hne, .inl ⟨rfl, hdots⟩, by omega,
      by rw [directory_extension_eq_self_iff]; omega, directory_extension_eq_empty_iff given⟩
  · have hdots : leadingDots given.library.extension =
        leadingDots given.dropDot.library.extension + 1 := by
      rw [heq, leadingDots, leadingDots, hgiven]
      simp
    refine ⟨by rw [heq], by rw [heq], hper, hbounds, hne, .inr ?_, by omega, ?_, ?_⟩
    · apply String.toList_injective
      rw [heq, String.toList_append, hgiven]
      simp
    · rw [directory_extension_eq_self_iff]
      omega
    · rw [directory_extension_eq_empty_iff, heq, hgiven]
      simp

/-- Settings that load are usable, and keep an extension that is given with one dot at most. -/
theorem loaded_of_load {files : List SettingsFile} {single : List (String × Setting)}
    {s : Settings} (h : load files single = .ok s) :
    ∃ given, layered files single = .ok given ∧ Loaded given s ∧
      ∀ before extension, single = before ++ [("library.extension", .ofText extension)] →
        given.library.extension = extension := by
  rw [load_eq] at h
  obtain ⟨given, hgiven, hs⟩ := bind_eq_ok_iff.1 h
  refine ⟨given, hgiven, loaded_dropDot hs, ?_⟩
  rintro before extension rfl
  exact extension_layered hgiven

theorem loaded_of_load_dotted :
    let file := "[library]\nextension = \"..old\"\n[timing.text]\nmin = 100"
    let files : List SettingsFile :=
      [⟨"a.toml", .ok file, true⟩, ⟨"b.toml", .error .notFound, false⟩]
    let single := [("timing.text.per_char", .ofInt 60), ("library.extension", .ofText ".lesson")]
    let s : Settings := ⟨{ text := ⟨60, 100, 2000, 500⟩ }, ⟨"lessons", "lesson"⟩⟩
    load files single = .ok s ∧ ∃ given, layered files single = .ok given ∧ Loaded given s ∧
      given.library.extension = ".lesson" := by
  intro file files single s
  have hload : load files single = .ok s := by decide +kernel
  obtain ⟨given, hgiven, hloaded, hlast⟩ := loaded_of_load hload
  exact ⟨hload, given, hgiven, hloaded, hlast [("timing.text.per_char", .ofInt 60)] ".lesson" rfl⟩

/-- Of two dots one is left, which is an extension, and the directory drops that one too. -/
theorem load_two_dots :
    let s : Settings := ⟨{}, ⟨"lessons", "."⟩⟩
    load [] [("library.extension", .ofText "..")] = .ok s ∧
      s.library.extension.startsWith "." = true ∧ s.directory.extension = "" := by
  decide +kernel

end Settings
end LessonScript
