import Phrasebook.Include.Lookup
import Phrasebook.Proofs.Include.Directive
import Phrasebook.Proofs.Text.Bytes

/-!
# Names of included templates

Whatever folders the settings name, the path of an included template ends with the name in the
directive and the suffix of templates.  Such a name is never hidden.
-/

namespace Phrasebook
namespace Include

open Text

theorem exists_directive?_of_mem_names
    {name text : Text}
    (included : name ∈ names text) :
    ∃ rest, directive? rest = some name := by
  induction text with
  | nil => simp at included
  | cons char rest ih =>
      rcases List.mem_append.mp included with here | later
      · exact ⟨char :: rest, Option.mem_toList.mp here⟩
      · exact ih later

/-- The name in a directive has characters, all of them those of names. -/
theorem isName_of_mem_names
    {name text : Text}
    (included : name ∈ names text) :
    name ≠ [] ∧ ∀ char ∈ name, isNameChar char = true := by
  obtain ⟨rest, read⟩ := exists_directive?_of_mem_names included
  obtain ⟨_, _, -, ⟨before, behind, nonempty, characters⟩⟩ := directive?_eq_some_iff.mp read
  exact ⟨nonempty, characters⟩

/-- The name of an included template does not begin with a dot. -/
theorem exists_cons_of_mem_names
    {name text : Text}
    (included : name ∈ names text) :
    ∃ first rest, name = first :: rest ∧ first ≠ '.' := by
  obtain ⟨nonempty, characters⟩ := isName_of_mem_names included
  obtain ⟨first, rest, rfl⟩ := List.exists_cons_of_ne_nil nonempty
  refine ⟨first, rest, rfl, ?_⟩
  rintro rfl
  exact absurd (characters '.' List.mem_cons_self) (by decide)

theorem noSlash_of_mem_names
    {name text : Text}
    (included : name ∈ names text) :
    '/' ∉ name :=
  fun slash => absurd ((isName_of_mem_names included).2 '/' slash) (by decide)

theorem isPlainName_of_mem_names
    {name text extension : Text}
    (extensionPlain : '/' ∉ extension)
    (included : name ∈ names text) :
    Path.IsPlainName (encode (name ++ '.' :: extension)) := by
  have noSlash := noSlash_of_mem_names included
  obtain ⟨first, rest, rfl, notDot⟩ := exists_cons_of_mem_names included
  have plain : Path.IsPlainName (encode (first :: rest)) :=
    Path.isPlainName_encode (by simp) (by simp [notDot]) (by simp [notDot]) noSlash
  rw [encode_append, standsFor_dot.encode_cons]
  exact plain.append_dot (mt standsFor_slash.mem_encode_iff.mp extensionPlain)

theorem not_isHiddenName_of_mem_names
    {name text : Text}
    (included : name ∈ names text)
    (extension : Text) :
    Path.isHiddenName (name ++ '.' :: extension) = false := by
  obtain ⟨first, rest, rfl, notDot⟩ := exists_cons_of_mem_names included
  simpa [Path.isHiddenName] using notDot

/-- The file behind a directive is named after it. -/
theorem textName?_of_find?
    {settings : Settings}
    {disk : Disk}
    {access : Access}
    {name text : Text}
    {path : Path}
    (extensionPlain : '/' ∉ settings.templateExtension)
    (included : name ∈ names text)
    (found : find? settings disk access name = some path) :
    path.textName? = some (name ++ '.' :: settings.templateExtension) := by
  unfold find? at found
  split at found
  · simp at found
  next modules _ =>
    obtain ⟨module, -, rfl⟩ := List.mem_map.mp (List.mem_of_find?_eq_some found)
    rw [candidate, Path.textName?_join _ (isPlainName_of_mem_names extensionPlain included),
      decode?_encode]

end Include
end Phrasebook
