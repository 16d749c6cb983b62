import Phrasebook.Proofs.Disk.Without
import Phrasebook.Proofs.Include.Agreement

/-!
# Includes without some files

The lookup of includes takes the first of its candidates that is a file.  When files are taken away
to which no directive leads, that one is still the first.  A candidate lies inside a folder that the
base folder lists, so that it does not go with any other file.  There is one exception: where the
folders of templates are absolute paths, the candidate is the same for whatever the base folder
lists, and it is enough that something is listed.
-/

namespace Phrasebook
namespace Include

open Text (encode standsFor_slash)

/-- What the lookup looks into: everything that is visible in the base folder. -/
def lookedInto (settings : Settings) (disk : Disk) (access : Access) : List Path :=
  match disk.list access settings.base with
  | .error _ => []
  | .ok modules => modules.filter isVisible

/-- The folders of templates are named by absolute paths, or one of them is. -/
def HasAbsoluteFolder (settings : Settings) : Prop :=
  settings.templateFolder.head? = some '/' ∨ settings.includeFolder.head? = some '/'

/-- The lookup of includes can do without some files. -/
structure Spares
    (settings : Settings)
    (disk : Disk)
    (access : Access)
    (gone : Location → Bool) : Prop where
  /-- No directive leads to one of the files. -/
  missed : ∀ text, ∀ name ∈ names text, ∀ path, find? settings disk access name = some path →
    gone (disk.target path) = false
  /-- Where a folder of templates is absolute, the files are not all that is looked into. -/
  listed : HasAbsoluteFolder settings →
    lookedInto settings (disk.withoutFiles gone) access = [] → lookedInto settings disk access = []

section Candidates

variable
  {Item Result : Type}
  {items : List Item}
  {candidate : Item → Result}
  {keep : Item → Bool}
  {held stays : Result → Bool}
  (first : ∀ result, (items.map candidate).find? held = some result → stays result = true)

include first

/-- The first candidate stays the first when only items without one are left out. -/
theorem find?_map_filter
    (dropped : ∀ item ∈ items, keep item = false → held (candidate item) = false) :
    ((items.filter keep).map candidate).find? (fun result => held result && stays result) =
      (items.map candidate).find? held := by
  induction items with
  | nil => rfl
  | cons item items ih =>
      have later := fun other member => dropped other (List.mem_cons_of_mem item member)
      cases here : held (candidate item) with
      | true =>
          have stay : stays (candidate item) = true := first _ (by simp [here])
          have kept : keep item = true := by
            by_contra notKept
            rw [dropped item List.mem_cons_self (by simpa using notKept)] at here
            cases here
          rw [List.filter_cons_of_pos kept, List.map_cons, List.map_cons,
            List.find?_cons_of_pos (by simp [here, stay]), List.find?_cons_of_pos here]
      | false =>
          have passed := ih (fun result found => first result (by simp [here, found])) later
          rw [List.map_cons, List.find?_cons_of_neg (by simp [here]), ← passed]
          cases kept : keep item with
          | true =>
              rw [List.filter_cons_of_pos kept, List.map_cons,
                List.find?_cons_of_neg (by simp [here])]
          | false => rw [List.filter_cons_of_neg (by simp [kept])]

/-- Where all candidates are the same, one item is enough. -/
theorem find?_map_filter_of_same
    {result : Result}
    (same : ∀ item, candidate item = result)
    (left : items.filter keep = [] → items = []) :
    ((items.filter keep).map candidate).find? (fun result => held result && stays result) =
      (items.map candidate).find? held := by
  obtain rfl : candidate = fun _ => result := funext same
  by_cases nothing : items = []
  · rw [nothing]
    rfl
  · have some : items.length ≠ 0 := fun empty => nothing (List.length_eq_zero_iff.mp empty)
    have someLeft : (items.filter keep).length ≠ 0 := fun empty =>
      nothing (left (List.length_eq_zero_iff.mp empty))
    rw [List.map_const', List.find?_replicate, if_neg some] at first
    rw [List.map_const', List.map_const', List.find?_replicate, List.find?_replicate, if_neg some,
      if_neg someLeft]
    cases here : held result with
    | true => simp [first result (by rw [here, if_pos rfl])]
    | false => simp

end Candidates

variable
  {settings : Settings}
  {disk : Disk}
  {access : Access}
  {gone : Location → Bool}
  {name : Text}
  {module : Path}

/-- Below relative folders of templates, an included template is found only inside a folder. -/
theorem folder_of_holdsFile_candidate
    (templates : settings.templateFolder.head? ≠ some '/')
    (includes : settings.includeFolder.head? ≠ some '/')
    (file : (name ++ '.' :: settings.templateExtension).head? ≠ some '/')
    {folder : Bytes}
    (plain : Path.IsPlainName folder)
    (held : disk.holdsFile (candidate settings name (settings.base.join folder)) = true) :
    disk.node? (disk.target settings.base ++ [folder]) = some .folder := by
  have isRelative {child : Text} (relative : child.head? ≠ some '/') :
      (encode child).head? ≠ some Path.slash :=
    mt standsFor_slash.head?_encode_eq_iff.mp relative
  have longer {base : Path} {child : Text} (nonempty : base.bytes ≠ [])
      (relative : child.head? ≠ some '/') : (base.join child).bytes ≠ [] := by
    obtain ⟨behind, whole⟩ := Path.prefix_join nonempty (isRelative relative)
    rw [← whole]
    exact List.append_ne_nil_of_left_ne_nil nonempty behind
  have inBase := Path.bytes_join_ne_nil settings.base plain
  have inModule := longer inBase templates
  have inTemplates := longer inModule includes
  obtain ⟨place, content, found⟩ := Disk.holdsFile_iff.mp held
  have foundIncludes := Disk.find_of_find_join (isRelative file) inTemplates found
  have foundTemplates := Disk.find_of_find_join (isRelative includes) inModule foundIncludes
  have foundModule := Disk.find_of_find_join (isRelative templates) inBase foundTemplates
  rw [← Disk.target_join disk settings.base plain]
  exact (Disk.find_eq_ok foundModule).2

/-- An absolute folder of templates makes every module have the same candidate. -/
theorem candidate_eq_of_hasAbsoluteFolder
    (absolute : HasAbsoluteFolder settings)
    (name : Text)
    (first second : Path) :
    candidate settings name first = candidate settings name second := by
  have same {child : Text} (absolute : child.head? = some '/') (base other : Path) :
      base.join child = other.join child := by
    have slash := standsFor_slash.head?_encode_eq_iff.mpr absolute
    rw [Path.join, Path.join, if_pos (.inl slash), if_pos (.inl slash)]
  unfold candidate
  rcases absolute with absolute | absolute
  · rw [same absolute first second]
  · rw [same absolute (first.join _) (second.join _)]

theorem find?_eq (settings : Settings) (disk : Disk) (access : Access) (name : Text) :
    find? settings disk access name =
      ((lookedInto settings disk access).map (candidate settings name)).find? disk.holdsFile := by
  unfold find? lookedInto
  cases disk.list access settings.base <;> rfl

theorem exists_of_mem_lookedInto
    (member : module ∈ lookedInto settings disk access) :
    ∃ name : Bytes, Path.IsPlainName name ∧ module = settings.base.join name := by
  unfold lookedInto at member
  split at member
  · cases member
  next listed =>
    obtain ⟨location, -, rfl⟩ := Disk.list_eq_ok listed
    obtain ⟨name, inside, rfl⟩ := List.mem_map.mp (List.mem_filter.mp member).1
    exact ⟨name, Disk.isPlainName_of_isName (Disk.isName_of_mem_namesIn inside), rfl⟩

/-- Folders are still looked into, and files that are still there. -/
theorem lookedInto_withoutFiles
    (settings : Settings)
    (disk : Disk)
    (access : Access)
    (gone : Location → Bool) :
    lookedInto settings (disk.withoutFiles gone) access =
      (lookedInto settings disk access).filter fun module =>
        disk.node? (disk.target module) = some .folder || !gone (disk.target module) := by
  unfold lookedInto
  cases held : disk.holdsFolder settings.base with
  | false =>
      have missing : (disk.withoutFiles gone).holdsFolder settings.base = false := by
        rw [Disk.holdsFolder_withoutFiles, held]
      obtain ⟨cause, failed⟩ := Disk.exists_list_eq_error held access
      obtain ⟨other, failedWithout⟩ := Disk.exists_list_eq_error missing access
      rw [failed, failedWithout]
      rfl
  | true =>
      obtain ⟨location, found⟩ := Disk.exists_find_of_holdsFolder held
      obtain rfl : location = disk.target settings.base := (Disk.find_eq_ok found).1
      rw [Disk.list_of_find found,
        Disk.list_of_find (Disk.find_folder_withoutFiles_iff.mpr found)]
      cases Disk.permit (access.mayRead settings.base) settings.base with
      | error cause => rfl
      | ok =>
          cases access.mayList (disk.target settings.base) with
          | false => rfl
          | true =>
              simp only [bind, Except.bind, if_true]
              rw [List.filter_comm]
              refine congrArg (List.filter isVisible) ?_
              rw [Disk.namesIn_withoutFiles, List.filter_map]
              refine congrArg (List.map _) (List.filter_congr fun name inside => ?_)
              have plain := Disk.isPlainName_of_isName (Disk.isName_of_mem_namesIn inside)
              rw [Function.comp_apply, Disk.target_join disk _ plain]

/-- The lookup of includes finds the same without files that it can do without. -/
theorem find?_withoutFiles
    (spares : Spares settings disk access gone)
    {text : Text}
    (included : name ∈ names text) :
    find? settings (disk.withoutFiles gone) access name = find? settings disk access name := by
  have left := spares.listed
  have first : ∀ path, find? settings disk access name = some path →
      (!gone (disk.target path)) = true := fun path found =>
    (Bool.not_eq_true' _).mpr (spares.missed text name included path found)
  have held : (disk.withoutFiles gone).holdsFile =
      fun path => disk.holdsFile path && !gone (disk.target path) :=
    funext (disk.holdsFile_withoutFiles gone)
  rw [lookedInto_withoutFiles] at left
  rw [find?_eq] at first
  rw [find?_eq, find?_eq, lookedInto_withoutFiles, held]
  by_cases absolute : HasAbsoluteFolder settings
  · exact find?_map_filter_of_same first
      (fun module => candidate_eq_of_hasAbsoluteFolder absolute name module ⟨[]⟩) (left absolute)
  · obtain ⟨templates, includes⟩ := not_or.mp absolute
    have file : (name ++ '.' :: settings.templateExtension).head? ≠ some '/' := by
      have noSlash := noSlash_of_mem_names included
      obtain ⟨char, rest, rfl, -⟩ := exists_cons_of_mem_names included
      intro slash
      obtain rfl := Option.some.inj slash
      exact noSlash List.mem_cons_self
    refine find?_map_filter first fun module member dropped => ?_
    obtain ⟨folder, plain, rfl⟩ := exists_of_mem_lookedInto member
    rw [Bool.or_eq_false_iff, decide_eq_false_iff_not, Disk.target_join disk _ plain] at dropped
    refine Bool.eq_false_iff.mpr fun held => dropped.1 ?_
    exact folder_of_holdsFile_candidate templates includes file plain held

/-- Files with names that no directive can stand for are never included. -/
theorem gone_eq_false_of_find?
    (noSlash : '/' ∉ settings.templateExtension)
    (others : ∀ location name, gone location = true → (∀ char ∈ name, isNameChar char = true) →
      location.getLast? ≠ some (encode (name ++ '.' :: settings.templateExtension)))
    {text : Text}
    (included : name ∈ names text)
    {path : Path}
    (found : find? settings disk access name = some path) :
    gone (disk.target path) = false := by
  obtain ⟨_, named, decoded⟩ :=
    Option.bind_eq_some_iff.mp (textName?_of_find? noSlash included found)
  obtain rfl := Text.decode?_eq_some_iff.mp decoded
  obtain ⟨front, target⟩ := Disk.exists_target_of_fileName? disk named
  refine Bool.eq_false_iff.mpr fun isGone =>
    others _ name isGone (isName_of_mem_names included).2 ?_
  rw [target, List.getLast?_concat]

end Include
end Phrasebook
