import Mathlib.Data.List.Sort
import Phrasebook.Proofs.Disk.Ways

/-!
# Names in folders

A folder lists each of its nodes once, in the order of their names, and nothing else.  The listing
depends only on which names are taken, so disks with the same names in a folder list it alike.
-/

namespace Phrasebook
namespace Disk

/-- Below one folder locations are ordered as their names. -/
theorem append_singleton_lt_iff
    {folder : Location}
    {first second : Bytes} :
    folder ++ [first] < folder ++ [second] ↔ first < second := by
  induction folder with
  | nil => simp [List.cons_lt_cons_iff]
  | cons name folder ih =>
      rw [List.cons_append, List.cons_append, List.cons_lt_cons_iff, ih]
      refine ⟨fun less => ?_, fun less => .inr ⟨rfl, less⟩⟩
      rcases less with impossible | ⟨-, less⟩
      · exact absurd impossible (List.lt_irrefl name)
      · exact less

variable
  {disk : Disk}
  {folder : Location}
  {name : Bytes}

theorem mem_keys_iff {location : Location} :
    location ∈ disk.nodes.keys ↔ (disk.node? location).isSome := by
  rw [Option.isSome_iff_exists]
  constructor
  · intro member
    obtain ⟨⟨_, node⟩, inside, rfl⟩ := List.mem_map.mp member
    exact ⟨node, Dictionary.get?_eq_some_iff.mpr inside⟩
  · rintro ⟨node, present⟩
    exact List.mem_map_of_mem (Dictionary.get?_eq_some_iff.mp present)

/-- The name under which a folder lists a location, if the location lies in it. -/
def listedIn (folder location : Location) : Option Bytes :=
  location.getLast?.filter fun _ => location.dropLast = folder

theorem listedIn_eq_some_iff {location : Location} :
    listedIn folder location = some name ↔ location = folder ++ [name] := by
  rw [listedIn, Option.filter_eq_some_iff, List.getLast?_eq_some_iff, decide_eq_true_eq]
  constructor
  · rintro ⟨⟨front, rfl⟩, rfl⟩
    rw [List.dropLast_concat]
  · rintro rfl
    exact ⟨⟨folder, rfl⟩, List.dropLast_concat⟩

theorem namesIn_eq (disk : Disk) (folder : Location) :
    disk.namesIn folder = disk.nodes.keys.filterMap (listedIn folder) := by
  unfold namesIn listedIn
  congr 1
  funext location
  cases location.getLast? <;> simp [Option.filter]

/-- A folder lists the nodes in it. -/
theorem mem_namesIn : name ∈ disk.namesIn folder ↔ (disk.node? (folder ++ [name])).isSome := by
  simp only [namesIn_eq, List.mem_filterMap, listedIn_eq_some_iff, mem_keys_iff]
  exact exists_eq_right

/-- The names in a folder are in strictly increasing order. -/
theorem pairwise_namesIn (disk : Disk) (folder : Location) :
    (disk.namesIn folder).Pairwise (· < ·) := by
  have increasing : disk.nodes.keys.Pairwise (· < ·) := List.pairwise_map.mpr disk.nodes.increasing
  rw [namesIn_eq]
  refine List.pairwise_filterMap.mpr (increasing.imp ?_)
  intro first second less name listed other listedOther
  rw [listedIn_eq_some_iff.mp listed, listedIn_eq_some_iff.mp listedOther] at less
  exact append_singleton_lt_iff.mp less

theorem nodup_namesIn (disk : Disk) (folder : Location) : (disk.namesIn folder).Nodup :=
  (pairwise_namesIn disk folder).nodup

theorem isName_of_mem_namesIn (member : name ∈ disk.namesIn folder) : isName name = true := by
  have names := disk.named (folder ++ [name]) (mem_namesIn.mp member)
  rw [List.all_append] at names
  simpa using (Bool.and_eq_true_iff.mp names).2

/-- A name of the disk is plain. -/
theorem isPlainName_of_isName (named : isName name = true) : Path.IsPlainName name := by
  simp only [isName, Bool.and_eq_true, decide_eq_true_eq, List.all_eq_true] at named
  obtain ⟨⟨⟨⟨nonempty, notHere⟩, notUp⟩, chars⟩, -⟩ := named
  exact ⟨nonempty, notHere, notUp, fun slash => (chars Path.slash slash).1 rfl⟩

/-- Folders with the same names of some kind in them list these names alike. -/
theorem filter_namesIn_congr
    {other : Disk}
    {place : Location}
    {keep : Bytes → Bool}
    (same : ∀ name, Path.IsPlainName name → keep name = true →
      (other.node? (place ++ [name])).isSome = (disk.node? (folder ++ [name])).isSome) :
    (other.namesIn place).filter keep = (disk.namesIn folder).filter keep := by
  refine ((pairwise_namesIn other place).filter keep).eq_of_mem_iff
    ((pairwise_namesIn disk folder).filter keep) fun name => ?_
  rw [List.mem_filter, List.mem_filter]
  refine and_congr_left fun kept => ⟨fun member => ?_, fun member => ?_⟩
  all_goals
    have plain := isPlainName_of_isName (isName_of_mem_namesIn member)
    rw [mem_namesIn] at member ⊢
  · rwa [← same name plain kept]
  · rwa [same name plain kept]

theorem list_eq_ok
    {access : Access}
    {path : Path}
    {paths : List Path}
    (listed : disk.list access path = .ok paths) :
    ∃ location, disk.find path = .ok (location, .folder) ∧
      paths = (disk.namesIn location).map path.join := by
  obtain ⟨_, -, listed⟩ := Outcome.bind_eq_ok_iff.mp listed
  split at listed
  · simp at listed
  · simp at listed
  next location found =>
    split at listed
    next => exact ⟨location, found, (Except.ok.inj listed).symm⟩
    next => cases listed

/-- A folder that may be read and listed is listed by the names in it. -/
theorem list_of_find
    {path : Path}
    (found : disk.find path = .ok (folder, .folder))
    (access : Access) :
    disk.list access path =
      (permit (access.mayRead path) path >>= fun _ =>
        if access.mayList folder then .ok ((disk.namesIn folder).map path.join)
        else .error (.system .permissionDenied)) := by
  unfold list
  rw [found]

/-- Where there is no folder, nothing is listed. -/
theorem exists_list_eq_error
    {path : Path}
    (missing : disk.holdsFolder path = false)
    (access : Access) :
    ∃ cause, disk.list access path = .error cause := by
  cases listed : disk.list access path with
  | error cause => exact ⟨cause, rfl⟩
  | ok paths =>
      obtain ⟨location, found, -⟩ := list_eq_ok listed
      rw [holdsFolder_iff.mpr ⟨location, found⟩] at missing
      cases missing

/-- Disks with the same names of some kind in the folder behind a path list these alike. -/
theorem filter_list_congr
    {other : Disk}
    {path : Path}
    {keep : Path → Bool}
    (shaped : SameShapeAlong disk other path)
    (same : ∀ name, Path.IsPlainName name → keep (path.join name) = true →
      (other.node? (disk.target path ++ [name])).isSome =
        (disk.node? (disk.target path ++ [name])).isSome)
    (access : Access) :
    (other.list access path).map (List.filter keep) =
      (disk.list access path).map (List.filter keep) := by
  have alike := find_alike shaped
  unfold list
  generalize found : disk.find path = one at alike ⊢
  generalize other.find path = two at alike ⊢
  cases permit (access.mayRead path) path with
  | error cause => rfl
  | ok =>
      cases alike with
      | failed cause => rfl
      | @found location node nodeOther shape =>
          have reached : location = disk.target path := (find_eq_ok found).1
          cases node <;> cases nodeOther <;> simp only [Node.bare, reduceCtorEq] at shape
          · rfl
          · have names : (other.namesIn (disk.target path)).filter (keep ∘ path.join) =
                (disk.namesIn (disk.target path)).filter (keep ∘ path.join) :=
              filter_namesIn_congr same
            rw [reached]
            cases listable : access.mayList (disk.target path) <;>
              simp [bind, Except.bind, Except.map, List.filter_map, listable, names]

/-- Disks with the same names in the folder behind a path list it alike. -/
theorem list_congr
    {other : Disk}
    {path : Path}
    (shaped : SameShapeAlong disk other path)
    (same : ∀ name, (other.node? (disk.target path ++ [name])).isSome =
      (disk.node? (disk.target path ++ [name])).isSome)
    (access : Access) :
    other.list access path = disk.list access path := by
  have listed : (other.list access path).map (List.filter fun _ => true) =
      (disk.list access path).map (List.filter fun _ => true) :=
    filter_list_congr shaped (fun name _ _ => same name) access
  rwa [Outcome.map_filter_true, Outcome.map_filter_true] at listed

end Disk
end Phrasebook
