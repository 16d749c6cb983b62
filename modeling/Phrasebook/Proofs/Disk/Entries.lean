import Phrasebook.Disk.Walk
import Phrasebook.Proofs.Disk.Listing

/-!
# Entries of walks

A walk meets exactly what a way of visible names leads to, as long as every folder that the way
passes can be listed.  It meets everything once, in the order of the lists of names: a folder in
front of what is in it, and all of that in front of the next name.
-/

namespace Phrasebook
namespace Disk

variable
  {disk : Disk}
  {access : Access}
  {path : Path}
  {folder names : Location}
  {name : Bytes}

/-- Whatever lies below a location lies in a folder. -/
theorem folder_of_isSome_append
    (nonempty : names ≠ [])
    (present : (disk.node? (folder ++ names)).isSome) :
    disk.node? folder = some .folder := by
  induction names generalizing folder with
  | nil => exact absurd rfl nonempty
  | cons name rest ih =>
      refine disk.closed folder name ?_
      rw [List.append_cons] at present
      cases rest with
      | nil => rwa [List.append_nil] at present
      | cons second rest =>
          have inner := ih (List.cons_ne_nil second rest) present
          rw [show disk.nodes.get? (folder ++ [name]) = _ from inner]
          rfl

/-! ## Open ways -/

/-- A walk can list every folder that a way goes into, the one in which it begins included. -/
def IsOpen (access : Access) (path : Path) (folder names : Location) : Prop :=
  ∀ front, front <+: names → front ≠ names →
    refusal? access (front.foldl Path.join path) (folder ++ front) = none

theorem isOpen_nil (access : Access) (path : Path) (folder : Location) :
    IsOpen access path folder [] :=
  fun _ isFront isProper => absurd (List.prefix_nil.mp isFront) isProper

theorem isOpen_cons_iff :
    IsOpen access path folder (name :: names) ↔
      refusal? access path folder = none ∧
        IsOpen access (path.join name) (folder ++ [name]) names := by
  constructor
  · intro isOpen
    refine ⟨?_, fun front isFront isProper => ?_⟩
    · simpa using isOpen [] List.nil_prefix (List.cons_ne_nil name names).symm
    · rw [← List.append_cons, ← List.foldl_cons]
      exact isOpen (name :: front) ((List.prefix_cons_inj name).mpr isFront)
        (mt (fun same => List.tail_eq_of_cons_eq same) isProper)
  · rintro ⟨here, inside⟩ front isFront isProper
    rcases List.prefix_cons_iff.mp isFront with rfl | ⟨rest, rfl, isRest⟩
    · rwa [List.append_nil, List.foldl_nil]
    · rw [List.append_cons, List.foldl_cons]
      exact inside rest isRest fun same => isProper (by rw [same])

/-! ## Entries -/

/-- The ways through one name of a folder to what a walk meets behind it. -/
def entriesBehind
    (disk : Disk)
    (access : Access)
    (path : Path)
    (folder : Location)
    (name : Bytes) :
    List Location :=
  if Path.isHidden name then []
  else if disk.node? (folder ++ [name]) = some .folder then
    [name] :: (disk.entriesBelow access (path.join name) (folder ++ [name])).map (name :: ·)
  else if (disk.node? (folder ++ [name])).isSome then [[name]]
  else []

theorem entriesBelow_eq (disk : Disk) (access : Access) (path : Path) (folder : Location) :
    disk.entriesBelow access path folder =
      if refusal? access path folder = none then
        (disk.namesIn folder).flatMap (disk.entriesBehind access path folder)
      else [] := by
  rw [entriesBelow]
  refine if_congr Iff.rfl ?_ rfl
  congr 1
  funext name
  unfold entriesBehind
  split
  · rfl
  · split <;> simp_all

theorem mem_entriesBehind :
    names ∈ disk.entriesBehind access path folder name ↔
      Path.isHidden name = false ∧
        (names = [name] ∧ (disk.node? (folder ++ [name])).isSome ∨
          disk.node? (folder ++ [name]) = some .folder ∧
            ∃ rest ∈ disk.entriesBelow access (path.join name) (folder ++ [name]),
              name :: rest = names) := by
  unfold entriesBehind
  cases hidden : Path.isHidden name with
  | true => simp
  | false =>
      cases disk.node? (folder ++ [name]) with
      | none => simp
      | some node => cases node <;> simp

/-- What is met below a folder is met behind one of its names. -/
theorem mem_entriesBelow_iff_exists :
    names ∈ disk.entriesBelow access path folder ↔
      refusal? access path folder = none ∧
        ∃ name, names ∈ disk.entriesBehind access path folder name := by
  rw [entriesBelow_eq]
  cases refusal? access path folder with
  | some cause => simp
  | none =>
      rw [if_pos rfl, List.mem_flatMap]
      refine ⟨fun found => ⟨rfl, found.choose, found.choose_spec.2⟩, ?_⟩
      rintro ⟨-, name, found⟩
      refine ⟨name, mem_namesIn.mpr ?_, found⟩
      obtain ⟨-, ⟨-, present⟩ | ⟨present, -⟩⟩ := mem_entriesBehind.mp found
      · exact present
      · rw [present]
        rfl

/-- A walk meets what an open way of visible names leads to. -/
theorem mem_entriesBelow :
    names ∈ disk.entriesBelow access path folder ↔
      names ≠ [] ∧ (∀ name ∈ names, Path.isHidden name = false) ∧ IsOpen access path folder names ∧
        (disk.node? (folder ++ names)).isSome := by
  induction names generalizing path folder with
  | nil =>
      refine iff_of_false (fun found => ?_) (fun found => found.1 rfl)
      obtain ⟨-, name, found⟩ := mem_entriesBelow_iff_exists.mp found
      obtain ⟨-, ⟨impossible, -⟩ | ⟨-, rest, -, impossible⟩⟩ := mem_entriesBehind.mp found
      · exact List.cons_ne_nil name [] impossible.symm
      · exact List.cons_ne_nil name rest impossible
  | cons name rest ih =>
      rw [mem_entriesBelow_iff_exists, List.forall_mem_cons, List.append_cons, isOpen_cons_iff]
      constructor
      · rintro ⟨listable, other, found⟩
        obtain ⟨visible, ⟨same, present⟩ | ⟨-, below, member, same⟩⟩ := mem_entriesBehind.mp found
        · obtain ⟨rfl, rfl⟩ := List.cons.inj same
          rw [List.append_nil]
          exact ⟨List.cons_ne_nil _ _, ⟨visible, List.forall_mem_nil _⟩,
            ⟨listable, isOpen_nil access _ _⟩, present⟩
        · obtain ⟨rfl, rfl⟩ := List.cons.inj same
          obtain ⟨-, visibleBelow, isOpen, present⟩ := ih.mp member
          exact ⟨List.cons_ne_nil _ _, ⟨visible, visibleBelow⟩, ⟨listable, isOpen⟩, present⟩
      · rintro ⟨-, ⟨visible, visibleBelow⟩, ⟨listable, isOpen⟩, present⟩
        refine ⟨listable, name, mem_entriesBehind.mpr ⟨visible, ?_⟩⟩
        by_cases alone : rest = []
        · subst alone
          rw [List.append_nil] at present
          exact .inl ⟨rfl, present⟩
        · exact .inr ⟨folder_of_isSome_append alone present,
            rest, ih.mpr ⟨alone, visibleBelow, isOpen, present⟩, rfl⟩

/-! ## Order -/

theorem exists_of_mem_entriesBehind (found : names ∈ disk.entriesBehind access path folder name) :
    ∃ rest, names = name :: rest := by
  obtain ⟨-, ⟨rfl, -⟩ | ⟨-, rest, -, rfl⟩⟩ := mem_entriesBehind.mp found
  · exact ⟨[], rfl⟩
  · exact ⟨rest, rfl⟩

/-- Ways through one name are in the order of the ways behind it. -/
theorem pairwise_entriesBehind
    (below : disk.node? (folder ++ [name]) = some .folder →
      (disk.entriesBelow access (path.join name) (folder ++ [name])).Pairwise (· < ·)) :
    (disk.entriesBehind access path folder name).Pairwise (· < ·) := by
  unfold entriesBehind
  split
  · exact List.Pairwise.nil
  · split
    next isFolder =>
      refine List.pairwise_cons.mpr ⟨fun other member => ?_, ?_⟩
      · obtain ⟨rest, found, rfl⟩ := List.mem_map.mp member
        obtain ⟨first, others, rfl⟩ := List.exists_cons_of_ne_nil (mem_entriesBelow.mp found).1
        exact List.cons_lt_cons_iff.mpr (.inr ⟨rfl, List.nil_lt_cons first others⟩)
      · refine List.pairwise_map.mpr ((below isFolder).imp fun less => ?_)
        exact List.cons_lt_cons_iff.mpr (.inr ⟨rfl, less⟩)
    next =>
      split
      · exact List.pairwise_singleton _ _
      · exact List.Pairwise.nil

/-- A walk meets everything once, in the order of the names that lead to it. -/
theorem pairwise_entriesBelow (disk : Disk) (access : Access) (path : Path) (folder : Location) :
    (disk.entriesBelow access path folder).Pairwise (· < ·) := by
  induction path, folder using entriesBelow.induct disk access with
  | case1 path folder listable ih =>
      rw [entriesBelow_eq, if_pos listable, List.pairwise_flatMap]
      refine ⟨fun name _ => pairwise_entriesBehind (ih name), ?_⟩
      -- Ways behind different names differ in their first names already.
      refine (pairwise_namesIn disk folder).imp fun less way found other foundOther => ?_
      obtain ⟨rest, rfl⟩ := exists_of_mem_entriesBehind found
      obtain ⟨restOther, rfl⟩ := exists_of_mem_entriesBehind foundOther
      exact List.cons_lt_cons_iff.mpr (.inl less)
  | case2 path folder closed =>
      rw [entriesBelow_eq, if_neg closed]
      exact List.Pairwise.nil

end Disk
end Phrasebook
