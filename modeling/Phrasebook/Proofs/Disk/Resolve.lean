import Phrasebook.Disk.Access
import Phrasebook.Proofs.Outcome
import Phrasebook.Proofs.Path

/-!
# Paths with the same components

What a path leads to depends on its components only, as far as it leads to anything: the pieces
that mean nothing leave every location where it is.  Paths of the same components that can both be
read therefore hold the same text.
-/

namespace Phrasebook

open Outcome

/-- The location behind a component. -/
def Component.follow (location : Location) : Component → Location
  | .root => []
  | .here => location
  | .up => location.dropLast
  | .name piece => location ++ [piece]

namespace Disk

theorem step_eq_ok
    {location next : Location}
    {piece : Bytes}
    (taken : step location piece = .ok next) :
    next = (Path.innerComponent? piece).toList.foldl Component.follow location := by
  unfold step at taken
  unfold Path.innerComponent?
  split at taken
  next nothing => simpa [nothing] using taken.symm
  next something =>
    split at taken
    next up => simpa [something, up, Component.follow] using taken.symm
    next notUp =>
      split at taken
      · simpa [something, notUp, Component.follow] using taken.symm
      · simp at taken

theorem follow_eq_ok
    {disk : Disk}
    {location last : Location}
    {pieces : List Bytes}
    (followed : disk.follow location pieces = .ok last) :
    last = (pieces.filterMap Path.innerComponent?).foldl Component.follow location := by
  induction pieces generalizing location with
  | nil => simpa [follow] using followed.symm
  | cons piece pieces ih =>
      rw [follow] at followed
      obtain ⟨_, -, followed⟩ := bind_eq_ok_iff.mp followed
      obtain ⟨next, taken, followed⟩ := bind_eq_ok_iff.mp followed
      rw [ih followed, step_eq_ok taken]
      cases meaning : Path.innerComponent? piece <;> simp [meaning]

/-- The components of a path lead from the working folder to where its pieces lead. -/
theorem foldl_components
    (disk : Disk)
    {path : Path}
    (nonempty : path.bytes ≠ []) :
    path.components.foldl Component.follow disk.here =
      ((Text.splitAt Path.slash path.bytes).filterMap Path.innerComponent?).foldl Component.follow
        (disk.startOf path) := by
  obtain ⟨bytes⟩ := path
  cases bytes with
  | nil => exact absurd rfl nonempty
  | cons byte bytes =>
      by_cases same : byte = Path.slash
      · have pieces :
            Text.splitAt Path.slash (byte :: bytes) = [] :: Text.splitAt Path.slash bytes := by
          rw [Text.splitAt, if_pos same]
        rw [Path.components_of_splitAt pieces, pieces]
        simp [startOf, Path.isAbsolute, same, Path.firstComponent?, Path.innerComponent?,
          Text.splitAt_ne_nil, Component.follow]
      · obtain ⟨piece, rest, pieces⟩ := Text.exists_splitAt_cons same bytes
        have relative : disk.startOf ⟨byte :: bytes⟩ = disk.here := by
          simp [startOf, Path.isAbsolute, same]
        rw [Path.components_of_splitAt pieces, pieces, relative]
        by_cases here : byte :: piece = [Path.dot]
        · simp [Path.firstComponent?, Path.innerComponent?, here, Component.follow]
        · rw [Path.firstComponent?, if_neg (List.cons_ne_nil byte piece), if_neg here]
          cases meaning : Path.innerComponent? (byte :: piece) <;> simp [meaning]

/-- A path leads to a node when it is accepted and its pieces lead there. -/
theorem find_eq_ok_iff
    {disk : Disk}
    {path : Path}
    {location : Location}
    {node : Node} :
    disk.find path = .ok (location, node) ↔
      accept path = .ok () ∧
        disk.follow (disk.startOf path) (Text.splitAt Path.slash path.bytes) = .ok location ∧
        disk.node? location = some node := by
  unfold find
  rw [bind_eq_ok_iff]
  constructor
  · rintro ⟨_, accepted, found⟩
    obtain ⟨last, followed, found⟩ := bind_eq_ok_iff.mp found
    cases present : disk.node? last with
    | none => simp [present] at found
    | some reached =>
        simp only [present, Except.ok.injEq, Prod.mk.injEq] at found
        obtain ⟨rfl, rfl⟩ := found
        exact ⟨accepted, followed, present⟩
  · rintro ⟨accepted, followed, present⟩
    refine ⟨(), accepted, bind_eq_ok_iff.mpr ⟨location, followed, ?_⟩⟩
    rw [present]

theorem find_eq_ok
    {disk : Disk}
    {path : Path}
    {location : Location}
    {node : Node}
    (found : disk.find path = .ok (location, node)) :
    location = path.components.foldl Component.follow disk.here ∧
      disk.node? location = some node := by
  obtain ⟨accepted, followed, present⟩ := find_eq_ok_iff.mp found
  have nonempty : path.bytes ≠ [] := by
    intro nothing
    simp [accept, nothing] at accepted
  exact ⟨by rw [follow_eq_ok followed, foldl_components disk nonempty], present⟩

theorem holdsFolder_iff
    {disk : Disk}
    {path : Path} :
    disk.holdsFolder path = true ↔ ∃ location, disk.find path = .ok (location, .folder) := by
  unfold holdsFolder
  split
  next location found => simp [found]
  next other =>
    refine iff_of_false (by simp) ?_
    rintro ⟨location, found⟩
    exact other location found

theorem exists_find_of_holdsFolder
    {disk : Disk}
    {path : Path}
    (held : disk.holdsFolder path = true) :
    ∃ location, disk.find path = .ok (location, .folder) :=
  holdsFolder_iff.mp held

theorem holdsFile_iff
    {disk : Disk}
    {path : Path} :
    disk.holdsFile path = true ↔
      ∃ location content, disk.find path = .ok (location, .file content) := by
  unfold holdsFile
  split
  next location content found => simp [found]
  next other =>
    refine iff_of_false (by simp) ?_
    rintro ⟨location, content, found⟩
    exact other location content found

theorem readLossy_eq_ok
    {disk : Disk}
    {access : Access}
    {path : Path}
    {text : Text}
    (read : disk.readLossy access path = .ok text) :
    ∃ location content, disk.find path = .ok (location, .file content) ∧
      Text.decodeLossy content = text := by
  obtain ⟨content, bytes, decoded⟩ := map_eq_ok_iff.mp read
  obtain ⟨_, -, bytes⟩ := bind_eq_ok_iff.mp bytes
  split at bytes
  · simp at bytes
  · simp at bytes
  next location inside found =>
    exact ⟨location, inside, found, Except.ok.inj bytes ▸ decoded⟩

/-- Paths with the same components hold the same text. -/
theorem text_eq_of_readLossy
    {disk : Disk}
    {access : Access}
    {first second : Path}
    {text other : Text}
    (same : first.components = second.components)
    (read : disk.readLossy access first = .ok text)
    (readOther : disk.readLossy access second = .ok other) :
    text = other := by
  obtain ⟨location, content, found, rfl⟩ := readLossy_eq_ok read
  obtain ⟨place, inside, foundOther, rfl⟩ := readLossy_eq_ok readOther
  obtain ⟨rfl, present⟩ := find_eq_ok found
  obtain ⟨rfl, presentOther⟩ := find_eq_ok foundOther
  rw [same, presentOther] at present
  injection present with nodes
  injection nodes with contents
  rw [contents]

end Disk
end Phrasebook
