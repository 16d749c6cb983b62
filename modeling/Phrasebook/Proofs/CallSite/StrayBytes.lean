import Phrasebook.Proofs.CallSite.Embedding
import Phrasebook.Proofs.Disk.Resolve
import Phrasebook.Proofs.Text.Decoding

/-!
# Calls among stray bytes

A file may hold bytes that encode nothing, because it was written in another encoding or was cut.
They are lost when it is read, but no character of a call is lost with them, even if they look like
the beginning of a sequence in front of the call, or like the end of one behind it.
-/

namespace Phrasebook

open Outcome Text

namespace Disk

/-- A file that may be read is read as the text that its bytes stand for. -/
theorem readLossy_of_find
    {disk : Disk}
    {access : Access}
    {path : Path}
    {location : Location}
    {content : Bytes}
    (readable : access.mayRead path = true)
    (found : disk.find path = .ok (location, .file content)) :
    disk.readLossy access path = .ok (decodeLossy content) := by
  refine map_eq_ok_iff.mpr ⟨content, bind_eq_ok_iff.mpr ⟨(), ?_, ?_⟩, rfl⟩
  · rw [permit, if_pos readable]
  · rw [found]

end Disk

namespace CallSite

/--
A call in a file is found with its parts as they are written, whatever bytes stand around it; the
name of the function must not occur in what these are read as in front of the call.  What is found
behind the call is what is found in the bytes behind it alone.
-/
theorem scan_call_among_bytes
    {disk : Disk}
    {access : Access}
    {path : Path}
    {location : Location}
    {function key value call : Text}
    {token comment : Option Text}
    {front behind : Bytes}
    (readable : access.mayRead path = true)
    (found : disk.find path = .ok (location, .file (front ++ encode call ++ behind)))
    (name : IsFunctionName function)
    (absent : ¬function <:+: decodeLossy front)
    (written : Written function key value token comment call) :
    ∃ text priority, disk.readLossy access path = .ok text ∧
      priority.map Entity.normalPriority? = token.map Entity.cleanToken? ∧
      scan function text =
        ⟨⟨key, value, priority, comment⟩, byteLength (decodeLossy front),
            byteLength (decodeLossy front ++ call)⟩ ::
          (scan function (decodeLossy behind)).map
            (Occurrence.shift (byteLength (decodeLossy front ++ call))) := by
  obtain ⟨priority, normal, scanned⟩ :=
    scan_written_call name absent written (decodeLossy behind)
  have nonempty : call ≠ [] := by
    obtain ⟨tail, rfl⟩ := written.eq_append
    intro nothing
    rw [(List.append_eq_nil_iff.mp nothing).1] at absent
    exact absent List.nil_infix
  refine ⟨decodeLossy front ++ call ++ decodeLossy behind, priority, ?_, normal, scanned⟩
  rw [Disk.readLossy_of_find readable found, decodeLossy_append_encode nonempty]

/-- A sequence is cut off in front of the call, and two of its bytes and another call follow. -/
theorem scan_call_among_bytes_cut :
    let function := "_t".toList
    let key := quoted '\x27' "A.B".toList
    let value := quoted '\x22' "\u00fc \x5c\x22x\x5c\x22".toList
    let token := "10".toList
    let call := function ++ ([] ++ '(' :: ([] ++ (key ++ ([] ++ ',' :: (" ".toList ++
      (value ++ (([] ++ ',' :: (" ".toList ++ (token ++ []))) ++ ([] ++ [')']))))))))
    let front : Bytes := encode "$x = _".toList ++ [0xE9, 0xE2, 0x82]
    let behind : Bytes := [0xAC, 0x80] ++ encode "; _t('C.D', 'y')".toList
    let disk := Disk.blank.graft [] "Page.php".toList (.file (front ++ encode call ++ behind))
    let path : Path := ⟨"./Page.php".toList⟩
    ∃ text priority, disk.readLossy .full path = .ok text ∧
      priority.map Entity.normalPriority? = (some token).map Entity.cleanToken? ∧
      scan function text =
        ⟨⟨key, value, priority, none⟩, byteLength (decodeLossy front),
            byteLength (decodeLossy front ++ call)⟩ ::
          (scan function (decodeLossy behind)).map
            (Occurrence.shift (byteLength (decodeLossy front ++ call))) := by
  intro function key value token call front behind disk path
  have found : disk.find path =
      .ok (["Page.php".toList], .file (front ++ encode call ++ behind)) := by
    decide +kernel
  have absent : ¬function <:+: decodeLossy front := fun inside =>
    absurd (inside.subset (show 't' ∈ function by decide)) (by decide +kernel)
  have tokenChars : ∀ char ∈ token, char ≠ ',' ∧ char ≠ ')' := by simp [token]
  have plain : PlainLiteral key := .quoted (by decide) (by decide)
  have escaped : EscapedLiteral value :=
    .quoted (by decide) ((isEscapedBody_iff (by decide)).mp (by decide))
  have written : Written function key value (some token) none call :=
    .call .nil .nil .nil (by decide) .nil plain escaped
      (.ranked .nil (by decide) tokenChars .missing)
  exact scan_call_among_bytes rfl found (by decide) absent written

end CallSite
end Phrasebook
