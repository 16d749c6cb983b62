import Phrasebook.Entity.Key

/-!
# Splitting and resolving keys

A raw key is made of a namespace and a name in one way only: the last dot separates them, and a key
without a dot is a name in the fallback namespace.  It is resolved to these two exactly if neither
is missing, and the key is then written out in a way that splits back into it.  So different keys
are written differently, and a key that can be split means the same with every fallback.
-/

namespace Phrasebook
namespace Entity
namespace Key

theorem parse?_eq_some_iff
    {full : Text}
    {key : Key} :
    parse? full = some key ↔
      full = key.text ∧ '.' ∉ key.name ∧ key.space ≠ [] ∧ key.name ≠ [] := by
  obtain ⟨space, name⟩ := key
  unfold parse?
  constructor
  · intro parsed
    split at parsed
    next => simp at parsed
    next front behind split =>
      split at parsed
      next => simp at parsed
      next filled =>
        simp only [Option.some.injEq, mk.injEq] at parsed
        obtain ⟨rfl, rfl⟩ := parsed
        obtain ⟨whole, absent⟩ := Text.splitLast?_eq_some_iff.mp split
        rw [not_or] at filled
        exact ⟨whole, absent, filled.1, filled.2⟩
  · rintro ⟨whole, absent, spaceFilled, nameFilled⟩
    rw [Text.splitLast?_eq_some_iff.mpr ⟨whole, absent⟩]
    simp only [spaceFilled, nameFilled, or_self, if_false]

/-! ## What a raw key is made of -/

/-- A raw key is made of a namespace, which may be missing, and a name. -/
inductive MadeOf (fallback : Option Text) : Text → Option Text → Text → Prop
  /-- The last dot stands between the namespace and the name. -/
  | dotted {space name : Text} (noDot : '.' ∉ name) :
      MadeOf fallback (space ++ '.' :: name) (some space) name
  /-- Without a dot the whole key is the name, and the namespace is the fallback. -/
  | bare {name : Text} (noDot : '.' ∉ name) :
      MadeOf fallback name fallback name

variable {raw : Text} {fallback space : Option Text} {name : Text} {key : Key} {error : Error}

theorem exists_madeOf (raw : Text) (fallback : Option Text) :
    ∃ space name, MadeOf fallback raw space name := by
  cases split : Text.splitLast? '.' raw with
  | none => exact ⟨fallback, raw, .bare (Text.splitLast?_eq_none_iff.mp split)⟩
  | some parts =>
      obtain ⟨whole, noDot⟩ := Text.splitLast?_eq_some_iff.mp split
      exact ⟨some parts.1, parts.2, whole ▸ .dotted noDot⟩

theorem MadeOf.noDot (made : MadeOf fallback raw space name) : '.' ∉ name := by
  cases made with
  | dotted noDot => exact noDot
  | bare noDot => exact noDot

/-- A missing namespace and an empty name have their own errors. -/
theorem resolve_of_madeOf (made : MadeOf fallback raw space name) :
    resolve raw fallback =
      match space with
      | none => .error (.missingNamespace raw)
      | some space =>
          if space = [] then .error (.missingNamespace raw)
          else if name = [] then .error (.emptyName raw)
          else .ok ⟨space, name⟩ := by
  cases made with
  | @dotted space name noDot =>
      have split : Text.splitLast? '.' (space ++ '.' :: name) = some (space, name) :=
        Text.splitLast?_eq_some_iff.mpr ⟨rfl, noDot⟩
      simp only [resolve, split]
  | bare noDot =>
      have split := Text.splitLast?_eq_none_iff.mpr noDot
      cases fallback <;> simp only [resolve, split, Option.map_none, Option.map_some]

theorem resolve_eq_ok_iff :
    resolve raw fallback = .ok key ↔
      MadeOf fallback raw (some key.space) key.name ∧ key.space ≠ [] ∧ key.name ≠ [] := by
  constructor
  · intro resolved
    obtain ⟨space, name, made⟩ := exists_madeOf raw fallback
    rw [resolve_of_madeOf made] at resolved
    cases space with
    | none => simp at resolved
    | some space =>
        by_cases spaceEmpty : space = []
        · simp [spaceEmpty] at resolved
        · by_cases nameEmpty : name = []
          · simp [spaceEmpty, nameEmpty] at resolved
          · simp only [spaceEmpty, nameEmpty, if_false] at resolved
            injection resolved with same
            subst same
            exact ⟨made, spaceEmpty, nameEmpty⟩
  · rintro ⟨made, spaceFilled, nameFilled⟩
    rw [resolve_of_madeOf made]
    simp only [spaceFilled, nameFilled, if_false]

theorem resolve_eq_error_iff :
    resolve raw fallback = .error error ↔
      (error = .missingNamespace raw ∧
          ∃ space name, MadeOf fallback raw space name ∧ (space = none ∨ space = some [])) ∨
        (error = .emptyName raw ∧ ∃ space, MadeOf fallback raw (some space) [] ∧ space ≠ []) := by
  constructor
  · intro refused
    obtain ⟨space, name, made⟩ := exists_madeOf raw fallback
    rw [resolve_of_madeOf made] at refused
    cases space with
    | none =>
        injection refused with same
        exact Or.inl ⟨same.symm, none, name, made, Or.inl rfl⟩
    | some space =>
        by_cases spaceEmpty : space = []
        · simp only [spaceEmpty, if_true, Except.error.injEq] at refused
          exact Or.inl ⟨refused.symm, some space, name, made, Or.inr (congrArg some spaceEmpty)⟩
        · by_cases nameEmpty : name = []
          · simp only [spaceEmpty, nameEmpty, if_false, if_true, Except.error.injEq] at refused
            exact Or.inr ⟨refused.symm, space, nameEmpty ▸ made, spaceEmpty⟩
          · simp [spaceEmpty, nameEmpty] at refused
  · rintro (⟨rfl, _, name, made, rfl | rfl⟩ | ⟨rfl, space, made, filled⟩)
    · exact resolve_of_madeOf made
    · exact resolve_of_madeOf made
    · rw [resolve_of_madeOf made]
      simp only [filled, if_true, if_false]

/-- A resolved key has two parts, and no dot in its name. -/
theorem parts_of_resolve (resolved : resolve raw fallback = .ok key) :
    '.' ∉ key.name ∧ key.space ≠ [] ∧ key.name ≠ [] := by
  obtain ⟨made, filled⟩ := resolve_eq_ok_iff.mp resolved
  exact ⟨made.noDot, filled⟩

theorem parse?_text_of_resolve (resolved : resolve raw fallback = .ok key) :
    parse? key.text = some key :=
  parse?_eq_some_iff.mpr ⟨rfl, parts_of_resolve resolved⟩

/-- A key that can be split has its namespace in itself. -/
theorem resolve_of_parse?
    {full : Text}
    (parsed : parse? full = some key)
    (fallback : Option Text) :
    resolve full fallback = .ok key := by
  obtain ⟨rfl, noDot, filled⟩ := parse?_eq_some_iff.mp parsed
  exact resolve_eq_ok_iff.mpr ⟨.dotted noDot, filled⟩

/--
A raw key is resolved exactly if it is made of a namespace and a name that are not empty, and it is
the namespace that is reported if both are missing.  What was resolved is split back from its text,
and what can be split is resolved to the same key with every fallback.
-/
theorem resolve_inverts_text (raw : Text) (fallback : Option Text) :
    (∀ key, resolve raw fallback = .ok key ↔
      MadeOf fallback raw (some key.space) key.name ∧ key.space ≠ [] ∧ key.name ≠ []) ∧
    (∀ error, resolve raw fallback = .error error ↔
      (error = .missingNamespace raw ∧
          ∃ space name, MadeOf fallback raw space name ∧ (space = none ∨ space = some [])) ∨
        (error = .emptyName raw ∧ ∃ space, MadeOf fallback raw (some space) [] ∧ space ≠ [])) ∧
    (∀ key, resolve raw fallback = .ok key → parse? key.text = some key) ∧
    (∀ key otherRaw otherFallback other, resolve raw fallback = .ok key →
      resolve otherRaw otherFallback = .ok other → key.text = other.text → key = other) ∧
    (∀ key, parse? raw = some key → key.text = raw ∧ resolve raw fallback = .ok key) := by
  refine ⟨fun _ => resolve_eq_ok_iff, fun _ => resolve_eq_error_iff,
    fun _ => parse?_text_of_resolve, ?_, ?_⟩
  · intro key otherRaw otherFallback other resolved otherResolved same
    have parsed := parse?_text_of_resolve resolved
    rw [same, parse?_text_of_resolve otherResolved] at parsed
    exact (Option.some.inj parsed).symm
  · intro key parsed
    exact ⟨text_of_parse? parsed, resolve_of_parse? parsed fallback⟩

end Key
end Entity
end Phrasebook
