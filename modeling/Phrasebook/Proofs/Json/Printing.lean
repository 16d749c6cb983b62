import Phrasebook.Proofs.Json.Members
import Phrasebook.Proofs.Json.Strings

/-!
# Reading printed JSON

A value without numbers is read back from the text it is laid out as.  The reader is a machine on
tokens; here it is run on a text, one token after the other.  A printed value in front of any rest
takes the machine from any state that waits for a value to the state behind that value, whatever
is on the stack, and so the text of an array or an object is passed item by item.
-/

namespace Phrasebook
namespace Json

open State

/-! ## Running the machine on a text -/

/-- The state behind the tokens of a text. -/
def State.run? (state : State) (text : Text) : Option State :=
  (tokens? text).bind fun tokens => tokens.foldlM step? state

theorem run?_nil (state : State) : run? state [] = some state := by
  rw [run?, tokens?]
  rfl

theorem run?_cons_of_isSpace
    {char : Char}
    (space : isSpace char = true)
    (state : State)
    (rest : Text) :
    run? state (char :: rest) = run? state rest := by
  rw [run?, tokens?, if_pos space]
  rfl

theorem run?_newLine_append
    (level : Nat)
    (state : State)
    (rest : Text) :
    run? state (newLine level ++ rest) = run? state rest := by
  have blanks (count : Nat) : run? state (List.replicate count ' ' ++ rest) = run? state rest := by
    induction count with
    | zero => rfl
    | succ count ih =>
        rw [List.replicate_succ, List.cons_append, run?_cons_of_isSpace (by decide), ih]
  rw [newLine, List.cons_append, run?_cons_of_isSpace (by decide), blanks]

theorem run?_of_token?
    {char : Char}
    {text rest : Text}
    {token : Token}
    (visible : isSpace char = false)
    (read : token? (char :: text) = some (token, rest))
    (state : State) :
    run? state (char :: text) = (step? state token).bind fun state => run? state rest := by
  rw [run?, tokens?]
  simp only [visible, Bool.false_eq_true, if_false]
  split
  next nothing =>
    rw [nothing] at read
    exact absurd read (by simp)
  next other behind found =>
    rw [found] at read
    simp only [Option.some.injEq, Prod.mk.injEq] at read
    obtain ⟨rfl, rfl⟩ := read
    cases later : tokens? behind with
    | none => cases step? state other <;> simp [run?, later]
    | some tokens => simp [run?, later]

theorem run?_quote
    (text rest : Text)
    (state : State) :
    run? state (quote text ++ rest) =
      (step? state (.string (text.map pieceOf))).bind fun state => run? state rest :=
  run?_of_token? (by decide) (token?_quote text rest) state

/-- A token of one character takes one step. -/
theorem run?_mark
    {char : Char}
    {state next : State}
    {rest : Text}
    (token : Token)
    (visible : isSpace char = false)
    (read : token? (char :: rest) = some (token, rest))
    (taken : step? state token = some next) :
    run? state (char :: rest) = run? next rest := by
  rw [run?_of_token? visible read, taken, Option.bind_some]

/-! ## Printed values -/

/-- A value without numbers that is nested at most this deep, with different names in objects. -/
inductive Printable : Nat → Json → Prop
  | null {depth : Nat} : Printable depth .null
  | bool {depth : Nat} (value : Bool) : Printable depth (.bool value)
  | string {depth : Nat} (text : Text) : Printable depth (.string text)
  | array {depth : Nat} {items : List Json} :
      (∀ item ∈ items, Printable depth item) →
      Printable (depth + 1) (.array items)
  | object {depth : Nat} {members : List (Text × Json)} :
      (members.map Prod.fst).Nodup →
      (∀ member ∈ members, Printable depth member.2) →
      Printable (depth + 1) (.object members)

/-- The state waits for a value that goes onto the stack. -/
def Awaits (state : State) (stack : List Frame) : Prop :=
  ∀ token, token ≠ .closeArray → step? state token = beginValue? stack token

/-- The state waits for a name behind the members of an object. -/
def AwaitsName
    (state : State)
    (stack : List Frame)
    (members : List (List Piece × Raw)) : Prop :=
  ∀ name, step? state (.string name) = some (.beforeColon stack members name)

/-- The text is a raw value from the machine's point of view. -/
def Writes (text : Text) (raw : Raw) : Prop :=
  ∀ state stack, Awaits state stack → ∀ rest,
    run? state (text ++ rest) = run? (.complete stack raw) rest

/-- The text is a raw value that means a value, at most this deep. -/
def Prints (depth : Nat) (text : Text) (json : Json) : Prop :=
  ∃ raw : Raw, raw.meaning? = some json ∧ raw.depth ≤ depth ∧ Writes text raw

theorem prints_word
    {char : Char}
    {word : Text}
    {token : Token}
    {raw : Raw}
    {json : Json}
    (depth : Nat)
    (visible : isSpace char = false)
    (read : ∀ rest, token? (char :: (word ++ rest)) = some (token, rest))
    (begun : ∀ stack, beginValue? stack token = some (.complete stack raw))
    (means : raw.meaning? = some json)
    (shallow : raw.depth = 0) :
    Prints depth (char :: word) json := by
  refine ⟨raw, means, by omega, ?_⟩
  intro state stack awaits rest
  have noEnd : token ≠ .closeArray := by
    rintro rfl
    exact absurd (begun stack) (by simp [beginValue?])
  rw [List.cons_append, run?_of_token? visible (read rest), awaits token noEnd, begun,
    Option.bind_some]

theorem prints_quote (depth : Nat) (text : Text) : Prints depth (quote text) (.string text) := by
  refine ⟨.string (text.map pieceOf), ?_, Nat.zero_le depth, ?_⟩
  · rw [Raw.meaning?, text?_map_pieceOf, Option.map_some]
  · intro state stack awaits rest
    rw [run?_quote, awaits _ (by simp)]
    rfl

/-! ### Items -/

theorem run?_item
    {level : Nat}
    {item : Json}
    {raw : Raw}
    (written : Writes (pretty level item) raw)
    {state : State}
    {stack : List Frame}
    {before : List Raw}
    (awaits : Awaits state (.array before :: stack))
    (next : Json)
    (items : List Json)
    (rest : Text) :
    run? state (prettyItems level (item :: next :: items) ++ rest) =
      run? (.beforeValue (.array (raw :: before) :: stack))
        (prettyItems level (next :: items) ++ rest) := by
  calc
    run? state (prettyItems level (item :: next :: items) ++ rest)
    _ = run? state (pretty level item ++ ',' :: (prettyItems level (next :: items) ++ rest)) := by
      rw [prettyItems, List.append_assoc, List.append_assoc, run?_newLine_append]
      rfl
    _ = run? (.complete (.array before :: stack) raw)
          (',' :: (prettyItems level (next :: items) ++ rest)) :=
      written state _ awaits _
    _ = run? (.beforeValue (.array (raw :: before) :: stack))
          (prettyItems level (next :: items) ++ rest) :=
      run?_mark .comma (by decide) rfl rfl

theorem run?_last_item
    {level : Nat}
    {item : Json}
    {raw : Raw}
    (written : Writes (pretty level item) raw)
    {state : State}
    {stack : List Frame}
    {before : List Raw}
    (awaits : Awaits state (.array before :: stack))
    (outer : Nat)
    (rest : Text) :
    run? state (prettyItems level [item] ++ (newLine outer ++ ']' :: rest)) =
      run? (.complete stack (.array (before.reverse ++ [raw]))) rest := by
  calc
    run? state (prettyItems level [item] ++ (newLine outer ++ ']' :: rest))
    _ = run? state (pretty level item ++ (newLine outer ++ ']' :: rest)) := by
      rw [prettyItems, List.append_assoc, run?_newLine_append]
    _ = run? (.complete (.array before :: stack) raw) (']' :: rest) := by
      rw [written state _ awaits, run?_newLine_append]
    _ = run? (.complete stack (.array (raw :: before).reverse)) rest :=
      run?_mark .closeArray (by decide) rfl rfl
    _ = run? (.complete stack (.array (before.reverse ++ [raw]))) rest := by
      rw [List.reverse_cons]

/-- The rest of an array: its items in lines, and its end. -/
theorem exists_items
    {depth level : Nat}
    {items : List Json}
    (printed : ∀ item ∈ items, Prints depth (pretty level item) item)
    (nonempty : items ≠ []) :
    ∃ raws, Raw.meaningOfItems? raws = some items ∧ Raw.depthOfItems raws ≤ depth ∧
      ∀ state stack before, Awaits state (.array before :: stack) → ∀ outer rest,
        run? state (prettyItems level items ++ (newLine outer ++ ']' :: rest)) =
          run? (.complete stack (.array (before.reverse ++ raws))) rest := by
  induction items with
  | nil => exact absurd rfl nonempty
  | cons item items ih =>
      obtain ⟨raw, means, shallow, written⟩ := printed item List.mem_cons_self
      cases items with
      | nil =>
          refine ⟨[raw], ?_, ?_, ?_⟩
          · simp [Raw.meaningOfItems?, means]
          · simpa [Raw.depthOfItems] using shallow
          · intro state stack before awaits outer rest
            exact run?_last_item written awaits outer rest
      | cons next items =>
          obtain ⟨raws, others, shallowOthers, writtenOthers⟩ :=
            ih (fun other member => printed other (List.mem_cons_of_mem item member))
              (List.cons_ne_nil next items)
          refine ⟨raw :: raws, ?_, ?_, ?_⟩
          · simp [Raw.meaningOfItems?, means, others]
          · rw [Raw.depthOfItems]
            omega
          · intro state stack before awaits outer rest
            rw [run?_item written awaits, writtenOthers _ stack _ fun _ _ => rfl,
              List.reverse_cons, List.append_assoc, List.singleton_append]

/-! ### Members -/

/-- A name with its colon opens a member. -/
theorem run?_name
    {state : State}
    {stack : List Frame}
    {members : List (List Piece × Raw)}
    (awaits : AwaitsName state stack members)
    (level : Nat)
    (name rest : Text) :
    run? state (newLine level ++ quote name ++ ": ".toList ++ rest) =
      run? (.beforeValue (.member members (name.map pieceOf) :: stack)) rest := by
  calc
    run? state (newLine level ++ quote name ++ ": ".toList ++ rest)
    _ = run? state (quote name ++ (": ".toList ++ rest)) := by
      rw [List.append_assoc, List.append_assoc, run?_newLine_append]
    _ = run? (.beforeColon stack members (name.map pieceOf)) (": ".toList ++ rest) := by
      rw [run?_quote, awaits, Option.bind_some]
    _ = run? (.beforeValue (.member members (name.map pieceOf) :: stack)) (' ' :: rest) :=
      run?_mark .colon (by decide) rfl rfl
    _ = run? (.beforeValue (.member members (name.map pieceOf) :: stack)) rest :=
      run?_cons_of_isSpace (by decide) _ rest

theorem run?_member
    {level : Nat}
    {value : Json}
    {raw : Raw}
    (written : Writes (pretty level value) raw)
    {state : State}
    {stack : List Frame}
    {before : List (List Piece × Raw)}
    (awaits : AwaitsName state stack before)
    (name : Text)
    (next : Text × Json)
    (members : List (Text × Json))
    (rest : Text) :
    run? state (prettyMembers level ((name, value) :: next :: members) ++ rest) =
      run? (.beforeName stack ((name.map pieceOf, raw) :: before))
        (prettyMembers level (next :: members) ++ rest) := by
  calc
    run? state (prettyMembers level ((name, value) :: next :: members) ++ rest)
    _ = run? (.beforeValue (.member before (name.map pieceOf) :: stack))
          (pretty level value ++ ',' :: (prettyMembers level (next :: members) ++ rest)) := by
      rw [prettyMembers, List.append_assoc, List.append_assoc, run?_name awaits]
      rfl
    _ = run? (.complete (.member before (name.map pieceOf) :: stack) raw)
          (',' :: (prettyMembers level (next :: members) ++ rest)) :=
      written _ _ (fun _ _ => rfl) _
    _ = run? (.beforeName stack ((name.map pieceOf, raw) :: before))
          (prettyMembers level (next :: members) ++ rest) :=
      run?_mark .comma (by decide) rfl rfl

theorem run?_last_member
    {level : Nat}
    {value : Json}
    {raw : Raw}
    (written : Writes (pretty level value) raw)
    {state : State}
    {stack : List Frame}
    {before : List (List Piece × Raw)}
    (awaits : AwaitsName state stack before)
    (name : Text)
    (outer : Nat)
    (rest : Text) :
    run? state (prettyMembers level [(name, value)] ++ (newLine outer ++ '\x7d' :: rest)) =
      run? (.complete stack (.object (before.reverse ++ [(name.map pieceOf, raw)]))) rest := by
  calc
    run? state (prettyMembers level [(name, value)] ++ (newLine outer ++ '\x7d' :: rest))
    _ = run? (.beforeValue (.member before (name.map pieceOf) :: stack))
          (pretty level value ++ (newLine outer ++ '\x7d' :: rest)) := by
      rw [prettyMembers, List.append_assoc, run?_name awaits]
    _ = run? (.complete (.member before (name.map pieceOf) :: stack) raw) ('\x7d' :: rest) := by
      rw [written _ _ (fun _ _ => rfl), run?_newLine_append]
    _ = run? (.complete stack (.object ((name.map pieceOf, raw) :: before).reverse)) rest :=
      run?_mark .closeObject (by decide) rfl rfl
    _ = run? (.complete stack (.object (before.reverse ++ [(name.map pieceOf, raw)]))) rest := by
      rw [List.reverse_cons]

/-- The rest of an object: its members in lines, and its end. -/
theorem exists_members
    {depth level : Nat}
    {members : List (Text × Json)}
    (printed : ∀ member ∈ members, Prints depth (pretty level member.2) member.2)
    (nonempty : members ≠ []) :
    ∃ raws, Raw.meaningOfMembers? raws = some members ∧ Raw.depthOfMembers raws ≤ depth ∧
      ∀ state stack before, AwaitsName state stack before → ∀ outer rest,
        run? state (prettyMembers level members ++ (newLine outer ++ '\x7d' :: rest)) =
          run? (.complete stack (.object (before.reverse ++ raws))) rest := by
  induction members with
  | nil => exact absurd rfl nonempty
  | cons member members ih =>
      obtain ⟨name, value⟩ := member
      obtain ⟨raw, means, shallow, written⟩ := printed (name, value) List.mem_cons_self
      have named := text?_map_pieceOf name
      cases members with
      | nil =>
          refine ⟨[(name.map pieceOf, raw)], ?_, ?_, ?_⟩
          · simp [Raw.meaningOfMembers?, means, named]
          · simpa [Raw.depthOfMembers] using shallow
          · intro state stack before awaits outer rest
            exact run?_last_member written awaits name outer rest
      | cons next members =>
          obtain ⟨raws, others, shallowOthers, writtenOthers⟩ :=
            ih (fun other member => printed other (List.mem_cons_of_mem _ member))
              (List.cons_ne_nil next members)
          refine ⟨(name.map pieceOf, raw) :: raws, ?_, ?_, ?_⟩
          · simp [Raw.meaningOfMembers?, means, named, others]
          · rw [Raw.depthOfMembers]
            omega
          · intro state stack before awaits outer rest
            rw [run?_member written awaits, writtenOthers _ stack _ fun _ => rfl,
              List.reverse_cons, List.append_assoc, List.singleton_append]

/-! ### All values -/

theorem prints_array
    {depth level : Nat}
    {items : List Json}
    (printed : ∀ item ∈ items, Prints depth (pretty (level + 1) item) item) :
    Prints (depth + 1) (pretty level (.array items)) (.array items) := by
  cases items with
  | nil =>
      refine ⟨.array [], rfl, Nat.le_add_left _ _, ?_⟩
      intro state stack awaits rest
      rw [pretty]
      calc
        run? state ('[' :: ']' :: rest)
        _ = run? (.beforeFirstItem stack) (']' :: rest) :=
          run?_mark .openArray (by decide) rfl (awaits _ (by simp))
        _ = run? (.complete stack (.array [])) rest :=
          run?_mark .closeArray (by decide) rfl rfl
  | cons item items =>
      obtain ⟨raws, means, shallow, written⟩ := exists_items printed (List.cons_ne_nil item items)
      refine ⟨.array raws, ?_, ?_, ?_⟩
      · rw [Raw.meaning?, means, Option.map_some]
      · rw [Raw.depth]
        omega
      · intro state stack awaits rest
        have first : Awaits (.beforeFirstItem stack) (.array [] :: stack) := by
          intro token other
          cases token <;> first | rfl | exact absurd rfl other
        calc
          run? state (pretty level (.array (item :: items)) ++ rest)
          _ = run? state ('[' :: (prettyItems (level + 1) (item :: items) ++
                (newLine level ++ ']' :: rest))) := by
            simp [pretty]
          _ = run? (.beforeFirstItem stack) (prettyItems (level + 1) (item :: items) ++
                (newLine level ++ ']' :: rest)) :=
            run?_mark .openArray (by decide) rfl (awaits _ (by simp))
          _ = run? (.complete stack (.array raws)) rest :=
            written _ stack [] first level rest

theorem prints_object
    {depth level : Nat}
    {members : List (Text × Json)}
    (distinct : (members.map Prod.fst).Nodup)
    (printed : ∀ member ∈ members, Prints depth (pretty (level + 1) member.2) member.2) :
    Prints (depth + 1) (pretty level (.object members)) (.object members) := by
  cases members with
  | nil =>
      refine ⟨.object [], rfl, Nat.le_add_left _ _, ?_⟩
      intro state stack awaits rest
      rw [pretty]
      calc
        run? state ('\x7b' :: '\x7d' :: rest)
        _ = run? (.beforeFirstName stack) ('\x7d' :: rest) :=
          run?_mark .openObject (by decide) rfl (awaits _ (by simp))
        _ = run? (.complete stack (.object [])) rest :=
          run?_mark .closeObject (by decide) rfl rfl
  | cons member members =>
      obtain ⟨raws, means, shallow, written⟩ :=
        exists_members printed (List.cons_ne_nil member members)
      refine ⟨.object raws, ?_, ?_, ?_⟩
      · rw [Raw.meaning?, means, Option.map_some, distinctMembers_eq_self distinct]
      · rw [Raw.depth]
        omega
      · intro state stack awaits rest
        calc
          run? state (pretty level (.object (member :: members)) ++ rest)
          _ = run? state ('\x7b' :: (prettyMembers (level + 1) (member :: members) ++
                (newLine level ++ '\x7d' :: rest))) := by
            simp [pretty]
          _ = run? (.beforeFirstName stack) (prettyMembers (level + 1) (member :: members) ++
                (newLine level ++ '\x7d' :: rest)) :=
            run?_mark .openObject (by decide) rfl (awaits _ (by simp))
          _ = run? (.complete stack (.object raws)) rest :=
            written _ stack [] (fun _ => rfl) level rest

/-- Every value that can be printed is read back, at any level of the layout. -/
theorem prints_pretty
    {depth : Nat}
    {json : Json}
    (printable : Printable depth json) :
    ∀ level, Prints depth (pretty level json) json := by
  induction printable with
  | null =>
      intro level
      exact prints_word _ (by decide) (fun _ => rfl) (fun _ => rfl) rfl rfl
  | bool value =>
      intro level
      cases value with
      | true => exact prints_word _ (by decide) (fun _ => rfl) (fun _ => rfl) rfl rfl
      | false => exact prints_word _ (by decide) (fun _ => rfl) (fun _ => rfl) rfl rfl
  | string text =>
      intro level
      rw [pretty]
      exact prints_quote _ text
  | array _ ih =>
      intro level
      exact prints_array fun item member => ih item member (level + 1)
  | object distinct _ ih =>
      intro level
      exact prints_object distinct fun member inside => ih member inside (level + 1)

/-- A printed value with the end of its last line is read as that value. -/
theorem read?_pretty
    {json : Json}
    (printable : Printable maxDepth json) :
    read? (json.pretty 0 ++ ['\n']) = some json := by
  obtain ⟨raw, means, shallow, written⟩ := prints_pretty printable 0
  have finished : run? (.beforeValue []) (json.pretty 0 ++ ['\n']) = some (.complete [] raw) := by
    rw [written _ _ (fun _ _ => rfl), run?_cons_of_isSpace (by decide), run?_nil]
  have readRaw : Raw.read? (json.pretty 0 ++ ['\n']) = some raw := by
    obtain ⟨tokens, split, folded⟩ := Option.bind_eq_some_iff.mp finished
    rw [Raw.read?, split, Option.bind_some, Raw.ofTokens?, folded]
  rw [read?, readRaw, Option.bind_eq_bind, Option.bind_some, if_pos shallow, means]

end Json
end Phrasebook
