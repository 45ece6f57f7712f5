import ResolvedSql.Literal
import ResolvedSql.Proofs.QuotedNames
import ResolvedSql.Proofs.WireRoundTrip
set_option autoImplicit false

namespace ResolvedSql

/-- What a path of indices leads to, where `members` are the members of what has any. -/
def memberAt {α : Type} (members : α → Option (List α)) : List Nat → α → Option α
  | [], a => some a
  | i :: path, a => (members a).bind fun ms => ms[i]?.bind (memberAt members path)

section MemberAt

variable {α β : Type} {members : α → Option (List α)}

theorem memberAt_append (front rest : List Nat) (a : α) :
    memberAt members (front ++ rest) a =
      (memberAt members front a).bind (memberAt members rest) := by
  induction front generalizing a with
  | nil => rfl
  | cons i front ih =>
    have ih' : memberAt members (front ++ rest) =
        fun b => (memberAt members front b).bind (memberAt members rest) := funext ih
    simp [memberAt, ih', Option.bind_assoc]

/-- A map that keeps members in their places keeps what paths lead to. -/
theorem memberAt_map {items : β → Option (List β)} {f : α → β}
    (hf : ∀ a ms, members a = some ms → items (f a) = some (ms.map f)) {path : List Nat} {a b : α}
    (h : memberAt members path a = some b) : memberAt items path (f a) = some (f b) := by
  induction path generalizing a with
  | nil =>
    rw [memberAt, Option.some.injEq] at h
    rw [memberAt, h]
  | cons i path ih =>
    simp only [memberAt, Option.bind_eq_some_iff] at h ⊢
    obtain ⟨ms, hms, m, hm, hb⟩ := h
    exact ⟨ms.map f, hf a ms hms, f m, by rw [List.getElem?_map, hm]; rfl, ih hb⟩

end MemberAt

def Json.items? : Json → Option (List Json)
  | .array items => some items
  | _ => none

namespace Value

def members? : Value → Option (List Value)
  | .array items => some items
  | .struct fields => some (fields.map (·.value))
  | _ => none

mutual
/-- Whether neither a double nor a document is anywhere in the value. -/
def isDiscrete : Value → Bool
  | .double _ | .json _ => false
  | .array items => itemsDiscrete items
  | .struct fields => fieldsDiscrete fields
  | .null | .bool _ | .int _ | .numeric _ | .string _ | .bytes _ | .date _ | .timestamp _ => true
def itemsDiscrete : List Value → Bool
  | [] => true
  | v :: r => v.isDiscrete && itemsDiscrete r
def fieldsDiscrete : List ValueField → Bool
  | [] => true
  | ⟨_, v⟩ :: r => v.isDiscrete && fieldsDiscrete r
end

mutual
/-- The same value with no name for any field. -/
def unnamed : Value → Value
  | .array items => .array (unnamedItems items)
  | .struct fields => .struct (unnamedFields fields)
  | v => v
def unnamedItems : List Value → List Value
  | [] => []
  | v :: r => v.unnamed :: unnamedItems r
def unnamedFields : List ValueField → List ValueField
  | [] => []
  | ⟨_, v⟩ :: r => ⟨"", v.unnamed⟩ :: unnamedFields r
end

theorem nestedItems_eq (vs : List Value) : nestedItems vs = vs.map nested := by
  induction vs with
  | nil => rfl
  | cons v vs ih => rw [nestedItems, ih, List.map_cons]

theorem nestedFields_eq (fs : List ValueField) :
    nestedFields fs = (fs.map (·.value)).map nested := by
  induction fs with
  | nil => rfl
  | cons f fs ih =>
    obtain ⟨name, value⟩ := f
    rw [nestedFields, ih]
    rfl

theorem nested_of_members {v : Value} {ms : List Value} (h : v.members? = some ms) :
    v.nested = .array (ms.map nested) := by
  cases v with
  | array items =>
    cases h
    rw [nested, nestedItems_eq]
  | struct fields =>
    cases h
    rw [nested, nestedFields_eq]
  | _ => cases h

theorem encode_of_members {v : Value} {ms : List Value} (h : v.members? = some ms)
    (type : SqlType) : Literal.encode v type = .ok (Literal.quote v.nested.text) := by
  cases v with
  | array | struct => rfl
  | _ => cases h

mutual
theorem nested_isExact : (v : Value) → v.isDiscrete = true → v.nested.isExact = true
  | .null, _ | .bool _, _ | .numeric _, _ | .string _, _ | .date _, _ | .timestamp _, _ => rfl
  | .double _, h | .json _, h => by cases h
  | .int n, _ => Json.isExact_int64 n
  | .bytes bs, _ => Json.isExact_list.2 fun b _ => Json.isExact_uint8 b
  | .array vs, h => Json.isExact_array.2 (nestedItems_isExact vs h)
  | .struct fs, h => Json.isExact_array.2 (nestedFields_isExact fs h)
theorem nestedItems_isExact : (vs : List Value) → itemsDiscrete vs = true →
    ∀ j ∈ nestedItems vs, j.isExact = true
  | [], _ => by simp [nestedItems]
  | v :: vs, h => by
    rw [itemsDiscrete, Bool.and_eq_true] at h
    rw [nestedItems, List.forall_mem_cons]
    exact ⟨nested_isExact v h.1, nestedItems_isExact vs h.2⟩
theorem nestedFields_isExact : (fs : List ValueField) → fieldsDiscrete fs = true →
    ∀ j ∈ nestedFields fs, j.isExact = true
  | [], _ => by simp [nestedFields]
  | ⟨_, v⟩ :: fs, h => by
    rw [fieldsDiscrete, Bool.and_eq_true] at h
    rw [nestedFields, List.forall_mem_cons]
    exact ⟨nested_isExact v h.1, nestedFields_isExact fs h.2⟩
end

mutual
theorem nested_unnamed : (v : Value) → v.unnamed.nested = v.nested
  | .null | .bool _ | .int _ | .double _ | .numeric _ | .string _ | .bytes _ | .date _
  | .timestamp _ | .json _ => by rw [unnamed] <;> simp
  | .array vs => by rw [unnamed, nested, nested, nestedItems_unnamed vs]
  | .struct fs => by rw [unnamed, nested, nested, nestedFields_unnamed fs]
theorem nestedItems_unnamed : (vs : List Value) → nestedItems (unnamedItems vs) = nestedItems vs
  | [] => rfl
  | v :: vs => by
    rw [unnamedItems, nestedItems, nestedItems, nested_unnamed v, nestedItems_unnamed vs]
theorem nestedFields_unnamed : (fs : List ValueField) →
    nestedFields (unnamedFields fs) = nestedFields fs
  | [] => rfl
  | ⟨_, v⟩ :: fs => by
    rw [unnamedFields, nestedFields, nestedFields, nested_unnamed v, nestedFields_unnamed fs]
end

theorem encode_unnamed (v : Value) (type : SqlType) :
    Literal.encode v.unnamed type = Literal.encode v type := by
  cases v with
  | array | struct =>
    rw [unnamed, Literal.encode, Literal.encode, ← unnamed, nested_unnamed]
  | _ => rw [unnamed] <;> simp

theorem memberAt_nested {v u : Value} {path : List Nat} (h : memberAt members? path v = some u) :
    memberAt Json.items? path v.nested = some u.nested := by
  refine memberAt_map (fun a ms ha => ?_) h
  rw [nested_of_members ha]
  rfl

theorem items_of_memberAt {v u : Value} {ms : List Value} {path : List Nat}
    (h : memberAt members? path v = some u) (hms : u.members? = some ms) :
    ∃ js, memberAt Json.items? path v.nested = some (.array js) ∧ js.length = ms.length := by
  refine ⟨ms.map nested, ?_, List.length_map ..⟩
  rw [memberAt_nested h, nested_of_members hms]

end Value

/-- An array or struct without doubles and documents has a literal that reads as JSON, in which
every path leads to the JSON form of what it leads to in the value, through arrays as long as those
of the value. Names of fields, at any depth, make no difference. -/
theorem Literal.encode_keeps_positions (v : Value) (type : SqlType)
    (hmembers : v.members?.isSome = true) (hv : v.isDiscrete = true) :
    ∃ sql content j, encode v type = .ok sql ∧
      Text.unquote '\'' sql.toList = some (content, []) ∧
      Json.ofText? (String.ofList content) = some j ∧
      (∀ path m, memberAt Value.members? path v = some m →
        memberAt Json.items? path j = some m.nested ∧
        ∀ front rest, path = front ++ rest → ∃ u, memberAt Value.members? front v = some u ∧
          ∀ ms, u.members? = some ms →
            ∃ js, memberAt Json.items? front j = some (.array js) ∧ js.length = ms.length) ∧
      ∀ w : Value, w.unnamed = v.unnamed → encode w type = .ok sql := by
  obtain ⟨members, hmembers⟩ := Option.isSome_iff_exists.1 hmembers
  have hsql := Value.encode_of_members hmembers type
  have hquote := Text.unquote_quoted (q := '\'') v.nested.text (r := []) (by simp)
  rw [List.append_nil] at hquote
  refine ⟨_, _, v.nested, hsql, hquote, ?_, fun path m hm => ⟨?_, ?_⟩, fun w hw => ?_⟩
  · rw [String.ofList_toList]
    exact Json.ofText?_text (Value.nested_isExact v hv)
  · exact Value.memberAt_nested hm
  · rintro front rest rfl
    rw [memberAt_append, Option.bind_eq_some_iff] at hm
    obtain ⟨u, hu, -⟩ := hm
    exact ⟨u, hu, fun ms hms => Value.items_of_memberAt hu hms⟩
  · rw [← Value.encode_unnamed w, hw, Value.encode_unnamed v, hsql]

def Value.nestedStruct : Value :=
  .struct [⟨"", .array [.null, .string "it's \"so\""]⟩, ⟨"", .struct [⟨"'", .int (-1)⟩]⟩]

theorem Literal.nestedStruct_keeps_positions :
    ∃ sql content j, encode .nestedStruct (.scalar .string) = .ok sql ∧
      Text.unquote '\'' sql.toList = some (content, []) ∧
      Json.ofText? (String.ofList content) = some j ∧
      memberAt Json.items? [0, 1] j = some (.string "it's \"so\"") ∧
      memberAt Json.items? [1, 0] j = some (.int (-1)) ∧
      ∃ js, memberAt Json.items? [0] j = some (.array js) ∧ js.length = 2 := by
  obtain ⟨sql, content, j, hsql, hcontent, hj, hpaths, -⟩ :=
    encode_keeps_positions .nestedStruct (.scalar .string) rfl rfl
  obtain ⟨hstring, hsteps⟩ := hpaths [0, 1] _ rfl
  obtain ⟨u, hu, hitems⟩ := hsteps [0] [1] rfl
  cases hu
  exact ⟨sql, content, j, hsql, hcontent, hj, hstring, (hpaths [1, 0] _ rfl).1, hitems _ rfl⟩

end ResolvedSql
