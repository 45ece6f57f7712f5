import ResolvedSql.Proofs.Decoding
import ResolvedSql.Proofs.Parts
import ResolvedSql.Tree.Wire
set_option autoImplicit false

namespace ResolvedSql

open Json Decoder

namespace Value

mutual
/-- Whether the text of a value keeps it: doubles and times go through their printed digits, and
every other value is kept, a document with integers for its numbers. -/
def isExact : Value → Bool
  | .double _ | .date _ | .timestamp _ => false
  | .json d => d.json.isExact
  | .array items => itemsExact items
  | .struct fields => fieldsExact fields
  | .null | .bool _ | .int _ | .numeric _ | .string _ | .bytes _ => true
def itemsExact : List Value → Bool
  | [] => true
  | v :: r => v.isExact && itemsExact r
def fieldsExact : List ValueField → Bool
  | [] => true
  | ⟨_, v⟩ :: r => v.isExact && fieldsExact r
end

end Value

/-- A literal is exact; nothing is asked of other nodes. -/
def Node.isExactLiteral : Node → Bool
  | .literal value _ => value.isExact
  | _ => true

namespace Json

@[simp]
theorem isExact_string (s : String) : (Json.string s).isExact = true := rfl

@[simp]
theorem isExact_bool (b : Bool) : (Json.bool b).isExact = true := rfl

theorem isExact_int {n : Int} (h : -0x8000000000000000 ≤ n ∧ n < 0x10000000000000000) :
    (Json.int n).isExact = true := by
  simpa [Json.int, isExact, Number.inRange] using h

@[simp]
theorem isExact_int32 (n : Int32) : (Json.int n.toInt).isExact = true := by
  have := n.le_toInt
  have := n.toInt_lt
  exact isExact_int (by omega)

@[simp]
theorem isExact_int64 (n : Int64) : (Json.int n.toInt).isExact = true := by
  have := n.le_toInt
  have := n.toInt_lt
  exact isExact_int (by omega)

@[simp]
theorem isExact_uint8 (n : UInt8) : (Json.int n.toNat).isExact = true := by
  have := n.toNat_lt
  exact isExact_int (by omega)

@[simp]
theorem isExact_uint32 (n : UInt32) : (Json.int n.toNat).isExact = true := by
  have := n.toNat_lt
  exact isExact_int (by omega)

@[simp]
theorem isExact_uint64 (n : UInt64) : (Json.int n.toNat).isExact = true := by
  have := n.toNat_lt
  exact isExact_int (by omega)

@[simp]
theorem isExact_array {js : List Json} :
    (Json.array js).isExact = true ↔ ∀ j ∈ js, j.isExact = true :=
  allExact_iff

@[simp]
theorem isExact_object {ms : Members} :
    (Json.object ms).isExact = true ↔ ∀ m ∈ ms, m.2.isExact = true :=
  membersExact_iff

@[simp]
theorem isExact_list {α : Type} {toJson : α → Json} {as : List α} :
    (Json.list toJson as).isExact = true ↔ ∀ a ∈ as, (toJson a).isExact = true := by
  simp [Json.list]

@[simp]
theorem isExact_option {α : Type} {toJson : α → Json} {o : Option α} :
    (Json.option toJson o).isExact = true ↔ ∀ a ∈ o, (toJson a).isExact = true := by
  cases o with
  | none => simp [Json.option, isExact]
  | some a => simp [Json.option]

@[simp]
theorem isExact_tagged {tagKey tag contentKey : String} {content : Json} :
    (Json.tagged tagKey tag contentKey content).isExact = true ↔ content.isExact = true := by
  simp [Json.tagged]

@[simp]
theorem isExact_tagOnly (tagKey tag : String) : (Json.tagOnly tagKey tag).isExact = true := by
  simp [Json.tagOnly]

end Json

namespace SqlType

theorem fieldsToJson_eq (fs : List StructField) : fieldsToJson fs =
    fs.map fun f => .object [("name", .string f.name), ("type", f.type.toJson)] := by
  induction fs with
  | nil => rfl
  | cons f fs ih =>
    obtain ⟨name, type⟩ := f
    rw [fieldsToJson, ih]
    rfl

theorem decodeField_finds {d : Nat} {name : String} {type : SqlType}
    (h : (decodeWithin d).Finds d type.toJson type) :
    (decodeField (decodeWithin d)).Finds d (.object [("name", .string name), ("type", type.toJson)])
      ⟨name, type⟩ :=
  .record rfl (by decide) fun f hf => hf.optional (.string _) fun hf =>
    hf.required h fun _ => by rfl

mutual
theorem decodeWithin_finds : (t : SqlType) → (d : Nat) → (decodeWithin d).Finds d t.toJson t
  | _, 0 => fun p k hp => absurd hp (by omega)
  | .scalar s, d + 1 => .tagOnly (by cases s <;> rfl)
  | .array e, d + 1 => .tagged (by decide) ((decodeWithin_finds e d).map SqlType.array)
  | .struct fs, d + 1 => .tagged (by decide) <| by
    rw [fieldsToJson_eq]
    exact (Finds.list (decodeFields_finds fs d)).map SqlType.struct
theorem decodeFields_finds : (fs : List StructField) → (d : Nat) → ∀ f ∈ fs,
    (decodeField (decodeWithin d)).Finds d
      (.object [("name", .string f.name), ("type", f.type.toJson)]) f
  | [], d => by simp
  | ⟨name, type⟩ :: fs, d => by
    rw [List.forall_mem_cons]
    exact ⟨decodeField_finds (decodeWithin_finds type d), decodeFields_finds fs d⟩
end

mutual
theorem toJson_isExact : (t : SqlType) → t.toJson.isExact = true
  | .scalar _ => isExact_tagOnly ..
  | .array e => isExact_tagged.2 (toJson_isExact e)
  | .struct fs => isExact_tagged.2 (isExact_array.2 (fieldsToJson_isExact fs))
theorem fieldsToJson_isExact : (fs : List StructField) → ∀ j ∈ fieldsToJson fs, j.isExact = true
  | [] => by simp [fieldsToJson]
  | ⟨name, type⟩ :: fs => by
    rw [fieldsToJson, List.forall_mem_cons]
    exact ⟨by simp [toJson_isExact type], fieldsToJson_isExact fs⟩
end

end SqlType

namespace Value

theorem itemsToJson_eq (vs : List Value) : itemsToJson vs = vs.map toJson := by
  induction vs with
  | nil => rfl
  | cons v vs ih => rw [itemsToJson, ih, List.map_cons]

theorem fieldsToJson_eq (fs : List ValueField) : fieldsToJson fs =
    fs.map fun f => .object [("name", .string f.name), ("value", f.value.toJson)] := by
  induction fs with
  | nil => rfl
  | cons f fs ih =>
    obtain ⟨name, value⟩ := f
    rw [fieldsToJson, ih]
    rfl

theorem decodeField_finds {d : Nat} {name : String} {value : Value}
    (h : (decodeWithin d).Finds d value.toJson value) :
    (decodeField (decodeWithin d)).Finds d
      (.object [("name", .string name), ("value", value.toJson)]) ⟨name, value⟩ :=
  .record rfl (by decide) fun f hf => hf.optional (.string _) fun hf =>
    hf.required h fun _ => by rfl

mutual
theorem decodeWithin_finds : (v : Value) → (d : Nat) → v.isExact = true →
    (decodeWithin d).Finds d v.toJson v
  | _, 0, _ => fun p k hp => absurd hp (by omega)
  | .double _, _ + 1, h | .date _, _ + 1, h | .timestamp _, _ + 1, h => by cases h
  | .null, d + 1, _ => .tagOnly rfl
  | .bool b, d + 1, _ => .tagged (by decide) ((Finds.bool b).map Value.bool)
  | .int n, d + 1, _ => .tagged (by decide) ((Finds.int64 n).map Value.int)
  | .numeric s, d + 1, _ => .tagged (by decide) ((Finds.string s).map Value.numeric)
  | .string s, d + 1, _ => .tagged (by decide) ((Finds.string s).map Value.string)
  | .bytes bs, d + 1, _ =>
    .tagged (by decide) ((Finds.list fun b _ => Finds.uint8 b).map Value.bytes)
  | .json d, _ + 1, _ => .tagged (by decide) ((Finds.document d).map Value.json)
  | .array vs, d + 1, h => .tagged (by decide) <| by
    rw [itemsToJson_eq]
    exact (Finds.list (decodeItems_finds vs d h)).map Value.array
  | .struct fs, d + 1, h => .tagged (by decide) <| by
    rw [fieldsToJson_eq]
    exact (Finds.list (decodeFields_finds fs d h)).map Value.struct
theorem decodeItems_finds : (vs : List Value) → (d : Nat) → itemsExact vs = true →
    ∀ v ∈ vs, (decodeWithin d).Finds d v.toJson v
  | [], d, _ => by simp
  | v :: vs, d, h => by
    rw [itemsExact, Bool.and_eq_true] at h
    rw [List.forall_mem_cons]
    exact ⟨decodeWithin_finds v d h.1, decodeItems_finds vs d h.2⟩
theorem decodeFields_finds : (fs : List ValueField) → (d : Nat) → fieldsExact fs = true →
    ∀ f ∈ fs, (decodeField (decodeWithin d)).Finds d
      (.object [("name", .string f.name), ("value", f.value.toJson)]) f
  | [], d, _ => by simp
  | ⟨name, value⟩ :: fs, d, h => by
    rw [fieldsExact, Bool.and_eq_true] at h
    rw [List.forall_mem_cons]
    exact ⟨decodeField_finds (decodeWithin_finds value d h.1), decodeFields_finds fs d h.2⟩
end

mutual
theorem toJson_isExact : (v : Value) → v.isExact = true → v.toJson.isExact = true
  | .null, _ | .bool _, _ | .numeric _, _ | .string _, _ => rfl
  | .double _, h | .date _, h | .timestamp _, h => by cases h
  | .int n, _ => isExact_tagged.2 (isExact_int64 n)
  | .bytes bs, _ => isExact_tagged.2 (isExact_list.2 fun b _ => isExact_uint8 b)
  | .json d, h => isExact_tagged.2 h
  | .array vs, h => isExact_tagged.2 (isExact_array.2 (itemsToJson_isExact vs h))
  | .struct fs, h => isExact_tagged.2 (isExact_array.2 (fieldsToJson_isExact fs h))
theorem itemsToJson_isExact : (vs : List Value) → itemsExact vs = true →
    ∀ j ∈ itemsToJson vs, j.isExact = true
  | [], _ => by simp [itemsToJson]
  | v :: vs, h => by
    rw [itemsExact, Bool.and_eq_true] at h
    rw [itemsToJson, List.forall_mem_cons]
    exact ⟨toJson_isExact v h.1, itemsToJson_isExact vs h.2⟩
theorem fieldsToJson_isExact : (fs : List ValueField) → fieldsExact fs = true →
    ∀ j ∈ fieldsToJson fs, j.isExact = true
  | [], _ => by simp [fieldsToJson]
  | ⟨name, value⟩ :: fs, h => by
    rw [fieldsExact, Bool.and_eq_true] at h
    rw [fieldsToJson, List.forall_mem_cons]
    exact ⟨by simp [toJson_isExact value h.1], fieldsToJson_isExact fs h.2⟩
end

end Value

@[simp]
theorem Node.listToJson_eq (ns : List Node) : Node.listToJson ns = ns.map Node.toJson := by
  induction ns with
  | nil => rfl
  | cons n ns ih => rw [Node.listToJson, ih, List.map_cons]

@[simp]
theorem Node.optionToJson_eq (o : Option Node) : Node.optionToJson o = .option Node.toJson o := by
  cases o <;> rfl

@[simp]
theorem Node.valuesToJson_eq (ns : List Node) :
    Node.valuesToJson ns = ns.map fun n => wrapValue n.toJson := by
  induction ns with
  | nil => rfl
  | cons n ns ih => rw [Node.valuesToJson, ih, List.map_cons]

@[simp]
theorem Node.rowsToJson_eq (rows : List (List Node)) :
    Node.rowsToJson rows = rows.map fun row => wrapRow (Node.valuesToJson row) := by
  induction rows with
  | nil => rfl
  | cons row rows ih => rw [Node.rowsToJson, ih, List.map_cons]

@[simp]
theorem ComputedColumn.listToJson_eq (cs : List ComputedColumn) :
    ComputedColumn.listToJson cs = cs.map ComputedColumn.toJson := by
  induction cs with
  | nil => rfl
  | cons c cs ih => rw [ComputedColumn.listToJson, ih, List.map_cons]

@[simp]
theorem Boundary.optionToJson_eq (o : Option Boundary) :
    Boundary.optionToJson o = .option Boundary.toJson o := by
  cases o <;> rfl

@[simp]
theorem Frame.optionToJson_eq (o : Option Frame) :
    Frame.optionToJson o = .option Frame.toJson o := by
  cases o <;> rfl

@[simp]
theorem CallGroup.listToJson_eq (gs : List CallGroup) :
    CallGroup.listToJson gs = gs.map CallGroup.toJson := by
  induction gs with
  | nil => rfl
  | cons g gs ih => rw [CallGroup.listToJson, ih, List.map_cons]

@[simp]
theorem SetBranch.listToJson_eq (bs : List SetBranch) :
    SetBranch.listToJson bs = bs.map SetBranch.toJson := by
  induction bs with
  | nil => rfl
  | cons b bs ih => rw [SetBranch.listToJson, ih, List.map_cons]

@[simp]
theorem NamedQuery.listToJson_eq (qs : List NamedQuery) :
    NamedQuery.listToJson qs = qs.map NamedQuery.toJson := by
  induction qs with
  | nil => rfl
  | cons q qs ih => rw [NamedQuery.listToJson, ih, List.map_cons]

@[simp]
theorem Assignment.listToJson_eq (as : List Assignment) :
    Assignment.listToJson as = as.map Assignment.toJson := by
  induction as with
  | nil => rfl
  | cons a as ih => rw [Assignment.listToJson, ih, List.map_cons]

section Decoding

variable {d : Nat} (hd : d ≤ Place.depthLimit + 1)
include hd

theorem SqlType.decode_finds (t : SqlType) : SqlType.decode.Finds d t.toJson t :=
  (SqlType.decodeWithin_finds t _).mono hd

theorem Value.decode_finds {v : Value} (h : v.isExact = true) : Value.decode.Finds d v.toJson v :=
  (Value.decodeWithin_finds v _ h).mono hd

theorem Column.decode_finds (c : Column) : Column.decode.Finds d c.toJson c :=
  .record rfl (by decide) fun f hf => hf.required (.string _) fun hf =>
    hf.optional (.string _) fun hf => hf.required (c.type.decode_finds hd) fun _ => by rfl

theorem Column.list_finds (cs : List Column) :
    (Decoder.list Column.decode).Finds d (.list Column.toJson cs) cs :=
  .list fun c _ => c.decode_finds hd

theorem Column.decodeRef_finds (c : Column) : Column.decodeRef.Finds d c.refToJson c :=
  .record rfl (by decide) fun _ hf => hf.required_eq (c.decode_finds hd)

theorem OrderItem.decode_finds (i : OrderItem) : OrderItem.decode.Finds d i.toJson i :=
  .record rfl (by decide) fun f hf => hf.required (i.column.decodeRef_finds hd) fun hf =>
    hf.optional (.bool _) fun _ => by rfl

theorem OrderItem.list_finds (is : List OrderItem) :
    (Decoder.list OrderItem.decode).Finds d (.list OrderItem.toJson is) is :=
  .list fun i _ => i.decode_finds hd

omit hd in
theorem decodeFunction_finds (name : String) :
    decodeFunction.Finds d (functionToJson name) name :=
  .record rfl (by decide) fun _ hf => hf.required_eq (.string name)

theorem decodePartition_finds (columns : List Column) :
    decodePartition.Finds d (partitionToJson columns) columns :=
  .record rfl (by decide) fun _ hf => hf.required_eq (.list fun c _ => c.decodeRef_finds hd)

theorem decodeOrdering_finds (items : List OrderItem) :
    decodeOrdering.Finds d (orderingToJson items) items :=
  .record rfl (by decide) fun _ hf => hf.required_eq (OrderItem.list_finds hd items)

omit hd in
theorem Node.toJson_ne_null (n : Node) : n.toJson ≠ .null := by
  cases n <;> nofun

variable {node : Decoder Node}

omit hd in
theorem Node.list_finds {ns : List Node} (h : ∀ n ∈ ns, node.Finds d n.toJson n) :
    (Decoder.list node).Finds d (.array (Node.listToJson ns)) ns := by
  rw [Node.listToJson_eq]
  exact .list h

omit hd in
theorem Node.option_finds {o : Option Node} (h : ∀ n ∈ o.toList, node.Finds d n.toJson n) :
    (Decoder.option node).Finds d (Node.optionToJson o) o := by
  rw [Node.optionToJson_eq]
  exact .option fun n hn => ⟨h n (Option.mem_toList.2 hn), n.toJson_ne_null⟩

theorem ComputedColumn.list_finds {cs : List ComputedColumn}
    (h : ∀ n ∈ cs.map (·.expr), node.Finds d n.toJson n) :
    (Decoder.list (ComputedColumn.decodeWith node)).Finds d
      (.array (ComputedColumn.listToJson cs)) cs := by
  rw [ComputedColumn.listToJson_eq]
  refine .list fun c hc => ?_
  have hexpr := h c.expr (List.mem_map_of_mem hc)
  obtain ⟨column, expr⟩ := c
  exact .record rfl (by decide) fun f hf => hf.required (column.decode_finds hd) fun hf =>
    hf.required hexpr fun _ => by rfl

omit hd in
theorem Boundary.option_finds {o : Option Boundary}
    (h : ∀ n ∈ (o.bind (·.offset)).toList, node.Finds d n.toJson n) :
    (Decoder.option (Boundary.decodeWith node)).Finds d (Boundary.optionToJson o) o := by
  rw [Boundary.optionToJson_eq]
  refine .option fun b hb => ?_
  obtain rfl := Option.mem_def.1 hb
  obtain ⟨code, offset⟩ := b
  refine ⟨.record rfl (by decide) fun f hf => ?_, nofun⟩
  exact hf.required (.int32 _) fun hf => hf.optional (Node.option_finds h) fun _ => by rfl

omit hd in
theorem Frame.option_finds {o : Option Frame}
    (h : ∀ n ∈ (o.map Frame.offsets).getD [], node.Finds d n.toJson n) :
    (Decoder.option (Frame.decodeWith node)).Finds d (Frame.optionToJson o) o := by
  rw [Frame.optionToJson_eq]
  refine .option fun b hb => ?_
  obtain rfl := Option.mem_def.1 hb
  obtain ⟨unit, first, last⟩ := b
  obtain ⟨hfirst, hlast⟩ := List.forall_mem_append.1 h
  refine ⟨.record rfl (by decide) fun f hf => ?_, nofun⟩
  exact hf.required (.int32 _) fun hf => hf.optional (Boundary.option_finds hfirst) fun hf =>
    hf.optional (Boundary.option_finds hlast) fun _ => by rfl

theorem CallGroup.list_finds {gs : List CallGroup}
    (h : ∀ n ∈ gs.flatMap fun g => g.calls.map (·.expr), node.Finds d n.toJson n) :
    (Decoder.list (CallGroup.decodeWith node)).Finds d (.array (CallGroup.listToJson gs)) gs := by
  rw [CallGroup.listToJson_eq]
  refine .list fun g hg => ?_
  have hcalls : ∀ n ∈ g.calls.map (·.expr), node.Finds d n.toJson n := fun n hn =>
    h n (List.mem_flatMap.2 ⟨g, hg, hn⟩)
  obtain ⟨partition, order, calls⟩ := g
  exact .record rfl (by decide) fun f hf =>
    hf.optional (.option fun cs _ => ⟨decodePartition_finds hd cs, nofun⟩) fun hf =>
      hf.optional (.option fun is _ => ⟨decodeOrdering_finds hd is, nofun⟩) fun hf =>
        hf.required (ComputedColumn.list_finds hd hcalls) fun _ => by rfl

theorem SetBranch.list_finds {bs : List SetBranch}
    (h : ∀ n ∈ bs.map (·.scan), node.Finds d n.toJson n) :
    (Decoder.list (SetBranch.decodeWith node)).Finds d (.array (SetBranch.listToJson bs)) bs := by
  rw [SetBranch.listToJson_eq]
  refine .list fun b hb => ?_
  have hscan := h b.scan (List.mem_map_of_mem hb)
  obtain ⟨scan, columns⟩ := b
  exact .record rfl (by decide) fun f hf => hf.required hscan fun hf =>
    hf.optional (Column.list_finds hd columns) fun _ => by rfl

omit hd in
theorem NamedQuery.list_finds {qs : List NamedQuery}
    (h : ∀ n ∈ qs.map (·.query), node.Finds d n.toJson n) :
    (Decoder.list (NamedQuery.decodeWith node)).Finds d (.array (NamedQuery.listToJson qs)) qs := by
  rw [NamedQuery.listToJson_eq]
  refine .list fun q hq => ?_
  have hquery := h q.query (List.mem_map_of_mem hq)
  obtain ⟨name, query⟩ := q
  exact .record rfl (by decide) fun f hf => hf.required (.string _) fun hf =>
    hf.required hquery fun _ => by rfl

omit hd in
theorem decodeValueWith_finds {n : Node} (h : node.Finds d n.toJson n) :
    (decodeValueWith node).Finds d (wrapValue n.toJson) n :=
  .record rfl (by decide) fun _ hf => hf.required_eq h

omit hd in
theorem Node.rows_finds {rows : List (List Node)}
    (h : ∀ n ∈ rows.flatten, node.Finds d n.toJson n) :
    (Decoder.list (decodeRowWith node)).Finds d (.array (Node.rowsToJson rows)) rows := by
  rw [Node.rowsToJson_eq]
  refine .list fun row hrow => .record rfl (by decide) fun _ hf => hf.required_eq ?_
  rw [Node.valuesToJson_eq]
  exact .list fun n hn => decodeValueWith_finds (h n (List.mem_flatten.2 ⟨row, hrow, hn⟩))

theorem Assignment.list_finds {as : List Assignment}
    (h : ∀ n ∈ as.map (·.value), node.Finds d n.toJson n) :
    (Decoder.list (Assignment.decodeWith node)).Finds d (.array (Assignment.listToJson as)) as := by
  rw [Assignment.listToJson_eq]
  refine .list fun a ha => ?_
  have hvalue := h a.value (List.mem_map_of_mem ha)
  obtain ⟨target, value⟩ := a
  exact .record rfl (by decide) fun f hf => hf.required (target.decodeRef_finds hd) fun hf =>
    hf.required (decodeValueWith_finds hvalue) fun _ => by rfl

end Decoding

theorem Node.decodeWithin_record {d : Nat} {kind : String} {content : Json} {n : Node}
    (hkind : kind ≠ "dml_default" ∧ kind ≠ "single_row_scan")
    (h : (Node.decodeRecord (Node.decodeWithin d) kind).Finds d content n) :
    (Node.decodeWithin (d + 1)).Finds (d + 1) (.tagged "kind" kind "node" content) n := by
  refine .tagged (by decide) fun p k hp hfits hk => ?_
  dsimp only
  split
  · exact absurd rfl hkind.1
  · exact absurd rfl hkind.2
  · exact h p k hp hfits hk

theorem UnsupportedKind.getElem?_all (k : UnsupportedKind) : all[k.ctorIdx]? = some k := by
  cases k <;> rfl

theorem UnsupportedKind.ofName?_name (k : UnsupportedKind) : ofName? k.name = some k := by
  have hall : ∀ k ∈ all, ofName? k.name = some k := by decide +kernel
  exact hall k (List.mem_of_getElem? (getElem?_all k))

theorem Node.decodeWithin_succ {d : Nat} (hd : d ≤ Place.depthLimit + 1) {n : Node}
    (hexact : n.isExactLiteral = true)
    (h : ∀ c ∈ n.children, (Node.decodeWithin d).Finds d c.toJson c) :
    (Node.decodeWithin (d + 1)).Finds (d + 1) n.toJson n := by
  cases n with
  | literal value type =>
    exact decodeWithin_record (by decide) <| .record rfl (by decide) fun f hf =>
      hf.required (Value.decode_finds hd hexact) fun hf =>
        hf.required (type.decode_finds hd) fun _ => by rfl
  | parameter name position type =>
    exact decodeWithin_record (by decide) <| .record rfl (by decide) fun f hf =>
      hf.optional (.string _) fun hf =>
        hf.optional (.option fun n _ => ⟨.uint32 n, nofun⟩) fun hf =>
          hf.required (type.decode_finds hd) fun _ => by rfl
  | columnRef column =>
    exact decodeWithin_record (by decide) ((column.decodeRef_finds hd).map Node.columnRef)
  | argumentRef name type =>
    exact decodeWithin_record (by decide) <| .record rfl (by decide) fun f hf =>
      hf.required (.string _) fun hf => hf.required (type.decode_finds hd) fun _ => by rfl
  | call function arguments type =>
    exact decodeWithin_record (by decide) <| .record rfl (by decide) fun f hf =>
      hf.required (decodeFunction_finds _) fun hf => hf.optional (Node.list_finds h) fun hf =>
        hf.required (type.decode_finds hd) fun _ => by rfl
  | aggregateCall function arguments type distinct orderBy limit =>
    obtain ⟨harguments, hlimit⟩ := List.forall_mem_append.1 h
    exact decodeWithin_record (by decide) <| .record rfl (by decide) fun f hf =>
      hf.required (decodeFunction_finds _) fun hf =>
        hf.optional (Node.list_finds harguments) fun hf =>
          hf.required (type.decode_finds hd) fun hf => hf.optional (.bool _) fun hf =>
            hf.optional (OrderItem.list_finds hd _) fun hf =>
              hf.optional (Node.option_finds hlimit) fun _ => by rfl
  | analyticCall function arguments type distinct frame =>
    obtain ⟨harguments, hframe⟩ := List.forall_mem_append.1 h
    exact decodeWithin_record (by decide) <| .record rfl (by decide) fun f hf =>
      hf.required (decodeFunction_finds _) fun hf =>
        hf.optional (Node.list_finds harguments) fun hf =>
          hf.required (type.decode_finds hd) fun hf => hf.optional (.bool _) fun hf =>
            hf.optional (Frame.option_finds hframe) fun _ => by rfl
  | structField operand index type =>
    exact decodeWithin_record (by decide) <| .record rfl (by decide) fun f hf =>
      hf.required (h operand (by simp [Node.children])) fun hf => hf.required (.uint64 _) fun hf =>
        hf.required (type.decode_finds hd) fun _ => by rfl
  | subquery kind query type =>
    exact decodeWithin_record (by decide) <| .record rfl (by decide) fun f hf =>
      hf.optional (.alternative kind.ofName?_name) fun hf =>
        hf.required (h query (by simp [Node.children])) fun hf =>
          hf.required (type.decode_finds hd) fun _ => by rfl
  | columnDefault => exact .tagOnly rfl
  | singleRow => exact .tagOnly rfl
  | tableScan table columns =>
    exact decodeWithin_record (by decide) <| .record rfl (by decide) fun f hf =>
      hf.required (.string _) fun hf => hf.optional (Column.list_finds hd _) fun _ => by rfl
  | arrayScan input array element =>
    obtain ⟨hinput, harray⟩ := List.forall_mem_append.1 h
    exact decodeWithin_record (by decide) <| .record rfl (by decide) fun f hf =>
      hf.optional (Node.option_finds hinput) fun hf =>
        hf.required (harray array (by simp)) fun hf =>
          hf.required (element.decode_finds hd) fun _ => by rfl
  | filterScan input condition =>
    exact decodeWithin_record (by decide) <| .record rfl (by decide) fun f hf =>
      hf.required (h input (by simp [Node.children])) fun hf =>
        hf.required (h condition (by simp [Node.children])) fun _ => by rfl
  | projectScan columns computed input =>
    obtain ⟨hcomputed, hinput⟩ := List.forall_mem_append.1 h
    exact decodeWithin_record (by decide) <| .record rfl (by decide) fun f hf =>
      hf.required (Column.list_finds hd _) fun hf =>
        hf.optional (ComputedColumn.list_finds hd hcomputed) fun hf =>
          hf.required (hinput input (by simp)) fun _ => by rfl
  | aggregateScan columns input keys aggregates =>
    obtain ⟨hcomputed, hinput⟩ := List.forall_mem_append.1 h
    obtain ⟨haggregates, hkeys⟩ := List.forall_mem_append.1 hcomputed
    exact decodeWithin_record (by decide) <| .record rfl (by decide) fun f hf =>
      hf.optional (Column.list_finds hd _) fun hf => hf.required (hinput input (by simp)) fun hf =>
        hf.optional (ComputedColumn.list_finds hd hkeys) fun hf =>
          hf.optional (ComputedColumn.list_finds hd haggregates) fun _ => by rfl
  | setOperation code branches =>
    exact decodeWithin_record (by decide) <| .record rfl (by decide) fun f hf =>
      hf.required (.int32 _) fun hf => hf.required (SetBranch.list_finds hd h) fun _ => by rfl
  | orderByScan input items =>
    exact decodeWithin_record (by decide) <| .record rfl (by decide) fun f hf =>
      hf.required (h input (by simp [Node.children])) fun hf =>
        hf.required (OrderItem.list_finds hd _) fun _ => by rfl
  | limitScan input limit offset =>
    rw [Node.children, List.forall_mem_cons, List.forall_mem_cons] at h
    exact decodeWithin_record (by decide) <| .record rfl (by decide) fun f hf =>
      hf.required h.1 fun hf => hf.required h.2.1 fun hf =>
        hf.optional (Node.option_finds h.2.2) fun _ => by rfl
  | withScan entries query recursive =>
    obtain ⟨hentries, hquery⟩ := List.forall_mem_append.1 h
    exact decodeWithin_record (by decide) <| .record rfl (by decide) fun f hf =>
      hf.required (NamedQuery.list_finds hentries) fun hf =>
        hf.required (hquery query (by simp)) fun hf => hf.optional (.bool _) fun _ => by rfl
  | withRef name =>
    exact decodeWithin_record (by decide) <| .record rfl (by decide) fun f hf =>
      hf.required (.string _) fun _ => by rfl
  | analyticScan columns input groups =>
    rw [Node.children, List.forall_mem_cons] at h
    exact decodeWithin_record (by decide) <| .record rfl (by decide) fun f hf =>
      hf.optional (Column.list_finds hd _) fun hf => hf.required h.1 fun hf =>
        hf.required (CallGroup.list_finds hd h.2) fun _ => by rfl
  | queryStmt columns query =>
    exact decodeWithin_record (by decide) <| .record rfl (by decide) fun f hf =>
      hf.optional (Column.list_finds hd _) fun hf =>
        hf.required (h query (by simp [Node.children])) fun _ => by rfl
  | insertStmt table columns rows query =>
    obtain ⟨hrows, hquery⟩ := List.forall_mem_append.1 h
    exact decodeWithin_record (by decide) <| .record rfl (by decide) fun f hf =>
      hf.required (.string _) fun hf => hf.required (Column.list_finds hd _) fun hf =>
        hf.optional (Node.rows_finds hrows) fun hf =>
          hf.optional (Node.option_finds hquery) fun _ => by rfl
  | deleteStmt table condition =>
    exact decodeWithin_record (by decide) <| .record rfl (by decide) fun f hf =>
      hf.required (.string _) fun hf => hf.optional (Node.option_finds h) fun _ => by rfl
  | updateStmt table assignments condition =>
    obtain ⟨hassignments, hcondition⟩ := List.forall_mem_append.1 h
    exact decodeWithin_record (by decide) <| .record rfl (by decide) fun f hf =>
      hf.required (.string _) fun hf =>
        hf.required (Assignment.list_finds hd hassignments) fun hf =>
          hf.optional (Node.option_finds hcondition) fun _ => by rfl
  | unsupported kind =>
    exact decodeWithin_record (by decide)
      ((Finds.alternative kind.ofName?_name).map Node.unsupported)

theorem Node.decodeWithin_finds {n : Node}
    (hexact : n.Everywhere fun m => m.isExactLiteral = true) {d : Nat}
    (hd : d ≤ Place.depthLimit + 1) : (Node.decodeWithin d).Finds d n.toJson n := by
  induction n using Node.induction generalizing d with
  | step n ih =>
    cases d with
    | zero => exact fun p k hp => absurd hp (by omega)
    | succ d =>
      exact decodeWithin_succ (by omega) hexact.here fun c hc =>
        ih c hc (hexact.children c hc) (by omega)

@[simp]
theorem Column.toJson_isExact (c : Column) : c.toJson.isExact = true := by
  simp [Column.toJson, SqlType.toJson_isExact]

@[simp]
theorem Column.refToJson_isExact (c : Column) : c.refToJson.isExact = true := by
  simp [Column.refToJson]

@[simp]
theorem OrderItem.toJson_isExact (i : OrderItem) : i.toJson.isExact = true := by
  simp [OrderItem.toJson]

@[simp]
theorem ComputedColumn.toJson_isExact_iff (c : ComputedColumn) :
    c.toJson.isExact = true ↔ c.expr.toJson.isExact = true := by
  obtain ⟨column, expr⟩ := c
  simp [ComputedColumn.toJson]

@[simp]
theorem Boundary.toJson_isExact_iff (b : Boundary) :
    b.toJson.isExact = true ↔ ∀ n ∈ b.offset, n.toJson.isExact = true := by
  obtain ⟨code, offset⟩ := b
  simp [Boundary.toJson]

@[simp]
theorem Frame.toJson_isExact_iff (f : Frame) :
    f.toJson.isExact = true ↔ ∀ n ∈ f.offsets, n.toJson.isExact = true := by
  obtain ⟨unit, first, last⟩ := f
  cases first <;> cases last <;> simp [Frame.toJson, Frame.offsets, or_imp, forall_and]

@[simp]
theorem CallGroup.toJson_isExact_iff (g : CallGroup) :
    g.toJson.isExact = true ↔ ∀ n ∈ g.calls.map (·.expr), n.toJson.isExact = true := by
  obtain ⟨partition, order, calls⟩ := g
  simp [CallGroup.toJson, partitionToJson, orderingToJson]

@[simp]
theorem SetBranch.toJson_isExact_iff (b : SetBranch) :
    b.toJson.isExact = true ↔ b.scan.toJson.isExact = true := by
  obtain ⟨scan, columns⟩ := b
  simp [SetBranch.toJson]

@[simp]
theorem NamedQuery.toJson_isExact_iff (q : NamedQuery) :
    q.toJson.isExact = true ↔ q.query.toJson.isExact = true := by
  obtain ⟨name, query⟩ := q
  simp [NamedQuery.toJson]

@[simp]
theorem Assignment.toJson_isExact_iff (a : Assignment) :
    a.toJson.isExact = true ↔ a.value.toJson.isExact = true := by
  obtain ⟨target, value⟩ := a
  simp [Assignment.toJson, wrapValue]

theorem Node.toJson_isExact {n : Node}
    (hexact : n.Everywhere fun m => m.isExactLiteral = true) : n.toJson.isExact = true := by
  induction n using Node.induction with
  | step n ih =>
    have hbelow : ∀ c ∈ n.children, c.toJson.isExact = true := fun c hc =>
      ih c hc (hexact.children c hc)
    cases n with
    | literal value type =>
      simpa [Node.toJson, nodeToJson, SqlType.toJson_isExact] using
        Value.toJson_isExact value hexact.here
    | _ =>
      -- the rest of a node is names, flags, codes and types
      simp_all [Node.children, Node.toJson, nodeToJson, functionToJson, wrapValue, wrapRow,
        SqlType.toJson_isExact] <;> grind

namespace Statement

theorem toJson_isExact {s : Statement}
    (hexact : s.root.Everywhere fun n => n.isExactLiteral = true) : s.toJson.isExact = true := by
  simp [Statement.toJson, Node.toJson_isExact hexact]

theorem decode_finds {s : Statement}
    (hexact : s.root.Everywhere fun n => n.isExactLiteral = true) :
    decode.Finds (Place.depthLimit + 1) s.toJson s :=
  .record rfl (by decide) fun f hf => hf.optional (.list fun s _ => .string s) fun hf =>
    hf.optional (.list fun path _ => .list fun s _ => .string s) fun hf =>
      hf.required (Node.decodeWithin_finds hexact (Nat.le_refl _)) fun _ => by rfl

/-- Reading the text of a statement gives the statement, and so does reading the text of its tree
with the members of objects in another order. -/
theorem ofText_of_rearranged (s : Statement)
    (hexact : s.root.Everywhere fun n => n.isExactLiteral = true)
    (hdepth : s.toJson.depth ≤ Place.depthLimit) :
    ofText s.toJson.text = .ok s ∧ ∀ j, Rearranged s.toJson j → ofText j.text = .ok s := by
  have hjson := toJson_isExact hexact
  have hread (j : Json) (h : Rearranged s.toJson j) : ofText j.text = .ok s := by
    have hdecode : decode Place.top j = some s :=
      decode_finds hexact Place.top j (Nat.lt_succ_self _) (fits_of_depth_le hjson hdepth) h
    rw [ofText, ofText?_text (h.isExact hjson), Option.bind_some, Decoder.ofTree, hdecode]
  exact ⟨hread _ (.refl _), hread⟩

def structLiteral : Node :=
  .literal (.struct [⟨"", .json ⟨.object [("a", .null), ("b", .int (-1))], by decide⟩⟩,
      ⟨"n", .null⟩])
    (.struct [⟨"", .scalar .json⟩, ⟨"n", .array (.scalar .int64)⟩])

def filterOnStruct : Statement where
  declaredPath := ["p"]
  namePaths := [["t"]]
  root := .filterScan (.tableScan "t" []) structLiteral

/-- The tree of the filter, its content before its tag and its condition before its input. -/
def turnedFilter : Json :=
  .object [("node", .object [("filter_expr", structLiteral.toJson),
    ("input_scan", (Node.tableScan "t" []).toJson)]), ("kind", .string "filter_scan")]

theorem filterOnStruct_ofText_of_rearranged :
    filterOnStruct.toJson.depth = 10 ∧ ofText filterOnStruct.toJson.text = .ok filterOnStruct ∧
      ofText (Json.object [("statement", turnedFilter),
        ("name_paths", .list (.list .string) [["t"]]),
        ("declared_path", .list .string ["p"])]).text = .ok filterOnStruct := by
  have hdepth : filterOnStruct.toJson.depth = 10 := by decide +kernel
  have hfilter : Rearranged filterOnStruct.root.toJson turnedFilter :=
    .object (.cons (.intro _ (.refl _)) (.cons (.intro _ (.of_perm (.swap ..))) .nil)) (.swap ..)
  have h := ofText_of_rearranged filterOnStruct (by decide +kernel) (by rw [hdepth]; decide)
  refine ⟨hdepth, h.1, h.2 _ (.object ?_ (List.reverse_perm _))⟩
  exact .cons (.intro _ (.refl _)) (.cons (.intro _ (.refl _)) (.cons (.intro _ hfilter) .nil))

end Statement
end ResolvedSql
