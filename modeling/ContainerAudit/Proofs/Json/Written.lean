import ContainerAudit.Document.Codec
import ContainerAudit.Proofs.Json.Record
import ContainerAudit.Proofs.Json.Value

/-!
# Reading what was written

A codec reads back what it writes if the tree of every written value is read as what it was written
for.  Plain values do, and options, lists and maps inherit it from their parts.  A record inherits
it from its fields, provided that their names are distinct.

## Key results

- `Codec.ReadsBack`: what a codec writes is read as what it was written for
- `Record.decode_of_fills`: members that fill the fields of a record are read as that record
-/

namespace ContainerAudit.Json

variable {α β : Type}

/-- What a codec writes is read as what it was written for. -/
def Codec.ReadsBack (c : Codec α) : Prop := ∀ x, c.decode (c.encode x).toTree = .ok x

namespace Codec

/-! ## Plain values -/

theorem readsBack_text : text.ReadsBack := fun _ => rfl

theorem readsBack_boolean : boolean.ReadsBack := fun _ => rfl

/-- An integer is read back in any range within those of the machine words. -/
private theorem decodeInteger_toTree (expected : String) (low high value : Int) (hlow : low ≤ value)
    (hhigh : value ≤ high) (hmin : -0x8000000000000000 ≤ low) (hmax : high ≤ 0xFFFFFFFFFFFFFFFF) :
    decodeInteger expected low high (Value.integer value).toTree = .ok value := by
  have hvalue : (Numeral.ofInt value).value = .integer value :=
    Numeral.value_ofInt (hmin.trans hlow) (hhigh.trans hmax)
  simp only [Value.toTree, decodeInteger, hvalue]
  exact if_pos ⟨hlow, hhigh⟩

/-- An unsigned integer of 32 bits is within its range. -/
theorem readsBack_uint32 : uint32.ReadsBack := by
  intro n
  have hlt : n.toNat < 2 ^ 32 := n.toNat_lt
  have hread := decodeInteger_toTree "u32" 0 0xFFFFFFFF n.toNat (by omega) (by omega) (by decide)
    (by decide)
  simp [uint32, decodeUInt32, hread, Except.map]

/-- So is one of 64 bits. -/
theorem readsBack_uint64 : uint64.ReadsBack := by
  intro n
  have hlt : n.toNat < 2 ^ 64 := n.toNat_lt
  have hread := decodeInteger_toTree "u64" 0 0xFFFFFFFFFFFFFFFF n.toNat (by omega) (by omega)
    (by decide) (by decide)
  simp [uint64, decodeUInt64, hread, Except.map]

/-- A signed integer of 32 bits is within its range. -/
theorem readsBack_int32 : int32.ReadsBack := by
  intro n
  have hlow : -2 ^ 31 ≤ n.toInt := n.le_toInt
  have hhigh : n.toInt < 2 ^ 31 := n.toInt_lt
  have hread := decodeInteger_toTree "i32" (-0x80000000) 0x7FFFFFFF n.toInt (by omega) (by omega)
    (by decide) (by decide)
  simp [int32, decodeInt32, hread, Except.map]

/-- So is one of 64 bits. -/
theorem readsBack_int64 : int64.ReadsBack := by
  intro n
  have hlow : -2 ^ 63 ≤ n.toInt := n.le_toInt
  have hhigh : n.toInt < 2 ^ 63 := n.toInt_lt
  have hread := decodeInteger_toTree "i64" (-0x8000000000000000) 0x7FFFFFFFFFFFFFFF n.toInt
    (by omega) (by omega) (by decide) (by decide)
  simp [int64, decodeInt64, hread, Except.map]

/-! ## Options, lists and maps -/

variable {c : Codec α}

/-- A value that may be absent, where no present one is written as `null`. -/
theorem ReadsBack.option (h : c.ReadsBack) (hnull : ∀ x, c.encode x ≠ .null) :
    c.option.ReadsBack := by
  rintro (- | x)
  · rfl
  · have hread := h x
    show decodeOption c.decode (c.encode x).toTree = _
    -- A present value that is written as `null` would be read as an absent one.
    cases hwritten : c.encode x with
    | null => exact absurd hwritten (hnull x)
    | _ =>
      rw [hwritten] at hread
      exact congrArg (Except.map some) hread

/-- A list is read item by item. -/
theorem ReadsBack.list (h : c.ReadsBack) : c.list.ReadsBack := by
  intro xs
  show decodeList c.decode (Value.array (xs.map c.encode)).toTree = _
  rw [Value.toTree, decodeList_array_eq_ok_iff, itemTrees_eq_map, List.map_map,
    List.forall₂_map_left_iff, List.forall₂_same]
  exact ⟨fun x _ => h x, rfl⟩

/-- A map is read member by member. -/
theorem ReadsBack.members (h : c.ReadsBack) : c.members.ReadsBack := by
  intro ms
  show decodeMembers c.decode (Value.object (ms.map fun m => (m.1, c.encode m.2))).toTree = _
  rw [Value.toTree, decodeMembers_object_eq_ok_iff, memberTrees_eq_map, List.map_map,
    List.forall₂_map_left_iff, List.forall₂_same]
  exact ⟨fun m _ => ⟨rfl, h m.2⟩, rfl⟩

end Codec

/-! ## Records -/

namespace Record

/-- The members hold a value for each of the fields, in their order, and these values make one
    record of another. -/
inductive Fills : List (RecordField α) → List (Option String × Tree) → α → α → Prop where
  | nil (x : α) : Fills [] [] x x
  | cons {field : RecordField α} {fields : List (RecordField α)} {value : Tree}
    {members : List (Option String × Tree)} {set : α → α} {x y : α}
    (hread : field.read value = .ok set) (h : Fills fields members (set x) y) :
    Fills (field :: fields) ((some field.name, value) :: members) x y

/-- A value for an optional field. -/
theorem Fills.optional {name : String} {codec : Codec β} {get : α → β} {set : β → α → α}
    {value : Tree} {v : β} {fields : List (RecordField α)} {members : List (Option String × Tree)}
    {x y : α} (hread : codec.decode value = .ok v) (h : Fills fields members (set v x) y) :
    Fills (.optional name codec get set :: fields) ((some name, value) :: members) x y :=
  .cons (congrArg (Except.map set) hread) h

/-- A value for a mandatory field. -/
theorem Fills.mandatory {name : String} {codec : Codec β} {get : α → β} {set : β → α → α}
    {value : Tree} {v : β} {fields : List (RecordField α)} {members : List (Option String × Tree)}
    {x y : α} (hread : codec.decode value = .ok v) (h : Fills fields members (set v x) y) :
    Fills (.mandatory name codec get set :: fields) ((some name, value) :: members) x y :=
  .cons (congrArg (Except.map set) hread) h

variable {r : Record α}

/-- Members that fill fields of different names are a run over these fields. -/
private theorem run_of_fills {fields : List (RecordField α)} {members : List (Option String × Tree)}
    {x y : α} (h : Fills fields members x y) (hfields : ∀ f ∈ fields, f ∈ r.fields)
    (hnodup : (fields.map (·.name)).Nodup) {seen : List String}
    (hseen : ∀ f ∈ fields, f.name ∉ seen) :
    r.Run members (seen, x) ((fields.map (·.name)).reverse ++ seen, y) := by
  induction h generalizing seen with
  | nil x => exact .nil _
  | @cons field fields value members set x y hread _ ih =>
    obtain ⟨hfield, hfields⟩ := List.forall_mem_cons.mp hfields
    obtain ⟨hfirst, hseen⟩ := List.forall_mem_cons.mp hseen
    obtain ⟨hnew, hnodup⟩ := List.nodup_cons.mp hnodup
    -- The names of the other fields are still to be seen.
    have hrest : ∀ f ∈ fields, f.name ∉ field.name :: seen := by
      intro f hf hmem
      rcases List.mem_cons.mp hmem with heq | hmem
      · exact hnew (List.mem_map.mpr ⟨f, hf, heq⟩)
      · exact hseen f hf hmem
    simpa using Run.cons (.set hfield hfirst hread) (ih hfields hnodup hrest)

/-- Members that fill the fields of a record are read as that record. -/
theorem decode_of_fills (hnodup : (r.fields.map (·.name)).Nodup)
    {members : List (Option String × Tree)} {y : α} (h : Fills r.fields members r.start y) :
    r.decode (.object members none) = .ok y := by
  rw [decode_object_eq_ok_iff hnodup]
  refine ⟨rfl, _, run_of_fills h (fun f hf => hf) hnodup (by simp), fun f hf _ => ?_⟩
  simpa using ⟨f, hf, rfl⟩

end Record

end ContainerAudit.Json
